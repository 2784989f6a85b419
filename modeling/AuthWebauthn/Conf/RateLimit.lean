import AuthWebauthn.Conf.Merge
import AuthWebauthn.Data.Slots
import Mathlib.Data.List.Induction

namespace AuthWebauthn

open Slots

/-! One directive sets two settings, a maximum and a window.  A block may repeat it, and a
directive without a window leaves the window of an earlier one.
-/

/-- `ngx_atoi` and `ngx_parse_time` of the nginx core, the latter in seconds. -/
structure ConfCore where
  atoi : Bytes → Option Int64
  parseTime : Bytes → Option Int64

/-- The directive as it is written in a block: `off`, `<max>` or `<max> <window>`. -/
structure RateLimitDirective where
  value : Bytes
  window : Option Bytes
deriving DecidableEq

/-- `ngx_strcmp` stops at a NUL. -/
def isOff (value : Bytes) : Bool := value.takeWhile (· ≠ 0) = ascii "off"

def confSetRateLimit (core : ConfCore) (directive : RateLimitDirective) (conf : RawConf) :
    Except Bytes RawConf :=
  if directive.window = none ∧ isOff directive.value = true then .ok { conf with rateLimitMax := some 0 }
  else
    match core.atoi directive.value with
    | none => .error (ascii "expects \"off\" or a positive <max> count")
    | some max =>
        if max ≤ 0 then .error (ascii "expects \"off\" or a positive <max> count")
        else
          match directive.window with
          | none => .ok { conf with rateLimitMax := some max.toUInt64 }
          | some text =>
              match core.parseTime text with
              | none => .error (ascii "has an invalid <window>")
              | some window =>
                  if window ≤ 0 then .error (ascii "has an invalid <window>")
                  else .ok { conf with rateLimitMax := some max.toUInt64, rateLimitWindow := some window }

/-- The pair that the directive stands for: without a window, the window is 60 seconds. -/
def RateLimitDirective.denotes (core : ConfCore) : RateLimitDirective → Option (UInt64 × Int64)
  | ⟨value, none⟩ =>
      if isOff value then some (0, 60)
      else ((core.atoi value).filter (0 < ·)).map fun max => (max.toUInt64, 60)
  | ⟨value, some text⟩ =>
      ((core.atoi value).filter (0 < ·)).bind fun max =>
        ((core.parseTime text).filter (0 < ·)).map fun window => (max.toUInt64, window)

/-- The window that the directive states. -/
def RateLimitDirective.statedWindow (core : ConfCore) (directive : RateLimitDirective) : Option Int64 :=
  directive.window.bind core.parseTime

/-- The directives of a block, in the order in which they are written. -/
def readRateLimits (core : ConfCore) (directives : List RateLimitDirective) (conf : RawConf) :
    Except Bytes RawConf :=
  directives.foldlM (fun conf directive => confSetRateLimit core directive conf) conf

/-- The limit of the block is what its directives leave. -/
def Placed (core : ConfCore) (conf : RawConf) (directives : List RateLimitDirective) : Prop :=
  ∃ read, readRateLimits core directives createLocConf = .ok read ∧
    conf.rateLimitMax = read.rateLimitMax ∧ conf.rateLimitWindow = read.rateLimitWindow

variable {core : ConfCore} {conf : RawConf}

/-- What a directive that is accepted leaves in the block: its maximum, and its window if it
states one. -/
theorem confSetRateLimit_ok {directive : RateLimitDirective} {before after : RawConf}
    (set : confSetRateLimit core directive before = .ok after) :
    after.rateLimitWindow = (directive.statedWindow core).or before.rateLimitWindow ∧
    (directive.statedWindow core = none → directive.window = none) ∧
    ∃ max, after.rateLimitMax = some max ∧
      directive.denotes core = some (max, (directive.statedWindow core).getD 60) := by
  obtain ⟨value, window⟩ := directive
  simp only [confSetRateLimit] at set
  split_ifs at set with off
  · obtain ⟨rfl, named⟩ := off
    cases set
    exact ⟨rfl, fun _ => rfl, 0, rfl, by simp [RateLimitDirective.denotes, named, RateLimitDirective.statedWindow]⟩
  · cases count : core.atoi value with
    | none => simp [count] at set
    | some max =>
        simp only [count] at set
        split_ifs at set with small
        have positive : 0 < max := Int64.not_le.mp small
        cases window with
        | none =>
            have named : isOff value = false := by simpa using off
            cases set
            exact ⟨rfl, fun _ => rfl, max.toUInt64, rfl, by
              simp [RateLimitDirective.denotes, RateLimitDirective.statedWindow, count, named, positive]⟩
        | some text =>
            cases time : core.parseTime text with
            | none => simp [time] at set
            | some window =>
                simp only [time] at set
                split_ifs at set with short
                have long : 0 < window := Int64.not_le.mp short
                cases set
                have stated : RateLimitDirective.statedWindow core ⟨value, some text⟩ = some window := time
                refine ⟨by rw [stated, Option.some_or], fun missing => ?_, max.toUInt64, rfl, ?_⟩
                · rw [stated] at missing
                  cases missing
                · simp only [RateLimitDirective.denotes, RateLimitDirective.statedWindow, count, time,
                    Option.filter_some, decide_eq_true positive, decide_eq_true long, if_true, Option.bind_some,
                    Option.map_some, Option.getD_some]

theorem readRateLimits_concat {directives : List RateLimitDirective} {directive : RateLimitDirective}
    {start read : RawConf} (succeeded : readRateLimits core (directives ++ [directive]) start = .ok read) :
    ∃ before, readRateLimits core directives start = .ok before ∧
      confSetRateLimit core directive before = .ok read := by
  have split : readRateLimits core (directives ++ [directive]) start =
      (readRateLimits core directives start).bind (confSetRateLimit core directive) := by
    simp only [readRateLimits, List.foldlM_append, List.foldlM_cons, List.foldlM_nil, bind_pure]
    rfl
  rw [split] at succeeded
  cases earlier : readRateLimits core directives start with
  | error message =>
      rw [earlier] at succeeded
      cases succeeded
  | ok before =>
      rw [earlier] at succeeded
      exact ⟨before, rfl, succeeded⟩

/-- A block without the directive has no limit of its own. -/
theorem placed_nil (placed : Placed core conf []) : conf.rateLimitMax = none := by
  obtain ⟨read, succeeded, max, window⟩ := placed
  cases succeeded
  exact max

/-- The last directive decides, except that an earlier one may have stated the window. -/
theorem placed_last {directives : List RateLimitDirective} {directive : RateLimitDirective}
    (placed : Placed core conf directives) (last : directives.getLast? = some directive) :
    (directive.statedWindow core = none → directive.window = none) ∧
    ∃ max, conf.rateLimitMax = some max ∧
      directive.denotes core = some (max, (directive.statedWindow core).getD 60) := by
  obtain ⟨read, succeeded, max, window⟩ := placed
  obtain ⟨earlier, rfl⟩ := List.getLast?_eq_some_iff.mp last
  obtain ⟨before, _, set⟩ := readRateLimits_concat succeeded
  rw [max]
  exact (confSetRateLimit_ok set).2

theorem lastOf_statedWindow {directives : List RateLimitDirective} {read : RawConf}
    (succeeded : readRateLimits core directives createLocConf = .ok read) :
    read.rateLimitWindow = lastOf (RateLimitDirective.statedWindow core) directives := by
  induction directives using List.reverseRecOn generalizing read with
  | nil =>
      cases succeeded
      rfl
  | append_singleton earlier directive ih =>
      obtain ⟨before, succeeded, set⟩ := readRateLimits_concat succeeded
      rw [(confSetRateLimit_ok set).1, ih succeeded, lastOf_append]
      congr 1
      exact Option.or_none.symm

/-- The window of the block is the last one stated in it. -/
theorem placed_window {directives : List RateLimitDirective} (placed : Placed core conf directives) :
    conf.rateLimitWindow = lastOf (RateLimitDirective.statedWindow core) directives := by
  obtain ⟨read, succeeded, max, window⟩ := placed
  rw [window, lastOf_statedWindow succeeded]

end AuthWebauthn
