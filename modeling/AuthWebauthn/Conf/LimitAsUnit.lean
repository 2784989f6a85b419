import AuthWebauthn.Conf.Directives
import AuthWebauthn.Conf.Paths

namespace AuthWebauthn

open Commuting Inheritance Slots

/-! The two settings of a rate limit are inherited one by one, so a block may end up with its
own maximum and the window of another block.
-/

/-- The rate limits among the directives of a block. -/
def rateLimitDirectives (directives : List Directive) : List RateLimitDirective :=
  (directives.filter (·.name = .challengeRateLimit)).map fun directive =>
    ⟨directive.args.headD [], directive.args.tail.head?⟩

theorem confSetRateLimit_alike {core : ConfCore} {directive : RateLimitDirective} {conf other after : RawConf}
    (max : conf.rateLimitMax = other.rateLimitMax) (window : conf.rateLimitWindow = other.rateLimitWindow)
    (set : confSetRateLimit core directive conf = .ok after) :
    ∃ next, confSetRateLimit core directive other = .ok next ∧
      after.rateLimitMax = next.rateLimitMax ∧ after.rateLimitWindow = next.rateLimitWindow := by
  rw [confSetRateLimit_frame, max, window] at set
  rw [confSetRateLimit_frame core directive other]
  cases result : confSetRateLimit core directive
      { createLocConf with rateLimitMax := other.rateLimitMax, rateLimitWindow := other.rateLimitWindow } with
  | error message =>
      rw [result] at set
      cases set
  | ok read =>
      rw [result] at set
      cases set
      exact ⟨_, rfl, rfl, rfl⟩

theorem slot_eq_rateLimit {name : DirectiveName} : name.slot = .rateLimit ↔ name = .challengeRateLimit := by
  cases name <;> decide

/-- A rate limit is set by its handler, every other directive leaves the limit. -/
theorem confHandler_rateLimit {core : SlotCore} {env : ConfEnv} {level : Level} {directive : Directive}
    {block next : BlockConf} (stepped : (confHandler core env level directive block).toOption = some next) :
    if directive.name = .challengeRateLimit then
      confSetRateLimit core.toConfCore ⟨directive.args.headD [], directive.args.tail.head?⟩ block.conf = .ok next.conf
    else next.conf.rateLimitMax = block.conf.rateLimitMax ∧
      next.conf.rateLimitWindow = block.conf.rateLimitWindow := by
  split_ifs with limits
  · unfold confHandler at stepped
    split_ifs at stepped
    · simp only [confSet, limits] at stepped
      cases result : confSetRateLimit core.toConfCore ⟨directive.args.headD [], directive.args.tail.head?⟩ block.conf with
      | error message =>
          rw [result] at stepped
          cases stepped
      | ok conf =>
          rw [result] at stepped
          cases stepped
          rfl
    · cases stepped
    · cases stepped
  · have other : Slot.rateLimit ≠ directive.name.slot := fun same => limits (slot_eq_rateLimit.mp same.symm)
    have kept := (confHandler_acts core env level directive).keeps other stepped
    exact Prod.mk.inj kept

theorem runAll_rateLimit {core : SlotCore} {env : ConfEnv} {level : Level} {directives : List Directive}
    {block out : BlockConf} {start : RawConf} (max : block.conf.rateLimitMax = start.rateLimitMax)
    (window : block.conf.rateLimitWindow = start.rateLimitWindow)
    (read : runAll (fun directive block => (confHandler core env level directive block).toOption) directives block =
      some out) :
    ∃ last, readRateLimits core.toConfCore (rateLimitDirectives directives) start = .ok last ∧
      out.conf.rateLimitMax = last.rateLimitMax ∧ out.conf.rateLimitWindow = last.rateLimitWindow := by
  induction directives generalizing block start with
  | nil =>
      cases read
      exact ⟨start, rfl, max, window⟩
  | cons directive rest ih =>
      obtain ⟨next, stepped, continued⟩ := Option.bind_eq_some_iff.mp read
      have limit := confHandler_rateLimit stepped
      by_cases limits : directive.name = .challengeRateLimit
      · rw [if_pos limits] at limit
        obtain ⟨after, set, max, window⟩ := confSetRateLimit_alike max window limit
        obtain ⟨last, succeeded, same⟩ := ih max window continued
        refine ⟨last, ?_, same⟩
        rw [rateLimitDirectives, List.filter_cons_of_pos (by simpa using limits), List.map_cons, readRateLimits,
          List.foldlM_cons, set]
        exact succeeded
      · rw [if_neg limits] at limit
        obtain ⟨last, succeeded, same⟩ := ih (limit.1.trans max) (limit.2.trans window) continued
        refine ⟨last, ?_, same⟩
        rw [rateLimitDirectives, List.filter_cons_of_neg (by simpa using limits)]
        exact succeeded

/-- A block that loads holds what its rate limits leave. -/
theorem confBlock_placed {core : SlotCore} {env : ConfEnv} {level : Level} {directives : List Directive}
    {block : BlockConf} (read : confBlock core env level directives = some block) :
    Placed core.toConfCore block.conf (rateLimitDirectives directives) :=
  runAll_rateLimit rfl rfl read

theorem plain_rateLimitMax : PlainField RawConf.rateLimitMax LocConf.rateLimitMax 0 :=
  ⟨fun _ _ => rfl, fun _ => rfl, fun _ _ _ => rfl⟩

theorem plain_rateLimitWindow : PlainField RawConf.rateLimitWindow LocConf.rateLimitWindow 60 :=
  ⟨fun _ _ => rfl, fun _ => rfl, fun _ _ _ => rfl⟩

/-- A block of the tree with the directives that it was read from. -/
structure WrittenBlock (core : SlotCore) (env : ConfEnv) where
  block : Block
  directives : List Directive
  read : ∃ level handler, confBlock core env level directives = some ⟨block.conf, handler⟩

section Path

variable {core : SlotCore} {env : ConfEnv}

/-- The rate limits of the block, in the order in which they are written. -/
def WrittenBlock.limits (written : WrittenBlock core env) : List RateLimitDirective :=
  rateLimitDirectives written.directives

theorem WrittenBlock.placed (written : WrittenBlock core env) :
    Placed core.toConfCore written.block.conf written.limits := by
  obtain ⟨level, handler, loaded⟩ := written.read
  exact confBlock_placed loaded

/-- The last directive of the nearest block that has one. -/
def directiveAt (path : List (WrittenBlock core env)) : Option RateLimitDirective :=
  path.reverse.findSome? fun written => written.limits.getLast?

/-- The window of the nearest block that states one: the last window stated in it, or else 60 seconds. -/
def windowAt (path : List (WrittenBlock core env)) : Int64 :=
  nearest (fun written => lastOf (RateLimitDirective.statedWindow core.toConfCore) written.limits) 60 path

/-- The effective pair is the one that the directive in force stands for; without any
directive there is no limit. -/
def LimitAsUnit (path : List (WrittenBlock core env)) (conf : LocConf) : Prop :=
  match directiveAt path with
  | none => conf.rateLimitMax = 0
  | some directive => directive.denotes core.toConfCore = some (conf.rateLimitMax, conf.rateLimitWindow)

/-- The directive in force states its window, or the window that is stated last is 60 seconds. -/
def WindowStated (path : List (WrittenBlock core env)) : Prop :=
  ∀ directive, directiveAt path = some directive → directive.window = none → windowAt path = 60

variable {path : List (WrittenBlock core env)}

/-- Without a directive on the path there is no limit. -/
theorem nearest_max_none (missing : directiveAt path = none) :
    nearest (fun written => written.block.conf.rateLimitMax) 0 path = 0 := by
  refine nearest_of_none fun written member => ?_
  have none := List.findSome?_eq_none_iff.mp missing written (List.mem_reverse.mpr member)
  have own := written.placed
  rw [List.getLast?_eq_none_iff.mp none] at own
  exact placed_nil own

/-- The directive in force gives the maximum, and the window if it states one. -/
theorem nearest_of_directive {directive : RateLimitDirective} (found : directiveAt path = some directive) :
    directive.denotes core.toConfCore = some (nearest (fun written => written.block.conf.rateLimitMax) 0 path,
        (directive.statedWindow core.toConfCore).getD 60) ∧
      (directive.statedWindow core.toConfCore = none → directive.window = none) ∧
      ∀ window, directive.statedWindow core.toConfCore = some window → windowAt path = window := by
  obtain ⟨front, written, back, split, own, before⟩ := List.findSome?_eq_some_iff.mp found
  have bare : ∀ inner ∈ front, inner.limits = [] :=
    fun inner member => List.getLast?_eq_none_iff.mp (before inner member)
  obtain ⟨omitted, max, ownMax, denotes⟩ := placed_last written.placed own
  refine ⟨?_, omitted, ?_⟩
  · rw [nearest_of_split split (fun inner member => ?_) ownMax, denotes]
    have innerPlaced := inner.placed
    rw [bare inner member] at innerPlaced
    exact placed_nil innerPlaced
  · intro window stated
    refine nearest_of_split split (fun inner member => ?_) ?_
    · rw [bare inner member]
      rfl
    · obtain ⟨earlier, listed⟩ := List.getLast?_eq_some_iff.mp own
      rw [listed, lastOf_append]
      change ((directive.statedWindow core.toConfCore).or none).or _ = some window
      rw [stated, Option.some_or, Option.some_or]

end Path

/-- The pair is overridden as a unit exactly if no other window can get into it. -/
theorem limit_as_unit_iff (core : SlotCore) (env : ConfEnv) (http : Block) (servers : List Tree)
    (merged : List (List Block × LocConf)) (succeeded : mergeServers env http servers = some merged)
    (path : List (WrittenBlock core env)) (conf : LocConf)
    (member : (path.map WrittenBlock.block, conf) ∈ merged) : LimitAsUnit path conf ↔ WindowStated path := by
  have max : conf.rateLimitMax = nearest (fun written => written.block.conf.rateLimitMax) 0 path := by
    rw [plain_rateLimitMax.effective_eq succeeded member, nearest_map]
  have window : conf.rateLimitWindow = windowAt path := by
    rw [plain_rateLimitWindow.effective_eq succeeded member, nearest_map]
    exact nearest_congr (fun written _ => placed_window written.placed) 60
  unfold LimitAsUnit WindowStated
  cases found : directiveAt path with
  | none => simp [max, nearest_max_none found]
  | some directive =>
      obtain ⟨denotes, omitted, stated⟩ := nearest_of_directive found
      simp only [denotes, ← max, Option.some.injEq, Prod.mk.injEq, true_and, forall_eq', window]
      cases own : directive.statedWindow core.toConfCore with
      | none => simp [omitted own, eq_comm]
      | some given =>
          have other : directive.window ≠ none := by
            intro missing
            rw [RateLimitDirective.statedWindow, missing] at own
            cases own
          simp [stated given own, other]

namespace Sample

/-- Times are `30s` or nothing. -/
def timeCore : SlotCore :=
  { slotCore with parseTime := fun text => if text = ascii "30s" then some 30 else none }

theorem created_unloaded : createLocConf.jwtSecret = none ∧ createLocConf.jwtPubPem = none := ⟨rfl, rfl⟩

/-- An http block without directives of the module. -/
def plainHttp : WrittenBlock timeCore noFiles :=
  ⟨⟨createLocConf, created_unloaded⟩, [], .main, none, rfl⟩

/-- A server with `10 30s`. -/
def limitedServer : WrittenBlock timeCore noFiles :=
  ⟨⟨{ createLocConf with rateLimitMax := some 10, rateLimitWindow := some 30 }, rfl, rfl⟩,
    [⟨.challengeRateLimit, [ascii "10", ascii "30s"]⟩], .server, none, by decide⟩

/-- The same server with an `off` before its `10 30s`. -/
def repeatedServer : WrittenBlock timeCore noFiles :=
  ⟨limitedServer.block, [⟨.challengeRateLimit, [ascii "off"]⟩, ⟨.challengeRateLimit, [ascii "10", ascii "30s"]⟩],
    .server, none, by decide⟩

/-- A location with `5`. -/
def limitedLocation : WrittenBlock timeCore noFiles :=
  ⟨⟨{ createLocConf with rateLimitMax := some 5 }, rfl, rfl⟩, [⟨.challengeRateLimit, [ascii "5"]⟩],
    .location, none, by decide⟩

def limitedServerConf : LocConf := mergeFields createLocConf limitedServer.block.conf

def limitedLocationConf : LocConf := mergeFields limitedServerConf.raw limitedLocation.block.conf

theorem merge_limited :
    mergeServers noFiles plainHttp.block [.node limitedServer.block [.node limitedLocation.block []]] =
      some [([plainHttp.block, limitedServer.block], limitedServerConf),
        ([plainHttp.block, limitedServer.block, limitedLocation.block], limitedLocationConf)] := by
  have outer : mergeLocConf noFiles plainHttp.block.conf limitedServer.block.conf = some limitedServerConf := by
    decide
  have inner : mergeLocConf noFiles limitedServerConf.raw limitedLocation.block.conf = some limitedLocationConf := by
    decide
  simp [mergeServers, mergeTrees, mergeTree, outer, inner]

end Sample

theorem stated_window_kept :
    LimitAsUnit [Sample.plainHttp, Sample.repeatedServer] Sample.limitedServerConf := by
  refine (limit_as_unit_iff Sample.timeCore Sample.noFiles Sample.plainHttp.block _ _ Sample.merge_limited
    [Sample.plainHttp, Sample.repeatedServer] _ ?_).mpr ?_
  · exact List.mem_cons_self
  · intro directive found omitted
    cases found
    cases omitted

/-- The location's `5` keeps the window of the server's `10 30s`. -/
theorem inherited_window_mixed :
    mergeServers Sample.noFiles Sample.plainHttp.block
        [.node Sample.limitedServer.block [.node Sample.limitedLocation.block []]] =
      some [([Sample.plainHttp.block, Sample.limitedServer.block], Sample.limitedServerConf),
        ([Sample.plainHttp.block, Sample.limitedServer.block, Sample.limitedLocation.block],
          Sample.limitedLocationConf)] ∧
      (Sample.limitedLocationConf.rateLimitMax, Sample.limitedLocationConf.rateLimitWindow) = (5, 30) ∧
      ¬ LimitAsUnit [Sample.plainHttp, Sample.limitedServer, Sample.limitedLocation] Sample.limitedLocationConf := by
  refine ⟨Sample.merge_limited, by decide, fun unit => ?_⟩
  have denoted : RateLimitDirective.denotes Sample.timeCore.toConfCore ⟨ascii "5", none⟩ =
      some (Sample.limitedLocationConf.rateLimitMax, Sample.limitedLocationConf.rateLimitWindow) := unit
  exact absurd denoted (by decide)

/-- Two directives of one block mix in the same way. -/
example : (confBlock Sample.timeCore Sample.noFiles .server [⟨.challengeRateLimit, [ascii "10", ascii "30s"]⟩,
    ⟨.challengeRateLimit, [ascii "5"]⟩]).map (fun block => (block.conf.rateLimitMax, block.conf.rateLimitWindow)) =
      some (some 5, some 30) := by
  decide

end AuthWebauthn
