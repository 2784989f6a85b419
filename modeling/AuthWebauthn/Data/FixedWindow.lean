import Mathlib.Data.List.Induction
import Mathlib.Data.List.Perm.Subperm
import Mathlib.Data.List.Range

namespace FixedWindow

/-! A counter with a deadline.  A hit that finds no live counter opens a window of
fixed width; the others of the window count up and leave the deadline alone.
-/

structure Counter where
  count : Nat
  deadline : Nat

/-- What there still is of a counter. -/
def live (now : Nat) (held : Option Counter) : Option Counter :=
  held.filter fun counter => now < counter.deadline

def hit (width now : Nat) (held : Option Counter) : Counter :=
  match live now held with
  | none => ⟨1, now + width⟩
  | some counter => ⟨counter.count + 1, counter.deadline⟩

theorem hit_of_none {width now : Nat} {held : Option Counter} (absent : live now held = none) :
    hit width now held = ⟨1, now + width⟩ := by
  rw [hit, absent]

theorem hit_of_some {width now : Nat} {held : Option Counter} {counter : Counter}
    (found : live now held = some counter) :
    hit width now held = ⟨counter.count + 1, counter.deadline⟩ := by
  rw [hit, found]

theorem live_some {now : Nat} {counter : Counter} (early : now < counter.deadline) :
    live now (some counter) = some counter := by
  simp [live, early]

theorem live_none {now : Nat} {counter : Counter} (late : counter.deadline ≤ now) :
    live now (some counter) = none := by
  simp [live, late]

/-- The verdicts on hits at these times, when `max` hits of a window pass. -/
def verdicts (max width : Nat) : Option Counter → List Nat → List Bool
  | _, [] => []
  | held, now :: later =>
      decide ((hit width now held).count ≤ max) :: verdicts max width (some (hit width now held)) later

section Hits

variable {α : Type} (time count : α → Nat) (width : Nat)

/-- The entries are hits that were counted one after the other. -/
def Counted : Option Counter → List α → Prop
  | _, [] => True
  | held, entry :: later => count entry = (hit width (time entry) held).count ∧
      Counted (some (hit width (time entry) held)) later

def heldAfter (held : Option Counter) : List α → Option Counter
  | [] => held
  | entry :: later => heldAfter (some (hit width (time entry) held)) later

/-- Windows that do not overlap, none starting before `earliest`. -/
def Spaced : Nat → List (List α) → Prop
  | _, [] => True
  | _, [] :: _ => False
  | earliest, (first :: rest) :: later => earliest ≤ time first ∧
      (∀ entry ∈ rest, time first ≤ time entry ∧ time entry < time first + width) ∧
      Spaced (time first + width) later

variable {time count width} {held : Option Counter} {entries front : List α} {last : α}

theorem counted_concat :
    Counted time count width held (front ++ [last]) ↔
      Counted time count width held front ∧
        count last = (hit width (time last) (heldAfter time width held front)).count := by
  induction front generalizing held with
  | nil => simp [Counted, heldAfter]
  | cons entry front ih => simp only [List.cons_append, Counted, heldAfter, ih, and_assoc]

theorem heldAfter_concat :
    heldAfter time width held (front ++ [last]) =
      some (hit width (time last) (heldAfter time width held front)) := by
  induction front generalizing held with
  | nil => rfl
  | cons entry front ih => exact ih

/-- The verdicts are decided by the times alone. -/
theorem Counted.verdicts (counted : Counted time count width held entries) (max : Nat) :
    entries.map (fun entry => decide (count entry ≤ max)) =
      verdicts max width held (entries.map time) := by
  induction entries generalizing held with
  | nil => rfl
  | cons entry later ih =>
      rw [List.map_cons, List.map_cons, ih counted.2, counted.1]
      rfl

/-- The hits on a live counter come first, and the others start new windows. -/
theorem Counted.split {counter : Counter} (counted : Counted time count width (some counter) entries)
    (sorted : entries.Pairwise fun first second => time first ≤ time second) :
    ∃ current windows, entries = current ++ windows.flatten ∧
      (∀ entry ∈ current, time entry < counter.deadline) ∧
      current.map count = List.range' (counter.count + 1) current.length ∧
      Spaced time width counter.deadline windows ∧
      ∀ window ∈ windows, window.map count = List.range' 1 window.length := by
  induction entries generalizing counter with
  | nil => exact ⟨[], [], rfl, by simp, rfl, trivial, by simp⟩
  | cons entry later ih =>
      obtain ⟨value, rest⟩ := counted
      obtain ⟨behind, sortedRest⟩ := List.pairwise_cons.mp sorted
      by_cases early : time entry < counter.deadline
      · rw [hit_of_some (live_some early)] at value rest
        obtain ⟨current, windows, rfl, within, counts, spaced, each⟩ := ih rest sortedRest
        refine ⟨entry :: current, windows, rfl, ?_, ?_, spaced, each⟩
        · exact List.forall_mem_cons.mpr ⟨early, within⟩
        · rw [List.map_cons, List.length_cons, List.range'_succ, value, counts]
      · rw [hit_of_none (live_none (Nat.not_lt.mp early))] at value rest
        obtain ⟨current, windows, rfl, within, counts, spaced, each⟩ := ih rest sortedRest
        refine ⟨[], (entry :: current) :: windows, rfl, by simp, rfl, ⟨Nat.not_lt.mp early, ?_, spaced⟩, ?_⟩
        · intro other member
          exact ⟨behind other (List.mem_append_left _ member), within other member⟩
        · refine List.forall_mem_cons.mpr ⟨?_, each⟩
          rw [List.map_cons, List.length_cons, List.range'_succ, value, counts]

/-- Hits split into windows, each counted from one. -/
theorem Counted.windows (counted : Counted time count width none entries)
    (sorted : entries.Pairwise fun first second => time first ≤ time second) :
    ∃ windows : List (List α), windows.flatten = entries ∧ Spaced time width 0 windows ∧
      ∀ window ∈ windows, window.map count = List.range' 1 window.length := by
  cases entries with
  | nil => exact ⟨[], rfl, trivial, by simp⟩
  | cons first rest =>
      obtain ⟨value, later⟩ := counted
      obtain ⟨behind, sortedRest⟩ := List.pairwise_cons.mp sorted
      rw [hit_of_none rfl] at value later
      obtain ⟨current, windows, rfl, within, counts, spaced, each⟩ := later.split sortedRest
      refine ⟨(first :: current) :: windows, rfl, ⟨Nat.zero_le _, ?_, spaced⟩, ?_⟩
      · intro other member
        exact ⟨behind other (List.mem_append_left _ member), within other member⟩
      · refine List.forall_mem_cons.mpr ⟨?_, each⟩
        rw [List.map_cons, List.length_cons, List.range'_succ, value, counts]

end Hits

section Passing

variable {α : Type} {time : α → Nat} {width start earliest limit : Nat} {windows : List (List α)}
  {passes : α → Bool}

/-- Of a window counted from one, the first ones pass. -/
theorem map_passes_of_counted {count : α → Nat} {window : List α}
    (counts : window.map count = List.range' 1 window.length) (limit : Nat) :
    window.map (fun entry => decide (count entry ≤ limit)) =
      (List.range window.length).map fun index => decide (index < limit) := by
  have composed : window.map (fun entry => decide (count entry ≤ limit)) =
      (window.map count).map fun value => decide (value ≤ limit) := by simp
  rw [composed, counts, List.range'_eq_map_range, List.map_map]
  refine List.map_congr_left fun index _ => ?_
  simp only [Function.comp_apply, decide_eq_decide]
  omega

end Passing

end FixedWindow
