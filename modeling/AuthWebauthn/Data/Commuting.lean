import Mathlib.Data.List.Basic
import Mathlib.Logic.Function.Basic

namespace Commuting

/-! A state is made of slots, and each action reads and writes one of them, or refuses.  Of a sequence
of actions only the order within each slot matters.
-/

variable {S A G : Type} {Slot : G → Type}

/-- The state as the family of its slots. -/
structure View (S : Type) (Slot : G → Type) where
  slots : S → (slot : G) → Slot slot
  assemble : ((slot : G) → Slot slot) → S
  slots_assemble : ∀ family, slots (assemble family) = family

section Slots

variable [DecidableEq G]

def View.write (view : View S Slot) (state : S) (slot : G) (value : Slot slot) : S :=
  view.assemble (Function.update (view.slots state) slot value)

/-- The step is an act on one slot. -/
def View.ActsOn (view : View S Slot) (slot : G) (step : S → Option S) : Prop :=
  ∃ act : Slot slot → Option (Slot slot), ∀ state, step state = (act (view.slots state slot)).map (view.write state slot)

/-- Steps on different slots can be swapped. -/
theorem View.ActsOn.swap {view : View S Slot} {slot other : G} {first second : S → Option S}
    (acts : view.ActsOn slot first) (also : view.ActsOn other second) (different : slot ≠ other) (state : S) :
    (first state).bind second = (second state).bind first := by
  obtain ⟨act, does⟩ := acts
  obtain ⟨react, redoes⟩ := also
  rw [does, redoes]
  cases result : act (view.slots state slot) with
  | none =>
      cases answer : react (view.slots state other) with
      | none => rfl
      | some value =>
          simp [does, View.write, view.slots_assemble, Function.update_of_ne different, result]
  | some value =>
      cases answer : react (view.slots state other) with
      | none =>
          simp [redoes, View.write, view.slots_assemble, Function.update_of_ne (Ne.symm different), answer]
      | some reply =>
          simp only [Option.map_some, Option.bind_some]
          rw [redoes, does]
          simp only [View.write, view.slots_assemble, Function.update_of_ne different,
            Function.update_of_ne (Ne.symm different), result, answer, Option.map_some]
          rw [Function.update_comm different]

/-- A step on one slot leaves the others. -/
theorem View.ActsOn.keeps {view : View S Slot} {slot other : G} {step : S → Option S} (acts : view.ActsOn slot step)
    (different : other ≠ slot) {state next : S} (stepped : step state = some next) :
    view.slots next other = view.slots state other := by
  obtain ⟨act, does⟩ := acts
  rw [does, Option.map_eq_some_iff] at stepped
  obtain ⟨value, _, rfl⟩ := stepped
  rw [View.write, view.slots_assemble, Function.update_of_ne different]

end Slots

section Sequences

variable {step : A → S → Option S} {slot : A → G}

/-- One action after the other; the first that refuses ends it. -/
def runAll (step : A → S → Option S) : List A → S → Option S
  | [], state => some state
  | action :: rest, state => (step action state).bind (runAll step rest)

variable (swaps : ∀ first second state, slot first ≠ slot second →
  (step first state).bind (step second) = (step second state).bind (step first))

include swaps in
/-- An action comes first when nothing before it is on its slot. -/
theorem runAll_front {front : List A} {action : A} (back : List A) (state : S)
    (apart : ∀ earlier ∈ front, slot earlier ≠ slot action) :
    runAll step (front ++ action :: back) state = runAll step (action :: (front ++ back)) state := by
  induction front generalizing state with
  | nil => rfl
  | cons earlier front ih =>
      have swapped := swaps earlier action state (apart earlier (List.mem_cons_self ..))
      calc runAll step (earlier :: (front ++ action :: back)) state
          = (step earlier state).bind fun next => (step action next).bind (runAll step (front ++ back)) := by
            simp only [runAll]
            congr
            funext next
            exact ih next fun other member => apart other (List.mem_cons_of_mem _ member)
        _ = ((step earlier state).bind (step action)).bind (runAll step (front ++ back)) :=
            (Option.bind_assoc ..).symm
        _ = ((step action state).bind (step earlier)).bind (runAll step (front ++ back)) := by rw [swapped]
        _ = runAll step (action :: earlier :: (front ++ back)) state := Option.bind_assoc ..

include swaps in
/-- Sequences that agree on every slot have the same result. -/
theorem runAll_eq [DecidableEq G] {first second : List A} (same : ∀ place, first.filter (slot · = place) = second.filter (slot · = place))
    (state : S) : runAll step first state = runAll step second state := by
  induction first generalizing second state with
  | nil =>
      cases second with
      | nil => rfl
      | cons action rest => simpa using same (slot action)
  | cons action rest ih =>
      have found := same (slot action)
      rw [List.filter_cons_of_pos (by simp)] at found
      obtain ⟨front, back, rfl, apart, _, tail⟩ := List.filter_eq_cons_iff.mp found.symm
      rw [runAll_front swaps back state (by simpa using apart)]
      have remaining : ∀ place, rest.filter (slot · = place) = (front ++ back).filter (slot · = place) := by
        intro place
        have whole := same place
        rw [List.filter_append] at whole ⊢
        by_cases own : slot action = place
        · subst own
          rw [List.filter_eq_nil_iff.mpr apart, List.nil_append, tail]
        · simpa [own] using whole
      have later : runAll step rest = runAll step (front ++ back) := funext (ih remaining)
      simp only [runAll, later]

end Sequences

end Commuting
