import Mathlib.Data.List.Basic

namespace Process

/-! A run is a fold of a step over its actions.  When each legal action keeps a
property exactly if it meets a condition, the property holds at every state of
a legal run exactly if every action of the run meets the condition.
-/

variable {S A : Type}

/-- Every action of the run satisfies `meets` in the state it is taken in. -/
def Throughout (step : S → A → S) (meets : S → A → Prop) (state : S) (actions : List A) : Prop :=
  ∀ front action back, actions = front ++ action :: back → meets (front.foldl step state) action

/-- The property holds in every state of the run. -/
def Always (step : S → A → S) (property : S → Prop) (state : S) (actions : List A) : Prop :=
  ∀ front back, actions = front ++ back → property (front.foldl step state)

variable {step : S → A → S} {state : S} {meets : S → A → Prop} {property shape : S → Prop}

theorem throughout_nil : Throughout step meets state [] := by
  intro front action back split
  simp at split

theorem throughout_cons {action : A} {rest : List A} :
    Throughout step meets state (action :: rest) ↔
      meets state action ∧ Throughout step meets (step state action) rest := by
  constructor
  · intro all
    refine ⟨all [] action rest rfl, ?_⟩
    intro front later back split
    subst split
    exact all (action :: front) later back rfl
  · intro both front later back split
    obtain ⟨first, all⟩ := both
    cases front with
    | nil =>
        cases split
        exact first
    | cons head front =>
        cases split
        exact all front later back rfl

theorem throughout_concat {actions : List A} {last : A} :
    Throughout step meets state (actions ++ [last]) ↔
      Throughout step meets state actions ∧ meets (actions.foldl step state) last := by
  induction actions generalizing state with
  | nil => simp [throughout_cons, throughout_nil]
  | cons action rest ih => simp only [List.cons_append, throughout_cons, ih, List.foldl_cons, and_assoc]

theorem always_cons {action : A} {rest : List A} :
    Always step property state (action :: rest) ↔
      property state ∧ Always step property (step state action) rest := by
  constructor
  · intro all
    refine ⟨all [] (action :: rest) rfl, ?_⟩
    intro front back split
    subst split
    exact all (action :: front) back rfl
  · intro both front back split
    obtain ⟨first, all⟩ := both
    cases front with
    | nil => exact first
    | cons head front =>
        cases split
        exact all front back rfl

theorem Always.now {actions : List A} (always : Always step property state actions) :
    property state := always [] actions rfl

theorem always_nil : Always step property state [] ↔ property state := by
  constructor
  · exact Always.now
  · intro holds front back split
    obtain ⟨rfl, rfl⟩ := List.append_eq_nil_iff.mp split.symm
    exact holds

theorem always_of_legal {legal : S → A → Prop} {actions : List A} (initial : shape state)
    (kept : ∀ state action, shape state → legal state action → shape (step state action))
    (allowed : Throughout step legal state actions) : Always step shape state actions := by
  induction actions generalizing state with
  | nil => exact always_nil.mpr initial
  | cons action rest ih =>
      obtain ⟨first, later⟩ := throughout_cons.mp allowed
      exact always_cons.mpr ⟨initial, ih (kept state action initial first) later⟩

theorem always_iff_throughout (legal : S → A → Prop) {actions : List A} (shaped : shape state) (initial : property state)
    (kept : ∀ state action, shape state → legal state action → shape (step state action))
    (exact : ∀ state action, shape state → legal state action → property state →
      (property (step state action) ↔ meets state action))
    (allowed : Throughout step legal state actions) :
    Always step property state actions ↔ Throughout step meets state actions := by
  induction actions generalizing state with
  | nil => exact iff_of_true (always_nil.mpr initial) throughout_nil
  | cons action rest ih =>
      obtain ⟨first, later⟩ := throughout_cons.mp allowed
      have shapedNext := kept state action shaped first
      have here := exact state action shaped first initial
      rw [always_cons, throughout_cons]
      constructor
      · intro both
        obtain ⟨_, rest⟩ := both
        exact ⟨here.mp rest.now, (ih shapedNext rest.now later).mp rest⟩
      · intro both
        obtain ⟨met, rest⟩ := both
        exact ⟨initial, (ih shapedNext (here.mpr met) later).mpr rest⟩

end Process
