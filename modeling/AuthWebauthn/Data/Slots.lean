import Mathlib.Data.Option.Basic
import Mathlib.Data.List.Basic

namespace Slots

/-! A fold over keyed values, each of which writes at most one slot of the state
or stops the fold.
-/

variable {σ β γ : Type} {step : σ → β → Option σ} (slot : σ → γ)

theorem foldlM_keeps {values : List β}
    (keeps : ∀ value ∈ values, ∀ state next, step state value = some next → slot next = slot state)
    {state out : σ} (folded : values.foldlM step state = some out) : slot out = slot state := by
  induction values generalizing state with
  | nil =>
      cases folded
      rfl
  | cons value rest ih =>
      rw [List.foldlM_cons, Option.bind_eq_bind, Option.bind_eq_some_iff] at folded
      obtain ⟨next, stepped, continued⟩ := folded
      rw [ih (fun later member => keeps later (by simp [member])) continued]
      exact keeps value (by simp) state next stepped

/-- The one value that writes a slot decides what the slot holds at the end. -/
theorem foldlM_writes (written : γ → Prop) {values : List β} {writer : β}
    (member : writer ∈ values)
    (keeps : ∀ value ∈ values, value ≠ writer →
      ∀ state next, step state value = some next → slot next = slot state)
    (writes : ∀ state next, step state writer = some next → written (slot next))
    {state out : σ} (folded : values.foldlM step state = some out) : written (slot out) := by
  induction values generalizing state with
  | nil => cases member
  | cons value rest ih =>
      rw [List.foldlM_cons, Option.bind_eq_bind, Option.bind_eq_some_iff] at folded
      obtain ⟨next, stepped, continued⟩ := folded
      have keepsRest : ∀ later ∈ rest, later ≠ writer →
          ∀ state next, step state later = some next → slot next = slot state :=
        fun later member => keeps later (by simp [member])
      by_cases again : writer ∈ rest
      · exact ih again keepsRest continued
      · obtain rfl : writer = value := (List.mem_cons.mp member).resolve_right again
        rw [foldlM_keeps slot (fun later member => keepsRest later member
          fun same => again (same ▸ member)) continued]
        exact writes state next stepped

omit slot in
theorem foldlM_isSome {values : List β}
    (accepts : ∀ value ∈ values, ∀ state, (step state value).isSome) (state : σ) :
    ∃ out, values.foldlM step state = some out := by
  induction values generalizing state with
  | nil => exact ⟨state, rfl⟩
  | cons value rest ih =>
      obtain ⟨next, stepped⟩ := Option.isSome_iff_exists.mp (accepts value (by simp) state)
      obtain ⟨out, folded⟩ := ih (fun later member => accepts later (by simp [member])) next
      exact ⟨out, by rw [List.foldlM_cons, stepped]; exact folded⟩

section Last

variable {σ β γ : Type} {picks : β → Option γ} {values : List β}

def lastOf (picks : β → Option γ) (values : List β) : Option γ :=
  values.foldl (fun held value => (picks value).or held) none

theorem foldl_or (held : Option γ) :
    values.foldl (fun held value => (picks value).or held) held = (lastOf picks values).or held := by
  unfold lastOf
  induction values generalizing held with
  | nil => rfl
  | cons value rest ih =>
      rw [List.foldl_cons, List.foldl_cons, ih, ih ((picks value).or none), Option.or_none, Option.or_assoc]

theorem foldl_slot {step : σ → β → σ} (slot : σ → Option γ)
    (turn : ∀ state value, slot (step state value) = (picks value).or (slot state)) (state : σ) :
    slot (values.foldl step state) = (lastOf picks values).or (slot state) := by
  rw [← foldl_or]
  induction values generalizing state with
  | nil => rfl
  | cons value rest ih => rw [List.foldl_cons, List.foldl_cons, ih, turn]

/-- A slot that starts empty ends with the last match. -/
theorem foldl_empty_slot {step : σ → β → σ} (slot : σ → Option γ)
    (turn : ∀ state value, slot (step state value) = (picks value).or (slot state)) {state : σ}
    (start : slot state = none) : slot (values.foldl step state) = lastOf picks values := by
  rw [foldl_slot slot turn, start, Option.or_none]

theorem lastOf_cons (value : β) :
    lastOf picks (value :: values) = (lastOf picks values).or (picks value) := by
  conv_lhs => rw [lastOf, List.foldl_cons, foldl_or, Option.or_none]

theorem lastOf_append {others : List β} :
    lastOf picks (values ++ others) = (lastOf picks others).or (lastOf picks values) := by
  induction values with
  | nil => simp [lastOf]
  | cons value rest ih => rw [List.cons_append, lastOf_cons, ih, lastOf_cons, Option.or_assoc]

theorem exists_of_lastOf {found : γ} (last : lastOf picks values = some found) :
    ∃ value ∈ values, picks value = some found := by
  induction values with
  | nil => cases last
  | cons value rest ih =>
      rw [lastOf_cons, Option.or_eq_some_iff] at last
      rcases last with later | ⟨_, here⟩
      · obtain ⟨value, member, picked⟩ := ih later
        exact ⟨value, by simp [member], picked⟩
      · exact ⟨value, by simp, here⟩

theorem lastOf_isSome {value : β} (member : value ∈ values) {found : γ} (picked : picks value = some found) :
    (lastOf picks values).isSome = true := by
  induction values with
  | nil => cases member
  | cons head rest ih =>
      rw [lastOf_cons, Option.isSome_or]
      rcases List.mem_cons.mp member with rfl | later
      · simp [picked]
      · simp [ih later]

/-- If all matches agree, the last one is any one. -/
theorem lastOf_eq_some_iff
    (agree : ∀ first ∈ values, ∀ second ∈ values, ∀ left right, picks first = some left →
      picks second = some right → left = right) {found : γ} :
    lastOf picks values = some found ↔ ∃ value ∈ values, picks value = some found := by
  refine ⟨exists_of_lastOf, ?_⟩
  intro found
  obtain ⟨value, member, picked⟩ := found
  obtain ⟨last, present⟩ := Option.isSome_iff_exists.mp (lastOf_isSome member picked)
  obtain ⟨other, otherMember, otherPicked⟩ := exists_of_lastOf present
  rw [present, agree other otherMember value member last found otherPicked picked]

theorem lastOf_eq_none (nothing : ∀ value ∈ values, picks value = none) : lastOf picks values = none := by
  cases last : lastOf picks values with
  | none => rfl
  | some found =>
      obtain ⟨value, member, picked⟩ := exists_of_lastOf last
      rw [nothing value member] at picked
      cases picked

/-- Whichever match is chosen for each index, in some order these come last. -/
theorem exists_perm_lastOf {ι : Type} {named : ι → β → Option γ} {choice : ι → Option γ}
    (apart : ∀ value ∈ values, ∀ index other left right,
      named index value = some left → named other value = some right → index = other)
    (fits : ∀ index found, choice index = some found → ∃ value ∈ values, named index value = some found)
    (total : ∀ index, ∀ value ∈ values, ∀ found, named index value = some found → choice index ≠ none) :
    ∃ others, values.Perm others ∧ ∀ index, lastOf (named index) others = choice index := by
  classical
  let chosen (value : β) : Bool := decide (∀ index found, named index value = some found → choice index = some found)
  refine ⟨values.filter (fun value => !chosen value) ++ values.filter chosen, ?_, fun index => ?_⟩
  · exact ((List.filter_append_perm chosen values).symm).trans List.perm_append_comm
  · rw [lastOf_append]
    cases choose : choice index with
    | none =>
        have nothing : ∀ value ∈ values, named index value = none := by
          intro value member
          cases found : named index value with
          | none => rfl
          | some held => exact absurd choose (total index value member held found)
        rw [lastOf_eq_none fun value member => nothing value (List.mem_filter.mp member).1,
          lastOf_eq_none fun value member => nothing value (List.mem_filter.mp member).1]
        rfl
    | some found =>
        obtain ⟨value, member, names⟩ := fits index found choose
        have mine : chosen value = true := by
          refine decide_eq_true fun other held names' => ?_
          obtain rfl := apart value member index other found held names names'
          rw [names] at names'
          cases names'
          exact choose
        obtain ⟨last, present⟩ := Option.isSome_iff_exists.mp
          (lastOf_isSome (List.mem_filter.mpr ⟨member, mine⟩) names)
        obtain ⟨other, otherMember, otherNames⟩ := exists_of_lastOf present
        have same := of_decide_eq_true (List.mem_filter.mp otherMember).2 index last otherNames
        rw [choose] at same
        cases same
        rw [present]
        rfl

end Last

end Slots
