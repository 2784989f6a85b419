import Mathlib.Data.List.Chain
import Mathlib.Data.List.Induction
import Mathlib.Order.BoundedOrder.Basic

namespace Counter

/-! A write is meant to advance the counter, unless the counter is not in use and
stays at the least value.  Each writer has compared its value with one that the
counter held earlier, which need not be the one it overwrites.
-/

variable {α : Type} [PartialOrder α] [OrderBot α]

def Advances (stored next : α) : Prop := (next = ⊥ ∧ stored = ⊥) ∨ stored < next

instance : Trans (@Advances α _ _) Advances Advances where
  trans := by
    intro first second third firstStep secondStep
    rcases firstStep with ⟨rfl, rfl⟩ | grows
    · exact secondStep
    · rcases secondStep with ⟨rfl, unused⟩ | grown
      · exact absurd (unused ▸ grows) not_lt_bot
      · exact .inr (grows.trans grown)

theorem Advances.le {stored next : α} (advances : Advances stored next) : stored ≤ next := by
  rcases advances with ⟨rfl, rfl⟩ | grows
  · exact le_rfl
  · exact grows.le

theorem Advances.ne {stored next : α} (advances : Advances stored next) (same : stored = next) :
    stored = ⊥ := by
  rcases advances with ⟨_, unused⟩ | grows
  · exact unused
  · exact absurd same grows.ne

omit [PartialOrder α] [OrderBot α] in
theorem isChain_concat_iff {R : α → α → Prop} {values : List α} {value : α} :
    (values ++ [value]).IsChain R ↔ values.IsChain R ∧ ∀ last ∈ values.getLast?, R last value := by
  rw [List.isChain_append]
  simp

/-- The counter never falls and no value but the least one is written twice
exactly if every write advances the value it overwrites. -/
theorem isChain_advances_iff {initial : Option α} {written : List α}
    (checked : ∀ front value back, written = front ++ value :: back →
      ∃ read ∈ initial.toList ++ front, Advances read value) :
    ((initial.toList ++ written).IsChain (· ≤ ·) ∧
        written.Pairwise fun first second => first = second → first = ⊥) ↔
      (initial.toList ++ written).IsChain Advances := by
  constructor
  · induction written using List.reverseRecOn with
    | nil => cases initial <;> simp
    | append_singleton written value ih =>
        intro both
        obtain ⟨rises, distinct⟩ := both
        rw [← List.append_assoc, isChain_concat_iff] at rises ⊢
        rw [List.pairwise_append] at distinct
        refine ⟨ih (fun front earlier back split => checked front earlier (back ++ [value])
          (by simp [split])) ⟨rises.1, distinct.1⟩, fun last found => ?_⟩
        rcases (rises.2 last found).lt_or_eq with grows | rfl
        · exact .inr grows
        -- the overwritten value was written by another writer, or nothing was written yet
        · rcases List.eq_nil_or_concat written with rfl | ⟨earlier, previous, rfl⟩
          · obtain ⟨read, held, advances⟩ := checked [] last [] rfl
            rw [List.append_nil] at held found
            obtain rfl : read = last := by
              cases initial <;> simp_all
            exact advances
          · obtain rfl : previous = last := by simpa [← List.append_assoc] using found
            have unused := distinct.2.2 previous (by simp) previous (by simp) rfl
            exact .inl ⟨unused, unused⟩
  · intro advances
    have all := List.isChain_iff_pairwise.mp advances
    refine ⟨advances.imp fun _ _ => Advances.le, ?_⟩
    exact (List.pairwise_append.mp all).2.1.imp fun _ => Advances.ne ‹_›

/-! Each value comes with the verdict on it; an accepted value is stored. -/

/-- The value stored after the verdicts. -/
def lastAccepted {α : Type} (stored : α) : List (α × Bool) → α
  | [] => stored
  | entry :: later => lastAccepted (if entry.2 then entry.1 else stored) later

/-- A value is accepted exactly if it advances the one stored before it. -/
def Judged (stored : α) : List (α × Bool) → Prop
  | [] => True
  | entry :: later => (entry.2 = true ↔ Advances stored entry.1) ∧
      Judged (if entry.2 then entry.1 else stored) later

variable {stored value : α} {judged front middle back : List (α × Bool)} {accepted : Bool}

theorem judged_append :
    Judged stored (front ++ back) ↔ Judged stored front ∧ Judged (lastAccepted stored front) back := by
  induction front generalizing stored with
  | nil => simp [Judged, lastAccepted]
  | cons entry front ih => simp only [List.cons_append, Judged, lastAccepted, ih, and_assoc]

theorem Judged.accepted_iff (valid : Judged stored (front ++ (value, accepted) :: back)) :
    accepted = true ↔ Advances (lastAccepted stored front) value :=
  (judged_append.mp valid).2.1

theorem Judged.le_lastAccepted (valid : Judged stored judged) : stored ≤ lastAccepted stored judged := by
  induction judged generalizing stored with
  | nil => exact le_rfl
  | cons entry later ih =>
      refine le_trans ?_ (ih valid.2)
      split_ifs with accepted
      · exact (valid.1.mp accepted).le
      · exact le_rfl

/-- Once a value above the least one is accepted, the least one never is again. -/
theorem Judged.bot_rejected
    (valid : Judged stored (front ++ (value, true) :: (middle ++ (⊥, accepted) :: back)))
    (used : value ≠ ⊥) : accepted = false := by
  obtain ⟨_, _, rest⟩ := judged_append.mp valid
  rw [if_pos rfl] at rest
  have held := (judged_append.mp rest).1.le_lastAccepted
  rw [Bool.eq_false_iff]
  intro passed
  rcases rest.accepted_iff.mp passed with ⟨_, unused⟩ | grows
  · rw [unused, le_bot_iff] at held
    exact used held
  · exact not_lt_bot grows

theorem Judged.all_accepted_iff (valid : Judged stored judged) :
    (∀ entry ∈ judged, entry.2 = true) ↔ (stored :: judged.map Prod.fst).IsChain Advances := by
  induction judged generalizing stored with
  | nil => simp
  | cons entry later ih =>
      rw [List.forall_mem_cons, List.map_cons, List.isChain_cons_cons, ← valid.1]
      refine and_congr_right fun accepted => ?_
      have rest := valid.2
      rw [if_pos accepted] at rest
      exact ih rest

/-- Above a value that is in use, to advance is to grow. -/
theorem isChain_advances_used {values : List α} (used : stored ≠ ⊥) :
    (stored :: values).IsChain Advances ↔ (stored :: values).IsChain (· < ·) := by
  induction values generalizing stored with
  | nil => simp
  | cons next later ih =>
      rw [List.isChain_cons_cons, List.isChain_cons_cons]
      have grows : Advances stored next ↔ stored < next := or_iff_right fun unused => used unused.2
      rw [grows]
      exact and_congr_right fun above => ih (bot_le.trans_lt above).ne'

/-- Values that all advance are the least one some times, if the counter was not
in use, and strictly rising ones after that. -/
theorem isChain_advances_iff_rising {values : List α} :
    (stored :: values).IsChain Advances ↔
      ∃ idle rising, values = List.replicate idle ⊥ ++ rising ∧ (idle ≠ 0 → stored = ⊥) ∧
        (stored :: rising).IsChain (· < ·) := by
  constructor
  · intro advances
    induction values generalizing stored with
    | nil => exact ⟨0, [], rfl, by simp, by simp⟩
    | cons next later ih =>
        obtain ⟨⟨rfl, rfl⟩ | grows, rest⟩ := List.isChain_cons_cons.mp advances
        · obtain ⟨idle, rising, rfl, _, above⟩ := ih rest
          exact ⟨idle + 1, rising, rfl, fun _ => rfl, above⟩
        · have used : next ≠ ⊥ := (bot_le.trans_lt grows).ne'
          exact ⟨0, next :: later, rfl, by simp,
            List.isChain_cons_cons.mpr ⟨grows, (isChain_advances_used used).mp rest⟩⟩
  · intro shape
    obtain ⟨idle, rising, rfl, unused, above⟩ := shape
    have rises : (stored :: rising).IsChain Advances := above.imp fun _ _ => .inr
    induction idle with
    | zero => exact rises
    | succ idle ih =>
        obtain rfl := unused (by simp)
        exact List.isChain_cons_cons.mpr ⟨.inl ⟨rfl, rfl⟩, ih fun _ => rfl⟩

end Counter
