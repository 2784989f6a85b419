import Mathlib.Data.List.Forall2
import Mathlib.Data.List.Induction

namespace Process

/-! When every closing entry of a log has an opening entry before it with no other
closing entry in between, the closing entries can be matched, in order, with
different opening entries.
-/

variable {α : Type} {opens closes : α → Bool} {related : α → α → Prop}

/-- `Justified front entry`: an opening entry before `entry`, none closing in
between. -/
def Justified (opens closes : α → Bool) (related : α → α → Prop) (front : List α) (entry : α) : Prop :=
  ∃ earlier opening between, front = earlier ++ opening :: between ∧ opens opening = true ∧
    (∀ later ∈ between, closes later = false) ∧ related entry opening

/-- The matched openings come from before the last closing entry, so that the
openings after it stay free. -/
private theorem matched_before_last (disjoint : ∀ entry, opens entry = true → closes entry = false)
    (log : List α)
    (justified : ∀ front entry back, log = front ++ entry :: back → closes entry = true →
      Justified opens closes related front entry) :
    ∃ matched, List.Forall₂ related (log.filter closes) matched ∧
      ∀ front back, log = front ++ back → (∀ entry ∈ back, closes entry = false) →
        matched.Sublist (front.filter opens) := by
  induction log using List.reverseRecOn with
  | nil => exact ⟨[], .nil, fun _ _ _ _ => List.nil_sublist _⟩
  | append_singleton log last ih =>
      obtain ⟨matched, related, free⟩ := ih fun front entry back split =>
        justified front entry (back ++ [last]) (by rw [split]; simp)
      cases closing : closes last with
      | false =>
          refine ⟨matched, by simpa [closing] using related, ?_⟩
          intro front back split open_
          rcases List.eq_nil_or_concat back with rfl | ⟨rest, final, rfl⟩
          · obtain rfl : log ++ [last] = front := by simpa using split
            rw [List.filter_append]
            exact (free log [] (by simp) (by simp)).trans (List.sublist_append_left _ _)
          · rw [List.concat_eq_append, ← List.append_assoc] at split
            obtain ⟨shorter, _⟩ := List.append_inj' split rfl
            exact free front rest shorter fun entry member => open_ entry (by simp [member])
      | true =>
          obtain ⟨earlier, opening, between, rfl, opened, quiet, pair⟩ :=
            justified log last [] rfl closing
          have unused := free earlier (opening :: between) rfl (by
            intro entry member
            rcases List.mem_cons.mp member with rfl | later
            · exact disjoint entry opened
            · exact quiet entry later)
          refine ⟨matched ++ [opening], ?_, ?_⟩
          · rw [List.filter_append]
            simpa [closing] using List.rel_append related (.cons pair .nil)
          · intro front back split open_
            rcases List.eq_nil_or_concat back with rfl | ⟨rest, final, rfl⟩
            · rw [← split.trans (List.append_nil front)]
              have extended := List.Sublist.append unused (List.Sublist.refl [opening])
              refine extended.trans ?_
              simp [opened]
            · rw [List.concat_eq_append, ← List.append_assoc] at split
              obtain ⟨_, same⟩ := List.append_inj' split rfl
              obtain rfl : last = final := by simpa using same
              exact absurd (open_ last (by simp)) (by simp [closing])

theorem exists_matching (disjoint : ∀ entry, opens entry = true → closes entry = false) {log : List α}
    (justified : ∀ front entry back, log = front ++ entry :: back → closes entry = true →
      Justified opens closes related front entry) :
    ∃ matched, matched.Sublist (log.filter opens) ∧
      List.Forall₂ related (log.filter closes) matched := by
  obtain ⟨matched, pairs, free⟩ := matched_before_last disjoint log justified
  exact ⟨matched, free log [] (by simp) (by simp), pairs⟩

end Process
