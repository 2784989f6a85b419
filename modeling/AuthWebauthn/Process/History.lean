import AuthWebauthn.Process.Pool
import Mathlib.Data.List.Induction

namespace Process

/-! The log of a run splits at any of its entries: the run splits with it, the
entry was issued by its own process, and a property that the environment and
every entry after some point keep still holds at the end.
-/

variable {S C R M E ι α : Type} [DecidableEq ι] {machine : Machine S C R M E}

/-- Either nothing in a list has a property, or there is a last such element. -/
theorem exists_last_split {β : Type} (property : β → Prop) (values : List β) :
    (∀ value ∈ values, ¬ property value) ∨
    ∃ front last back, values = front ++ last :: back ∧ property last ∧
      ∀ value ∈ back, ¬ property value := by
  induction values with
  | nil => exact .inl (by simp)
  | cons head tail ih =>
      rcases ih with absent | ⟨front, last, back, rfl, holds, absent⟩
      · by_cases first : property head
        · exact .inr ⟨[], head, tail, rfl, first, absent⟩
        · exact .inl (by simpa [first] using absent)
      · exact .inr ⟨head :: front, last, back, rfl, holds, absent⟩

theorem pairwise_of_splits {β : Type} {R : β → β → Prop} {values : List β}
    (related : ∀ front first back, values = front ++ first :: back → ∀ second ∈ back, R first second) :
    values.Pairwise R := by
  induction values with
  | nil => exact .nil
  | cons head tail ih =>
      refine .cons (related [] head tail rfl) (ih ?_)
      intro front first back split
      subst split
      exact related (head :: front) first back rfl

namespace Pool

/-- Keeping `property` whatever the environment does. -/
def Stable (machine : Machine S C R M E) (property : S → Prop) : Prop :=
  ∀ change state, property state → property (machine.evolve change state)

/-- Keeping `property` when the command of `served` runs in any state. -/
def Served.Keeps (machine : Machine S C R M E) (property : S → Prop)
    (served : Served S C R M ι) : Prop :=
  ∀ state, property state → property (machine.serve served.mode state served.command).1

theorem step_log (pool : Pool S C R M ι α) (event : Event ι M E) :
    (pool.step machine event).log = pool.log ∨
    ∃ served : Served S C R M ι, event = .step served.process served.mode ∧
      served.before = pool.state ∧
      served.reply = (machine.serve served.mode served.before served.command).2 ∧
      (∃ next, pool.programs served.process = .call served.command next) ∧
      (pool.step machine event).log = pool.log ++ [served] ∧
      (pool.step machine event).state = served.after machine := by
  rcases step_cases machine pool event with
    same | ⟨change, rfl, stepped⟩ | ⟨process, mode, command, next, rfl, pending, stepped⟩
  · exact .inl (by rw [same])
  · exact .inl (by rw [stepped])
  · exact .inr ⟨⟨process, command, mode, pool.state, _⟩, rfl, rfl, rfl, ⟨next, pending⟩,
      by rw [stepped], by rw [stepped]; rfl⟩

theorem run_log_extends (machine : Machine S C R M E) (pool : Pool S C R M ι α) (events : List (Event ι M E)) :
    ∃ added, (pool.run machine events).log = pool.log ++ added := by
  apply run_invariant (I := fun later => ∃ added, later.log = pool.log ++ added)
  · exact ⟨[], by simp⟩
  · intro later event logged
    obtain ⟨added, extended⟩ := logged
    rcases step_log later event with same | ⟨served, _, _, _, _, logged, _⟩
    · exact ⟨added, by rw [same, extended]⟩
    · exact ⟨added ++ [served], by rw [logged, extended, List.append_assoc]⟩

/-- The events `before` lead from the start to the point where `served` is
served after the log `front`. -/
structure ServedAfter (machine : Machine S C R M E) (state : S) (programs : ι → Prog C R α)
    (before : List (Event ι M E)) (front : List (Served S C R M ι))
    (served : Served S C R M ι) : Prop where
  log : ((start state programs).run machine before).log = front
  reached : ((start state programs).run machine before).state = served.before
  reply : served.reply = (machine.serve served.mode served.before served.command).2
  pending : ∃ next, ((start state programs).run machine before).programs served.process =
    .call served.command next
  logged : ((start state programs).run machine
    (before ++ [.step served.process served.mode])).log = front ++ [served]
  left : ((start state programs).run machine
    (before ++ [.step served.process served.mode])).state = served.after machine

/-- A run splits at each entry of its log. -/
theorem run_locate {state : S} {programs : ι → Prog C R α} {events : List (Event ι M E)}
    {front back : List (Served S C R M ι)} {served : Served S C R M ι}
    (split : ((start state programs).run machine events).log = front ++ served :: back) :
    ∃ before after, events = before ++ .step served.process served.mode :: after ∧
      ServedAfter machine state programs before front served := by
  induction events using List.reverseRecOn generalizing back with
  | nil => simp [start] at split
  | append_singleton events event ih =>
      rw [run_concat] at split
      rcases step_log ((start state programs).run machine events) event with
        same | ⟨last, rfl, found, reply, pending, logged, left⟩
      · obtain ⟨before, after, rfl, located⟩ := ih (same ▸ split)
        exact ⟨before, after ++ [event], by simp, located⟩
      · rw [logged] at split
        rcases List.eq_nil_or_concat back with rfl | ⟨rest, final, rfl⟩
        · obtain ⟨sameFront, sameLast⟩ := List.append_inj' split rfl
          obtain rfl : last = served := by simpa using sameLast
          exact ⟨events, [], rfl, sameFront, found.symm, reply, pending,
            by rw [run_concat, logged, sameFront], by rw [run_concat, left]⟩
        · have shifted : ((start state programs).run machine events).log ++ [last] =
              (front ++ served :: rest) ++ [final] := by simpa using split
          obtain ⟨before, after, rfl, located⟩ := ih (List.append_inj' shifted rfl).1
          exact ⟨before, after ++ [.step last.process last.mode], by simp, located⟩

/-- The process of an entry was about to issue the entry's command. -/
theorem log_talks {state : S} {programs : ι → Prog C R α} {events : List (Event ι M E)}
    {front back : List (Served S C R M ι)} {served : Served S C R M ι}
    (split : ((start state programs).run machine events).log = front ++ served :: back) :
    ∃ next, Prog.Talks (programs served.process)
      ((front.filter fun entry => entry.process = served.process).map Served.exchange)
      (.call served.command next) := by
  obtain ⟨before, after, _, located⟩ := run_locate split
  obtain ⟨next, pending⟩ := located.pending
  have talks := run_talks machine state programs before served.process
  rw [pending, exchanges, located.log] at talks
  exact ⟨next, talks⟩

theorem log_allowed {state : S} {programs : ι → Prog C R α} {events : List (Event ι M E)}
    {served : Served S C R M ι} {allowed : C → Prop}
    (member : served ∈ ((start state programs).run machine events).log)
    (issues : (programs served.process).Issues allowed) : allowed served.command := by
  obtain ⟨front, back, split⟩ := List.append_of_mem member
  obtain ⟨next, talks⟩ := log_talks split
  exact (talks.issues issues).2.1

theorem log_reply {state : S} {programs : ι → Prog C R α} {events : List (Event ι M E)}
    {served : Served S C R M ι} (member : served ∈ ((start state programs).run machine events).log) :
    served.reply = (machine.serve served.mode served.before served.command).2 := by
  obtain ⟨front, back, split⟩ := List.append_of_mem member
  obtain ⟨_, _, _, located⟩ := run_locate split
  exact located.reply

/-- Entries added to the log that keep a stable property keep it in the run. -/
theorem run_keeps {property : S → Prop} (stable : Stable machine property)
    {pool : Pool S C R M ι α} {events : List (Event ι M E)} {added : List (Served S C R M ι)}
    (extended : (pool.run machine events).log = pool.log ++ added)
    (initial : property pool.state)
    (kept : ∀ served ∈ added, Served.Keeps machine property served) :
    property (pool.run machine events).state := by
  induction events using List.reverseRecOn generalizing added with
  | nil => exact initial
  | append_singleton events event ih =>
      rw [run_concat] at extended ⊢
      obtain ⟨earlier, soFar⟩ := run_log_extends machine pool events
      rcases step_cases machine (pool.run machine events) event with
        same | ⟨change, rfl, stepped⟩ | ⟨process, mode, command, next, rfl, _, stepped⟩
      · rw [same] at extended ⊢
        exact ih extended kept
      · rw [stepped] at extended ⊢
        exact stable change _ (ih extended kept)
      · rw [stepped] at extended ⊢
        rw [soFar, List.append_assoc, List.append_cancel_left_eq] at extended
        subst extended
        have past := ih soFar fun served member => kept served (by simp [member])
        exact kept _ (List.mem_append_right _ (List.mem_singleton_self _)) _ past

/-- A stable property that holds right after one entry and is kept by all
later entries holds at the end of the run. -/
theorem run_since {property : S → Prop} (stable : Stable machine property)
    {state : S} {programs : ι → Prog C R α} {events : List (Event ι M E)}
    {front later : List (Served S C R M ι)} {served : Served S C R M ι}
    (split : ((start state programs).run machine events).log = front ++ served :: later)
    (holds : property (served.after machine))
    (kept : ∀ entry ∈ later, Served.Keeps machine property entry) :
    property ((start state programs).run machine events).state := by
  obtain ⟨before, after, rfl, located⟩ := run_locate split
  have resumed : before ++ Event.step served.process served.mode :: after =
      (before ++ [.step served.process served.mode]) ++ after := by simp
  rw [resumed, run_append] at split ⊢
  have extended : (((start state programs).run machine
      (before ++ [.step served.process served.mode])).run machine after).log =
      ((start state programs).run machine (before ++ [.step served.process served.mode])).log ++
        later := by
    rw [split, located.logged]
    simp
  exact run_keeps stable extended (by rw [located.left]; exact holds) kept

/-- The same between two entries of the log. -/
theorem log_between {property : S → Prop} (stable : Stable machine property)
    {state : S} {programs : ι → Prog C R α} {events : List (Event ι M E)}
    {front middle back : List (Served S C R M ι)} {first last : Served S C R M ι}
    (split : ((start state programs).run machine events).log =
      (front ++ first :: middle) ++ last :: back)
    (holds : property (first.after machine))
    (kept : ∀ entry ∈ middle, Served.Keeps machine property entry) : property last.before := by
  obtain ⟨before, after, _, located⟩ := run_locate split
  rw [← located.reached]
  exact run_since stable located.log holds kept

/-- The same from the start of the run to an entry of the log. -/
theorem log_from_start {property : S → Prop} (stable : Stable machine property)
    {state : S} {programs : ι → Prog C R α} {events : List (Event ι M E)}
    {front back : List (Served S C R M ι)} {served : Served S C R M ι}
    (split : ((start state programs).run machine events).log = front ++ served :: back)
    (initial : property state)
    (kept : ∀ entry ∈ front, Served.Keeps machine property entry) : property served.before := by
  obtain ⟨before, after, _, located⟩ := run_locate split
  have extended : ((start state programs).run machine before).log =
      (start state programs : Pool S C R M ι α).log ++ front := located.log
  rw [← located.reached]
  exact run_keeps stable extended initial kept

end Pool

end Process
