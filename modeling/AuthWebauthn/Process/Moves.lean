import AuthWebauthn.Process.Pool

namespace Process

/-! The steps that one process makes in a row, apart from the pool, and as steps of a pool; and the next
step of a process that ends.
-/

variable {S C R M E ι α : Type} {machine : Machine S C R M E}

/-- Serving the next commands of a program in these modes. -/
inductive Prog.Moves (machine : Machine S C R M E) : List M → S → Prog C R α → S → Prog C R α → Prop where
  | nil (state : S) (program : Prog C R α) : Moves machine [] state program state program
  | cons {mode : M} {modes : List M} {state after : S} {command : C} {next : R → Prog C R α}
      {rest : Prog C R α}
      (tail : Moves machine modes (machine.serve mode state command).1
        (next (machine.serve mode state command).2) after rest) :
      Moves machine (mode :: modes) state (.call command next) after rest

namespace Prog

theorem Moves.one (mode : M) (state : S) (command : C) (next : R → Prog C R α) :
    Moves machine [mode] state (.call command next) (machine.serve mode state command).1
      (next (machine.serve mode state command).2) := .cons (.nil _ _)

end Prog

namespace Pool

variable [DecidableEq ι]

theorem run_moves {modes : List M} {pool : Pool S C R M ι α} {process : ι} {after : S} {rest : Prog C R α}
    (moves : Prog.Moves machine modes pool.state (pool.programs process) after rest) :
    (pool.run machine (modes.map (Event.step process))).state = after ∧
      (pool.run machine (modes.map (Event.step process))).programs =
        Function.update pool.programs process rest := by
  induction modes generalizing pool with
  | nil =>
      cases moves
      exact ⟨rfl, (Function.update_eq_self ..).symm⟩
  | cons mode modes ih =>
      cases pending : pool.programs process with
      | done value =>
          rw [pending] at moves
          cases moves
      | call command next =>
          rw [pending] at moves
          cases moves with
          | cons tail =>
              have stepped : pool.step machine (.step process mode) =
                  { state := (machine.serve mode pool.state command).1
                    programs := Function.update pool.programs process
                      (next (machine.serve mode pool.state command).2)
                    log := pool.log ++ [⟨process, command, mode, pool.state,
                      (machine.serve mode pool.state command).2⟩] } := by
                simp only [step, pending]
              have following := @ih (pool.step machine (.step process mode)) (by
                rw [stepped]
                simpa using tail)
              rw [List.map_cons]
              change ((pool.step machine (.step process mode)).run machine _).state = after ∧
                ((pool.step machine (.step process mode)).run machine _).programs = _
              refine ⟨following.1, following.2.trans ?_⟩
              rw [stepped]
              simp

/-- A process that ends has been served the command it waited for. -/
theorem run_next {pool : Pool S C R M ι α} {process : ι} {command : C} {next : R → Prog C R α} {value : α}
    {events : List (Event ι M E)} (pending : pool.programs process = .call command next)
    (ended : (pool.run machine events).programs process = .done value) :
    ∃ between mode later, events = between ++ .step process mode :: later ∧
      (pool.run machine between).programs process = .call command next ∧
      (pool.run machine (between ++ [.step process mode])).programs process =
        next (machine.serve mode (pool.run machine between).state command).2 := by
  induction events generalizing pool with
  | nil =>
      rw [run_nil, pending] at ended
      cases ended
  | cons event rest ih =>
      by_cases own : ∃ mode, event = .step process mode
      · obtain ⟨mode, rfl⟩ := own
        refine ⟨[], mode, rest, rfl, pending, ?_⟩
        simp [run, step, pending]
      · have waiting : (pool.step machine event).programs process = .call command next := by
          rcases step_cases machine pool event with
            same | ⟨change, rfl, stepped⟩ | ⟨actor, mode, issued, follow, rfl, _, stepped⟩
          · rw [same, pending]
          · rw [stepped, pending]
          · have apart : process ≠ actor := by
              intro same
              exact own ⟨mode, by rw [same]⟩
            rw [stepped]
            simpa [apart] using pending
        obtain ⟨between, mode, later, rfl, waits, reached⟩ := ih waiting ended
        exact ⟨event :: between, mode, later, rfl, waits, reached⟩

theorem run_ended {pool : Pool S C R M ι α} {process : ι} {value : α} (ended : pool.programs process = .done value)
    (events : List (Event ι M E)) : (pool.run machine events).programs process = .done value := by
  apply run_invariant (I := fun later => later.programs process = .done value) ended
  intro later event stays
  rcases step_cases machine later event with
    same | ⟨change, rfl, stepped⟩ | ⟨actor, mode, command, next, rfl, pending, stepped⟩
  · rw [same, stays]
  · rw [stepped, stays]
  · have apart : process ≠ actor := by
      intro same
      rw [← same, stays] at pending
      cases pending
    rw [stepped]
    simpa [apart] using stays

end Pool

end Process
