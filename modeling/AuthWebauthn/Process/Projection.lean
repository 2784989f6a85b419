import AuthWebauthn.Process.Pool

namespace Process

/-! Processes whose commands leave every state alone can be taken out of a run.  The others may at
the same time be replaced by programs that issue the same commands.
-/

variable {S C R M E ι α β γ δ : Type}

/-- The command leaves every state, however it is served. -/
def Machine.Reads (machine : Machine S C R M E) (command : C) : Prop :=
  ∀ mode state, (machine.serve mode state command).1 = state

namespace Prog

/-- The programs issue the same commands, whatever the replies, and end in related values. -/
inductive Lockstep (related : α → β → Prop) : Prog C R α → Prog C R β → Prop where
  | done {value : α} {other : β} (ended : related value other) : Lockstep related (.done value) (.done other)
  | call {command : C} {next : R → Prog C R α} {follow : R → Prog C R β}
      (rest : ∀ reply, Lockstep related (next reply) (follow reply)) :
      Lockstep related (.call command next) (.call command follow)

theorem Lockstep.refl (program : Prog C R α) : Lockstep Eq program program := by
  induction program with
  | done value => exact .done rfl
  | call command next ih => exact .call ih

theorem Lockstep.map {related : α → β → Prop} {after : γ → δ → Prop} {program : Prog C R α}
    {other : Prog C R β} {f : α → γ} {g : β → δ} (lockstep : Lockstep related program other)
    (carried : ∀ value result, related value result → after (f value) (g result)) :
    Lockstep after (program.map f) (other.map g) := by
  induction lockstep with
  | done ended => exact .done (carried _ _ ended)
  | call _ ih => exact .call ih

theorem Lockstep.ending {related : α → β → Prop} {f : β → α} (carried : ∀ result, related (f result) result)
    (program : Prog C R β) : Lockstep related (program >>= fun result => .done (f result)) program := by
  induction program with
  | done value => exact .done (carried value)
  | call command next ih => exact .call ih

/-- One of the programs has ended exactly when the other has, in related values. -/
theorem Lockstep.result {related : α → β → Prop} {program : Prog C R α} {other : Prog C R β}
    (lockstep : Lockstep related program other) : Option.Rel related program.result other.result := by
  cases lockstep with
  | done ended => exact .some ended
  | call rest => exact .none

end Prog

/-- The event, unless it is a step of a process that is left out. -/
def Event.onto (kept : ι → Prop) [DecidablePred kept] : Event ι M E → Option (Event {process // kept process} M E)
  | .environment change => some (.environment change)
  | .step process mode => if stays : kept process then some (.step ⟨process, stays⟩ mode) else none

namespace Pool

variable {machine : Machine S C R M E} {kept : ι → Prop} {related : {process // kept process} → α → β → Prop}

/-- The pools agree but for the log and the processes that are left out. -/
structure Projects (machine : Machine S C R M E) (related : {process // kept process} → α → β → Prop)
    (pool : Pool S C R M ι α) (other : Pool S C R M {process // kept process} β) : Prop where
  state : pool.state = other.state
  lockstep : ∀ process, Prog.Lockstep (related process) (pool.programs process) (other.programs process)
  reads : ∀ process, ¬ kept process → (pool.programs process).Issues machine.Reads

variable [DecidableEq ι] {pool : Pool S C R M ι α}
  {other : Pool S C R M {process // kept process} β}

theorem Projects.step_kept (projects : Projects machine related pool other)
    (process : {process // kept process}) (mode : M) :
    Projects machine related (pool.step machine (.step process.val mode))
      (other.step machine (.step process mode)) := by
  have own := projects.lockstep process
  cases pending : pool.programs process with
  | done value =>
      rw [pending] at own
      cases ended : other.programs process with
      | done result =>
          simp only [step, pending, ended]
          exact projects
      | call command follow =>
          rw [ended] at own
          cases own
  | call command next =>
      rw [pending] at own
      cases waiting : other.programs process with
      | done result =>
          rw [waiting] at own
          cases own
      | call command follow =>
          rw [waiting] at own
          cases own with
          | call rest =>
              simp only [step, pending, waiting, projects.state]
              refine ⟨rfl, ?_, ?_⟩
              · intro target
                by_cases same : target = process
                · subst same
                  simpa using rest _
                · have apart : target.val ≠ process.val := fun equal => same (Subtype.ext equal)
                  simpa [same, apart] using projects.lockstep target
              · intro target left
                have apart : target ≠ process.val := fun equal => left (equal ▸ process.2)
                simpa [apart] using projects.reads target left

theorem Projects.step_left (projects : Projects machine related pool other) {process : ι}
    (left : ¬ kept process) (mode : M) :
    Projects machine related (pool.step machine (.step process mode)) other := by
  have own := projects.reads process left
  cases pending : pool.programs process with
  | done value =>
      simp only [step, pending]
      exact projects
  | call command next =>
      rw [pending] at own
      simp only [step, pending]
      refine ⟨(own.1 mode pool.state).trans projects.state, ?_, ?_⟩
      · intro target
        have apart : target.val ≠ process := fun equal => left (equal ▸ target.2)
        simpa [apart] using projects.lockstep target
      · intro target leaves
        by_cases same : target = process
        · subst same
          simpa using own.2 _
        · simpa [same] using projects.reads target leaves

/-- A run reaches what the run without the processes left out reaches. -/
theorem Projects.run [DecidablePred kept] (projects : Projects machine related pool other) (events : List (Event ι M E)) :
    Projects machine related (pool.run machine events)
      (other.run machine (events.filterMap (Event.onto kept))) := by
  induction events generalizing pool other with
  | nil => exact projects
  | cons event rest ih =>
      cases event with
      | environment change =>
          have stepped : Projects machine related (pool.step machine (.environment change))
              (other.step machine (.environment change)) :=
            ⟨congrArg (machine.evolve change) projects.state, projects.lockstep, projects.reads⟩
          simpa [Event.onto, Pool.run] using ih stepped
      | step process mode =>
          by_cases stays : kept process
          · simpa [Event.onto, Pool.run, stays] using ih (projects.step_kept ⟨process, stays⟩ mode)
          · simpa [Event.onto, Pool.run, stays] using ih (projects.step_left stays mode)

end Pool

end Process
