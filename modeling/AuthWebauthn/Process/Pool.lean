import AuthWebauthn.Process.Program
import Mathlib.Logic.Function.Basic

namespace Process

/-! A machine serves one command at a time.  The mode of a step says how serving
it goes (for instance whether the command or its reply is lost) and may differ
from step to step.  Between steps the environment may change the machine's
state.  A pool runs any family of programs on one machine; its log records
every served command together with the state it was served in.
-/

structure Machine (S C R M E : Type) where
  serve : M → S → C → S × R
  evolve : E → S → S

variable {S C R M E ι α : Type}

namespace Prog

/-- Run a program alone, taking the modes of its commands from `modes` and
`normal` once these are used up. -/
def exec (machine : Machine S C R M E) (normal : M) : Prog C R α → List M → S → α × S
  | .done value, _, state => (value, state)
  | .call command next, modes, state =>
      let served := machine.serve (modes.headD normal) state command
      (next served.2).exec machine normal modes.tail served.1

@[simp] theorem exec_done (machine : Machine S C R M E) (normal : M) (value : α)
    (modes : List M) (state : S) :
    (Prog.done value : Prog C R α).exec machine normal modes state = (value, state) := rfl

@[simp] theorem exec_call (machine : Machine S C R M E) (normal : M) (command : C)
    (next : R → Prog C R α) (modes : List M) (state : S) :
    (Prog.call command next).exec machine normal modes state =
      (next (machine.serve (modes.headD normal) state command).2).exec machine normal modes.tail
        (machine.serve (modes.headD normal) state command).1 := rfl

/-- The commands of such a run, each with the reply it got. -/
def transcript (machine : Machine S C R M E) (normal : M) : Prog C R α → List M → S → List (C × R)
  | .done _, _, _ => []
  | .call command next, modes, state =>
      let served := machine.serve (modes.headD normal) state command
      (command, served.2) :: (next served.2).transcript machine normal modes.tail served.1

end Prog

inductive Event (ι M E : Type) where
  | step (process : ι) (mode : M)
  | environment (change : E)

/-- One served command. -/
structure Served (S C R M ι : Type) where
  process : ι
  command : C
  mode : M
  before : S
  reply : R

def Served.after (machine : Machine S C R M E) (served : Served S C R M ι) : S :=
  (machine.serve served.mode served.before served.command).1

def Served.exchange (served : Served S C R M ι) : C × R := (served.command, served.reply)

structure Pool (S C R M ι α : Type) where
  state : S
  programs : ι → Prog C R α
  log : List (Served S C R M ι)

namespace Pool

def start (state : S) (programs : ι → Prog C R α) : Pool S C R M ι α := ⟨state, programs, []⟩

variable [DecidableEq ι]

/-- A finished process has nothing to serve: its step changes nothing. -/
def step (machine : Machine S C R M E) (pool : Pool S C R M ι α) : Event ι M E → Pool S C R M ι α
  | .environment change => { pool with state := machine.evolve change pool.state }
  | .step process mode =>
      match pool.programs process with
      | .done _ => pool
      | .call command next =>
          let served := machine.serve mode pool.state command
          { state := served.1
            programs := Function.update pool.programs process (next served.2)
            log := pool.log ++ [⟨process, command, mode, pool.state, served.2⟩] }

def run (machine : Machine S C R M E) (pool : Pool S C R M ι α) (events : List (Event ι M E)) :
    Pool S C R M ι α :=
  events.foldl (step machine) pool

variable {machine : Machine S C R M E}

@[simp] theorem run_nil (pool : Pool S C R M ι α) : pool.run machine [] = pool := rfl

theorem run_append (pool : Pool S C R M ι α) (first second : List (Event ι M E)) :
    pool.run machine (first ++ second) = (pool.run machine first).run machine second :=
  List.foldl_append

theorem run_concat (pool : Pool S C R M ι α) (events : List (Event ι M E)) (event : Event ι M E) :
    pool.run machine (events ++ [event]) = (pool.run machine events).step machine event := by
  simp [run]

/-- Everything one event can do to a pool. -/
theorem step_cases (machine : Machine S C R M E) (pool : Pool S C R M ι α) (event : Event ι M E) :
    pool.step machine event = pool ∨
    (∃ change, event = .environment change ∧
      pool.step machine event = { pool with state := machine.evolve change pool.state }) ∨
    ∃ process mode command next, event = .step process mode ∧
      pool.programs process = .call command next ∧
      pool.step machine event =
        { state := (machine.serve mode pool.state command).1
          programs := Function.update pool.programs process
            (next (machine.serve mode pool.state command).2)
          log := pool.log ++ [⟨process, command, mode, pool.state,
            (machine.serve mode pool.state command).2⟩] } := by
  cases event with
  | environment change => exact .inr (.inl ⟨change, rfl, rfl⟩)
  | step process mode =>
      cases pending : pool.programs process with
      | done value => exact .inl (by simp only [step, pending])
      | call command next =>
          exact .inr (.inr ⟨process, mode, command, next, rfl, pending, by simp only [step, pending]⟩)

/-- An invariant of every step is an invariant of every run. -/
theorem run_invariant {I : Pool S C R M ι α → Prop} {pool : Pool S C R M ι α}
    (initial : I pool) (preserved : ∀ pool event, I pool → I (pool.step machine event))
    (events : List (Event ι M E)) : I (pool.run machine events) := by
  induction events generalizing pool with
  | nil => exact initial
  | cons event rest ih => exact ih (preserved pool event initial)

/-- What processes may still issue only shrinks. -/
theorem step_issues {allowed : ι → C → Prop} {pool : Pool S C R M ι α}
    (issues : ∀ process, (pool.programs process).Issues (allowed process)) (event : Event ι M E)
    (process : ι) : ((pool.step machine event).programs process).Issues (allowed process) := by
  rcases step_cases machine pool event with
    same | ⟨change, rfl, stepped⟩ | ⟨actor, mode, command, next, rfl, pending, stepped⟩
  · rw [same]
    exact issues process
  · rw [stepped]
    exact issues process
  · rw [stepped]
    by_cases own : process = actor
    · subst own
      have own := issues process
      rw [pending] at own
      simpa using own.2 _
    · simpa [own] using issues process

/-- The commands a process was served, in order, with their replies. -/
def exchanges (pool : Pool S C R M ι α) (process : ι) : List (C × R) :=
  (pool.log.filter fun served => served.process = process).map Served.exchange

/-- What is left of a program is decided by its own exchanges alone. -/
theorem run_talks (machine : Machine S C R M E) (state : S) (programs : ι → Prog C R α) (events : List (Event ι M E))
    (process : ι) :
    Prog.Talks (programs process)
      (((start state programs : Pool S C R M ι α).run machine events).exchanges process)
      (((start state programs : Pool S C R M ι α).run machine events).programs process) := by
  apply run_invariant
    (I := fun pool => Prog.Talks (programs process) (pool.exchanges process)
      (pool.programs process))
  · exact .nil _
  · intro pool event talks
    rcases step_cases machine pool event with
      same | ⟨change, rfl, stepped⟩ | ⟨actor, mode, command, next, rfl, pending, stepped⟩
    · rw [same]; exact talks
    · rw [stepped]; exact talks
    · rw [stepped]
      by_cases own : actor = process
      · subst own
        simpa [exchanges, Served.exchange] using talks.snoc pending _
      · simpa [exchanges, own, Function.update_of_ne (Ne.symm own)] using talks

end Pool

end Process
