import Mathlib.Data.List.Basic

namespace Process

/-! A program either has finished or issues one command and continues with the
reply.  Nothing here says what commands mean: a machine answers them, and a
pool of programs (see `Process.Pool`) shares one machine.
-/

inductive Prog (C R α : Type) where
  | done (value : α)
  | call (command : C) (next : R → Prog C R α)

namespace Prog

variable {C R α β : Type}

def bind : Prog C R α → (α → Prog C R β) → Prog C R β
  | .done value, rest => rest value
  | .call command next, rest => .call command fun reply => (next reply).bind rest

instance : Monad (Prog C R) where
  pure := .done
  bind := .bind

/-- Issue one command and return its reply. -/
def issue (command : C) : Prog C R R := .call command .done

@[simp] theorem pure_eq (value : α) : (pure value : Prog C R α) = .done value := rfl

@[simp] theorem done_bind (value : α) (rest : α → Prog C R β) :
    ((Prog.done value : Prog C R α) >>= rest) = rest value := rfl

@[simp] theorem call_bind (command : C) (next : R → Prog C R α) (rest : α → Prog C R β) :
    (Prog.call command next >>= rest) = .call command fun reply => next reply >>= rest := rfl

@[simp] theorem issue_bind (command : C) (rest : R → Prog C R β) :
    ((issue command : Prog C R R) >>= rest) = .call command rest := rfl

def map (f : α → β) : Prog C R α → Prog C R β
  | .done value => .done (f value)
  | .call command next => .call command fun reply => (next reply).map f

theorem bind_assoc {γ : Type} (program : Prog C R α) (rest : α → Prog C R β) (last : β → Prog C R γ) :
    (program >>= rest) >>= last = program >>= fun value => rest value >>= last := by
  induction program with
  | done value => rfl
  | call command next ih => exact congrArg (call command) (funext ih)

theorem map_bind {γ : Type} (f : β → γ) (program : Prog C R α) (rest : α → Prog C R β) :
    (program >>= rest).map f = program >>= fun value => (rest value).map f := by
  induction program with
  | done value => rfl
  | call command next ih => exact congrArg (call command) (funext ih)

def result : Prog C R α → Option α
  | .done value => some value
  | .call _ _ => none

theorem eq_done_of_result {program : Prog C R α} {value : α} (ended : program.result = some value) :
    program = .done value := by
  cases program with
  | done result => exact congrArg Prog.done (Option.some.inj ended)
  | call command next => cases ended

/-- Every command the program can issue, whatever the replies, satisfies
`allowed`. -/
def Issues (allowed : C → Prop) : Prog C R α → Prop
  | .done _ => True
  | .call command next => allowed command ∧ ∀ reply, (next reply).Issues allowed

@[simp] theorem issues_done (allowed : C → Prop) (value : α) :
    (Prog.done value : Prog C R α).Issues allowed := trivial

@[simp] theorem issues_call (allowed : C → Prop) (command : C) (next : R → Prog C R α) :
    (Prog.call command next).Issues allowed ↔
      allowed command ∧ ∀ reply, (next reply).Issues allowed := Iff.rfl

@[simp] theorem issues_ite (allowed : C → Prop) {condition : Prop} [Decidable condition]
    (first second : Prog C R α) :
    (if condition then first else second).Issues allowed ↔
      (condition → first.Issues allowed) ∧ (¬ condition → second.Issues allowed) := by
  split_ifs with holds <;> simp [holds]

theorem Issues.bind {allowed : C → Prop} {program : Prog C R α} {rest : α → Prog C R β}
    (first : program.Issues allowed) (later : ∀ value, (rest value).Issues allowed) :
    (program >>= rest).Issues allowed := by
  induction program with
  | done value => exact later value
  | call command next ih => exact ⟨first.1, fun reply => ih reply (first.2 reply)⟩

theorem Issues.map {allowed : C → Prop} {program : Prog C R α} (f : α → β)
    (issues : program.Issues allowed) : (program.map f).Issues allowed := by
  induction program with
  | done value => trivial
  | call command next ih => exact ⟨issues.1, fun reply => ih reply (issues.2 reply)⟩

/-- `Talks program exchanges rest`: answering the commands of `program` with
the replies of `exchanges`, in order, leaves `rest`. -/
inductive Talks : Prog C R α → List (C × R) → Prog C R α → Prop where
  | nil (program : Prog C R α) : Talks program [] program
  | cons {command : C} {next : R → Prog C R α} {reply : R}
      {exchanges : List (C × R)} {rest : Prog C R α}
      (tail : Talks (next reply) exchanges rest) :
      Talks (.call command next) ((command, reply) :: exchanges) rest

theorem Talks.snoc {program rest : Prog C R α} {exchanges : List (C × R)}
    {command : C} {next : R → Prog C R α} (talks : Talks program exchanges rest)
    (pending : rest = .call command next) (reply : R) :
    Talks program (exchanges ++ [(command, reply)]) (next reply) := by
  induction talks with
  | nil program => subst pending; exact .cons (.nil _)
  | cons tail ih => exact .cons (ih pending)

theorem Talks.split {program rest : Prog C R α} {front back : List (C × R)}
    (talks : Talks program (front ++ back) rest) :
    ∃ middle, Talks program front middle ∧ Talks middle back rest := by
  induction front generalizing program with
  | nil => exact ⟨program, .nil _, talks⟩
  | cons exchange front ih =>
      cases talks with
      | cons tail =>
          obtain ⟨middle, first, second⟩ := ih tail
          exact ⟨middle, .cons first, second⟩

theorem Talks.issues {allowed : C → Prop} {program rest : Prog C R α}
    {exchanges : List (C × R)} (issues : program.Issues allowed)
    (talks : Talks program exchanges rest) :
    (∀ exchange ∈ exchanges, allowed exchange.1) ∧ rest.Issues allowed := by
  induction talks with
  | nil program => exact ⟨by simp, issues⟩
  | cons tail ih =>
      obtain ⟨all, remaining⟩ := ih (issues.2 _)
      refine ⟨?_, remaining⟩
      intro exchange member
      rcases List.mem_cons.mp member with rfl | later
      · exact issues.1
      · exact all exchange later

theorem Talks.done_nil {value : α} {rest : Prog C R α} {exchanges : List (C × R)}
    (talks : Talks (.done value) exchanges rest) : exchanges = [] ∧ rest = .done value := by
  cases talks
  exact ⟨rfl, rfl⟩

theorem Talks.call_cases {command : C} {next : R → Prog C R α} {rest : Prog C R α}
    {exchanges : List (C × R)} (talks : Talks (.call command next) exchanges rest) :
    (exchanges = [] ∧ rest = .call command next) ∨
    ∃ reply later, exchanges = (command, reply) :: later ∧ Talks (next reply) later rest := by
  cases talks with
  | nil => exact .inl ⟨rfl, rfl⟩
  | cons tail => exact .inr ⟨_, _, rfl, tail⟩

theorem Talks.of_map {f : α → β} {program : Prog C R α} {exchanges : List (C × R)}
    {rest : Prog C R β} (talks : Talks (program.map f) exchanges rest) :
    ∃ before, rest = before.map f ∧ Talks program exchanges before := by
  induction program generalizing exchanges with
  | done value =>
      obtain ⟨rfl, rfl⟩ := talks.done_nil
      exact ⟨.done value, rfl, .nil _⟩
  | call command next ih =>
      rcases talks.call_cases with ⟨rfl, rfl⟩ | ⟨reply, later, rfl, tail⟩
      · exact ⟨.call command next, rfl, .nil _⟩
      · obtain ⟨before, same, talked⟩ := ih reply tail
        exact ⟨before, same, .cons talked⟩

/-- A finished run of a sequence is a finished run of its first part and one of
the rest. -/
theorem Talks.of_bind {program : Prog C R α} {rest : α → Prog C R β} {exchanges : List (C × R)}
    {value : β} (talks : Talks (program >>= rest) exchanges (.done value)) :
    ∃ front back first, exchanges = front ++ back ∧ Talks program front (.done first) ∧
      Talks (rest first) back (.done value) := by
  induction program generalizing exchanges with
  | done first => exact ⟨[], exchanges, first, rfl, .nil _, talks⟩
  | call command next ih =>
      rcases talks.call_cases with ⟨_, stuck⟩ | ⟨reply, later, rfl, tail⟩
      · cases stuck
      · obtain ⟨front, back, first, rfl, talked, remaining⟩ := ih reply tail
        exact ⟨(command, reply) :: front, back, first, rfl, .cons talked, remaining⟩

/-- The program after these replies; one that has finished takes no more. -/
def answer : Prog C R α → List R → Prog C R α
  | program, [] => program
  | .done value, _ :: _ => .done value
  | .call _ next, reply :: replies => (next reply).answer replies

theorem answer_talks (program : Prog C R α) (replies : List R) :
    ∃ exchanges, Talks program exchanges (program.answer replies) := by
  induction replies generalizing program with
  | nil => exact ⟨[], by unfold answer; exact .nil _⟩
  | cons reply replies ih =>
      cases program with
      | done value => exact ⟨[], .nil _⟩
      | call command next =>
          obtain ⟨exchanges, talks⟩ := ih (next reply)
          exact ⟨(command, reply) :: exchanges, .cons talks⟩

theorem Talks.bind {program : Prog C R α} {rest : α → Prog C R β} {front back : List (C × R)}
    {first : α} {last : Prog C R β} (talks : Talks program front (.done first))
    (remaining : Talks (rest first) back last) : Talks (program >>= rest) (front ++ back) last := by
  induction program generalizing front with
  | done value =>
      obtain ⟨rfl, same⟩ := talks.done_nil
      cases same
      exact remaining
  | call command next ih =>
      rcases talks.call_cases with ⟨_, stuck⟩ | ⟨reply, later, rfl, tail⟩
      · cases stuck
      · exact .cons (ih reply tail)

end Prog

end Process
