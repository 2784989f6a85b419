import AuthWebauthn.Conf.Merge
import AuthWebauthn.Data.Getopt
import AuthWebauthn.Data.Strtol
import AuthWebauthn.Register.Command
import Mathlib.Data.List.Induction

namespace AuthWebauthn

open Getopt Strtol

/-! `auth_webauthn_admin_parse_common_opt` and the `getopt_long` loop that each command runs over its
own table.  What `getopt_long` itself prints is not part of the model.
-/

structure AdminCtx where
  redisHost : Bytes
  redisPort : Int32
  redisPassword : Bytes
  redisDb : UInt64
  redisTimeoutMs : UInt64
  keyPrefix : Bytes
deriving DecidableEq

/-- What `main` hands to a command. -/
def adminCtx : AdminCtx where
  redisHost := []
  redisPort := 0
  redisPassword := []
  redisDb := 0
  redisTimeoutMs := 100
  keyPrefix := ascii "webauthn:"

inductive CommonOpt where
  | redis
  | redisPassword
  | redisDb
  | redisTimeout
  | keyPrefix
deriving DecidableEq

/-- The common options, and those of one command. -/
inductive Opt (O : Type) where
  | help
  | common (opt : CommonOpt)
  | own (opt : O)
deriving DecidableEq

/-- What reading a file gives, the n-th time that one is read: standard input is read only once. -/
abbrev FileReads := Nat → Bytes → Except Bytes Bytes

/-- The parts around the last separator, `strrchr`. -/
def splitLast (separator : UInt8) (text : Bytes) : Option (Bytes × Bytes) :=
  match text.reverse.dropWhile (· ≠ separator) with
  | [] => none
  | _ :: front => some (front.reverse, (text.reverse.takeWhile (· ≠ separator)).reverse)

def adminParseRedis (arg : Bytes) : Except Bytes (Bytes × Int32) :=
  match splitLast 58 arg with
  | none => .error (ascii "error: --redis expects <host>:<port>\n")
  | some (host, text) =>
      if host = [] ∨ text = [] then .error (ascii "error: --redis expects <host>:<port>\n")
      else if (strtol text).2 ≠ [] ∨ (strtol text).1 ≤ 0 ∨ (strtol text).1 > 65535 then
        .error (ascii "error: --redis port out of range\n")
      else .ok (host, Int32.ofInt (strtol text).1)

/-- The numbers of `--redis-db` and `--redis-timeout`. -/
def adminParseNumber (largest : Int) (message arg : Bytes) : Except Bytes UInt64 :=
  if (strtol arg).2 ≠ [] ∨ (strtol arg).1 < 0 ∨ (strtol arg).1 > largest then .error message
  else .ok (UInt64.ofInt (strtol arg).1)

def adminParseDb : Bytes → Except Bytes UInt64 :=
  adminParseNumber 65535 (ascii "error: --redis-db out of range\n")

def adminParseTimeout : Bytes → Except Bytes UInt64 :=
  adminParseNumber 600000 (ascii "error: --redis-timeout out of range (ms)\n")

/-- The path behind `file:`. -/
def passwordFile (arg : Bytes) : Option Bytes :=
  if (ascii "file:").isPrefixOf arg then some (arg.drop 5) else none

def adminChomp : Bytes → Bytes := chomp

/-- The context after the option, and how many files have been read. -/
def adminParseCommonOpt (files : FileReads) (ctx : AdminCtx) (reads : Nat) (opt : CommonOpt) (arg : Bytes) :
    Except Bytes (AdminCtx × Nat) :=
  match opt with
  | .redis => do
      let address ← adminParseRedis arg
      return ({ ctx with redisHost := address.1, redisPort := address.2 }, reads)
  | .redisPassword =>
      match passwordFile arg with
      | some path => do
          let file ← files reads path
          return ({ ctx with redisPassword := adminChomp file }, reads + 1)
      | none => return ({ ctx with redisPassword := arg }, reads)
  | .redisDb => do
      let db ← adminParseDb arg
      return ({ ctx with redisDb := db }, reads)
  | .redisTimeout => do
      let timeout ← adminParseTimeout arg
      return ({ ctx with redisTimeoutMs := timeout }, reads)
  | .keyPrefix => return ({ ctx with keyPrefix := arg }, reads)

/-- Why a command ends with its options: it prints its usage, or a message and fails. -/
inductive OptStop where
  | help
  | usage (message : Bytes)
deriving DecidableEq

structure OptState (A : Type) where
  ctx : AdminCtx
  reads : Nat
  args : A
deriving DecidableEq

section Loop

variable {O A : Type} (files : FileReads) (store : O → Bytes → A → A)

/-- One turn of the option loop. -/
def optionTurn (state : OptState A) : Event (Opt O) → Except OptStop (OptState A)
  | .invalid => .error (.usage [])
  | .option .help _ => .error .help
  | .option (.own opt) argument => .ok { state with args := store opt (argument.getD []) state.args }
  | .option (.common opt) argument =>
      match adminParseCommonOpt files state.ctx state.reads opt (argument.getD []) with
      | .error message => .error (.usage message)
      | .ok (ctx, reads) => .ok { state with ctx, reads }

def commonOptions : List (LongOption (Opt O)) :=
  [⟨ascii "redis", true, .common .redis⟩, ⟨ascii "redis-password", true, .common .redisPassword⟩,
    ⟨ascii "redis-db", true, .common .redisDb⟩, ⟨ascii "redis-timeout", true, .common .redisTimeout⟩,
    ⟨ascii "key-prefix", true, .common .keyPrefix⟩, ⟨ascii "help", false, .help⟩]

/-- The letter `h`, and the long options of a command in front of the common ones. -/
def optionTable (own : List (Bytes × O)) : Table (Opt O) where
  short letter := if letter = 104 then some .help else none
  long := own.map (fun entry => ⟨entry.1, true, .own entry.2⟩) ++ commonOptions

def parseOptions [DecidableEq O] (posix : Bool) (own : List (Bytes × O)) (start : A) (words : List Bytes) :
    Except OptStop (OptState A) :=
  (scan posix (optionTable own) words).foldlM (optionTurn files store) ⟨adminCtx, 0, start⟩

end Loop

section Last

variable {O A : Type} [DecidableEq O]

def lastArgument (code : Opt O) (events : List (Event (Opt O))) : Option Bytes :=
  (arguments code events).getLast?

/-- The files that passwords are read from, in the order they are read. -/
def passwordFiles (events : List (Event (Opt O))) : List Bytes :=
  (arguments (.common .redisPassword) events).filterMap passwordFile

/-- What makes the argument of a common option valid; `reads` counts the files read before. -/
def ArgumentValid (files : FileReads) (reads : Nat) (arg : Bytes) : CommonOpt → Prop
  | .redis => ∃ address, adminParseRedis arg = .ok address
  | .redisPassword => ∀ path, passwordFile arg = some path → ∃ file, files reads path = .ok file
  | .redisDb => ∃ db, adminParseDb arg = .ok db
  | .redisTimeout => ∃ timeout, adminParseTimeout arg = .ok timeout
  | .keyPrefix => True

/-- Every argument of a common option is valid where it stands. -/
def CommonValid (files : FileReads) (events : List (Event (Opt O))) : Prop :=
  ∀ front opt argument back, events = front ++ .option (.common opt) argument :: back →
    ArgumentValid files (passwordFiles front).length (argument.getD []) opt

/-- A value that an option may set. -/
def settled {α : Type} (parse : Bytes → Except Bytes α) (fallback : α) (arg : Option Bytes) : α :=
  match arg with
  | none => fallback
  | some text => ((parse text).toOption).getD fallback

/-- A password is read from the last file that was named for one. -/
def settledPassword (files : FileReads) (events : List (Event (Opt O))) : Bytes :=
  settled (fun arg =>
    match passwordFile arg with
    | some path => (files ((passwordFiles events).length - 1) path).map adminChomp
    | none => .ok arg) [] (lastArgument (.common .redisPassword) events)

def settledCtx (files : FileReads) (events : List (Event (Opt O))) : AdminCtx where
  redisHost := (settled adminParseRedis ([], 0) (lastArgument (.common .redis) events)).1
  redisPort := (settled adminParseRedis ([], 0) (lastArgument (.common .redis) events)).2
  redisPassword := settledPassword files events
  redisDb := settled adminParseDb 0 (lastArgument (.common .redisDb) events)
  redisTimeoutMs := settled adminParseTimeout 100 (lastArgument (.common .redisTimeout) events)
  keyPrefix := (lastArgument (.common .keyPrefix) events).getD (ascii "webauthn:")

/-- The private options, one after the other. -/
def storeAll (store : O → Bytes → A → A) (start : A) (events : List (Event (Opt O))) : A :=
  events.foldl (fun args event =>
    match event with
    | .option (.own opt) argument => store opt (argument.getD []) args
    | _ => args) start

variable {files : FileReads} {events : List (Event (Opt O))}

theorem lastArgument_snoc (code found : Opt O) (argument : Option Bytes) :
    lastArgument code (events ++ [.option found argument]) =
      if found = code then some (argument.getD []) else lastArgument code events := by
  unfold lastArgument
  rw [arguments_snoc]
  split_ifs with same
  · simp
  · rfl

theorem passwordFiles_snoc (found : Opt O) (argument : Option Bytes) :
    passwordFiles (events ++ [.option found argument]) =
      if found = .common .redisPassword then passwordFiles events ++ (passwordFile (argument.getD [])).toList
      else passwordFiles events := by
  unfold passwordFiles
  rw [arguments_snoc]
  split_ifs with same
  · cases named : passwordFile (argument.getD []) with
    | none => simp [List.filterMap_append, named]
    | some path => simp [List.filterMap_append, named]
  · rfl

omit [DecidableEq O] in
theorem storeAll_snoc (store : O → Bytes → A → A) (start : A) (event : Event (Opt O)) :
    storeAll store start (events ++ [event]) =
      match event with
      | .option (.own opt) argument => store opt (argument.getD []) (storeAll store start events)
      | _ => storeAll store start events := by
  unfold storeAll
  rw [List.foldl_append]
  rfl

/-- An option of the command leaves what the common options say. -/
theorem settledCtx_own (opt : O) (argument : Option Bytes) :
    settledCtx files (events ++ [.option (.own opt) argument]) = settledCtx files events := by
  simp [settledCtx, settledPassword, lastArgument_snoc, passwordFiles_snoc]

theorem commonValid_snoc {event : Event (Opt O)} :
    CommonValid files (events ++ [event]) ↔ CommonValid files events ∧
      ∀ opt argument, event = .option (.common opt) argument →
        ArgumentValid files (passwordFiles events).length (argument.getD []) opt := by
  constructor
  · intro valid
    refine ⟨?_, ?_⟩
    · intro front opt argument back split
      exact valid front opt argument (back ++ [event]) (by simp [split])
    · intro opt argument same
      exact valid events opt argument [] (by rw [same])
  · intro both front opt argument back split
    rcases List.eq_nil_or_concat back with rfl | ⟨back, last, rfl⟩
    · obtain ⟨rfl, same⟩ := List.append_inj' split rfl
      exact both.2 opt argument (List.cons.inj same).1
    · rw [List.concat_eq_append, ← List.cons_append, ← List.append_assoc] at split
      exact both.1 front opt argument back (List.append_inj' split rfl).1

/-- One more common option. -/
theorem commonOpt_ok_iff {opt : CommonOpt} {argument : Option Bytes} {after : AdminCtx × Nat} :
    adminParseCommonOpt files (settledCtx files events) (passwordFiles events).length opt (argument.getD []) =
        .ok after ↔
      ArgumentValid files (passwordFiles events).length (argument.getD []) opt ∧
        after = (settledCtx files (events ++ [.option (.common opt) argument]),
          (passwordFiles (events ++ [.option (.common opt) argument])).length) := by
  cases opt with
  | redis =>
      cases parsed : adminParseRedis (argument.getD []) with
      | error message => simp [adminParseCommonOpt, ArgumentValid, parsed, bind, Except.bind]
      | ok address =>
          simp [adminParseCommonOpt, ArgumentValid, parsed, bind, Except.bind, pure, Except.pure, settledCtx,
            settledPassword, lastArgument_snoc, passwordFiles_snoc, settled, Except.toOption, eq_comm]
  | redisPassword =>
      cases named : passwordFile (argument.getD []) with
      | none =>
          simp [adminParseCommonOpt, ArgumentValid, named, pure, Except.pure, settledCtx, settledPassword,
            lastArgument_snoc, passwordFiles_snoc, settled, Except.toOption, eq_comm]
      | some path =>
          cases opened : files (passwordFiles events).length path with
          | error message => simp [adminParseCommonOpt, ArgumentValid, named, opened, bind, Except.bind]
          | ok file =>
              simp [adminParseCommonOpt, ArgumentValid, named, opened, bind, Except.bind, pure, Except.pure,
                settledCtx, settledPassword, lastArgument_snoc, passwordFiles_snoc, settled, Except.map,
                Except.toOption, eq_comm]
  | redisDb =>
      cases parsed : adminParseDb (argument.getD []) with
      | error message => simp [adminParseCommonOpt, ArgumentValid, parsed, bind, Except.bind]
      | ok db =>
          simp [adminParseCommonOpt, ArgumentValid, parsed, bind, Except.bind, pure, Except.pure, settledCtx,
            settledPassword, lastArgument_snoc, passwordFiles_snoc, settled, Except.toOption, eq_comm]
  | redisTimeout =>
      cases parsed : adminParseTimeout (argument.getD []) with
      | error message => simp [adminParseCommonOpt, ArgumentValid, parsed, bind, Except.bind]
      | ok timeout =>
          simp [adminParseCommonOpt, ArgumentValid, parsed, bind, Except.bind, pure, Except.pure, settledCtx,
            settledPassword, lastArgument_snoc, passwordFiles_snoc, settled, Except.toOption, eq_comm]
  | keyPrefix =>
      simp [adminParseCommonOpt, ArgumentValid, pure, Except.pure, settledCtx, settledPassword,
        lastArgument_snoc, passwordFiles_snoc, eq_comm]

/-- One more turn of the loop. -/
theorem optionTurn_ok_iff {store : O → Bytes → A → A} {start : A} {event : Event (Opt O)} {after : OptState A} :
    optionTurn files store
        ⟨settledCtx files events, (passwordFiles events).length, storeAll store start events⟩ event = .ok after ↔
      event ≠ .invalid ∧ (∀ argument, event ≠ .option .help argument) ∧
        (∀ opt argument, event = .option (.common opt) argument →
          ArgumentValid files (passwordFiles events).length (argument.getD []) opt) ∧
        after = ⟨settledCtx files (events ++ [event]), (passwordFiles (events ++ [event])).length,
          storeAll store start (events ++ [event])⟩ := by
  cases event with
  | invalid => simp [optionTurn]
  | option code argument =>
      cases code with
      | help => simp [optionTurn]
      | own opt =>
          simp [optionTurn, settledCtx_own, passwordFiles_snoc, storeAll_snoc, eq_comm]
      | common opt =>
          have parsed := @commonOpt_ok_iff O _ files events opt argument
          simp only [optionTurn, storeAll_snoc]
          cases ran : adminParseCommonOpt files (settledCtx files events) (passwordFiles events).length opt
              (argument.getD []) with
          | error message =>
              refine Iff.intro ?_ ?_
              · intro same
                cases same
              intro all
              have succeeded := parsed.mpr ⟨all.2.2.1 opt argument rfl, rfl⟩
              rw [ran] at succeeded
              cases succeeded
          | ok found =>
              obtain ⟨valid, rfl⟩ := parsed.mp ran
              have here : ∀ other given, Event.option (Opt.common opt) argument =
                  .option (.common other : Opt O) given →
                    ArgumentValid files (passwordFiles events).length (given.getD []) other := by
                intro other given same
                cases same
                exact valid
              simp only [Except.ok.injEq, ne_eq, reduceCtorEq, not_false_eq_true, Event.option.injEq, false_and,
                implies_true, true_and]
              exact ⟨fun same => ⟨fun other given both => here other given (by rw [both.1, both.2]), same.symm⟩,
                fun both => both.2.symm⟩

/-- The loop ends well exactly on options that are all valid, and then with their last arguments. -/
theorem optionLoop_ok_iff {store : O → Bytes → A → A} {start : A} {state : OptState A} :
    events.foldlM (optionTurn files store) ⟨adminCtx, 0, start⟩ = .ok state ↔
      Event.invalid ∉ events ∧ (∀ argument, Event.option .help argument ∉ events) ∧
        CommonValid files events ∧
        state = ⟨settledCtx files events, (passwordFiles events).length, storeAll store start events⟩ := by
  induction events using List.reverseRecOn generalizing state with
  | nil =>
      have nothing : CommonValid files ([] : List (Event (Opt O))) := by
        intro front opt argument back split
        simp at split
      simp only [List.foldlM_nil, List.not_mem_nil, not_false_eq_true, implies_true, nothing, true_and]
      constructor
      · intro same
        exact (Except.ok.inj same).symm
      · intro same
        exact congrArg Except.ok same.symm
  | append_singleton events event ih =>
      rw [List.foldlM_append, except_bind_ok, commonValid_snoc]
      simp only [List.foldlM_cons, List.foldlM_nil, bind_pure, List.mem_append, List.mem_singleton, not_or]
      constructor
      · intro ran
        obtain ⟨middle, before, turned⟩ := ran
        obtain ⟨valid, asked, common, rfl⟩ := ih.mp before
        obtain ⟨proper, noHelp, last, same⟩ := optionTurn_ok_iff.mp turned
        exact ⟨⟨valid, proper.symm⟩, fun argument => ⟨asked argument, (noHelp argument).symm⟩, ⟨common, last⟩, same⟩
      · intro all
        obtain ⟨⟨valid, proper⟩, asked, ⟨common, last⟩, same⟩ := all
        exact ⟨_, ih.mpr ⟨valid, fun argument => (asked argument).1, common, rfl⟩,
          optionTurn_ok_iff.mpr ⟨Ne.symm proper, fun argument => Ne.symm (asked argument).2, last, same⟩⟩

theorem parseOptions_ok_iff {posix : Bool} {own : List (Bytes × O)} {store : O → Bytes → A → A} {start : A}
    {words : List Bytes} {state : OptState A} :
    parseOptions files store posix own start words = .ok state ↔
      ∃ events, Line posix (optionTable own) words events ∧
        (∀ argument, Event.option .help argument ∉ events) ∧ CommonValid files events ∧
        state = ⟨settledCtx files events, (passwordFiles events).length, storeAll store start events⟩ := by
  unfold parseOptions
  rw [optionLoop_ok_iff]
  constructor
  · intro ended
    obtain ⟨valid, rest⟩ := ended
    exact ⟨_, line_of_scan valid, rest⟩
  · intro written
    obtain ⟨events, line, rest⟩ := written
    rw [line.scan]
    exact ⟨line.valid, rest⟩

end Last

end AuthWebauthn
