import AuthWebauthn.Admin.Options
import AuthWebauthn.Admin.Report
import AuthWebauthn.Redis.Session

namespace AuthWebauthn

open Getopt Process Redis

/-! `main` of `auth-webauthn-admin` and its four commands.  A command is read from its words first, up
to the check of the option it requires; then it runs.
-/

/-- What a command prints and its exit code. -/
structure AdminOutput where
  stdout : Bytes
  stderr : Bytes
  code : AdminExit
deriving DecidableEq

def adminFailed (message : Bytes) : AdminOutput := ⟨[], message, .fail⟩

def adminMisused (message : Bytes) : AdminOutput := ⟨[], message, .usage⟩

def adminPrinted (text : Bytes) : AdminOutput := ⟨text, [], .ok⟩

/-- The options that only some of the commands have. -/
inductive AdminOpt where
  | userId
  | responseFile
  | rpId
  | requireAttestation
  | origin
  | transports
  | credentialId
deriving DecidableEq

structure AdminArgs where
  userId : Option Bytes
  responseFile : Option Bytes
  rpId : Option Bytes
  requireAttestation : Option Bytes
  transports : Option Bytes
  credentialId : Option Bytes
deriving DecidableEq

/-- The origin is accepted and not looked at. -/
def AdminArgs.store : AdminOpt → Bytes → AdminArgs → AdminArgs
  | .userId, value, args => { args with userId := some value }
  | .responseFile, value, args => { args with responseFile := some value }
  | .rpId, value, args => { args with rpId := some value }
  | .requireAttestation, value, args => { args with requireAttestation := some value }
  | .origin, _, args => args
  | .transports, value, args => { args with transports := some value }
  | .credentialId, value, args => { args with credentialId := some value }

def AdminArgs.none : AdminArgs := ⟨.none, .none, .none, .none, .none, .none⟩

inductive AdminCommand where
  | cmdRegister
  | cmdRevoke
  | cmdList
  | cmdShow
deriving DecidableEq

namespace AdminCommand

def name : AdminCommand → Bytes
  | cmdRegister => ascii "register"
  | cmdRevoke => ascii "revoke"
  | cmdList => ascii "list"
  | cmdShow => ascii "show"

/-- The entries of `longopts` in front of the common ones. -/
def own : AdminCommand → List (Bytes × AdminOpt)
  | cmdRegister => [(ascii "user-id", .userId), (ascii "response-file", .responseFile), (ascii "rp-id", .rpId),
      (ascii "require-attestation", .requireAttestation), (ascii "origin", .origin),
      (ascii "transports", .transports)]
  | cmdRevoke => [(ascii "credential-id", .credentialId)]
  | cmdList => [(ascii "user-id", .userId)]
  | cmdShow => [(ascii "credential-id", .credentialId)]

def usage : AdminCommand → Bytes
  | cmdRegister => ascii (
      "usage: auth-webauthn-admin register [options]\n" ++
      "\n" ++
      "options:\n" ++
      "  --user-id=<id>                 application user id (required)\n" ++
      "  --response-file=<path>         AttestationResponse JSON; '-' reads\n" ++
      "                                 stdin (required)\n" ++
      "  --rp-id=<domain>               expected RP ID (required)\n" ++
      "  --require-attestation=none|packed\n" ++
      "                                 attestation level (default none)\n" ++
      "  --origin=<url>                 accepted but not verified here\n" ++
      "  --transports=<csv>             override transports (usb,nfc,...)\n" ++
      "  --redis=<host:port> ...        see 'auth-webauthn-admin --help'\n")
  | cmdRevoke => ascii (
      "usage: auth-webauthn-admin revoke --credential-id=<id> [options]\n" ++
      "\n" ++
      "options:\n" ++
      "  --credential-id=<b64url>   credential to delete (required)\n" ++
      "  --redis=<host:port> ...    see 'auth-webauthn-admin --help'\n")
  | cmdList => ascii (
      "usage: auth-webauthn-admin list --user-id=<id> [options]\n" ++
      "\n" ++
      "options:\n" ++
      "  --user-id=<id>            user whose credentials to list (required)\n" ++
      "  --redis=<host:port> ...   see 'auth-webauthn-admin --help'\n")
  | cmdShow => ascii (
      "usage: auth-webauthn-admin show --credential-id=<id> [options]\n" ++
      "\n" ++
      "options:\n" ++
      "  --credential-id=<b64url>   credential to display (required)\n" ++
      "  --redis=<host:port> ...    see 'auth-webauthn-admin --help'\n")

end AdminCommand

/-- A command with what it was asked for; `reads` counts the files read so far. -/
inductive AdminJob where
  | registers (args : AdminArgs) (reads : Nat)
  | revokes (credentialId : Bytes)
  | lists (userId : Bytes)
  | shows (credentialId : Bytes)
deriving DecidableEq

/-- The check of the required option; `register` makes its own further down. -/
def AdminCommand.job (args : AdminArgs) (reads : Nat) : AdminCommand → Except Bytes AdminJob
  | .cmdRegister => .ok (.registers args reads)
  | .cmdRevoke =>
      match args.credentialId with
      | none => .error (ascii "error: --credential-id is required\n")
      | some credentialId => .ok (.revokes credentialId)
  | .cmdList =>
      match args.userId with
      | none => .error (ascii "error: --user-id is required\n")
      | some userId => .ok (.lists userId)
  | .cmdShow =>
      match args.credentialId with
      | none => .error (ascii "error: --credential-id is required\n")
      | some credentialId => .ok (.shows credentialId)

def adminCmdParse (posix : Bool) (files : FileReads) (command : AdminCommand) (words : List Bytes) :
    Except AdminOutput (AdminCtx × AdminJob) :=
  match parseOptions files AdminArgs.store posix command.own .none words with
  | .error .help => .error (adminPrinted command.usage)
  | .error (.usage message) => .error (adminMisused message)
  | .ok state =>
      match command.job state.args state.reads with
      | .error message => .error (adminMisused message)
      | .ok job => .ok (state.ctx, job)

def adminConf (ctx : AdminCtx) : RedisConf where
  host := ctx.redisHost
  port := ctx.redisPort
  password := ctx.redisPassword
  db := ctx.redisDb
  timeoutMs := ctx.redisTimeoutMs

def adminConnect (ctx : AdminCtx) : RedisProg (Except Bytes Unit) := do
  if ctx.redisHost = [] ∨ ctx.redisPort = 0 then return .error (ascii "error: --redis=<host:port> is required\n")
  if (← redisConnect (adminConf ctx).host) ≠ .ok then
    return .error (ascii "error: cannot connect to Redis " ++ shown ctx.redisHost ++
      58 :: Decimal.ofInt ctx.redisPort.toInt ++ [10])
  return .ok ()

/-- What a command does with its connection. -/
def adminConnected (ctx : AdminCtx) (command : RedisProg AdminOutput) : RedisProg AdminOutput := do
  match ← adminConnect ctx with
  | .error message => return adminFailed message
  | .ok _ => command

def listMembers (keyPrefix : Bytes) : List Bytes → RedisProg Bytes
  | [] => return []
  | member :: members => do
      let line := listLine member (← credentialGet keyPrefix member)
      return line ++ (← listMembers keyPrefix members)

def adminCmdList (ctx : AdminCtx) (userId : Bytes) : RedisProg AdminOutput :=
  adminConnected ctx do
    match ← redisSmembers (credentialIndexKey ctx.keyPrefix userId) with
    | none => return adminFailed (ascii "error: failed to read credential index\n")
    | some members => return adminPrinted (listHeader ++ (← listMembers ctx.keyPrefix members))

def showOutput (credentialId : Bytes) : Except Rc Credential → AdminOutput
  | .error .declined => adminFailed (ascii "error: no such credential\n")
  | .error _ => adminFailed (ascii "error: failed to read credential\n")
  | .ok cred => adminPrinted (showReport credentialId cred)

def adminCmdShow (ctx : AdminCtx) (credentialId : Bytes) : RedisProg AdminOutput :=
  adminConnected ctx do return showOutput credentialId (← credentialGet ctx.keyPrefix credentialId)

def revokeOutput (credentialId : Bytes) : Rc → AdminOutput
  | .declined => adminFailed (ascii "error: no such credential\n")
  | .error => adminFailed (ascii "error: failed to revoke credential\n")
  | .ok => adminPrinted (revokedLine credentialId)

def adminCmdRevoke (ctx : AdminCtx) (credentialId : Bytes) : RedisProg AdminOutput :=
  adminConnected ctx do return revokeOutput credentialId (← credentialDelete ctx.keyPrefix credentialId)

def registerOutput (cred : Credential) : Rc → AdminOutput
  | .ok => adminPrinted (registeredLine cred)
  | _ => adminFailed (ascii "error: failed to store credential in Redis\n")

def registerArgs (ctx : AdminCtx) (args : AdminArgs) : RegisterArgs where
  userId := args.userId
  responseFile := args.responseFile
  rpId := args.rpId
  requireAttestation := args.requireAttestation
  transports := args.transports
  redisHost := ctx.redisHost
  keyPrefix := ctx.keyPrefix

section Main

variable (ext : AdminExternals) (posix : Bool) (files : FileReads) (now : Int64)

def adminCmdRegister (ctx : AdminCtx) (args : AdminArgs) (reads : Nat) : RedisProg AdminOutput :=
  match registerRecord ext (files reads) (registerArgs ctx args) now with
  | .error failure => return ⟨[], failure.message, failure.code⟩
  | .ok cred =>
      adminConnected ctx do return registerOutput cred (← credentialPut ctx.keyPrefix cred)

def AdminJob.run (ctx : AdminCtx) : AdminJob → RedisProg AdminOutput
  | .registers args reads => adminCmdRegister ext files now ctx args reads
  | .revokes credentialId => adminCmdRevoke ctx credentialId
  | .lists userId => adminCmdList ctx userId
  | .shows credentialId => adminCmdShow ctx credentialId

def adminUsage : Bytes := ascii (
  "usage: auth-webauthn-admin <command> [options]\n" ++
  "\n" ++
  "commands:\n" ++
  "  register   register a credential from an AttestationResponse JSON\n" ++
  "  revoke     delete a credential by id\n" ++
  "  list       list a user's credentials\n" ++
  "  show       show one credential in detail\n" ++
  "\n" ++
  "common options (all commands):\n" ++
  "  --redis=<host:port>          Redis server (required)\n" ++
  "  --redis-password=<s|file:p>  Redis AUTH (literal or file:<path>)\n" ++
  "  --redis-db=<int>             Redis DB number (default 0)\n" ++
  "  --redis-timeout=<ms>         connect/command timeout (default 100)\n" ++
  "  --key-prefix=<string>        Redis key prefix (default \"webauthn:\")\n" ++
  "\n" ++
  "  -h, --help                   show help; --version prints version\n" ++
  "\n" ++
  "run 'auth-webauthn-admin <command> --help' for per-command options\n")

def AdminCommand.all : List AdminCommand := [.cmdRegister, .cmdRevoke, .cmdList, .cmdShow]

/-- The words behind the name of the program, up to what they ask for. -/
def adminParse : List Bytes → Except AdminOutput (AdminCtx × AdminJob)
  | [] => .error (adminMisused adminUsage)
  | cmd :: words =>
      if cmd = ascii "-h" ∨ cmd = ascii "--help" then .error (adminPrinted adminUsage)
      else if cmd = ascii "-V" ∨ cmd = ascii "--version" then .error (adminPrinted (ascii "auth-webauthn-admin 0.1.0\n"))
      else
        match AdminCommand.all.find? (·.name = cmd) with
        | some command => adminCmdParse posix files command words
        | none => .error (adminMisused (ascii "error: unknown command '" ++ cmd ++ ascii "'\n\n" ++ adminUsage))

def adminMain (argv : List Bytes) : RedisProg AdminOutput :=
  match adminParse posix files argv with
  | .error output => .done output
  | .ok (ctx, job) => job.run ext files now ctx

end Main

def lastArgs (events : List (Event (Opt AdminOpt))) : AdminArgs where
  userId := lastArgument (.own .userId) events
  responseFile := lastArgument (.own .responseFile) events
  rpId := lastArgument (.own .rpId) events
  requireAttestation := lastArgument (.own .requireAttestation) events
  transports := lastArgument (.own .transports) events
  credentialId := lastArgument (.own .credentialId) events

theorem storeAll_eq_lastArgs (events : List (Event (Opt AdminOpt))) :
    storeAll AdminArgs.store .none events = lastArgs events := by
  induction events using List.reverseRecOn with
  | nil => rfl
  | append_singleton events event ih =>
      rw [storeAll_snoc, ih]
      cases event with
      | invalid => simp [lastArgs, lastArgument]
      | option code argument =>
          cases code with
          | help => simp [lastArgs, lastArgument_snoc]
          | common opt => simp [lastArgs, lastArgument_snoc]
          | own opt => cases opt <;> simp [lastArgs, lastArgument_snoc, AdminArgs.store]

variable {posix : Bool} {files : FileReads} {ctx : AdminCtx} {job : AdminJob}

theorem adminCmdParse_ok_iff {command : AdminCommand} {words : List Bytes} :
    adminCmdParse posix files command words = .ok (ctx, job) ↔
      ∃ events, Line posix (optionTable command.own) words events ∧
        (∀ argument, Event.option .help argument ∉ events) ∧ CommonValid files events ∧
        ctx = settledCtx files events ∧
        command.job (lastArgs events) (passwordFiles events).length = .ok job := by
  unfold adminCmdParse
  constructor
  · intro parsed
    split at parsed
    · cases parsed
    · cases parsed
    · rename_i state read
      split at parsed
      · cases parsed
      · rename_i found asked
        cases parsed
        obtain ⟨events, line, noHelp, valid, rfl⟩ := parseOptions_ok_iff.mp read
        rw [storeAll_eq_lastArgs] at asked
        exact ⟨events, line, noHelp, valid, rfl, asked⟩
  · intro written
    obtain ⟨events, line, noHelp, valid, rfl, asked⟩ := written
    rw [parseOptions_ok_iff.mpr ⟨events, line, noHelp, valid, rfl⟩, storeAll_eq_lastArgs]
    simp only [asked]

theorem adminParse_command (command : AdminCommand) (words : List Bytes) :
    adminParse posix files (command.name :: words) = adminCmdParse posix files command words := by
  have found : AdminCommand.all.find? (·.name = command.name) = some command := by
    cases command <;> decide
  have named : ¬ (command.name = ascii "-h" ∨ command.name = ascii "--help") ∧
      ¬ (command.name = ascii "-V" ∨ command.name = ascii "--version") := by
    cases command <;> decide
  rw [adminParse, if_neg named.1, if_neg named.2, found]

/-- A command runs exactly for a line of well-spelled options, in any order and with operands
between them, whose common options are all valid.  Of an option that is repeated, the last
argument counts. -/
theorem command_line_exact (posix : Bool) (files : FileReads) (argv : List Bytes) (ctx : AdminCtx)
    (job : AdminJob) :
    adminParse posix files argv = .ok (ctx, job) ↔
      ∃ command words events, argv = AdminCommand.name command :: words ∧
        Line posix (optionTable command.own) words events ∧
        (∀ argument, Event.option .help argument ∉ events) ∧ CommonValid files events ∧
        ctx = settledCtx files events ∧
        command.job (lastArgs events) (passwordFiles events).length = .ok job := by
  constructor
  · intro parsed
    cases argv with
    | nil => cases parsed
    | cons cmd words =>
        have known : ∃ command, cmd = AdminCommand.name command := by
          simp only [adminParse] at parsed
          split_ifs at parsed
          cases found : AdminCommand.all.find? (·.name = cmd) with
          | none => simp [found] at parsed
          | some command =>
              have same := List.find?_some found
              exact ⟨command, (of_decide_eq_true same).symm⟩
        obtain ⟨command, rfl⟩ := known
        rw [adminParse_command] at parsed
        obtain ⟨events, rest⟩ := adminCmdParse_ok_iff.mp parsed
        exact ⟨command, words, events, rfl, rest⟩
  · intro written
    obtain ⟨command, words, events, rfl, rest⟩ := written
    rw [adminParse_command]
    exact adminCmdParse_ok_iff.mpr ⟨events, rest⟩

example : adminParse false (fun _ _ => .error []) [ascii "list", ascii "--user", ascii "alice",
    ascii "--redis=db:6379", ascii "--user-id=bob"] =
      .ok ({ adminCtx with redisHost := ascii "db", redisPort := 6379 }, .lists (ascii "bob")) := by
  decide +kernel

end AuthWebauthn
