import AuthWebauthn.Admin.Commands
import AuthWebauthn.Process.Moves
import AuthWebauthn.Redis.Session
import AuthWebauthn.System.Sample

namespace AuthWebauthn

open Process Redis

/-! Each program opens a connection of its own, authenticates, selects its database, sends its
commands as argument vectors and closes.  For one database this is a run of the same programs
that issue their commands to that database directly.
-/

section Phases

variable {α : Type} (pool : Memory.Allocator Bytes) (connection : Nat) (conf : RedisConf)

/-- What a program does after connecting: it ends if that failed, and else sends commands that can
be sent. -/
structure Follows (next : Option Reply → RedisProg α) : Prop where
  failed : ∃ value, next none = .done value
  served : (next (some .status)).Issues Cmd.Sendable

def ConnectsFirst (program : RedisProg α) : Prop :=
  (∃ value, program = .done value) ∨
    conf.host ≠ [] ∧ ∃ next, program = .call .connect next ∧ Follows next

/-- The next command, if there is one, is built and read as itself. -/
def Settled (program : RedisProg α) : Prop :=
  (∃ value, program = .done value) ∨ ∃ command next argv, program = .call command next ∧
    commandBuilt pool command = some (some argv) ∧ parseRequest argv = some (.data command)

/-- Where a program stands on its connection, and what is left of it without one. -/
inductive Phase : Option Session → WireProg α → RedisProg α → Prop where
  | fresh {session : Option Session} {program : RedisProg α} (connects : ConnectsFirst conf program) :
      Phase session (onWire pool connection conf program) program
  | authenticating {session : Session} {next : Option Reply → RedisProg α} (initial : session.selected = 0)
      (asked : conf.password ≠ []) (follows : Follows next) :
      Phase (some session) (redisAuth connection conf >>= afterOpen pool connection next) (.call .connect next)
  | selecting {session : Session} {next : Option Reply → RedisProg α} (initial : session.selected = 0)
      (asked : conf.db ≠ 0) (follows : Follows next) :
      Phase (some session) (redisSelect connection conf >>= afterOpen pool connection next)
        (.call .connect next)
  | serving {session : Session} {program : RedisProg α} (selected : session.selected = conf.db.toNat)
      (issues : program.Issues Cmd.Sendable) (settled : Settled pool program) :
      Phase (some session) (overWire pool connection true program) program
  | closing {session : Option Session} {value : α} :
      Phase session (.call (.close connection) fun _ => .done value) (.done value)
  | ended {session : Option Session} {value : α} : Phase session (.done value) (.done value)

variable {pool connection conf} {server : Server}

/-- Commands that could not be built are lost. -/
theorem settles (opened : Bool) {program : RedisProg α} (issues : program.Issues Cmd.Sendable) (db : Db) :
    ∃ modes rest, Prog.Moves (machine server) modes db program db rest ∧
      overWire pool connection opened program = overWire pool connection opened rest ∧
      rest.Issues Cmd.Sendable ∧ Settled pool rest := by
  induction program with
  | done value => exact ⟨[], _, .nil _ _, rfl, issues, .inl ⟨value, rfl⟩⟩
  | call command next ih =>
      rcases command_read pool issues.1 with ⟨failed, _⟩ | ⟨argv, built, read⟩
      · obtain ⟨modes, rest, moves, same, left, settled⟩ := ih none (issues.2 none)
        refine ⟨.dropped :: modes, rest, .cons moves, ?_, left, settled⟩
        rw [overWire, failed]
        exact same
      · exact ⟨[], _, .nil _ _, rfl, issues, .inr ⟨command, next, argv, rfl, built, read⟩⟩

/-- The database is selected. -/
theorem entersServing {session : Session} {next : Option Reply → RedisProg α}
    (selected : session.selected = conf.db.toNat) (follows : Follows next) (db : Db) :
    ∃ modes rest, Prog.Moves (machine server) modes db (.call .connect next) db rest ∧
      Phase pool connection conf (some session) (overWire pool connection true (next (some .status))) rest := by
  obtain ⟨modes, rest, moves, same, left, settled⟩ :=
    @settles _ pool connection server true _ follows.served db
  refine ⟨.served :: modes, rest, .cons moves, ?_⟩
  rw [same]
  exact .serving selected left settled

theorem entersSelect {session : Session} {next : Option Reply → RedisProg α} (initial : session.selected = 0)
    (follows : Follows next) (db : Db) :
    ∃ modes rest, Prog.Moves (machine server) modes db (.call .connect next) db rest ∧
      Phase pool connection conf (some session)
        (redisSelect connection conf >>= afterOpen pool connection next) rest := by
  by_cases default : conf.db = 0
  · rw [redisSelect, if_pos default]
    exact entersServing (by simp [initial, default]) follows db
  · exact ⟨[], _, .nil _ _, .selecting initial default follows⟩

theorem entersAuth {session : Session} {next : Option Reply → RedisProg α} (initial : session.selected = 0)
    (follows : Follows next) (db : Db) :
    ∃ modes rest, Prog.Moves (machine server) modes db (.call .connect next) db rest ∧
      Phase pool connection conf (some session)
        (redisAuth connection conf >>= afterOpen pool connection next) rest := by
  by_cases none : conf.password = []
  · rw [redisAuth, if_pos none]
    exact entersSelect initial follows db
  · exact ⟨[], _, .nil _ _, .authenticating initial none follows⟩

/-- A connection that was not accepted counts as a connection that failed. -/
theorem entersClosing {session : Option Session} {next : Option Reply → RedisProg α}
    (follows : Follows next) (db : Db) :
    ∃ modes rest, Prog.Moves (machine server) modes db (.call .connect next) db rest ∧
      Phase pool connection conf session (closeFailed connection >>= afterOpen pool connection next) rest := by
  obtain ⟨value, ends⟩ := follows.failed
  refine ⟨[.dropped], next none, Prog.Moves.one Delivery.dropped db .connect next, ?_⟩
  rw [ends]
  change Phase pool connection conf session (.call (.close connection) fun _ =>
    overWire pool connection false (next none)) (.done value)
  rw [ends]
  exact .closing

/-- What a step on a connection leaves alone. -/
structure Confined (connection : Nat) (conf : RedisConf) (before after : Node) : Prop where
  sessions : ∀ other, other ≠ connection → after.sessions other = before.sessions other
  dbs : ∀ index, index ≠ conf.db.toNat → after.dbs index = before.dbs index

theorem confined_setSession {node : Node} (session : Option Session) :
    Confined connection conf node (node.setSession connection session) where
  sessions _ different := Function.update_of_ne different ..
  dbs _ _ := rfl

theorem parse_auth (password : Bytes) : parseRequest [ascii "AUTH", password] = some (.auth password) := by
  simp +decide [parseRequest, parseArgs]

theorem parse_select (text : Bytes) :
    parseRequest [ascii "SELECT", text] = (string2ll text).map .select := by
  simp +decide [parseRequest, parseArgs]

theorem string2ll_canonical {bytes : Bytes} {value : Int} (read : string2ll bytes = some value) :
    Decimal.ofInt value = bytes := by
  simp only [string2ll, Option.ite_none_right_eq_some] at read
  obtain ⟨⟨canonical, _⟩, same⟩ := read
  rw [← Option.some.inj same]
  exact canonical

theorem string2ll_digits_eq {value : Nat} {index : Int}
    (read : string2ll (Decimal.digits value) = some index) : index = value := by
  have canonical := string2ll_canonical read
  unfold Decimal.ofInt at canonical
  split at canonical
  · have isDigit := Decimal.digits_isDigit value 45 (canonical ▸ List.mem_cons_self ..)
    exact absurd isDigit.1 (by decide)
  · have same := congrArg (Decimal.valueFrom 0) canonical
    rw [Decimal.valueFrom_digits, Decimal.valueFrom_digits] at same
    omega

theorem setSession_same {node : Node} {session : Session} (opened : node.sessions connection = some session) :
    node.setSession connection (some session) = node := by
  rw [Node.setSession, ← opened, Function.update_eq_self]

theorem setSession_sessions (node : Node) (session : Option Session) :
    (node.setSession connection session).sessions connection = session := Function.update_self ..

/-- What reaches a server on an open connection, and what comes back. -/
theorem serve_send {nodeConf : NodeConf} {node : Node} {session : Session}
    (opened : node.sessions connection = some session) (argv : List Bytes) (mode : Delivery) :
    (∃ reply, rcOfReply reply ≠ .ok ∧
      (wireMachine nodeConf).serve mode node (.send connection argv) = (node, reply)) ∨
    ∃ reply, (wireMachine nodeConf).serve mode node (.send connection argv) =
        ((answerRequest nodeConf node connection session (parseRequest argv)).1, reply) ∧
      (reply = none ∨ reply = some (answerRequest nodeConf node connection session (parseRequest argv)).2) := by
  cases mode with
  | served => exact .inr ⟨_, by simp [wireMachine, opened], .inr rfl⟩
  | refused => exact .inl ⟨some .error, by simp [rcOfReply], by simp [wireMachine, opened]⟩
  | dropped => exact .inl ⟨none, by simp [rcOfReply], by simp [wireMachine, opened]⟩
  | replyLost => exact .inr ⟨none, by simp [wireMachine, opened], .inl rfl⟩

/-- AUTH changes the session of its connection and selects nothing. -/
theorem serve_auth {nodeConf : NodeConf} {node : Node} {session : Session}
    (opened : node.sessions connection = some session) (password : Bytes) (mode : Delivery) :
    ∃ changed, changed.selected = session.selected ∧
      ((wireMachine nodeConf).serve mode node (.send connection [ascii "AUTH", password])).1 =
        node.setSession connection (some changed) := by
  have kept := setSession_same opened
  rcases @serve_send connection nodeConf node session opened [ascii "AUTH", password] mode with
    ⟨reply, _, served⟩ | ⟨reply, served, _⟩
  · exact ⟨session, rfl, by rw [served, kept]⟩
  · rw [served, parse_auth]
    by_cases right : nodeConf.requirepass = some password
    · exact ⟨{ session with authenticated := true }, rfl, by simp [answerRequest, right]⟩
    · exact ⟨session, rfl, by simp [answerRequest, right, kept]⟩

/-- A SELECT that is answered without an error has selected the database. -/
theorem serve_select {nodeConf : NodeConf} {node : Node} {session : Session}
    (opened : node.sessions connection = some session) (index : Nat) (mode : Delivery) :
    ∃ changed, ((wireMachine nodeConf).serve mode node
          (.send connection [ascii "SELECT", Decimal.digits index])).1 =
        node.setSession connection (some changed) ∧
      (rcOfReply ((wireMachine nodeConf).serve mode node
          (.send connection [ascii "SELECT", Decimal.digits index])).2 = .ok → changed.selected = index) := by
  have kept := setSession_same opened
  rcases @serve_send connection nodeConf node session opened [ascii "SELECT", Decimal.digits index] mode with
    ⟨reply, refused, served⟩ | ⟨reply, served, answer⟩
  · rw [served]
    exact ⟨session, kept.symm, fun accepted => absurd accepted refused⟩
  · rw [served]
    rw [parse_select] at served answer ⊢
    cases read : string2ll (Decimal.digits index) with
    | none =>
        refine ⟨session, by simp [answerRequest, kept], fun accepted => ?_⟩
        rw [read] at answer
        rcases answer with rfl | rfl
        · simp [rcOfReply] at accepted
        · simp [rcOfReply, answerRequest] at accepted
    | some found =>
        have same := string2ll_digits_eq read
        rw [read] at answer
        by_cases right : session.authenticated = true ∧ 0 ≤ found ∧ found < nodeConf.databases
        · refine ⟨{ session with selected := found.toNat }, by simp [answerRequest, right], fun _ => ?_⟩
          change found.toNat = index
          omega
        · refine ⟨session, by simp [answerRequest, right, kept], fun accepted => ?_⟩
          rcases answer with rfl | rfl
          · simp [rcOfReply] at accepted
          · simp [rcOfReply, answerRequest, right] at accepted

/-- A data command on an open connection is a command to the database selected there; without
authentication it is refused. -/
theorem serve_data {nodeConf : NodeConf} {node : Node} {session : Session} {argv : List Bytes} {command : Cmd}
    (opened : node.sessions connection = some session) (read : parseRequest argv = some (.data command))
    (mode : Delivery) :
    ∃ direct, (wireMachine nodeConf).serve mode node (.send connection argv) =
      (node.setDb session.selected
          ((machine nodeConf.server).serve direct (node.dbs session.selected) command).1,
        ((machine nodeConf.server).serve direct (node.dbs session.selected) command).2) := by
  by_cases known : session.authenticated = true
  · exact ⟨mode, by cases mode <;> simp [wireMachine, opened, read, answerRequest, known, machine, Node.setDb]⟩
  · cases mode with
    | served => exact ⟨.refused, by simp [wireMachine, opened, read, answerRequest, known, machine, Node.setDb]⟩
    | refused => exact ⟨.refused, by simp [wireMachine, opened, machine, Node.setDb]⟩
    | dropped => exact ⟨.dropped, by simp [wireMachine, opened, machine, Node.setDb]⟩
    | replyLost => exact ⟨.dropped, by simp [wireMachine, opened, read, answerRequest, known, machine, Node.setDb]⟩

/-- A step that changed the session of its connection and nothing else. -/
theorem sessionStep {node after : Node} {changed : Session} {wire : WireProg α} {program : RedisProg α}
    (became : after = node.setSession connection (some changed))
    (moved : ∃ modes rest,
      Prog.Moves (machine server) modes (node.dbs conf.db.toNat) program (node.dbs conf.db.toNat) rest ∧
        Phase pool connection conf (some changed) wire rest) :
    ∃ modes rest,
      Prog.Moves (machine server) modes (node.dbs conf.db.toNat) program (after.dbs conf.db.toNat) rest ∧
        Phase pool connection conf (after.sessions connection) wire rest ∧ Confined connection conf node after := by
  obtain ⟨modes, rest, moves, phase⟩ := moved
  subst became
  refine ⟨modes, rest, moves, ?_, confined_setSession _⟩
  rw [setSession_sessions]
  exact phase

/-- One step on a connection is some steps of what is left of the program, on the database
it was configured for. -/
theorem phase_step {nodeConf : NodeConf} {node : Node} {issued : Wire} {next : Option Reply → WireProg α}
    {program : RedisProg α} (mode : Delivery)
    (phase : Phase pool connection conf (node.sessions connection) (.call issued next) program) :
    ∃ modes rest, Prog.Moves (machine nodeConf.server) modes (node.dbs conf.db.toNat) program
        (((wireMachine nodeConf).serve mode node issued).1.dbs conf.db.toNat) rest ∧
      Phase pool connection conf (((wireMachine nodeConf).serve mode node issued).1.sessions connection)
        (next ((wireMachine nodeConf).serve mode node issued).2) rest ∧
      Confined connection conf node ((wireMachine nodeConf).serve mode node issued).1 := by
  generalize written : Prog.call issued next = wire at phase
  generalize holds : node.sessions connection = session at phase
  cases phase with
  | fresh connects =>
      rcases connects with ⟨value, rfl⟩ | ⟨named, follow, rfl, follows⟩
      · cases written
      rw [onWire, redisOpen, if_neg named] at written
      cases written
      by_cases accepted : mode = .served
      · subst accepted
        exact sessionStep rfl (@entersAuth _ pool connection conf nodeConf.server
          ⟨nodeConf.requirepass.isNone, 0⟩ _ rfl follows (node.dbs conf.db.toNat))
      · obtain ⟨value, ends⟩ := follows.failed
        have failed : (wireMachine nodeConf).serve mode node (.dial connection conf.host conf.port
            (if conf.timeoutMs = 0 then none else some (redisTimeval conf.timeoutMs))) =
              (node.setSession connection none, none) := if_neg accepted
        refine ⟨[.dropped], follow none, ?_, ?_, ?_⟩
        · rw [failed]
          exact Prog.Moves.one Delivery.dropped _ .connect follow
        · rw [failed, ends]
          change Phase pool connection conf _ (overWire pool connection false (follow none)) (.done value)
          rw [ends]
          exact .ended
        · rw [failed]
          exact confined_setSession _
  | @authenticating session follow initial asked follows =>
      rw [redisAuth_eq asked, Prog.call_bind] at written
      cases written
      obtain ⟨changed, kept, after⟩ := @serve_auth connection nodeConf node session holds conf.password mode
      refine sessionStep after ?_
      by_cases accepted : rcOfReply ((wireMachine nodeConf).serve mode node
          (.send connection [ascii "AUTH", conf.password])).2 = .ok
      · simp only [if_pos accepted]
        exact entersSelect (kept.trans initial) follows (node.dbs conf.db.toNat)
      · simp only [if_neg accepted]
        exact entersClosing follows (node.dbs conf.db.toNat)
  | @selecting session follow initial asked follows =>
      rw [redisSelect_eq asked, Prog.call_bind] at written
      cases written
      obtain ⟨changed, after, picked⟩ := @serve_select connection nodeConf node session holds conf.db.toNat mode
      refine sessionStep after ?_
      by_cases accepted : rcOfReply ((wireMachine nodeConf).serve mode node
          (.send connection [ascii "SELECT", Decimal.digits conf.db.toNat])).2 = .ok
      · simp only [if_pos accepted]
        exact entersServing (picked accepted) follows (node.dbs conf.db.toNat)
      · simp only [if_neg accepted]
        exact entersClosing follows (node.dbs conf.db.toNat)
  | @serving session program selected issues settled =>
      rcases settled with ⟨value, rfl⟩ | ⟨command, follow, argv, rfl, built, read⟩
      · cases written
        exact ⟨[], _, .nil _ _, .ended, confined_setSession _⟩
      · rw [overWire, built] at written
        cases written
        obtain ⟨direct, served⟩ := @serve_data connection nodeConf node session argv command holds read mode
        rw [selected] at served
        obtain ⟨modes, rest, moves, same, left, settled⟩ := @settles _ pool connection nodeConf.server true _
          (issues.2 ((machine nodeConf.server).serve direct (node.dbs conf.db.toNat) command).2)
          ((machine nodeConf.server).serve direct (node.dbs conf.db.toNat) command).1
        refine ⟨direct :: modes, rest, ?_, ?_, ?_⟩
        · rw [served]
          refine .cons ?_
          simpa [Node.setDb] using moves
        · rw [served]
          change Phase pool connection conf (node.sessions connection) (overWire pool connection true
            (follow ((machine nodeConf.server).serve direct (node.dbs conf.db.toNat) command).2)) rest
          rw [holds, same]
          exact .serving selected left settled
        · rw [served]
          exact ⟨fun _ _ => rfl, fun index different => Function.update_of_ne different ..⟩
  | closing =>
      cases written
      exact ⟨[], _, .nil _ _, .ended, confined_setSession _⟩
  | ended => cases written

/-- A node and the programs on its connections beside one of its databases and the programs without
connections: those configured for this database stand where the others stand. -/
structure Beside (pool : Memory.Allocator Bytes) (confs : Nat → RedisConf) (index : Nat)
    (wired : Pool Node Wire (Option Reply) Delivery Nat α)
    (direct : Pool Db Cmd (Option Reply) Delivery Nat α) : Prop where
  db : direct.state = wired.state.dbs index
  phases : ∀ process, ∃ program, Phase pool process (confs process) (wired.state.sessions process)
      (wired.programs process) program ∧
    ((confs process).db.toNat = index → direct.programs process = program)

variable {confs : Nat → RedisConf} {index : Nat} {nodeConf : NodeConf}
  {wired : Pool Node Wire (Option Reply) Delivery Nat α} {direct : Pool Db Cmd (Option Reply) Delivery Nat α}

/-- The databases that no connection of a set of programs is configured for only see time pass: the
steps on the other side are `modes` of one process configured for this database, or none. -/
theorem Beside.step (beside : Beside pool confs index wired direct) (event : Event Nat Delivery Nat) :
    ∃ events, Beside pool confs index (wired.step (wireMachine nodeConf) event)
        (direct.run (machine nodeConf.server) events) ∧
      ∀ process mode, Event.step process mode ∈ events → (confs process).db.toNat = index := by
  rcases Pool.step_cases (wireMachine nodeConf) wired event with
    same | ⟨change, rfl, stepped⟩ | ⟨process, mode, issued, next, rfl, pending, stepped⟩
  · rw [same]
    exact ⟨[], beside, by simp⟩
  · refine ⟨[.environment change], ?_, by simp⟩
    rw [stepped]
    refine ⟨?_, beside.phases⟩
    change { direct.state with now := direct.state.now + change } = _
    rw [beside.db]
    rfl
  · obtain ⟨program, phase, stands⟩ := beside.phases process
    rw [pending] at phase
    obtain ⟨modes, rest, moves, following, confined⟩ := @phase_step _ _ _ _ nodeConf _ _ _ _ mode phase
    rw [stepped]
    by_cases own : (confs process).db.toNat = index
    · subst own
      rw [← beside.db, ← stands rfl] at moves
      obtain ⟨after, programs⟩ := Pool.run_moves moves
      refine ⟨modes.map (Event.step process), ⟨after, ?_⟩, ?_⟩
      · intro other
        by_cases same : other = process
        · subst same
          exact ⟨rest, by simpa using following, fun _ => by rw [programs]; simp⟩
        · obtain ⟨left, elsewhere, stays⟩ := beside.phases other
          refine ⟨left, ?_, ?_⟩
          · simpa [Function.update_of_ne same, confined.sessions other same] using elsewhere
          · intro also
            rw [programs, Function.update_of_ne same]
            exact stays also
      · intro other mode member
        obtain ⟨_, _, same⟩ := List.mem_map.mp member
        cases same
        rfl
    · refine ⟨[], ⟨?_, ?_⟩, by simp⟩
      · exact beside.db.trans (confined.dbs index (Ne.symm own)).symm
      · intro other
        by_cases same : other = process
        · subst same
          exact ⟨rest, by simpa using following, fun also => absurd also own⟩
        · obtain ⟨left, elsewhere, stays⟩ := beside.phases other
          exact ⟨left, by simpa [Function.update_of_ne same, confined.sessions other same] using elsewhere, stays⟩

theorem Beside.run (beside : Beside pool confs index wired direct) (events : List (Event Nat Delivery Nat)) :
    ∃ directly, Beside pool confs index (wired.run (wireMachine nodeConf) events)
        (direct.run (machine nodeConf.server) directly) ∧
      ∀ process mode, Event.step process mode ∈ directly → (confs process).db.toNat = index := by
  induction events generalizing wired direct with
  | nil => exact ⟨[], beside, by simp⟩
  | cons event events ih =>
      obtain ⟨first, stepped, own⟩ := @Beside.step _ _ _ _ nodeConf _ _ beside event
      obtain ⟨later, ran, ownLater⟩ := ih stepped
      refine ⟨first ++ later, ?_, ?_⟩
      · rw [Pool.run_append]
        exact ran
      · intro process mode member
        rcases List.mem_append.mp member with earlier | rest
        · exact own process mode earlier
        · exact ownLater process mode rest

theorem phase_done {session : Option Session} {value : α} {program : RedisProg α}
    (phase : Phase pool connection conf session (.done value) program) : program = .done value := by
  generalize written : (Prog.done value : WireProg α) = wire at phase
  cases phase with
  | fresh connects =>
      rcases connects with ⟨result, rfl⟩ | ⟨named, next, rfl, _⟩
      · cases written
        rfl
      · rw [onWire, redisOpen, if_neg named] at written
        cases written
  | authenticating initial asked follows =>
      rw [redisAuth_eq asked] at written
      cases written
  | selecting initial asked follows =>
      rw [redisSelect_eq asked] at written
      cases written
  | serving selected issues settled =>
      rcases settled with ⟨result, rfl⟩ | ⟨command, next, argv, rfl, built, _⟩
      · cases written
      · rw [overWire, built] at written
        cases written
  | closing => cases written
  | ended =>
      cases written
      rfl

end Phases

section Jobs

variable {ext : Externals} {conf : RedisConf} {α β : Type}

theorem connectsFirst_redisConnect {host : Bytes} (named : conf.host = host) (failed : α) {body : RedisProg α}
    (issues : body.Issues Cmd.Sendable) :
    ConnectsFirst conf (redisConnect host >>= fun rc => if rc ≠ .ok then .done failed else body) := by
  by_cases missing : host = []
  · subst missing
    exact .inl ⟨failed, rfl⟩
  · refine .inr ⟨named ▸ missing, fun reply => if rcOfReply reply ≠ .ok then .done failed else body, ?_,
      ⟨failed, rfl⟩, issues⟩
    rw [redisConnect, if_neg missing]
    rfl

theorem ConnectsFirst.map {program : RedisProg α} (connects : ConnectsFirst conf program) (f : α → β) :
    ConnectsFirst conf (program.map f) := by
  rcases connects with ⟨value, rfl⟩ | ⟨named, next, rfl, ⟨value, ends⟩, served⟩
  · exact .inl ⟨f value, rfl⟩
  · refine .inr ⟨named, fun reply => (next reply).map f, rfl, ⟨f value, ?_⟩, served.map f⟩
    simp only [ends]
    rfl

theorem credentialPairs_length (cred : Credential) : (credentialPairs cred).length ≤ 9 := by
  unfold credentialPairs
  split_ifs <;> simp

def LocConf.redisConf (conf : LocConf) : RedisConf where
  host := conf.redisHost
  port := conf.redisPort.toInt32
  password := conf.redisPassword
  db := conf.redisDb
  timeoutMs := conf.redisTimeout

/-- The connection that a job opens; an admin command takes it from its options. -/
def Job.Uses : Job → RedisConf → Prop
  | .challenge conf _, redis | .verify conf _, redis => redis = conf.redisConf
  | .register host _ _, redis | .revoke host _ _, redis => redis.host = host

/-- The window of a rate limit is a time. -/
def Job.Expressible : Job → Prop
  | .challenge conf _ => conf.rateLimitMax = 0 ∨ 0 ≤ conf.rateLimitWindow
  | _ => True

theorem challengeContent_connects {conf : LocConf} {request : ChallengeRequest}
    (expressible : conf.rateLimitMax = 0 ∨ 0 ≤ conf.rateLimitWindow) :
    ConnectsFirst conf.redisConf (challengeContent ext conf request) := by
  unfold challengeContent
  split_ifs
  · exact .inl ⟨_, rfl⟩
  · refine connectsFirst_redisConnect rfl _ ?_
    refine (rateLimit_issues fun limited => ?_).bind fun passed => ?_
    · have window := expressible.resolve_left limited
      rw [Int64.le_iff_toInt_le] at window
      change conf.rateLimitWindow.toBitVec.toNat < 2 ^ 63
      have positive : 0 ≤ conf.rateLimitWindow.toBitVec.toInt := window
      rw [BitVec.toInt_eq_toNat_cond] at positive
      split at positive
      · omega
      · omega
    split_ifs
    · trivial
    refine (challengeIssue_issues fun challenge _ _ => ?_).bind fun issued => ?_
    · have below := conf.challengeTtl.toInt_lt
      change conf.challengeTtl.toInt.toNat < 2 ^ 63
      omega
    cases issued with
    | none => trivial
    | some challenge =>
        refine (listedCredentials_issues fun user => trivial).bind fun listed => ?_
        cases listed <;> trivial

theorem afterConnect_sendable {conf : LocConf} {request : VerifyRequest} {origins : List Bytes}
    {parsed : ParsedRequest} : (afterConnect ext conf request origins parsed).Issues Cmd.Sendable := by
  unfold afterConnect
  split_ifs
  · trivial
  refine ⟨trivial, fun consumed => (Prog.issues_ite ..).mpr ⟨fun _ => ⟨trivial, fun read => ?_⟩, fun _ => trivial⟩⟩
  change (afterRead ext conf request origins parsed (recordOfReply parsed.id read)).Issues Cmd.Sendable
  unfold afterRead
  split
  · trivial
  · split
    · trivial
    · exact ⟨⟨by simp [counterPairs], by simp [counterPairs]⟩, fun _ => trivial⟩

theorem verifyDone_connects {conf : LocConf} {request : VerifyRequest} :
    ConnectsFirst conf.redisConf (verifyDone ext conf request) := by
  cases listed : conf.origins with
  | none =>
      unfold verifyDone
      rw [listed]
      exact .inl ⟨_, rfl⟩
  | some origins =>
      by_cases missing : conf.rpId = [] ∨ conf.redisHost = [] ∨ conf.jwtSecret = []
      · unfold verifyDone
        simp only [listed, if_pos missing]
        exact .inl ⟨_, rfl⟩
      · simp only [not_or] at missing
        have configured : Configured conf origins := ⟨listed, missing.1, missing.2.1, missing.2.2⟩
        cases taken : parseVerifyBody ext request.body with
        | none =>
            rw [verifyDone_unparsed configured taken]
            exact .inl ⟨_, rfl⟩
        | some parsed =>
            rw [verifyDone_staged configured taken]
            exact .inr ⟨configured.redisHost, _, rfl, ⟨_, rfl⟩, afterConnect_sendable⟩

theorem Job.connectsFirst {job : Job} (uses : job.Uses conf) (expressible : job.Expressible) :
    ConnectsFirst conf (job.program ext) := by
  cases job with
  | challenge location request =>
      cases uses
      exact (challengeContent_connects expressible).map _
  | verify location request =>
      cases uses
      exact verifyDone_connects.map _
  | register host keyPrefix registration =>
      refine (connectsFirst_redisConnect uses _ ?_).map _
      refine credentialPut_issues (fun _ => ?_) fun _ => trivial
      have short := credentialPairs_length registration.cred
      exact ⟨credentialPairs_ne_nil _, by omega⟩
  | revoke host keyPrefix credentialId =>
      refine (connectsFirst_redisConnect uses _ ?_).map _
      exact credentialDelete_issues trivial trivial fun _ => trivial

variable (ext) (nodeConf : NodeConf) (pool : Memory.Allocator Bytes)

/-- The jobs, each on a connection of its own to one node. -/
def connected (node : Node) (jobs : Nat → Job) (confs : Nat → RedisConf) :
    Pool Node Wire (Option Reply) Delivery Nat Outcome :=
  Pool.start node fun process => onWire pool process (confs process) ((jobs process).program ext)

variable {ext nodeConf pool}

theorem connected_beside {node : Node} {jobs : Nat → Job} {confs : Nat → RedisConf}
    (uses : ∀ process, (jobs process).Uses (confs process))
    (expressible : ∀ process, (jobs process).Expressible) (index : Nat) :
    Beside pool confs index (connected ext pool node jobs confs)
      (Pool.start (node.dbs index) fun process => (jobs process).program ext) where
  db := rfl
  phases process := ⟨_, .fresh (Job.connectsFirst (uses process) (expressible process)), fun _ => rfl⟩

/-- Over any interleaving of jobs on their own connections, with AUTH, SELECT and every command
served, refused, lost or answered into nothing, and with databases and passwords of their own, each
database is left as by a run of the jobs configured for it, and these jobs end with the same
outcomes. -/
theorem connections_refine {node : Node} {jobs : Nat → Job} {confs : Nat → RedisConf}
    (uses : ∀ process, (jobs process).Uses (confs process))
    (expressible : ∀ process, (jobs process).Expressible) (index : Nat)
    (events : List (Event Nat Delivery Nat)) :
    ∃ directly,
      let wired := (connected ext pool node jobs confs).run (wireMachine nodeConf) events
      let direct := (Pool.start (node.dbs index) fun process => (jobs process).program ext).run
        (machine nodeConf.server) directly
      direct.state = wired.state.dbs index ∧
      (∀ process mode, Event.step process mode ∈ directly → (confs process).db.toNat = index) ∧
      ∀ process outcome, (confs process).db.toNat = index →
        wired.programs process = .done outcome → direct.programs process = .done outcome := by
  obtain ⟨directly, beside, own⟩ :=
    @Beside.run _ _ _ _ nodeConf _ _ (connected_beside uses expressible index) events
  refine ⟨directly, beside.db, own, ?_⟩
  intro process outcome here ended
  obtain ⟨program, phase, stands⟩ := beside.phases process
  rw [ended] at phase
  rw [stands here, phase_done phase]

namespace Sample

/-- A register and any number of revokes, with a password and in database 2. -/
def adminJobs : Nat → Job
  | 0 => .register Sample.conf.redisHost defaultKeyPrefix registration
  | _ => .revoke Sample.conf.redisHost defaultKeyPrefix (ascii "AQ")

/-- The connection of a tool with `--redis-password=secret --redis-db=2`. -/
def adminRedis : RedisConf := adminConf {
  redisHost := Sample.conf.redisHost
  redisPort := 6379
  redisPassword := ascii "secret"
  redisDb := 2
  redisTimeoutMs := 100
  keyPrefix := defaultKeyPrefix }

theorem adminJobs_uses (process : Nat) : (adminJobs process).Uses adminRedis := by
  cases process <;> rfl

theorem adminJobs_expressible (process : Nat) : (adminJobs process).Expressible := by
  cases process <;> trivial

def idleNode : Node := ⟨fun _ => .empty, fun _ => none⟩

def guardedNode : NodeConf := ⟨some (ascii "secret"), 16, .inOrder⟩

/-- The register command to its end, and a revoke whose SELECT is lost. -/
def adminEvents : List (Event Nat Delivery Nat) :=
  List.replicate 6 (.step 0 .served) ++ [.step 1 .served, .step 1 .served, .step 1 .replyLost, .step 1 .served]

end Sample

/-- The register command stores its record in database 2, over the wire as directly. -/
theorem connections_refine_admin :
    ∃ directly,
      let wired := (connected Sample.ext plentiful Sample.idleNode Sample.adminJobs
        fun _ => Sample.adminRedis).run (wireMachine Sample.guardedNode) Sample.adminEvents
      let direct := (Pool.start (Sample.idleNode.dbs 2) fun process =>
        (Sample.adminJobs process).program Sample.ext).run (machine Sample.guardedNode.server) directly
      direct.state = wired.state.dbs 2 ∧
      recordAt .inOrder defaultKeyPrefix (ascii "AQ") (wired.state.dbs 2) = .ok Sample.registration.cred ∧
      direct.programs 0 = .done (.admin .ok) := by
  obtain ⟨directly, same, _, outcomes⟩ := @connections_refine Sample.ext Sample.guardedNode plentiful
    Sample.idleNode _ _ Sample.adminJobs_uses Sample.adminJobs_expressible 2 Sample.adminEvents
  refine ⟨directly, same, by decide +kernel, ?_⟩
  exact outcomes 0 _ rfl (Prog.eq_done_of_result (by decide +kernel))

theorem run_environment {β : Type} {server : Server} {direct : Pool Db Cmd (Option Reply) Delivery Nat β}
    {events : List (Event Nat Delivery Nat)} (idle : ∀ process mode, Event.step process mode ∉ events) :
    (direct.run (machine server) events).state.entries = direct.state.entries := by
  induction events generalizing direct with
  | nil => rfl
  | cons event events ih =>
      have later : ∀ process mode, Event.step process mode ∉ events :=
        fun process mode member => idle process mode (List.mem_cons_of_mem _ member)
      cases event with
      | environment change => exact ih later
      | step process mode => exact absurd (List.mem_cons_self ..) (idle process mode)

/-- A database that no job is configured for is never touched, whatever becomes of the AUTH and
SELECT commands: no command of a job runs on the default database of a connection whose SELECT was
refused or lost. -/
theorem connections_isolated {node : Node} {jobs : Nat → Job} {confs : Nat → RedisConf}
    (uses : ∀ process, (jobs process).Uses (confs process))
    (expressible : ∀ process, (jobs process).Expressible) {index : Nat}
    (foreign : ∀ process, (confs process).db.toNat ≠ index) (events : List (Event Nat Delivery Nat)) :
    (((connected ext pool node jobs confs).run (wireMachine nodeConf) events).state.dbs index).entries =
      (node.dbs index).entries := by
  obtain ⟨directly, beside, own⟩ :=
    @Beside.run _ _ _ _ nodeConf _ _ (connected_beside uses expressible index) events
  rw [← beside.db]
  exact run_environment fun process mode member => foreign process (own process mode member)

theorem connections_isolated_admin :
    (((connected Sample.ext plentiful Sample.idleNode Sample.adminJobs fun _ => Sample.adminRedis).run
      (wireMachine Sample.guardedNode) Sample.adminEvents).state.dbs 0).entries =
        (Sample.idleNode.dbs 0).entries :=
  connections_isolated Sample.adminJobs_uses Sample.adminJobs_expressible (fun _ => by decide)
    Sample.adminEvents

end Jobs

end AuthWebauthn
