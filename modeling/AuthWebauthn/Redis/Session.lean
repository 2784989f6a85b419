import AuthWebauthn.Redis.Wire

namespace AuthWebauthn.Redis

open Process

/-! What `ngx_auth_webauthn_redis_connect` sends before it hands a connection out, and a server that
knows of each connection whether it has authenticated and which database it has selected.
-/

structure Timeval where
  sec : Nat
  usec : Nat
deriving DecidableEq

def redisTimeval (ms : UInt64) : Timeval := ⟨ms.toNat / 1000, ms.toNat % 1000 * 1000⟩

structure RedisConf where
  host : Bytes
  port : Int32
  password : Bytes
  db : UInt64
  timeoutMs : UInt64

/-- What a client does with a connection. -/
inductive Wire where
  | dial (connection : Nat) (host : Bytes) (port : Int32) (timeout : Option Timeval)
  | send (connection : Nat) (argv : List Bytes)
  | close (connection : Nat)

/-- The NULL of a failed connection is `none`, as for commands. -/
abbrev WireProg := Prog Wire (Option Reply)

section Client

variable (connection : Nat) (conf : RedisConf)

/-- `redis_close` and the NGX_ERROR behind it. -/
def closeFailed : WireProg Rc := do
  let _ ← Prog.issue (.close connection)
  return .error

def redisSelect : WireProg Rc :=
  if conf.db = 0 then return .ok
  else
    match numbuf conf.db.toNat with
    | none => closeFailed connection
    | some n => do
        if rcOfReply (← Prog.issue (.send connection [ascii "SELECT", n])) ≠ .ok then closeFailed connection
        else return .ok

def redisAuth : WireProg Rc :=
  if conf.password = [] then redisSelect connection conf
  else do
    if rcOfReply (← Prog.issue (.send connection [ascii "AUTH", conf.password])) ≠ .ok then
      closeFailed connection
    else redisSelect connection conf

def redisOpen : WireProg Rc :=
  if conf.host = [] then return .error
  else do
    let timeout := if conf.timeoutMs = 0 then none else some (redisTimeval conf.timeoutMs)
    if (← Prog.issue (.dial connection conf.host conf.port timeout)).isNone then return .error
    else redisAuth connection conf

variable {connection conf}

theorem redisSelect_eq (asked : conf.db ≠ 0) : redisSelect connection conf =
    .call (.send connection [ascii "SELECT", Decimal.digits conf.db.toNat]) fun reply =>
      if rcOfReply reply = .ok then .done .ok else closeFailed connection := by
  rw [redisSelect, if_neg asked, numbuf_eq conf.db.toNat_lt]
  change Prog.call _ _ = Prog.call _ _
  congr 1
  funext reply
  change (if rcOfReply reply ≠ .ok then closeFailed connection else .done .ok) = _
  exact ite_not ..

theorem redisAuth_eq (asked : conf.password ≠ []) : redisAuth connection conf =
    .call (.send connection [ascii "AUTH", conf.password]) fun reply =>
      if rcOfReply reply = .ok then redisSelect connection conf else closeFailed connection := by
  rw [redisAuth, if_neg asked]
  change Prog.call _ _ = Prog.call _ _
  congr 1
  funext reply
  change (if rcOfReply reply ≠ .ok then closeFailed connection else redisSelect connection conf) = _
  exact ite_not ..

end Client

structure Session where
  authenticated : Bool
  selected : Nat

structure Node where
  dbs : Nat → Db
  sessions : Nat → Option Session

structure NodeConf where
  requirepass : Option Bytes
  databases : Nat
  server : Server

def Node.setSession (node : Node) (connection : Nat) (session : Option Session) : Node :=
  { node with sessions := Function.update node.sessions connection session }

def Node.setDb (node : Node) (index : Nat) (db : Db) : Node :=
  { node with dbs := Function.update node.dbs index db }

def answerRequest (conf : NodeConf) (node : Node) (connection : Nat) (session : Session) :
    Option Request → Node × Reply
  | none => (node, .error)
  | some (.auth password) =>
      if conf.requirepass = some password then
        (node.setSession connection (some { session with authenticated := true }), .status)
      else (node, .error)
  | some (.select index) =>
      if session.authenticated = true ∧ 0 ≤ index ∧ index < conf.databases then
        (node.setSession connection (some { session with selected := index.toNat }), .status)
      else (node, .error)
  | some (.data command) =>
      if session.authenticated = true then
        let served := exec conf.server (node.dbs session.selected) command
        (node.setDb session.selected served.1, served.2)
      else (node, .error)

/-- A connection is accepted or fails; a closed one carries nothing.  All databases have one clock. -/
def wireMachine (conf : NodeConf) : Machine Node Wire (Option Reply) Delivery Nat where
  serve mode node wire :=
    match wire with
    | .dial connection _ _ _ =>
        if mode = .served then
          (node.setSession connection (some ⟨conf.requirepass.isNone, 0⟩), some .status)
        else (node.setSession connection none, none)
    | .send connection argv =>
        match node.sessions connection with
        | none => (node, none)
        | some session =>
            let answered := answerRequest conf node connection session (parseRequest argv)
            match mode with
            | .served => (answered.1, some answered.2)
            | .refused => (node, some .error)
            | .dropped => (node, none)
            | .replyLost => (answered.1, none)
    | .close connection => (node.setSession connection none, some .status)
  evolve milliseconds node :=
    { node with dbs := fun index => { node.dbs index with now := (node.dbs index).now + milliseconds } }

section OnWire

variable {α : Type} (pool : Memory.Allocator Bytes) (connection : Nat)

/-- The commands of a program, each as it is built; one that could not be built counts as lost.
An open connection is closed at the end. -/
def overWire (opened : Bool) : RedisProg α → WireProg α
  | .done value => if opened then .call (.close connection) fun _ => .done value else .done value
  | .call command next =>
      match commandBuilt pool command with
      | some (some argv) => .call (.send connection argv) fun reply => overWire opened (next reply)
      | _ => overWire opened (next none)

/-- What follows `redis_connect`. -/
def afterOpen (next : Option Reply → RedisProg α) (rc : Rc) : WireProg α :=
  if rc = .ok then overWire pool connection true (next (some .status))
  else overWire pool connection false (next none)

/-- A program that connects first. -/
def onWire (conf : RedisConf) : RedisProg α → WireProg α
  | .call .connect next => redisOpen connection conf >>= afterOpen pool connection next
  | program => overWire pool connection false program

end OnWire

end AuthWebauthn.Redis
