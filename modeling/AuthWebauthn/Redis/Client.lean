import AuthWebauthn.Redis.Server

namespace AuthWebauthn.Redis

open Process

/-! Each function issues one command and reads its reply.  Where the source has
output parameters next to its result, `none` is `NGX_ERROR`.
-/

abbrev RedisProg := Prog Cmd (Option Reply)

def rcOfReply : Option Reply → Rc
  | none | some .error => .error
  | some _ => .ok

/-- Connecting, with the AUTH and SELECT that follow it. -/
def redisConnect (host : Bytes) : RedisProg Rc := do
  if host = [] then return .error
  return rcOfReply (← Prog.issue .connect)

def redisHset (key : Bytes) (pairs : List (Bytes × Bytes)) : RedisProg Rc := do
  if pairs = [] then return .ok
  return rcOfReply (← Prog.issue (.hset key pairs))

/-- The loop of `hgetall`: names and values alternate, a last odd element is
not looked at, and an element that is not a string is an error. -/
def pairsOfElements : List Reply → Option (List (Bytes × Bytes))
  | .str name :: .str value :: rest => (pairsOfElements rest).map ((name, value) :: ·)
  | _ :: _ :: _ => none
  | _ => some []

def hgetallReply : Option Reply → Option (List (Bytes × Bytes))
  | none | some .error => none
  | some (.array elements) => pairsOfElements elements
  | some _ => some []

def redisHgetall (key : Bytes) : RedisProg (Option (List (Bytes × Bytes))) := do
  return hgetallReply (← Prog.issue (.hgetall key))

def redisDel (key : Bytes) : RedisProg Rc := do
  return rcOfReply (← Prog.issue (.del key))

/-- The shared body of SADD and SREM. -/
def redisSetOp (command : Bytes → Bytes → Cmd) (key member : Bytes) : RedisProg Rc := do
  return rcOfReply (← Prog.issue (command key member))

def redisSadd (key member : Bytes) : RedisProg Rc := redisSetOp .sadd key member

def redisSrem (key member : Bytes) : RedisProg Rc := redisSetOp .srem key member

def membersOfElements : List Reply → Option (List Bytes)
  | [] => some []
  | .str member :: rest => (membersOfElements rest).map (member :: ·)
  | _ :: _ => none

def smembersReply : Option Reply → Option (List Bytes)
  | none | some .error => none
  | some (.array elements) => membersOfElements elements
  | some _ => some []

def redisSmembers (key : Bytes) : RedisProg (Option (List Bytes)) := do
  return smembersReply (← Prog.issue (.smembers key))

def incrExpireReply : Option Reply → Option Int
  | some (.integer value) => some value
  | _ => none

def redisIncrExpire (key : Bytes) (seconds : Nat) : RedisProg (Option Int) := do
  return incrExpireReply (← Prog.issue (.incrExpire key seconds))

def redisSetEx (key value : Bytes) (seconds : Nat) : RedisProg Rc := do
  return rcOfReply (← Prog.issue (.setEx key value seconds))

/-- Whether the key existed; a nil reply is an absent or expired key. -/
def getdelReply : Option Reply → Option Bool
  | none | some .error => none
  | some (.str _) => some true
  | some _ => some false

def redisGetdel (key : Bytes) : RedisProg (Option Bool) := do
  return getdelReply (← Prog.issue (.getdel key))

theorem pairsOfElements_flattenPairs (pairs : List (Bytes × Bytes)) :
    pairsOfElements (flattenPairs pairs) = some pairs := by
  induction pairs with
  | nil => rfl
  | cons pair rest ih => simp [flattenPairs, pairsOfElements, ih]

theorem rcOfReply_ok_iff {reply : Option Reply} :
    rcOfReply reply = .ok ↔ ∃ answer, reply = some answer ∧ answer ≠ .error := by
  constructor
  · intro passed
    cases reply with
    | none => cases passed
    | some answer => exact ⟨answer, rfl, by rintro rfl; cases passed⟩
  · intro replied
    obtain ⟨answer, rfl, proper⟩ := replied
    cases answer <;> first | rfl | exact (proper rfl).elim

theorem getdelReply_found_iff {reply : Option Reply} :
    getdelReply reply = some true ↔ ∃ bytes, reply = some (.str bytes) := by
  constructor
  · intro found
    cases reply with
    | none => cases found
    | some answer =>
        cases answer with
        | str bytes => exact ⟨bytes, rfl⟩
        | _ => simp [getdelReply] at found
  · intro replied
    obtain ⟨bytes, rfl⟩ := replied
    rfl

end AuthWebauthn.Redis
