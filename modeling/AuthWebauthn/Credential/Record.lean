import AuthWebauthn.Redis.Effects

namespace AuthWebauthn

open Redis

/-! Credential records and their hash fields, `ngx_auth_webauthn_credential.c`. -/

structure Credential where
  credentialId : Bytes
  userId : Bytes
  publicKey : Bytes
  alg : Int32
  signCount : UInt32
  createdAt : Int64
  lastUsedAt : Int64
  aaguid : Vector UInt8 16
  hasAaguid : Bool
  transports : Bytes
deriving DecidableEq

namespace Field

def userId : Bytes := ascii "user_id"
def publicKey : Bytes := ascii "public_key"
def alg : Bytes := ascii "alg"
def signCount : Bytes := ascii "sign_count"
def createdAt : Bytes := ascii "created_at"
def lastUsedAt : Bytes := ascii "last_used_at"
def aaguid : Bytes := ascii "aaguid"
def transports : Bytes := ascii "transports"

end Field

/-- The digit loop of `atoi64`, in 64-bit unsigned arithmetic. -/
def atoi64Loop (limit : UInt64) : UInt64 → Bytes → Option UInt64
  | acc, [] => some acc
  | acc, byte :: rest =>
      if byte < 48 ∨ byte > 57 then none
      else if acc > (limit - (byte - 48).toUInt64) / 10 then none
      else atoi64Loop limit (acc * 10 + (byte - 48).toUInt64) rest

def credentialAtoi64 : Bytes → Option Int64
  | [] => none
  | byte :: rest =>
      if byte = 45 then
        if rest = [] then none
        else (atoi64Loop (9223372036854775807 + 1) 0 rest).map fun acc => -acc.toInt64
      else (atoi64Loop 9223372036854775807 0 (byte :: rest)).map UInt64.toInt64

/-- An `alg` value: a decimal that fits in 32 bits. -/
def algOfText (text : Bytes) : Option Int32 :=
  match credentialAtoi64 text with
  | none => none
  | some value => if value < -2147483648 ∨ value > 2147483647 then none
      else some (Int32.ofInt value.toInt)

/-- A `sign_count` value: a decimal that fits in 32 bits without a sign. -/
def signCountOfText (text : Bytes) : Option UInt32 :=
  match credentialAtoi64 text with
  | none => none
  | some value => if value < 0 ∨ value > 4294967295 then none
      else some (UInt32.ofNat value.toInt.toNat)

/-- The zeroed record that `get` starts from. -/
def Credential.zero (credentialId : Bytes) : Credential where
  credentialId := credentialId
  userId := []
  publicKey := []
  alg := 0
  signCount := 0
  createdAt := 0
  lastUsedAt := 0
  aaguid := Vector.replicate 16 0
  hasAaguid := false
  transports := []

/-- One turn of the loop of `get`; `none` is its early `NGX_DECLINED`. -/
def credentialGetField (out : Credential) (pair : Bytes × Bytes) : Option Credential :=
  if pair.1 = Field.userId then some { out with userId := pair.2 }
  else if pair.1 = Field.publicKey then some { out with publicKey := pair.2 }
  else if pair.1 = Field.alg then (algOfText pair.2).map fun alg => { out with alg }
  else if pair.1 = Field.signCount then
    (signCountOfText pair.2).map fun signCount => { out with signCount }
  else if pair.1 = Field.createdAt then
    match credentialAtoi64 pair.2 with
    | some createdAt => some { out with createdAt }
    | none => some out
  else if pair.1 = Field.lastUsedAt then
    match credentialAtoi64 pair.2 with
    | some lastUsedAt => some { out with lastUsedAt }
    | none => some out
  else if pair.1 = Field.aaguid then
    if width : pair.2.length = 16 then
      some { out with aaguid := ⟨pair.2.toArray, by simpa using width⟩, hasAaguid := true }
    else some out
  else if pair.1 = Field.transports then some { out with transports := pair.2 }
  else some out

/-- `get` on the pairs that HGETALL returned. -/
def credentialGetPairs (credentialId : Bytes) (pairs : List (Bytes × Bytes)) :
    Except Rc Credential :=
  if pairs = [] then .error .declined
  else
    match pairs.foldlM credentialGetField (Credential.zero credentialId) with
    | none => .error .declined
    | some out => if out.publicKey = [] ∨ out.alg = 0 then .error .declined else .ok out

/-- The pairs that `put` writes. -/
def credentialPairs (cred : Credential) : List (Bytes × Bytes) :=
  [(Field.userId, cred.userId), (Field.publicKey, cred.publicKey),
    (Field.alg, Decimal.ofInt cred.alg.toInt),
    (Field.signCount, Decimal.digits cred.signCount.toNat),
    (Field.createdAt, Decimal.ofInt cred.createdAt.toInt),
    (Field.lastUsedAt, Decimal.ofInt cred.lastUsedAt.toInt)] ++
  (if cred.transports ≠ [] then [(Field.transports, cred.transports)] else []) ++
  (if cred.hasAaguid then [(Field.aaguid, cred.aaguid.toList)] else [])

/-- The pairs that `update_counter` writes. -/
def counterPairs (newCount : UInt32) (lastUsedAt : Int64) : List (Bytes × Bytes) :=
  [(Field.signCount, Decimal.digits newCount.toNat),
    (Field.lastUsedAt, Decimal.ofInt lastUsedAt.toInt)]

end AuthWebauthn
