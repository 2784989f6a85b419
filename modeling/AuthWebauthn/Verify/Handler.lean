import AuthWebauthn.Challenge
import AuthWebauthn.Credential.Store
import AuthWebauthn.Data.Base64url
import AuthWebauthn.Verify.Assertion

namespace AuthWebauthn

open Process Redis

/-- One buffer of the request body; a buffer may be in a temporary file. -/
structure BodyBuf where
  bytes : Bytes
  inFile : Bool
deriving DecidableEq

abbrev maxBody : Nat := 64 * 1024

abbrev jtiLength : Nat := 16

/-- What one request brings: its buffered body, the clock when the counter is
written, and the random bytes for the token id. -/
structure VerifyRequest where
  body : Option (List BodyBuf)
  now : Int64
  jti : Option (Vector UInt8 jtiLength)
deriving DecidableEq

def readBody : Option (List BodyBuf) → Option Bytes
  | none => none
  | some bufs =>
      let body := bufs.flatMap BodyBuf.bytes
      if bufs.any BodyBuf.inFile then none
      else if body.length = 0 ∨ body.length > maxBody then none
      else some body

section

variable (ext : Externals)

def b64urlField (object : ext.Json) (name : Bytes) : Option Bytes := do
  let encoded ← ext.jsonObjectGetString object name
  if encoded = [] then none else ext.decodeBase64url encoded

/-- What the handler takes out of the body before it talks to Redis. -/
structure ParsedRequest where
  id : Bytes
  assertion : Assertion
  challenge : Bytes
deriving DecidableEq

/-- The challenge named inside clientDataJSON. -/
def namedChallenge (clientDataJson : Bytes) : Option Bytes := do
  let clientData ← ext.jsonParseUntrusted clientDataJson
  if ext.jsonIsObject clientData = false then none
  else ext.decodeBase64url (← ext.jsonObjectGetString clientData (ascii "challenge"))

def parseVerifyBody (body : Option (List BodyBuf)) : Option ParsedRequest := do
  let root ← ext.jsonParseUntrusted (← readBody body)
  if ext.jsonIsObject root = false then none
  else
    let id ← ext.jsonObjectGetString root (ascii "id")
    if id = [] then none
    else
      let response ← ext.jsonObjectGet root (ascii "response")
      if ext.jsonIsObject response = false then none
      else
        let clientDataJson ← b64urlField ext response (ascii "clientDataJSON")
        let authenticatorData ← b64urlField ext response (ascii "authenticatorData")
        let signature ← b64urlField ext response (ascii "signature")
        let challenge ← namedChallenge ext clientDataJson
        return { id, assertion := { authenticatorData, clientDataJson, signature }, challenge }

end

def hexDigit (value : UInt8) : UInt8 := if value < 10 then 48 + value else 87 + value

/-- One byte of `json_escape`. -/
def jsonEscapeByte (byte : UInt8) : Bytes :=
  if byte = 34 then [92, 34]
  else if byte = 92 then [92, 92]
  else if byte = 10 then [92, 110]
  else if byte = 13 then [92, 114]
  else if byte = 9 then [92, 116]
  else if byte < 0x20 then [92, 117, 48, 48, hexDigit ((byte >>> 4) &&& 0xf), hexDigit (byte &&& 0xf)]
  else [byte]

def jsonEscape (text : Bytes) : Bytes := text.flatMap jsonEscapeByte

/-- The claims of a session token; `iss` is a literal of the source. -/
structure SessionClaims where
  aud : Bytes
  sub : Bytes
  cid : Bytes
  iat : Int64
  exp : Int64
  jti : Bytes
deriving DecidableEq

/-- The claims text that is signed.  Only `sub` is escaped. -/
def SessionClaims.text (claims : SessionClaims) : Bytes :=
  ascii "\x7b\"iss\":\"nginx-webauthn\",\"aud\":\"" ++ claims.aud ++
    ascii "\",\"sub\":\"" ++ jsonEscape claims.sub ++
    ascii "\",\"cid\":\"" ++ claims.cid ++
    ascii "\",\"iat\":" ++ Decimal.ofInt claims.iat.toInt ++
    ascii ",\"exp\":" ++ Decimal.ofInt claims.exp.toInt ++
    ascii ",\"jti\":\"" ++ claims.jti ++ ascii "\"\x7d"

def sessionClaims (conf : LocConf) (userId id : Bytes) (now : Int64)
    (jti : Vector UInt8 jtiLength) : SessionClaims where
  aud := conf.rpId
  sub := userId
  cid := id
  iat := now
  exp := now + conf.jwtTtl
  jti := Base64url.encode jti.toList

def samesiteName : SameSite → Bytes
  | .strict => ascii "Strict"
  | .lax => ascii "Lax"
  | .none => ascii "None"

def sessionCookie (conf : LocConf) (jwt : Bytes) : Bytes :=
  conf.cookieName ++ ascii "=" ++ jwt ++ ascii "; HttpOnly; SameSite=" ++
    samesiteName conf.cookieSamesite ++ ascii "; Path=" ++ conf.cookiePath ++
    (if conf.cookieSecure then ascii "; Secure" else []) ++
    (if conf.cookieDomain ≠ [] then ascii "; Domain=" ++ conf.cookieDomain else []) ++
    ascii "; Max-Age=" ++ Decimal.ofInt conf.jwtTtl.toInt

def successBody (claims : SessionClaims) : Bytes :=
  ascii "\x7b\"ok\":true,\"user_id\":\"" ++ jsonEscape claims.sub ++ ascii "\",\"exp\":" ++
    Decimal.ofInt claims.exp.toInt ++ ascii "\x7d"

/-- How a verify request ends: 500, 401, or 200 with a minted token. -/
inductive VerifyOutcome where
  | internalError
  | rejected
  | minted (claims : SessionClaims) (jwt cookie body : Bytes)
deriving DecidableEq

def mintSession (ext : Externals) (conf : LocConf) (userId id : Bytes) (now : Int64) :
    Option (Vector UInt8 jtiLength) → VerifyOutcome
  | none => .internalError
  | some jti =>
      let claims := sessionClaims conf userId id now jti
      match ext.jwxEncode conf.jwtAlg.name claims.text conf.jwtSecret with
      | none => .internalError
      | some jwt => .minted claims jwt (sessionCookie conf jwt) (successBody claims)

theorem mintSession_minted {ext : Externals} {conf : LocConf} {userId id : Bytes} {now : Int64}
    {jti : Option (Vector UInt8 jtiLength)} {claims : SessionClaims} {jwt cookie body : Bytes}
    (minted : mintSession ext conf userId id now jti = .minted claims jwt cookie body) :
    ∃ drawn, jti = some drawn ∧ claims = sessionClaims conf userId id now drawn ∧
      ext.jwxEncode conf.jwtAlg.name claims.text conf.jwtSecret = some jwt ∧
      cookie = sessionCookie conf jwt ∧ body = successBody claims := by
  cases jti with
  | none => cases minted
  | some drawn =>
      simp only [mintSession] at minted
      split at minted
      · cases minted
      · rename_i signed
        cases minted
        exact ⟨drawn, rfl, rfl, signed, rfl, rfl⟩

def assertionCredOf (cred : Credential) : AssertionCred where
  publicKey := cred.publicKey
  alg := cred.alg
  signCount := cred.signCount

def policyOf (conf : LocConf) (challenge : Bytes) (origins : List Bytes) : AssertionPolicy where
  rpId := conf.rpId
  expectedChallenge := challenge
  allowedOrigins := origins
  requireUv := conf.userVerification = .required
  cloneDetection := conf.cloneDetection

def verifyDone (ext : Externals) (conf : LocConf) (request : VerifyRequest) :
    RedisProg VerifyOutcome := do
  match conf.origins with
  | none => return .internalError
  | some origins =>
      if conf.rpId = [] ∨ conf.redisHost = [] ∨ conf.jwtSecret = [] then return .internalError
      match parseVerifyBody ext request.body with
      | none => return .rejected
      | some parsed =>
          if (← redisConnect conf.redisHost) ≠ .ok then return .internalError
          if (← challengeConsume conf.redisKeyPrefix parsed.challenge) ≠ .ok then return .rejected
          match ← credentialGet conf.redisKeyPrefix parsed.id with
          | .error _ => return .rejected
          | .ok cred =>
              match assertionVerify ext parsed.assertion (assertionCredOf cred)
                  (policyOf conf parsed.challenge origins) with
              | .error _ => return .rejected
              | .ok authSignCount =>
                  -- a failed counter update is logged and does not stop the login
                  let _ ← credentialUpdateCounter conf.redisKeyPrefix parsed.id authSignCount request.now
                  return mintSession ext conf cred.userId parsed.id request.now request.jti

structure Response where
  status : Nat
  headers : List (Bytes × Bytes)
  body : Bytes
deriving DecidableEq

def VerifyOutcome.response : VerifyOutcome → Response
  | .internalError => ⟨500, [], []⟩
  | .rejected => ⟨401, [], ascii "\x7b\"ok\":false,\"error\":\"E_ASSERTION\"\x7d"⟩
  | .minted _ _ cookie body => ⟨200, [(ascii "Set-Cookie", cookie)], body⟩

end AuthWebauthn
