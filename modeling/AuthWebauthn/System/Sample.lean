import AuthWebauthn.Data.Json
import AuthWebauthn.System.Deployment

namespace AuthWebauthn

open Process Redis

/-! JSON and base64url are computed; what takes a secret or a hash function is looked
up.  A deployment of one credential with three logins follows, for runs on
concrete input.
-/

structure Tables where
  /-- Data with its SHA-256 digest. -/
  digests : List (Bytes × Bytes)
  publicKey : Bytes
  /-- Ed25519 signatures by the public key, with the signed data. -/
  signatures : List (Bytes × Bytes)
  jwtAlg : Bytes
  jwtSecret : Bytes
  /-- Claims with the token that the secret gives. -/
  tokens : List (Bytes × Bytes)

def jsonMember : Json.Value → Bytes → Option Json.Value
  | .object members, name => members.lookup name
  | _, _ => none

def jsonText : Json.Value → Option Bytes
  | .string text => some text
  | _ => none

/-- The algorithm and the encoded key of a JWKS with one HMAC key. -/
def hmacKeyOf (root : Json.Value) : Option (Bytes × Bytes) :=
  match jsonMember root (ascii "keys") with
  | some (.array [key]) => do
      if (jsonMember key (ascii "kty")).bind jsonText ≠ some (ascii "oct") then none
      else
        let alg ← (jsonMember key (ascii "alg")).bind jsonText
        let secret ← (jsonMember key (ascii "k")).bind jsonText
        return (alg, secret)
  | _ => none

def Tables.externals (tables : Tables) : Externals where
  Json := Json.Value
  jsonParseUntrusted := Json.parse
  jsonIsObject
    | .object _ => true
    | _ => false
  jsonObjectGet := jsonMember
  jsonString := jsonText
  jsonBoolean
    | .boolean value => some value
    | _ => none
  jsonObjectGetString root name := (jsonMember root name).bind jsonText
  evpDigestSha256 data := List.lookup data tables.digests
  Pkey := Bytes
  d2iPubkey der := if der = tables.publicKey then some der else none
  pkeyBaseId _ := .ed25519
  digestVerifyInit hashed _ := !hashed
  digestVerify _ _ signature data := if (signature, data) ∈ tables.signatures then 1 else 0
  decodeBase64url := Base64url.decode
  unescapeUri := id
  jwxEncode alg claims key :=
    if alg = tables.jwtAlg ∧ key = tables.jwtSecret then List.lookup claims tables.tokens else none
  Token := Bytes
  jwxDecode jwt := (tables.tokens.find? fun token => token.2 = jwt).map Prod.fst
  Jwks := Bytes × Bytes
  jwksParse doc := (Json.parse doc).bind hmacKeyOf
  jwksParseKeyval _ := none
  jwsVerify _ key := key = (tables.jwtAlg, Base64url.encode tables.jwtSecret)
  tokenPayload := Json.parse
  claimsGetString root name := (jsonMember root name).bind jsonText
  claimsGetInteger root name :=
    match jsonMember root name with
    | some (.integer value) =>
        if -9223372036854775808 ≤ value ∧ value ≤ 9223372036854775807 then some (Int64.ofInt value)
        else none
    | _ => none

namespace Sample

/-- The big-endian bytes of a number. -/
def bytesOf : Nat → Nat → Bytes
  | 0, _ => []
  | length + 1, value => bytesOf length (value / 256) ++ [UInt8.ofNat (value % 256)]

def conf : LocConf where
  rpId := ascii "example.com"
  rpName := ascii "Example"
  origins := some [ascii "https://example.com"]
  challengeTtl := 60
  userVerification := .preferred
  rateLimitMax := 0
  rateLimitWindow := 60
  redisUrl := ascii "127.0.0.1:6379"
  redisHost := ascii "127.0.0.1"
  redisPort := 6379
  redisPassword := []
  redisDb := 0
  redisTimeout := 100
  redisKeyPrefix := defaultKeyPrefix
  jwtSecretFile := ascii "jwt.key"
  jwtSecret := ascii "0123456789abcdef0123456789abcdef"
  jwtPubPem := []
  jwtAlg := .hs256
  jwtTtl := 3600
  cookieName := ascii "webauthn_session"
  cookieDomain := []
  cookiePath := ascii "/"
  cookieSecure := true
  cookieSamesite := .strict
  cloneDetection := .strict
  auth := true
  signinUrl := []
  setHeaders := none
  challengeHandler := true
  verifyHandler := true

theorem configured : Configured conf [ascii "https://example.com"] := ⟨rfl, by decide, by decide, by decide⟩

def publicKey : Bytes := bytesOf 44 0x302a300506032b65700321009f7dd1bc38152dcaa90245a7eda213c29f1685821b0ceb8affd9b311f6f5c3b9

def registration : Registration where
  cred := { Credential.zero (ascii "AQ") with
    userId := ascii "alice", publicKey := publicKey, alg := -8, signCount := 5 }
  named := by decide
  keyed := by decide
  supported := .inr (.inl rfl)

/-- The registered credential, with counter 5. -/
def registered : Db :=
  Db.empty.write (credentialRecordKey defaultKeyPrefix (ascii "AQ"))
    (hashEntry (Hash.setFields ∅ (credentialPairs registration.cred)))

theorem registered_isHash :
    IsHash registered (credentialRecordKey defaultKeyPrefix (ascii "AQ")) :=
  isHash_of_entry (Db.write_same ..)

def rpIdHash : Bytes := bytesOf 32 0xa379a6f6eeafb9a55e378c118034e2751e682fab9f2d30ab13d2125586ce1947

/-- One login: the challenge is 32 times the same byte. -/
structure Login where
  challenge : UInt8
  counter : UInt8
  clientDataHash : Bytes
  signature : Bytes

def Login.clientData (login : Login) : Bytes :=
  ascii "\x7b\"type\":\"webauthn.get\",\"challenge\":\"" ++
    Base64url.encode (List.replicate 32 login.challenge) ++
    ascii "\",\"origin\":\"https://example.com\"\x7d"

def Login.authenticatorData (login : Login) : Bytes := rpIdHash ++ [1, 0, 0, 0, login.counter]

def Login.body (login : Login) : Bytes :=
  ascii "\x7b\"id\":\"AQ\",\"response\":\x7b\"clientDataJSON\":\"" ++ Base64url.encode login.clientData ++
    ascii "\",\"authenticatorData\":\"" ++ Base64url.encode login.authenticatorData ++
    ascii "\",\"signature\":\"" ++ Base64url.encode login.signature ++ ascii "\"\x7d\x7d"

def first : Login where
  challenge := 1
  counter := 7
  clientDataHash := bytesOf 32 0x59454d81d134a144eb7567c28bec6586e2674d4756c592cc42e98151c9cf0c0b
  signature := bytesOf 32
      0x836e07bf1c973dbf80b7a80baa1608de2a95d6997ca2d55792877653ae378ca0 ++
    bytesOf 32 0x96ba990bfa93cfae81d87635e8ae9218e6fc76ef5b479a0a853ad368c48f3202

def second : Login where
  challenge := 2
  counter := 6
  clientDataHash := bytesOf 32 0xde9ce090a30b92ee6534e20962bbca0882ebc7237554458ef18a0e2ef63d4ded
  signature := bytesOf 32
      0xf9e9785a939d0bf039e5aab488571298947c85e2971e632d6a71dd0c811f6c40 ++
    bytesOf 32 0x8a42940a429c34f3a323b66bb1dc44aaf2e3774d601129c6defb988481a1470b

def third : Login where
  challenge := 3
  counter := 6
  clientDataHash := bytesOf 32 0x5938c39aa21a8cd3d6b87bfca4152bcabc971667057ac387c20c61c456d9b2d8
  signature := bytesOf 32
      0x0887c5a275a981dc085069b53a614c2b98ded6573e82213f94a610959614f5a7 ++
    bytesOf 32 0x757ab4d3b753457fdfb9d1a2d3936f36f912c94207dad69ad60ba5e96ece1903

def jti : Vector UInt8 jtiLength := Vector.ofFn fun index => UInt8.ofNat index

def claims : SessionClaims := sessionClaims conf (ascii "alice") (ascii "AQ") 1000 jti

/-- The token: header, claims, and the HMAC of both under the secret. -/
def jwt : Bytes :=
  ascii "eyJhbGciOiJIUzI1NiIsInR5cCI6IkpXVCJ9." ++ Base64url.encode claims.text ++ ascii "." ++
    Base64url.encode (bytesOf 32 0x9cc6be93068d22823213b47914f01f408f4f97d2aaffbb27dc9ccb53b4e9f5ae)

def tables : Tables where
  digests := (ascii "example.com", rpIdHash) ::
    [first, second, third].map fun login => (login.clientData, login.clientDataHash)
  publicKey := publicKey
  signatures := [first, second, third].map fun login =>
    (login.signature, login.authenticatorData ++ login.clientDataHash)
  jwtAlg := ascii "HS256"
  jwtSecret := conf.jwtSecret
  tokens := [(claims.text, jwt)]

def ext : Externals := tables.externals

def Login.challengeJob (login : Login) : Job :=
  .challenge conf
    { addrText := ascii "192.0.2.1"
      userId := none
      random := some (Vector.replicate 32 login.challenge) }

def Login.request (login : Login) : VerifyRequest where
  body := some [⟨login.body, false⟩]
  now := 1000
  jti := some jti

def Login.verifyJob (login : Login) : Job := .verify conf login.request

inductive Position where
  | first
  | second
  | third
deriving DecidableEq

def login : Position → Login
  | .first => first
  | .second => second
  | .third => third

/-- The two requests of each login. -/
inductive Turn where
  | ask (position : Position)
  | answer (position : Position)
deriving DecidableEq

def Turn.job : Turn → Job
  | .ask position => (login position).challengeJob
  | .answer position => (login position).verifyJob

def logins : Deployment Turn where
  jobs := Turn.job
  keyPrefix := defaultKeyPrefix
  shared := by rintro (position | position) <;> rfl

inductive Actor where
  | register
  | revoke
  | turn (own : Turn)
deriving DecidableEq

def Actor.job : Actor → Job
  | .register => .register conf.redisHost defaultKeyPrefix registration
  | .revoke => .revoke conf.redisHost defaultKeyPrefix (ascii "AQ")
  | .turn own => own.job

def whole : Deployment Actor where
  jobs := Actor.job
  keyPrefix := defaultKeyPrefix
  shared := by rintro (_ | _ | (position | position)) <;> rfl

/-- The next commands of a process are all served. -/
def served {ι : Type} (process : ι) (count : Nat) : List (RedisEvent ι) :=
  List.replicate count (.step process .served)

theorem served_events {ι : Type} (process : ι) (count : Nat) :
    ∀ event ∈ served process count, ServedEvent event := by
  intro event member
  rw [List.eq_of_mem_replicate member]
  rfl

/-- The credential is registered, and the first login succeeds. -/
def firstLogin : List (RedisEvent Actor) :=
  served .register 3 ++ served (.turn (.ask .first)) 2 ++ served (.turn (.answer .first)) 4

theorem firstLogin_minted :
    (whole.run ext .inOrder Db.empty firstLogin).programs (.turn (.answer .first)) =
      .done (.verify (.minted claims jwt (sessionCookie conf jwt) (successBody claims))) :=
  Prog.eq_done_of_result (by decide +kernel)

end Sample

end AuthWebauthn
