import AuthWebauthn.Ngx

namespace AuthWebauthn

/-- `auth_webauthn_user_verification`. -/
inductive UserVerification where
  | required
  | preferred
  | discouraged
deriving DecidableEq

/-- `auth_webauthn_clone_detection`. -/
inductive CloneDetection where
  | strict
  | lax
  | off
deriving DecidableEq

inductive SameSite where
  | strict
  | lax
  | none
deriving DecidableEq

/-- HMAC keys verify with the raw secret, asymmetric keys with a derived
public PEM. -/
inductive JwtFamily where
  | hmac
  | asym
deriving DecidableEq

/-- The algorithms that `auth_webauthn_jwt_alg` takes; it sets the name and the
family together. -/
inductive JwtAlg where
  | hs256
  | rs256
  | es256
deriving DecidableEq

def JwtAlg.name : JwtAlg → Bytes
  | .hs256 => ascii "HS256"
  | .rs256 => ascii "RS256"
  | .es256 => ascii "ES256"

def JwtAlg.family : JwtAlg → JwtFamily
  | .hs256 => .hmac
  | .rs256 | .es256 => .asym

/-- One `auth_webauthn_set_header`: the value is evaluated for each request. -/
structure SetHeader where
  name : Bytes
  value : Bytes
deriving DecidableEq

structure LocConf where
  rpId : Bytes
  rpName : Bytes
  origins : Option (List Bytes)
  challengeTtl : Int64
  userVerification : UserVerification
  rateLimitMax : UInt64
  rateLimitWindow : Int64
  redisUrl : Bytes
  redisHost : Bytes
  redisPort : Int64
  redisPassword : Bytes
  redisDb : UInt64
  redisTimeout : UInt64
  redisKeyPrefix : Bytes
  jwtSecretFile : Bytes
  jwtSecret : Bytes
  jwtPubPem : Bytes
  jwtAlg : JwtAlg
  jwtTtl : Int64
  cookieName : Bytes
  cookieDomain : Bytes
  cookiePath : Bytes
  cookieSecure : Bool
  cookieSamesite : SameSite
  cloneDetection : CloneDetection
  auth : Bool
  signinUrl : Bytes
  setHeaders : Option (List SetHeader)
  challengeHandler : Bool
  verifyHandler : Bool
deriving DecidableEq

end AuthWebauthn
