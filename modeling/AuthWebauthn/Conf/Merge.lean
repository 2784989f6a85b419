import AuthWebauthn.Conf.LocConf

namespace AuthWebauthn

/-! `create_loc_conf` and `merge_loc_conf`.  A field that no directive of the block
has set is `none`; for strings this is a null pointer, and a directive with an
empty argument sets `some []`.
-/

/-- The configuration of a block before it is merged. -/
structure RawConf where
  rpId : Option Bytes
  rpName : Option Bytes
  origins : Option (Option (List Bytes))
  challengeTtl : Option Int64
  userVerification : Option UserVerification
  rateLimitMax : Option UInt64
  rateLimitWindow : Option Int64
  redisUrl : Option Bytes
  redisHost : Option Bytes
  redisPort : Option Int64
  redisPassword : Option Bytes
  redisDb : Option UInt64
  redisTimeout : Option UInt64
  redisKeyPrefix : Option Bytes
  jwtSecretFile : Option Bytes
  jwtSecret : Option Bytes
  jwtPubPem : Option Bytes
  jwtAlg : Option JwtAlg
  jwtTtl : Option Int64
  cookieName : Option Bytes
  cookieDomain : Option Bytes
  cookiePath : Option Bytes
  cookieSecure : Option Bool
  cookieSamesite : Option SameSite
  cloneDetection : Option CloneDetection
  auth : Option Bool
  signinUrl : Option Bytes
  setHeaders : Option (Option (List SetHeader))
  challengeHandler : Option Bool
  verifyHandler : Option Bool
deriving DecidableEq

def createLocConf : RawConf where
  rpId := none
  rpName := none
  origins := none
  challengeTtl := none
  userVerification := none
  rateLimitMax := none
  rateLimitWindow := none
  redisUrl := none
  redisHost := none
  redisPort := none
  redisPassword := none
  redisDb := none
  redisTimeout := none
  redisKeyPrefix := none
  jwtSecretFile := none
  jwtSecret := none
  jwtPubPem := none
  jwtAlg := none
  jwtTtl := none
  cookieName := none
  cookieDomain := none
  cookiePath := none
  cookieSecure := none
  cookieSamesite := none
  cloneDetection := none
  auth := none
  signinUrl := none
  setHeaders := none
  challengeHandler := none
  verifyHandler := none

/-- A merged configuration as the parent of the next merge: every field is set. -/
def LocConf.raw (conf : LocConf) : RawConf where
  rpId := some conf.rpId
  rpName := some conf.rpName
  origins := some conf.origins
  challengeTtl := some conf.challengeTtl
  userVerification := some conf.userVerification
  rateLimitMax := some conf.rateLimitMax
  rateLimitWindow := some conf.rateLimitWindow
  redisUrl := some conf.redisUrl
  redisHost := some conf.redisHost
  redisPort := some conf.redisPort
  redisPassword := some conf.redisPassword
  redisDb := some conf.redisDb
  redisTimeout := some conf.redisTimeout
  redisKeyPrefix := some conf.redisKeyPrefix
  jwtSecretFile := some conf.jwtSecretFile
  jwtSecret := some conf.jwtSecret
  jwtPubPem := some conf.jwtPubPem
  jwtAlg := some conf.jwtAlg
  jwtTtl := some conf.jwtTtl
  cookieName := some conf.cookieName
  cookieDomain := some conf.cookieDomain
  cookiePath := some conf.cookiePath
  cookieSecure := some conf.cookieSecure
  cookieSamesite := some conf.cookieSamesite
  cloneDetection := some conf.cloneDetection
  auth := some conf.auth
  signinUrl := some conf.signinUrl
  setHeaders := some conf.setHeaders
  challengeHandler := some conf.challengeHandler
  verifyHandler := some conf.verifyHandler

/-- The `ngx_conf_merge_*` macros. -/
def mergeValue {α : Type} (conf prev : Option α) (fallback : α) : α := (conf.or prev).getD fallback

def mergeFields (prev conf : RawConf) : LocConf where
  rpId := mergeValue conf.rpId prev.rpId []
  rpName := mergeValue conf.rpName prev.rpName []
  origins := mergeValue conf.origins prev.origins none
  challengeTtl := mergeValue conf.challengeTtl prev.challengeTtl 60
  userVerification := mergeValue conf.userVerification prev.userVerification .preferred
  rateLimitMax := mergeValue conf.rateLimitMax prev.rateLimitMax 0
  rateLimitWindow := mergeValue conf.rateLimitWindow prev.rateLimitWindow 60
  redisUrl := mergeValue conf.redisUrl prev.redisUrl []
  redisHost := mergeValue conf.redisHost prev.redisHost []
  redisPort := mergeValue conf.redisPort prev.redisPort 0
  redisPassword := mergeValue conf.redisPassword prev.redisPassword []
  redisDb := mergeValue conf.redisDb prev.redisDb 0
  redisTimeout := mergeValue conf.redisTimeout prev.redisTimeout 100
  redisKeyPrefix := mergeValue conf.redisKeyPrefix prev.redisKeyPrefix (ascii "webauthn:")
  jwtSecretFile := mergeValue conf.jwtSecretFile prev.jwtSecretFile []
  jwtSecret := mergeValue conf.jwtSecret prev.jwtSecret []
  jwtPubPem := mergeValue conf.jwtPubPem prev.jwtPubPem []
  jwtAlg := mergeValue conf.jwtAlg prev.jwtAlg .hs256
  jwtTtl := mergeValue conf.jwtTtl prev.jwtTtl 3600
  cookieName := mergeValue conf.cookieName prev.cookieName (ascii "webauthn_session")
  cookieDomain := mergeValue conf.cookieDomain prev.cookieDomain []
  cookiePath := mergeValue conf.cookiePath prev.cookiePath (ascii "/")
  cookieSecure := mergeValue conf.cookieSecure prev.cookieSecure true
  cookieSamesite := mergeValue conf.cookieSamesite prev.cookieSamesite .strict
  cloneDetection := mergeValue conf.cloneDetection prev.cloneDetection .strict
  auth := mergeValue conf.auth prev.auth false
  signinUrl := mergeValue conf.signinUrl prev.signinUrl []
  setHeaders := mergeValue conf.setHeaders prev.setHeaders none
  challengeHandler := mergeValue conf.challengeHandler prev.challengeHandler false
  verifyHandler := mergeValue conf.verifyHandler prev.verifyHandler false

/-- The files and the OpenSSL key conversion that the configuration reads. -/
structure ConfEnv where
  readFile : Bytes → Option Bytes
  derivePubPem : Bytes → Option Bytes

/-- All trailing CR and LF bytes go, not just one. -/
def chomp (text : Bytes) : Bytes := (text.reverse.dropWhile fun byte => byte = 10 || byte = 13).reverse

def loadJwtKey (env : ConfEnv) (conf : LocConf) : Option LocConf := do
  let contents ← env.readFile conf.jwtSecretFile
  match conf.jwtAlg.family with
  | .hmac =>
      let secret := chomp contents
      if secret.length < 32 then none else some { conf with jwtSecret := secret }
  | .asym =>
      let pem ← env.derivePubPem contents
      some { conf with jwtSecret := contents, jwtPubPem := pem }

/-- `none` is `NGX_CONF_ERROR`. -/
def mergeLocConf (env : ConfEnv) (prev conf : RawConf) : Option LocConf :=
  let merged := mergeFields prev conf
  if (merged.auth || merged.verifyHandler) && merged.jwtSecret.length = 0 &&
      0 < merged.jwtSecretFile.length then
    loadJwtKey env merged
  else some merged

/-- The directives of one block; none of them sets the loaded key. -/
structure Block where
  conf : RawConf
  unloaded : conf.jwtSecret = none ∧ conf.jwtPubPem = none

/-- A block with the blocks inside it. -/
inductive Tree where
  | node (block : Block) (inner : List Tree)

mutual

/-- Every block of a tree with its path and its merged configuration, outer
blocks first. -/
def mergeTree (env : ConfEnv) (prev : RawConf) (path : List Block) :
    Tree → Option (List (List Block × LocConf))
  | .node block inner =>
      (mergeLocConf env prev block.conf).bind fun conf =>
        (mergeTrees env conf.raw (path ++ [block]) inner).map fun later =>
          (path ++ [block], conf) :: later

def mergeTrees (env : ConfEnv) (prev : RawConf) (path : List Block) :
    List Tree → Option (List (List Block × LocConf))
  | [] => some []
  | tree :: rest =>
      (mergeTree env prev path tree).bind fun first =>
        (mergeTrees env prev path rest).map fun later => first ++ later

end

/-- The whole configuration: servers are merged with the `http` block, which is
not merged itself. -/
def mergeServers (env : ConfEnv) (http : Block) (servers : List Tree) :
    Option (List (List Block × LocConf)) :=
  mergeTrees env http.conf [http] servers

end AuthWebauthn
