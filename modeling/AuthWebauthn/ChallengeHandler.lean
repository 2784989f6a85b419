import AuthWebauthn.Challenge
import AuthWebauthn.Conf.LocConf
import AuthWebauthn.Data.Base64url
import AuthWebauthn.Externals

namespace AuthWebauthn

open Process Redis

structure ChallengeRequest where
  addrText : Bytes
  /-- The raw `user_id` query argument. -/
  userId : Option Bytes
  random : Option (Vector UInt8 challengeLength)
deriving DecidableEq

/-- `false` is `NGX_DECLINED`: the quota is exceeded.  A counter that cannot be
read lets the request pass. -/
def rateLimit (conf : LocConf) (addrText : Bytes) : RedisProg Bool := do
  if conf.rateLimitMax = 0 then return true
  match ← redisIncrExpire (rateLimitKey conf.redisKeyPrefix addrText)
      conf.rateLimitWindow.toUInt64.toNat with
  | none => return true
  | some count => return ¬ (UInt64.ofInt count > conf.rateLimitMax)

/-- What `rate_limit` makes of the reply of its script. -/
def rateVerdict (rateLimitMax : UInt64) (reply : Option Reply) : Bool :=
  match incrExpireReply reply with
  | none => true
  | some count => ¬ (UInt64.ofInt count > rateLimitMax)

theorem rateLimit_eq {conf : LocConf} (limited : conf.rateLimitMax ≠ 0) (addrText : Bytes) :
    rateLimit conf addrText =
      .call (.incrExpire (rateLimitKey conf.redisKeyPrefix addrText) conf.rateLimitWindow.toUInt64.toNat)
        fun reply => .done (rateVerdict conf.rateLimitMax reply) := by
  simp only [rateLimit, if_neg limited, redisIncrExpire, Prog.issue_bind, Prog.call_bind, Prog.done_bind,
    Prog.pure_eq]
  congr
  funext reply
  unfold rateVerdict
  cases incrExpireReply reply <;> rfl

def uvName : UserVerification → Bytes
  | .required => ascii "required"
  | .preferred => ascii "preferred"
  | .discouraged => ascii "discouraged"

def allowCredential (id : Bytes) : Bytes :=
  ascii "\x7b\"type\":\"public-key\",\"id\":\"" ++ id ++ ascii "\"\x7d"

def allowCredentials : List Bytes → Bytes
  | [] => []
  | id :: rest => allowCredential id ++ rest.flatMap fun later => ascii "," ++ allowCredential later

def challengeBody (conf : LocConf) (challenge : Bytes) (creds : List Bytes) : Bytes :=
  ascii "\x7b\"challenge\":\"" ++ Base64url.encode challenge ++
    ascii "\",\"rpId\":\"" ++ conf.rpId ++
    ascii "\",\"timeout\":" ++ Decimal.ofInt (conf.challengeTtl * 1000).toInt ++
    ascii ",\"userVerification\":\"" ++ uvName conf.userVerification ++
    ascii "\",\"allowCredentials\":[" ++ allowCredentials creds ++ ascii "]\x7d"

inductive ChallengeOutcome where
  | internalError
  | tooManyRequests
  | issued (challenge : Vector UInt8 challengeLength) (body : Bytes)
deriving DecidableEq

/-- The ids listed for the user of the query; no user gives none. -/
def listedCredentials (ext : Externals) (conf : LocConf) :
    Option Bytes → RedisProg (Option (List Bytes))
  | none | some [] => return some []
  | some userId => redisSmembers (credentialIndexKey conf.redisKeyPrefix (ext.unescapeUri userId))

def challengeContent (ext : Externals) (conf : LocConf) (request : ChallengeRequest) :
    RedisProg ChallengeOutcome := do
  if conf.rpId = [] ∨ conf.redisHost = [] then return .internalError
  if (← redisConnect conf.redisHost) ≠ .ok then return .internalError
  if (← rateLimit conf request.addrText) = false then return .tooManyRequests
  match ← challengeIssue conf.redisKeyPrefix conf.challengeTtl request.random with
  | none => return .internalError
  | some challenge =>
      match ← listedCredentials ext conf request.userId with
      | none => return .internalError
      | some creds => return .issued challenge (challengeBody conf challenge.toList creds)

end AuthWebauthn
