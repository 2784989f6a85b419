import AuthWebauthn.ChallengeResponse
import AuthWebauthn.System.Deployment

namespace AuthWebauthn

open Process Redis

/-! The integers of a response as the mathematical values they stand for, next to the
64-bit arithmetic that computes them.  The TTL of a challenge is bounded before
anything is computed from it; the TTL of a session is not.
-/

def challengeText (conf : LocConf) (challenge : Bytes) (ids : List Bytes) (timeout : Int) : Bytes :=
  ascii "\x7b\"challenge\":\"" ++ Base64url.encode challenge ++
    ascii "\",\"rpId\":\"" ++ conf.rpId ++
    ascii "\",\"timeout\":" ++ Decimal.ofInt timeout ++
    ascii ",\"userVerification\":\"" ++ uvName conf.userVerification ++
    ascii "\",\"allowCredentials\":[" ++ allowCredentials ids ++ ascii "]\x7d"

def sessionText (conf : LocConf) (sub cid jti : Bytes) (iat exp : Int) : Bytes :=
  ascii "\x7b\"iss\":\"nginx-webauthn\",\"aud\":\"" ++ conf.rpId ++
    ascii "\",\"sub\":\"" ++ jsonEscape sub ++
    ascii "\",\"cid\":\"" ++ cid ++
    ascii "\",\"iat\":" ++ Decimal.ofInt iat ++
    ascii ",\"exp\":" ++ Decimal.ofInt exp ++
    ascii ",\"jti\":\"" ++ jti ++ ascii "\"\x7d"

def cookieText (conf : LocConf) (jwt : Bytes) (maxAge : Int) : Bytes :=
  conf.cookieName ++ ascii "=" ++ jwt ++ ascii "; HttpOnly; SameSite=" ++
    samesiteName conf.cookieSamesite ++ ascii "; Path=" ++ conf.cookiePath ++
    (if conf.cookieSecure then ascii "; Secure" else []) ++
    (if conf.cookieDomain ≠ [] then ascii "; Domain=" ++ conf.cookieDomain else []) ++
    ascii "; Max-Age=" ++ Decimal.ofInt maxAge

def successText (sub : Bytes) (exp : Int) : Bytes :=
  ascii "\x7b\"ok\":true,\"user_id\":\"" ++ jsonEscape sub ++ ascii "\",\"exp\":" ++
    Decimal.ofInt exp ++ ascii "\x7d"

/-- A challenge response is exact: Redis keeps the challenge for the TTL, and the
timeout is a thousand times the TTL. -/
structure ChallengeExact (conf : LocConf) (exchanges : List (Cmd × Option Reply))
    (challenge : Vector UInt8 challengeLength) (body : Bytes) : Prop where
  stored : ∃ seconds reply,
    (.setEx (challengeKey conf.redisKeyPrefix challenge.toList) (ascii "1") seconds, reply) ∈ exchanges
  lifetime : ∀ key value (seconds : Nat) reply, (.setEx key value seconds, reply) ∈ exchanges →
    (seconds : Int) = conf.challengeTtl.toInt
  noOverflow : (conf.challengeTtl * 1000).toInt = 1000 * conf.challengeTtl.toInt
  written : ∃ ids, body = challengeText conf challenge.toList ids (1000 * conf.challengeTtl.toInt)

/-- A session is exact: the signed claims and the body expire the TTL after `now`, and
the cookie lives for the TTL. -/
structure SessionExact (ext : Externals) (conf : LocConf) (now : Int64) (claims : SessionClaims)
    (jwt cookie body : Bytes) : Prop where
  noOverflow : (now + conf.jwtTtl).toInt = now.toInt + conf.jwtTtl.toInt
  signed : ext.jwxEncode conf.jwtAlg.name claims.text conf.jwtSecret = some jwt
  claimed : claims.text =
    sessionText conf claims.sub claims.cid claims.jti now.toInt (now.toInt + conf.jwtTtl.toInt)
  kept : cookie = cookieText conf jwt conf.jwtTtl.toInt
  written : body = successText claims.sub (now.toInt + conf.jwtTtl.toInt)

section

variable {ext : Externals} {conf : LocConf} {exchanges : List (Cmd × Option Reply)}

theorem challenge_exact {request : ChallengeRequest} {challenge : Vector UInt8 challengeLength}
    {body : Bytes}
    (issued : Prog.Talks (challengeContent ext conf request) exchanges (.done (.issued challenge body))) :
    ChallengeExact conf exchanges challenge body := by
  obtain ⟨ids, run⟩ := challengeContent_issued issued
  have timeout := run.accepted.timeout
  refine ⟨?_, ?_, timeout, ids, ?_⟩
  · obtain ⟨before, stored, listed, _, _, past⟩ := run.exchanged
    exact ⟨_, stored, past ▸ List.mem_append_right _ (List.mem_cons_self ..)⟩
  · intro key value seconds reply member
    rcases (issued.issues challengeContent_issues).1 _ member with
      other | ⟨_, other⟩ | ⟨drawn, _, positive, same⟩ | ⟨userId, other⟩
    · cases other
    · cases other
    · obtain ⟨_, _, rfl⟩ := Cmd.setEx.inj same
      omega
    · cases other
  · rw [run.written, challengeBody, timeout, challengeText]

theorem session_exact_iff {request : VerifyRequest} {claims : SessionClaims} {jwt cookie body : Bytes}
    (minted : Prog.Talks (verifyDone ext conf request) exchanges (.done (.minted claims jwt cookie body))) :
    SessionExact ext conf request.now claims jwt cookie body ↔
      FitsInt64 (request.now.toInt + conf.jwtTtl.toInt) := by
  obtain ⟨_, parsed, _, _, _, _, cred, _, _, _, session⟩ := verifyDone_minted minted
  obtain ⟨drawn, _, rfl, signed, rfl, rfl⟩ := mintSession_minted session
  rw [← int64_add_iff]
  constructor
  · intro whole
    exact whole.noOverflow
  · intro noOverflow
    refine ⟨noOverflow, signed, ?_, rfl, ?_⟩
    · rw [← noOverflow]
      rfl
    · rw [← noOverflow]
      rfl

/-- The responses of the two handlers are exact precisely if the expiry of the session
is representable.  For the challenge there is no condition. -/
theorem lifetimes_exact_iff {request : VerifyRequest} {claims : SessionClaims} {jwt cookie body : Bytes}
    (minted : Prog.Talks (verifyDone ext conf request) exchanges (.done (.minted claims jwt cookie body))) :
    (∀ asked talked challenge answered,
        Prog.Talks (challengeContent ext conf asked) talked (.done (.issued challenge answered)) →
        ChallengeExact conf talked challenge answered) ∧
      SessionExact ext conf request.now claims jwt cookie body ↔
    FitsInt64 (request.now.toInt + conf.jwtTtl.toInt) := by
  rw [← session_exact_iff minted]
  exact and_iff_right fun _ _ _ _ issued => challenge_exact issued

end

namespace Sample

theorem first_login_exact :
    (∀ asked talked challenge answered,
        Prog.Talks (challengeContent ext conf asked) talked (.done (.issued challenge answered)) →
        ChallengeExact conf talked challenge answered) ∧
      SessionExact ext conf first.request.now claims jwt (sessionCookie conf jwt) (successBody claims) := by
  have job : whole.jobs (.turn (.answer .first)) = .verify conf first.request := rfl
  exact (lifetimes_exact_iff (whole.minted_talks job firstLogin_minted)).mpr (by decide)

/-- `auth_webauthn_jwt_ttl` at the largest time it takes. -/
def endless : LocConf := { conf with jwtTtl := 9223372036854775807 }

def endlessClaims : SessionClaims := sessionClaims endless (ascii "alice") (ascii "AQ") 1000 jti

def endlessJwt : Bytes :=
  ascii "eyJhbGciOiJIUzI1NiIsInR5cCI6IkpXVCJ9." ++ Base64url.encode endlessClaims.text ++ ascii "." ++
    Base64url.encode (bytesOf 32 0x720a5d8551b5d3ef7266e9a669be514c09893d5e56a6ba385b1347abcc8ae72b)

def endlessExt : Externals := { tables with tokens := [(endlessClaims.text, endlessJwt)] }.externals

/-- What Redis replies to the first login. -/
def replies : List (Option Reply) :=
  [some .status, some (.str (ascii "1")), some (.array (flattenPairs (credentialPairs registration.cred))),
    some (.integer 0)]

/-- The token of a session without end has expired long ago. -/
theorem endless_session_wraps :
    ∃ exchanges, Prog.Talks (verifyDone endlessExt endless first.request) exchanges
        (.done (.minted endlessClaims endlessJwt (sessionCookie endless endlessJwt)
          (successBody endlessClaims))) ∧
      endlessClaims.iat = 1000 ∧ endlessClaims.exp = -9223372036854774809 ∧
      ¬ SessionExact endlessExt endless first.request.now endlessClaims endlessJwt
        (sessionCookie endless endlessJwt) (successBody endlessClaims) := by
  have ended : (verifyDone endlessExt endless first.request).answer replies =
      .done (.minted endlessClaims endlessJwt (sessionCookie endless endlessJwt)
        (successBody endlessClaims)) :=
    Prog.eq_done_of_result (by decide +kernel)
  obtain ⟨exchanges, talks⟩ := (verifyDone endlessExt endless first.request).answer_talks replies
  rw [ended] at talks
  refine ⟨exchanges, talks, by decide, by decide, ?_⟩
  intro whole
  exact absurd whole.noOverflow (by decide)

end Sample

end AuthWebauthn
