import AuthWebauthn.Redis.Client
import AuthWebauthn.Redis.Keys

namespace AuthWebauthn

open Process Redis

/-! Single-use challenges, `ngx_auth_webauthn_challenge.c`. -/

abbrev challengeLength : Nat := 32

/-- `random` is what RAND_bytes delivers.  The TTL guard comes before it. -/
def challengeIssue (keyPrefix : Bytes) (ttl : Int64) (random : Option (Vector UInt8 challengeLength)) :
    RedisProg (Option (Vector UInt8 challengeLength)) := do
  if ttl ≤ 0 ∨ ttl > 4294967295 then return none
  match random with
  | none => return none
  | some challenge =>
      if (← redisSetEx (challengeKey keyPrefix challenge.toList) (ascii "1") ttl.toInt.toNat) ≠ .ok then
        return none
      return some challenge

def challengeConsume (keyPrefix challenge : Bytes) : RedisProg Rc := do
  if challenge.length ≠ challengeLength then return .declined
  match ← redisGetdel (challengeKey keyPrefix challenge) with
  | none => return .error
  | some found => return if found then .ok else .declined

/-- The TTLs that `challenge_issue` takes. -/
def TtlAccepted (ttl : Int64) : Prop := ¬ (ttl ≤ 0 ∨ ttl > 4294967295)

instance (ttl : Int64) : Decidable (TtlAccepted ttl) := inferInstanceAs (Decidable (¬ (_ ∨ _)))

theorem ttlAccepted_iff {ttl : Int64} : TtlAccepted ttl ↔ 1 ≤ ttl.toInt ∧ ttl.toInt ≤ 4294967295 := by
  have zero : (0 : Int64).toInt = 0 := by decide
  have limit : (4294967295 : Int64).toInt = 4294967295 := by decide
  rw [TtlAccepted, Int64.le_iff_toInt_le, GT.gt, Int64.lt_iff_toInt_lt, zero, limit]
  omega

theorem challengeIssue_eq {keyPrefix : Bytes} {ttl : Int64}
    {challenge : Vector UInt8 challengeLength} (inRange : ¬ (ttl ≤ 0 ∨ ttl > 4294967295)) :
    challengeIssue keyPrefix ttl (some challenge) =
      .call (.setEx (challengeKey keyPrefix challenge.toList) (ascii "1") ttl.toInt.toNat)
        fun stored => if rcOfReply stored ≠ .ok then .done none else .done (some challenge) := by
  simp only [challengeIssue, if_neg inRange, redisSetEx, Prog.issue_bind, Prog.call_bind,
    Prog.done_bind, Prog.pure_eq]

theorem challengeConsume_eq {keyPrefix challenge : Bytes} (sized : challenge.length = challengeLength) :
    challengeConsume keyPrefix challenge =
      .call (.getdel (challengeKey keyPrefix challenge)) fun reply =>
        .done (match getdelReply reply with
          | none => .error
          | some true => .ok
          | some false => .declined) := by
  simp only [challengeConsume, sized, ne_eq, not_true_eq_false, if_false, redisGetdel,
    Prog.issue_bind, Prog.call_bind, Prog.done_bind, Prog.pure_eq]
  congr
  funext reply
  rcases getdelReply reply with _ | _ | _ <;> rfl

end AuthWebauthn
