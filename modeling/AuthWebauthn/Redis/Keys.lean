import AuthWebauthn.Ngx

namespace AuthWebauthn.Redis

def defaultKeyPrefix : Bytes := ascii "webauthn:"

def credentialRecordKey (keyPrefix credentialId : Bytes) : Bytes :=
  keyPrefix ++ ascii "cred:" ++ credentialId

def credentialIndexKey (keyPrefix userId : Bytes) : Bytes :=
  keyPrefix ++ ascii "user:" ++ userId ++ ascii ":creds"

def challengeKey (keyPrefix raw : Bytes) : Bytes :=
  keyPrefix ++ ascii "chal:" ++ raw

def rateLimitKey (keyPrefix ip : Bytes) : Bytes :=
  keyPrefix ++ ascii "ratelimit:challenge:" ++ ip

variable {p : Bytes}

theorem credentialRecordKey_inj {left right : Bytes} :
    credentialRecordKey p left = credentialRecordKey p right ↔ left = right := by
  simp [credentialRecordKey]

theorem credentialIndexKey_inj {left right : Bytes} :
    credentialIndexKey p left = credentialIndexKey p right ↔ left = right := by
  simp [credentialIndexKey]

theorem challengeKey_inj {left right : Bytes} :
    challengeKey p left = challengeKey p right ↔ left = right := by
  simp [challengeKey]

theorem rateLimitKey_inj {left right : Bytes} :
    rateLimitKey p left = rateLimitKey p right ↔ left = right := by
  simp [rateLimitKey]

private theorem credTag : ascii "cred:" = [99, 114, 101, 100, 58] := by decide
private theorem userTag : ascii "user:" = [117, 115, 101, 114, 58] := by decide
private theorem chalTag : ascii "chal:" = [99, 104, 97, 108, 58] := by decide
private theorem rateTag : ascii "ratelimit:challenge:" =
    [114, 97, 116, 101, 108, 105, 109, 105, 116, 58, 99, 104, 97, 108, 108, 101, 110, 103, 101, 58] := by
  decide

@[simp] theorem challengeKey_ne_record (raw cid : Bytes) :
    challengeKey p raw ≠ credentialRecordKey p cid := by
  simp [challengeKey, credentialRecordKey, credTag, chalTag]

@[simp] theorem record_ne_challengeKey (raw cid : Bytes) :
    credentialRecordKey p cid ≠ challengeKey p raw := (challengeKey_ne_record raw cid).symm

@[simp] theorem index_ne_record (uid cid : Bytes) :
    credentialIndexKey p uid ≠ credentialRecordKey p cid := by
  simp [credentialIndexKey, credentialRecordKey, credTag, userTag]

@[simp] theorem record_ne_index (uid cid : Bytes) :
    credentialRecordKey p cid ≠ credentialIndexKey p uid := (index_ne_record uid cid).symm

@[simp] theorem index_ne_challengeKey (uid raw : Bytes) :
    credentialIndexKey p uid ≠ challengeKey p raw := by
  simp [credentialIndexKey, challengeKey, chalTag, userTag]

theorem challengeKey_ne_index (raw uid : Bytes) :
    challengeKey p raw ≠ credentialIndexKey p uid := (index_ne_challengeKey uid raw).symm

@[simp] theorem rateLimitKey_ne_index (ip uid : Bytes) :
    rateLimitKey p ip ≠ credentialIndexKey p uid := by
  simp [rateLimitKey, credentialIndexKey, userTag, rateTag]

@[simp] theorem rateLimitKey_ne_record (ip cid : Bytes) :
    rateLimitKey p ip ≠ credentialRecordKey p cid := by
  simp [rateLimitKey, credentialRecordKey, credTag, rateTag]

@[simp] theorem rateLimitKey_ne_challengeKey (ip raw : Bytes) :
    rateLimitKey p ip ≠ challengeKey p raw := by
  simp [rateLimitKey, challengeKey, chalTag, rateTag]

theorem index_ne_rateLimitKey (uid ip : Bytes) :
    credentialIndexKey p uid ≠ rateLimitKey p ip := (rateLimitKey_ne_index ip uid).symm

theorem record_ne_rateLimitKey (cid ip : Bytes) :
    credentialRecordKey p cid ≠ rateLimitKey p ip := (rateLimitKey_ne_record ip cid).symm

theorem challengeKey_ne_rateLimitKey (raw ip : Bytes) :
    challengeKey p raw ≠ rateLimitKey p ip := (rateLimitKey_ne_challengeKey ip raw).symm

end AuthWebauthn.Redis
