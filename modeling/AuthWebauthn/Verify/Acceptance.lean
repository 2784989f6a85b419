import AuthWebauthn.Verify.Assertion
import Mathlib.Data.Nat.Init

namespace AuthWebauthn

variable {ext : Externals} {assertion : Assertion} {cred : AssertionCred} {policy : AssertionPolicy}

theorem ClientdataChecked.verify {data expectedType expectedChallenge : Bytes}
    {allowedOrigins : List Bytes} {root : ext.Json}
    (checked : ClientdataChecked ext data expectedType expectedChallenge allowedOrigins root) :
    clientdataVerify ext data expectedType expectedChallenge allowedOrigins = .ok () := by
  obtain ⟨origin, allowed, named⟩ := checked.origin
  have listed : ¬ allowedOrigins.any (· = origin) = false := by simpa using allowed
  simp only [clientdataVerify, checked.parsed, checked.type, checked.challenge, named, bind, Except.bind,
    pure, Except.pure, ne_eq, not_true_eq_false, if_false, if_neg listed, if_neg checked.crossOrigin]

theorem SignatureChecked.ok {signedData signature : Bytes}
    (checked : SignatureChecked ext cred.publicKey cred.alg signedData signature) :
    assertionCheckSignature ext cred signedData signature = .ok := by
  obtain ⟨hashed, wantType, pkey, scheme, loaded, typed, started, valid⟩ := checked.checked
  simp [assertionCheckSignature, scheme, loaded, typed, started, valid]

theorem AssertionChecked.verify {authdata : Authdata}
    (checked : AssertionChecked ext assertion cred policy authdata) :
    assertionVerify ext assertion cred policy = .ok authdata.signCount := by
  obtain ⟨root, clientdata⟩ := checked.clientdata
  obtain ⟨clientDataHash, hashed, signature⟩ := checked.signature
  have verified : ¬ (policy.requireUv = true ∧ authdata.flags &&& Authdata.flagUv = 0) :=
    fun ⟨required, absent⟩ => checked.userVerified required absent
  simp only [assertionVerify, clientdata.verify, checked.parsed, checked.bare, checked.rpId, checked.counter,
    hashed, signature.ok, bind, Except.bind, ne_eq, not_true_eq_false, if_false,
    if_neg checked.present, if_neg verified]

/-- A failure never carries `NGX_OK`. -/
def Honest {α : Type} (result : Except Rc α) : Prop := result ≠ .error .ok

theorem honest_ok {α : Type} (value : α) : Honest (.ok value) := nofun

theorem honest_declined {α : Type} : Honest (.error .declined : Except Rc α) := nofun

theorem honest_error {α : Type} : Honest (.error .error : Except Rc α) := nofun

theorem Honest.bind {α β : Type} {first : Except Rc α} {later : α → Except Rc β} (honest : Honest first)
    (rest : ∀ value, Honest (later value)) : Honest (first >>= later) := by
  cases first with
  | error rc =>
      intro failed
      exact honest (congrArg Except.error (Except.error.inj failed))
  | ok value => exact rest value

theorem honest_ite {α : Type} {condition : Prop} [Decidable condition] {first second : Except Rc α}
    (yes : Honest first) (no : Honest second) : Honest (if condition then first else second) := by
  split_ifs
  · exact yes
  · exact no

theorem honest_getString (root : ext.Json) (key : Bytes) : Honest (clientdataGetString ext root key) := by
  unfold clientdataGetString
  split
  · exact honest_declined
  · split
    · exact honest_declined
    · exact honest_ok _

theorem honest_clientdata (data expectedType expectedChallenge : Bytes) (allowedOrigins : List Bytes) :
    Honest (clientdataVerify ext data expectedType expectedChallenge allowedOrigins) := by
  have challenge (root : ext.Json) : Honest (clientdataChallenge ext root) := by
    refine (honest_getString root _).bind fun encoded => ?_
    split
    · exact honest_declined
    · exact honest_ok _
  unfold clientdataVerify
  split
  · exact honest_declined
  · refine (honest_getString _ _).bind fun type => honest_ite honest_declined ?_
    refine (challenge _).bind fun decoded => honest_ite honest_declined ?_
    refine (honest_getString _ _).bind fun origin => honest_ite honest_declined ?_
    exact honest_ite honest_declined (honest_ok _)

theorem honest_authdata (data : Bytes) : Honest (authdataParse data) := by
  unfold authdataParse
  refine honest_ite honest_declined ?_
  refine honest_ite (honest_ok _) ?_
  refine honest_ite honest_declined ?_
  exact honest_ite honest_declined (honest_ok _)

theorem honest_assertion : Honest (assertionVerify ext assertion cred policy) := by
  refine (honest_clientdata _ _ _ _).bind fun _ => ?_
  refine (honest_authdata _).bind fun authdata => ?_
  refine honest_ite honest_declined ?_
  split
  · exact honest_error
  · refine honest_ite honest_declined (honest_ite honest_declined (honest_ite honest_declined ?_))
    refine honest_ite honest_declined ?_
    split
    · exact honest_error
    · split
      · exact honest_ok _
      · rename_i rejected
        exact fun failed => rejected (Except.error.inj failed)

theorem bigEndian32_toNat (first second third fourth : UInt8) :
    (bigEndian32 first second third fourth).toNat =
      ((first.toNat * 256 + second.toNat) * 256 + third.toNat) * 256 + fourth.toNat := by
  have bound1 := first.toNat_lt
  have bound2 := second.toNat_lt
  have bound3 := third.toNat_lt
  have bound4 := fourth.toNat_lt
  have shifted (byte : UInt8) (amount : UInt32) (small : amount.toNat ≤ 24) :
      (byte.toUInt32 <<< amount).toNat = byte.toNat <<< amount.toNat := by
    have bound := byte.toNat_lt
    rw [UInt32.toNat_shiftLeft, UInt8.toNat_toUInt32, Nat.mod_eq_of_lt (by omega : amount.toNat < 32),
      Nat.shiftLeft_eq]
    have power : 2 ^ amount.toNat ≤ 2 ^ 24 := Nat.pow_le_pow_right (by decide) small
    exact Nat.mod_eq_of_lt (Nat.lt_of_le_of_lt (Nat.mul_le_mul_left _ power) (by omega))
  rw [bigEndian32, UInt32.toNat_or, UInt32.toNat_or, UInt32.toNat_or, shifted first 24 (by decide),
    shifted second 16 (by decide), shifted third 8 (by decide), UInt8.toNat_toUInt32, Nat.or_assoc,
    Nat.or_assoc]
  have low : third.toNat <<< (8 : UInt32).toNat ||| fourth.toNat = third.toNat * 256 + fourth.toNat := by
    rw [← Nat.shiftLeft_add_eq_or_of_lt (by simpa using bound4), Nat.shiftLeft_eq]
    rfl
  rw [low]
  have middle : second.toNat <<< (16 : UInt32).toNat ||| (third.toNat * 256 + fourth.toNat) =
      second.toNat * 65536 + (third.toNat * 256 + fourth.toNat) := by
    rw [← Nat.shiftLeft_add_eq_or_of_lt (by change _ < 2 ^ 16; omega), Nat.shiftLeft_eq]
    rfl
  rw [middle, ← Nat.shiftLeft_add_eq_or_of_lt (by change _ < 2 ^ 24; omega), Nat.shiftLeft_eq]
  change first.toNat * 16777216 + _ = _
  omega

/-- The big-endian counter at offset 33. -/
def counterAt (authenticatorData : Bytes) : Nat :=
  (((authenticatorData.getD 33 0).toNat * 256 + (authenticatorData.getD 34 0).toNat) * 256 +
    (authenticatorData.getD 35 0).toNat) * 256 + (authenticatorData.getD 36 0).toNat

def flagsAt (authenticatorData : Bytes) : UInt8 := authenticatorData.getD 32 0

/-- A member of a JSON object that is a string. -/
def stringMember (ext : Externals) (root : ext.Json) (name : Bytes) : Option Bytes :=
  (ext.jsonObjectGet root name).bind ext.jsonString

/-- `EVP_DigestVerify` accepts the signature. -/
def Verifies (ext : Externals) (hashed : Bool) (pkey : ext.Pkey) (signature data : Bytes) : Prop :=
  ext.digestVerifyInit hashed pkey = true ∧ ext.digestVerify hashed pkey signature data = 1

/-- The conditions on an assertion, one by one. -/
structure Acceptable (ext : Externals) (assertion : Assertion) (cred : AssertionCred)
    (policy : AssertionPolicy) : Prop where
  clientData : ∃ root, ext.jsonParseUntrusted assertion.clientDataJson = some root ∧
    stringMember ext root (ascii "type") = some (ascii "webauthn.get") ∧
    (stringMember ext root (ascii "challenge")).bind ext.decodeBase64url =
      some policy.expectedChallenge ∧
    (∃ origin ∈ policy.allowedOrigins, stringMember ext root (ascii "origin") = some origin) ∧
    (ext.jsonObjectGet root (ascii "crossOrigin")).bind ext.jsonBoolean ≠ some true
  long : 37 ≤ assertion.authenticatorData.length
  rpId : hashSha256 ext policy.rpId = some (assertion.authenticatorData.take 32)
  unattested : flagsAt assertion.authenticatorData &&& Authdata.flagAt = 0
  unextended : flagsAt assertion.authenticatorData &&& Authdata.flagEd = 0
  present : flagsAt assertion.authenticatorData &&& Authdata.flagUp ≠ 0
  userVerified : policy.requireUv = true → flagsAt assertion.authenticatorData &&& Authdata.flagUv ≠ 0
  counter : policy.cloneDetection = .strict →
    (counterAt assertion.authenticatorData = 0 ∧ cred.signCount = 0) ∨
      cred.signCount.toNat < counterAt assertion.authenticatorData
  signature : ∃ clientDataHash pkey, hashSha256 ext assertion.clientDataJson = some clientDataHash ∧
    ext.d2iPubkey cred.publicKey = some pkey ∧
    ((cred.alg = -7 ∧ ext.pkeyBaseId pkey = .ec ∧ Verifies ext true pkey assertion.signature
        (assertion.authenticatorData ++ clientDataHash)) ∨
      (cred.alg = -257 ∧ ext.pkeyBaseId pkey = .rsa ∧ Verifies ext true pkey assertion.signature
        (assertion.authenticatorData ++ clientDataHash)) ∨
      (cred.alg = -8 ∧ ext.pkeyBaseId pkey = .ed25519 ∧ Verifies ext false pkey assertion.signature
        (assertion.authenticatorData ++ clientDataHash)))

theorem clientdataGetString_ok_iff {root : ext.Json} {key value : Bytes} :
    clientdataGetString ext root key = .ok value ↔ stringMember ext root key = some value := by
  unfold clientdataGetString stringMember
  cases ext.jsonObjectGet root key with
  | none => simp
  | some node => cases read : ext.jsonString node <;> simp [read]

theorem clientdataChallenge_ok_iff {root : ext.Json} {value : Bytes} :
    clientdataChallenge ext root = .ok value ↔
      (stringMember ext root (ascii "challenge")).bind ext.decodeBase64url = some value := by
  cases read : clientdataGetString ext root (ascii "challenge") with
  | error rc =>
      have absent : stringMember ext root (ascii "challenge") = none := by
        rw [Option.eq_none_iff_forall_ne_some]
        intro encoded found
        rw [clientdataGetString_ok_iff.mpr found] at read
        cases read
      simp [clientdataChallenge, read, absent, bind, Except.bind]
  | ok encoded =>
      rw [clientdataGetString_ok_iff.mp read]
      simp only [clientdataChallenge, read, bind, Except.bind, Option.bind_some]
      cases ext.decodeBase64url encoded <;> simp

theorem signatureScheme_iff {alg : Int32} {hashed : Bool} {wantType : PkeyType} :
    signatureScheme alg = some (hashed, wantType) ↔
      (alg = -7 ∧ hashed = true ∧ wantType = .ec) ∨ (alg = -257 ∧ hashed = true ∧ wantType = .rsa) ∨
        (alg = -8 ∧ hashed = false ∧ wantType = .ed25519) := by
  constructor
  · intro scheme
    unfold signatureScheme at scheme
    split at scheme
    · cases scheme
      exact .inl ⟨rfl, rfl, rfl⟩
    · cases scheme
      exact .inr (.inl ⟨rfl, rfl, rfl⟩)
    · cases scheme
      exact .inr (.inr ⟨rfl, rfl, rfl⟩)
    · cases scheme
  · rintro (⟨rfl, rfl, rfl⟩ | ⟨rfl, rfl, rfl⟩ | ⟨rfl, rfl, rfl⟩) <;> rfl

theorem checkCounter_ok_iff {mode : CloneDetection} {auth stored : UInt32} :
    assertionCheckCounter mode auth stored = .ok ↔
      (mode = .strict → (auth = 0 ∧ stored = 0) ∨ stored < auth) := by
  unfold assertionCheckCounter
  cases mode with
  | off => simp
  | lax =>
      split_ifs <;> simp_all
  | strict =>
      by_cases unused : auth = 0 ∧ stored = 0
      · simp [unused]
      · by_cases grows : stored < auth <;> simp [unused, grows]

theorem signatureChecked_iff {signedData signature : Bytes} :
    SignatureChecked ext cred.publicKey cred.alg signedData signature ↔
      ∃ pkey, ext.d2iPubkey cred.publicKey = some pkey ∧
        ((cred.alg = -7 ∧ ext.pkeyBaseId pkey = .ec ∧ Verifies ext true pkey signature signedData) ∨
          (cred.alg = -257 ∧ ext.pkeyBaseId pkey = .rsa ∧ Verifies ext true pkey signature signedData) ∨
          (cred.alg = -8 ∧ ext.pkeyBaseId pkey = .ed25519 ∧
            Verifies ext false pkey signature signedData)) := by
  constructor
  · intro checked
    obtain ⟨hashed, wantType, pkey, scheme, loaded, typed, started, valid⟩ := checked
    refine ⟨pkey, loaded, ?_⟩
    rcases signatureScheme_iff.mp scheme with ⟨alg, rfl, rfl⟩ | ⟨alg, rfl, rfl⟩ | ⟨alg, rfl, rfl⟩
    · exact .inl ⟨alg, typed, started, valid⟩
    · exact .inr (.inl ⟨alg, typed, started, valid⟩)
    · exact .inr (.inr ⟨alg, typed, started, valid⟩)
  · intro checked
    obtain ⟨pkey, loaded, ⟨alg, typed, started, valid⟩ | ⟨alg, typed, started, valid⟩ |
      ⟨alg, typed, started, valid⟩⟩ := checked
    · exact ⟨true, .ec, pkey, signatureScheme_iff.mpr (.inl ⟨alg, rfl, rfl⟩), loaded, typed, started, valid⟩
    · exact ⟨true, .rsa, pkey, signatureScheme_iff.mpr (.inr (.inl ⟨alg, rfl, rfl⟩)), loaded, typed,
        started, valid⟩
    · exact ⟨false, .ed25519, pkey, signatureScheme_iff.mpr (.inr (.inr ⟨alg, rfl, rfl⟩)), loaded, typed,
        started, valid⟩

/-- The fixed prefix as it is parsed when no attested data follows. -/
def plainAuthdata (data : Bytes) : Authdata where
  rpIdHash := data.take 32
  flags := flagsAt data
  signCount := bigEndian32 (data.getD 33 0) (data.getD 34 0) (data.getD 35 0) (data.getD 36 0)
  aaguid := List.replicate 16 0
  credentialId := []
  cosePublicKey := []

theorem authdataParse_plain {data : Bytes} (long : 37 ≤ data.length)
    (unattested : flagsAt data &&& Authdata.flagAt = 0) : authdataParse data = .ok (plainAuthdata data) := by
  have enough : ¬ data.length < 37 := by omega
  unfold flagsAt at unattested
  simp only [authdataParse, if_neg enough, unattested, if_true]
  rfl

theorem authdataParse_ok {data : Bytes} {authdata : Authdata} (parsed : authdataParse data = .ok authdata) :
    37 ≤ data.length ∧ authdata.rpIdHash = data.take 32 ∧ authdata.flags = flagsAt data ∧
      authdata.signCount =
        bigEndian32 (data.getD 33 0) (data.getD 34 0) (data.getD 35 0) (data.getD 36 0) := by
  simp only [authdataParse] at parsed
  split_ifs at parsed with short
  · cases parsed
    exact ⟨by omega, rfl, rfl, rfl⟩
  · cases parsed
    exact ⟨by omega, rfl, rfl, rfl⟩

theorem clear_both_iff (flags : UInt8) :
    flags &&& (Authdata.flagAt ||| Authdata.flagEd) = 0 ↔
      flags &&& Authdata.flagAt = 0 ∧ flags &&& Authdata.flagEd = 0 := by
  have split : flags &&& (Authdata.flagAt ||| Authdata.flagEd) =
      flags &&& Authdata.flagAt ||| flags &&& Authdata.flagEd :=
    UInt8.toBitVec_inj.mp (BitVec.and_or_distrib_left ..)
  rw [split, UInt8.or_eq_zero_iff]

theorem bigEndian32_counterAt (data : Bytes) :
    (bigEndian32 (data.getD 33 0) (data.getD 34 0) (data.getD 35 0) (data.getD 36 0)).toNat =
      counterAt data :=
  bigEndian32_toNat ..

theorem counter_ok_iff {mode : CloneDetection} {data : Bytes} {stored : UInt32} :
    assertionCheckCounter mode
        (bigEndian32 (data.getD 33 0) (data.getD 34 0) (data.getD 35 0) (data.getD 36 0)) stored = .ok ↔
      (mode = .strict → (counterAt data = 0 ∧ stored = 0) ∨ stored.toNat < counterAt data) := by
  rw [checkCounter_ok_iff, UInt32.lt_iff_toNat_lt, ← UInt32.toNat_inj, bigEndian32_counterAt]
  rfl

theorem acceptable_of_checked {authdata : Authdata}
    (checked : AssertionChecked ext assertion cred policy authdata) :
    Acceptable ext assertion cred policy := by
  obtain ⟨long, rpIdHash, flags, signCount⟩ := authdataParse_ok checked.parsed
  obtain ⟨root, clientdata⟩ := checked.clientdata
  obtain ⟨clientDataHash, hashed, signature⟩ := checked.signature
  obtain ⟨pkey, signed⟩ := signatureChecked_iff.mp signature
  obtain ⟨origin, allowed, named⟩ := clientdata.origin
  have bare := checked.bare
  have present := checked.present
  have verified := checked.userVerified
  have counter := checked.counter
  rw [flags] at bare present verified
  rw [signCount, counter_ok_iff] at counter
  obtain ⟨unattested, unextended⟩ := (clear_both_iff _).mp bare
  exact
    { clientData := ⟨root, clientdata.parsed, clientdataGetString_ok_iff.mp clientdata.type,
        clientdataChallenge_ok_iff.mp clientdata.challenge,
        ⟨origin, allowed, clientdataGetString_ok_iff.mp named⟩, clientdata.crossOrigin⟩
      long, unattested, unextended, present, counter
      rpId := by rw [checked.rpId, rpIdHash]
      userVerified := verified
      signature := ⟨clientDataHash, pkey, hashed, signed⟩ }

theorem Acceptable.checked (acceptable : Acceptable ext assertion cred policy) :
    AssertionChecked ext assertion cred policy (plainAuthdata assertion.authenticatorData) := by
  obtain ⟨root, parsed, type, challenge, ⟨origin, allowed, named⟩, crossOrigin⟩ := acceptable.clientData
  obtain ⟨clientDataHash, pkey, hashed, signed⟩ := acceptable.signature
  exact
    { clientdata := ⟨root, parsed, clientdataGetString_ok_iff.mpr type,
        clientdataChallenge_ok_iff.mpr challenge, ⟨origin, allowed, clientdataGetString_ok_iff.mpr named⟩,
        crossOrigin⟩
      parsed := authdataParse_plain acceptable.long acceptable.unattested
      bare := (clear_both_iff _).mpr ⟨acceptable.unattested, acceptable.unextended⟩
      rpId := acceptable.rpId
      present := acceptable.present
      userVerified := acceptable.userVerified
      counter := counter_ok_iff.mpr acceptable.counter
      signature := ⟨clientDataHash, hashed, signatureChecked_iff.mpr ⟨pkey, signed⟩⟩ }

/-- `assertion_verify` with its output parameter: what it returns, and what the
parameter holds afterwards. -/
def assertionVerifyInto (ext : Externals) (assertion : Assertion) (cred : AssertionCred)
    (policy : AssertionPolicy) (authSignCount : UInt32) : Rc × UInt32 :=
  match assertionVerify ext assertion cred policy with
  | .ok count => (.ok, count)
  | .error rc => (rc, authSignCount)

/-- An assertion is accepted exactly if it meets every condition, and only then
the counter is handed out. -/
theorem assertion_accepted_iff (ext : Externals) (assertion : Assertion) (cred : AssertionCred)
    (policy : AssertionPolicy) (authSignCount : UInt32) :
    ((assertionVerifyInto ext assertion cred policy authSignCount).1 = .ok ↔
        Acceptable ext assertion cred policy) ∧
      ((assertionVerifyInto ext assertion cred policy authSignCount).1 = .ok →
        (assertionVerifyInto ext assertion cred policy authSignCount).2.toNat =
          counterAt assertion.authenticatorData) ∧
      ((assertionVerifyInto ext assertion cred policy authSignCount).1 ≠ .ok →
        (assertionVerifyInto ext assertion cred policy authSignCount).2 = authSignCount) := by
  cases result : assertionVerify ext assertion cred policy with
  | error rc =>
      have failed : rc ≠ .ok := by
        intro same
        subst same
        exact honest_assertion result
      have unacceptable : ¬ Acceptable ext assertion cred policy := by
        intro acceptable
        rw [acceptable.checked.verify] at result
        cases result
      simp [assertionVerifyInto, result, failed, unacceptable]
  | ok count =>
      obtain ⟨authdata, checked, rfl⟩ := assertionVerify_ok result
      have counted : authdata.signCount.toNat = counterAt assertion.authenticatorData := by
        rw [(authdataParse_ok checked.parsed).2.2.2, bigEndian32_counterAt]
      simp [assertionVerifyInto, result, acceptable_of_checked checked, counted]

end AuthWebauthn
