import AuthWebauthn.Externals
import AuthWebauthn.Conf.LocConf
import Mathlib.Data.Option.Basic

namespace AuthWebauthn

/-! `ngx_auth_webauthn_hash.c`, `_clientdata.c`, `_authdata.c` and `_assertion.c`.
`.error rc` is a return code other than `NGX_OK`.
-/

variable (ext : Externals)

def hashSha256 (data : Bytes) : Option Bytes :=
  (ext.evpDigestSha256 data).filter fun digest => digest.length = 32

def clientdataGetString (root : ext.Json) (key : Bytes) : Except Rc Bytes :=
  match ext.jsonObjectGet root key with
  | none => .error .declined
  | some node =>
      match ext.jsonString node with
      | none => .error .declined
      | some value => .ok value

/-- The challenge that `clientdata_verify` decodes out of clientDataJSON. -/
def clientdataChallenge (root : ext.Json) : Except Rc Bytes := do
  match ext.decodeBase64url (← clientdataGetString ext root (ascii "challenge")) with
  | none => .error .declined
  | some challenge => .ok challenge

def clientdataVerify (data expectedType expectedChallenge : Bytes) (allowedOrigins : List Bytes) :
    Except Rc Unit := do
  match ext.jsonParseUntrusted data with
  | none => .error .declined
  | some root =>
      if (← clientdataGetString ext root (ascii "type")) ≠ expectedType then .error .declined
      if (← clientdataChallenge ext root) ≠ expectedChallenge then .error .declined
      let origin ← clientdataGetString ext root (ascii "origin")
      if allowedOrigins.any (· = origin) = false then .error .declined
      -- only a boolean `true` under crossOrigin is refused
      if ((ext.jsonObjectGet root (ascii "crossOrigin")).bind ext.jsonBoolean) = some true then
        .error .declined

/-- Authenticator data; the last three fields are only filled when the AT flag
is set. -/
structure Authdata where
  rpIdHash : Bytes
  flags : UInt8
  signCount : UInt32
  aaguid : Bytes
  credentialId : Bytes
  cosePublicKey : Bytes
deriving DecidableEq

namespace Authdata

def flagUp : UInt8 := 0x01
def flagUv : UInt8 := 0x04
def flagAt : UInt8 := 0x40
def flagEd : UInt8 := 0x80

end Authdata

def bigEndian32 (first second third fourth : UInt8) : UInt32 :=
  (first.toUInt32 <<< 24) ||| (second.toUInt32 <<< 16) ||| (third.toUInt32 <<< 8) ||| fourth.toUInt32

def authdataParse (data : Bytes) : Except Rc Authdata :=
  if data.length < 37 then .error .declined
  else
    let flags := data.getD 32 0
    let fixed : Authdata :=
      { rpIdHash := data.take 32
        flags
        signCount := bigEndian32 (data.getD 33 0) (data.getD 34 0) (data.getD 35 0) (data.getD 36 0)
        aaguid := List.replicate 16 0
        credentialId := []
        cosePublicKey := [] }
    if flags &&& Authdata.flagAt = 0 then .ok fixed
    else if data.length < 37 + 16 + 2 then .error .declined
    else
      let credIdLen := (data.getD 53 0).toNat * 256 + (data.getD 54 0).toNat
      if credIdLen > data.length - 55 then .error .declined
      else .ok { fixed with
        aaguid := (data.drop 37).take 16
        credentialId := (data.drop 55).take credIdLen
        cosePublicKey := data.drop (55 + credIdLen) }

structure Assertion where
  authenticatorData : Bytes
  clientDataJson : Bytes
  signature : Bytes
deriving DecidableEq

structure AssertionCred where
  publicKey : Bytes
  alg : Int32
  signCount : UInt32
deriving DecidableEq

structure AssertionPolicy where
  rpId : Bytes
  expectedChallenge : Bytes
  allowedOrigins : List Bytes
  requireUv : Bool
  cloneDetection : CloneDetection
deriving DecidableEq

def assertionCheckCounter (policy : CloneDetection) (auth stored : UInt32) : Rc :=
  if policy = .off then .ok
  -- authenticators without a counter report 0 forever
  else if auth = 0 ∧ stored = 0 then .ok
  else if auth > stored then .ok
  else if policy = .lax then .ok
  else .declined

/-- Whether the data is hashed first, and the key type, for each COSE algorithm. -/
def signatureScheme : Int32 → Option (Bool × PkeyType)
  | -7 => some (true, .ec)
  | -257 => some (true, .rsa)
  | -8 => some (false, .ed25519)
  | _ => none

def assertionCheckSignature (cred : AssertionCred) (signedData signature : Bytes) : Rc :=
  match signatureScheme cred.alg with
  | none => .error
  | some (hashed, wantType) =>
      match ext.d2iPubkey cred.publicKey with
      | none => .error
      | some pkey =>
          if ext.pkeyBaseId pkey ≠ wantType then .error
          else if ext.digestVerifyInit hashed pkey = false then .error
          else
            match ext.digestVerify hashed pkey signature signedData with
            | 1 => .ok
            | 0 => .declined
            | _ => .error

/-- On success the counter that the authenticator reported. -/
def assertionVerify (assertion : Assertion) (cred : AssertionCred) (policy : AssertionPolicy) :
    Except Rc UInt32 := do
  clientdataVerify ext assertion.clientDataJson (ascii "webauthn.get") policy.expectedChallenge
    policy.allowedOrigins
  let ad ← authdataParse assertion.authenticatorData
  if ad.flags &&& (Authdata.flagAt ||| Authdata.flagEd) ≠ 0 then .error .declined
  match hashSha256 ext policy.rpId with
  | none => .error .error
  | some rpIdHash =>
      if rpIdHash ≠ ad.rpIdHash then .error .declined
      if ad.flags &&& Authdata.flagUp = 0 then .error .declined
      if policy.requireUv ∧ ad.flags &&& Authdata.flagUv = 0 then .error .declined
      if assertionCheckCounter policy.cloneDetection ad.signCount cred.signCount ≠ .ok then
        .error .declined
      match hashSha256 ext assertion.clientDataJson with
      | none => .error .error
      | some clientDataHash =>
          match assertionCheckSignature ext cred (assertion.authenticatorData ++ clientDataHash)
              assertion.signature with
          | .ok => .ok ad.signCount
          | rc => .error rc

variable {ext}

/-- Everything `clientdata_verify` has checked when it accepts. -/
structure ClientdataChecked (ext : Externals) (data expectedType expectedChallenge : Bytes)
    (allowedOrigins : List Bytes) (root : ext.Json) : Prop where
  parsed : ext.jsonParseUntrusted data = some root
  type : clientdataGetString ext root (ascii "type") = .ok expectedType
  challenge : clientdataChallenge ext root = .ok expectedChallenge
  origin : ∃ origin ∈ allowedOrigins, clientdataGetString ext root (ascii "origin") = .ok origin
  crossOrigin : (ext.jsonObjectGet root (ascii "crossOrigin")).bind ext.jsonBoolean ≠ some true

theorem clientdataVerify_ok {data expectedType expectedChallenge : Bytes} {allowedOrigins : List Bytes}
    (accepted : clientdataVerify ext data expectedType expectedChallenge allowedOrigins = .ok ()) :
    ∃ root, ClientdataChecked ext data expectedType expectedChallenge allowedOrigins root := by
  simp only [clientdataVerify, bind, Except.bind, pure, Except.pure] at accepted
  cases parsed : ext.jsonParseUntrusted data with
  | none => simp [parsed] at accepted
  | some root =>
      simp only [parsed] at accepted
      cases type : clientdataGetString ext root (ascii "type") with
      | error rc => simp [type] at accepted
      | ok found =>
          cases challenge : clientdataChallenge ext root with
          | error rc =>
              simp only [type, challenge] at accepted
              split at accepted <;> cases accepted
          | ok decoded =>
              cases origin : clientdataGetString ext root (ascii "origin") with
              | error rc =>
                  simp only [type, challenge, origin] at accepted
                  repeat' split at accepted
                  all_goals cases accepted
              | ok named =>
                  simp only [type, challenge, origin] at accepted
                  split_ifs at accepted with sameType sameChallenge allowed cross
                  refine ⟨root, parsed, ?_, ?_, ⟨named, by simpa using allowed, origin⟩, cross⟩
                  · rw [type, not_not.mp sameType]
                  · rw [challenge, not_not.mp sameChallenge]

/-- Everything `check_signature` has established when it accepts. -/
structure SignatureChecked (ext : Externals) (publicKey : Bytes) (alg : Int32)
    (signedData signature : Bytes) : Prop where
  checked : ∃ hashed wantType pkey, signatureScheme alg = some (hashed, wantType) ∧
    ext.d2iPubkey publicKey = some pkey ∧ ext.pkeyBaseId pkey = wantType ∧
    ext.digestVerifyInit hashed pkey = true ∧
    ext.digestVerify hashed pkey signature signedData = 1

theorem assertionCheckSignature_ok {cred : AssertionCred} {signedData signature : Bytes}
    (accepted : assertionCheckSignature ext cred signedData signature = .ok) :
    SignatureChecked ext cred.publicKey cred.alg signedData signature := by
  unfold assertionCheckSignature at accepted
  cases scheme : signatureScheme cred.alg with
  | none => simp [scheme] at accepted
  | some pair =>
      obtain ⟨hashed, wantType⟩ := pair
      cases loaded : ext.d2iPubkey cred.publicKey with
      | none => simp [scheme, loaded] at accepted
      | some pkey =>
          simp only [scheme, loaded] at accepted
          split_ifs at accepted with sameType started
          split at accepted
          · rename_i valid
            exact ⟨hashed, wantType, pkey, scheme, loaded, not_not.mp sameType, by simpa using started, valid⟩
          · cases accepted
          · cases accepted

/-- Everything `assertion_verify` has checked when it accepts. -/
structure AssertionChecked (ext : Externals) (assertion : Assertion) (cred : AssertionCred)
    (policy : AssertionPolicy) (authdata : Authdata) : Prop where
  clientdata : ∃ root, ClientdataChecked ext assertion.clientDataJson (ascii "webauthn.get")
    policy.expectedChallenge policy.allowedOrigins root
  parsed : authdataParse assertion.authenticatorData = .ok authdata
  bare : authdata.flags &&& (Authdata.flagAt ||| Authdata.flagEd) = 0
  rpId : hashSha256 ext policy.rpId = some authdata.rpIdHash
  present : authdata.flags &&& Authdata.flagUp ≠ 0
  userVerified : policy.requireUv = true → authdata.flags &&& Authdata.flagUv ≠ 0
  counter : assertionCheckCounter policy.cloneDetection authdata.signCount cred.signCount = .ok
  signature : ∃ clientDataHash, hashSha256 ext assertion.clientDataJson = some clientDataHash ∧
    SignatureChecked ext cred.publicKey cred.alg (assertion.authenticatorData ++ clientDataHash)
      assertion.signature

theorem assertionVerify_ok {assertion : Assertion} {cred : AssertionCred} {policy : AssertionPolicy}
    {authSignCount : UInt32}
    (accepted : assertionVerify ext assertion cred policy = .ok authSignCount) :
    ∃ authdata, AssertionChecked ext assertion cred policy authdata ∧
      authSignCount = authdata.signCount := by
  simp only [assertionVerify, bind, Except.bind] at accepted
  cases clientdata : clientdataVerify ext assertion.clientDataJson (ascii "webauthn.get")
      policy.expectedChallenge policy.allowedOrigins with
  | error rc => simp [clientdata] at accepted
  | ok accepts =>
      cases parsed : authdataParse assertion.authenticatorData with
      | error rc => simp [clientdata, parsed] at accepted
      | ok authdata =>
          simp only [clientdata, parsed] at accepted
          cases rpId : hashSha256 ext policy.rpId with
          | none =>
              simp only [rpId] at accepted
              split at accepted <;> cases accepted
          | some rpIdHash =>
              simp only [rpId] at accepted
              split_ifs at accepted with bare sameRp present verified counter
              cases hashed : hashSha256 ext assertion.clientDataJson with
              | none => simp [hashed] at accepted
              | some clientDataHash =>
                  simp only [hashed] at accepted
                  split at accepted
                  · rename_i signed
                    refine ⟨authdata, ⟨clientdataVerify_ok clientdata, parsed, not_not.mp bare, ?_,
                      present, fun required absent => verified ⟨required, absent⟩,
                      not_not.mp counter, clientDataHash, hashed, assertionCheckSignature_ok signed⟩, ?_⟩
                    · rw [rpId, not_not.mp sameRp]
                    · cases accepted
                      rfl
                  · cases accepted

end AuthWebauthn
