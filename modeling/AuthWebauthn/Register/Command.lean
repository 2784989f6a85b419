import AuthWebauthn.Register.Compat
import AuthWebauthn.Register.Policy

namespace AuthWebauthn

open Process Redis

/-! `auth_webauthn_admin_register.c`, from the parsed options on.  What the command prints
when it fails is part of the failure.
-/

inductive AdminExit where
  | ok
  | fail
  | usage
deriving DecidableEq

structure AdminFailure where
  code : AdminExit
  message : Bytes
deriving DecidableEq

structure RegisterArgs where
  userId : Option Bytes
  responseFile : Option Bytes
  rpId : Option Bytes
  requireAttestation : Option Bytes
  transports : Option Bytes
  redisHost : Bytes
  keyPrefix : Bytes

def orFail {α : Type} (message : Bytes) : Option α → Except AdminFailure α
  | none => .error ⟨.fail, message⟩
  | some value => .ok value

def registerLevel : Option Bytes → Except AdminFailure AttestationLevel
  | none => .ok .none
  | some level =>
      if level = ascii "packed" then .ok .packed
      else if level = ascii "none" then .ok .none
      else .error ⟨.usage, ascii "error: --require-attestation expects none|packed\n"⟩

variable (ext : AdminExternals)

def adminDecodeMember (obj : ext.Json) (key : Bytes) : Except AdminFailure Bytes := do
  let enc ← orFail (ascii "error: response." ++ key ++ ascii " missing or not a string\n")
    ((ext.jsonObjectGet obj key).bind ext.jsonString)
  orFail (ascii "error: response." ++ key ++ ascii " is not valid base64url\n")
    (compatDecodeBase64url enc)

/-- What is decoded of an attestation response before it is verified. -/
structure AttestationResponse where
  clientData : Bytes
  att : Attestation
  ad : Authdata

def registerResponse (body : Bytes) : Except AdminFailure AttestationResponse := do
  let json ← orFail (ascii "error: response file is not valid JSON\n") (ext.jsonParseUntrusted body)
  let response ← orFail (ascii "error: missing 'response' object\n")
    ((ext.jsonObjectGet json (ascii "response")).filter ext.jsonIsObject)
  let clientData ← adminDecodeMember ext response (ascii "clientDataJSON")
  let attObj ← adminDecodeMember ext response (ascii "attestationObject")
  let att ← orFail (ascii "error: cannot parse attestationObject\n") (attestationParse ext attObj).toOption
  let ad ← orFail (ascii "error: cannot parse authenticatorData\n") (authdataParse att.authData).toOption
  if ad.flags &&& Authdata.flagAt = 0 ∨ ad.credentialId = [] ∨ ad.cosePublicKey = [] then
    .error ⟨.fail, ascii "error: authenticatorData carries no attested credential\n"⟩
  return ⟨clientData, att, ad⟩

def levelName : AttestationLevel → Bytes
  | .none => ascii "none"
  | .packed => ascii "packed"

/-- The record that the command stores.  `%.*s` stops at a NUL. -/
def registerVerified (userId rpId : Bytes) (require : AttestationLevel) (transports : Option Bytes)
    (now : Int64) (response : AttestationResponse) : Except AdminFailure Credential := do
  let clientDataHash ← orFail (ascii "error: clientDataJSON hashing failed\n")
    (hashSha256 ext.toExternals response.clientData)
  if attestationVerify ext response.att rpId clientDataHash require ≠ .ok then
    .error ⟨.fail, ascii "error: attestation verification failed (fmt=" ++
      response.att.fmt.takeWhile (· ≠ 0) ++ ascii ", require=" ++ levelName require ++ ascii ")\n"⟩
  let (der, alg) ← orFail (ascii "error: unsupported or malformed COSE public key\n")
    (coseToDer ext response.ad.cosePublicKey).toOption
  return {
    credentialId := Base64url.encode response.ad.credentialId
    userId
    publicKey := der
    alg
    signCount := response.ad.signCount
    createdAt := now
    lastUsedAt := 0
    aaguid := Vector.ofFn fun index => response.ad.aaguid.getD index 0
    hasAaguid := true
    transports := transports.getD [] }

/-- The command up to its connection to Redis; `files` reads a file, or says why it
cannot be read. -/
def registerRecord (files : Bytes → Except Bytes Bytes) (args : RegisterArgs) (now : Int64) :
    Except AdminFailure Credential :=
  match args.userId, args.responseFile, args.rpId with
  | some userId, some responseFile, some rpId => do
      let require ← registerLevel args.requireAttestation
      let body ← (files responseFile).mapError fun message => ⟨.fail, message⟩
      registerVerified ext userId rpId require args.transports now (← registerResponse ext body)
  | _, _, _ => .error ⟨.usage, ascii "error: --user-id, --response-file and --rp-id are required\n"⟩

variable {ext}

theorem except_bind_ok {ε α β : Type} {first : Except ε α} {later : α → Except ε β} {result : β} :
    (first >>= later) = .ok result ↔ ∃ value, first = .ok value ∧ later value = .ok result := by
  cases first with
  | error failure => simp [bind, Except.bind]
  | ok value => simp [bind, Except.bind]

theorem orFail_ok {α : Type} {message : Bytes} {result : Option α} {value : α} :
    orFail message result = .ok value ↔ result = some value := by
  cases result with
  | none => simp [orFail]
  | some found => simp [orFail]

theorem mapError_ok {ε ζ α : Type} {result : Except ε α} {describe : ε → ζ} {value : α} :
    result.mapError describe = .ok value ↔ result = .ok value := by
  cases result with
  | error failure => simp [Except.mapError]
  | ok found => simp [Except.mapError]

theorem toOption_some {ε α : Type} {result : Except ε α} {value : α} :
    result.toOption = some value ↔ result = .ok value := by
  cases result with
  | error failure => simp [Except.toOption]
  | ok found => simp [Except.toOption]

/-- What is verified is the credential data of the attestation. -/
theorem registerResponse_attested {body : Bytes} {response : AttestationResponse}
    (decoded : registerResponse ext body = .ok response) :
    authdataParse response.att.authData = .ok response.ad ∧ response.ad.credentialId ≠ [] := by
  simp only [registerResponse, except_bind_ok, orFail_ok, toOption_some] at decoded
  obtain ⟨json, _, obj, _, clientData, _, attObj, _, att, _, ad, authdata, rest⟩ := decoded
  split_ifs at rest with bare
  · cases rest
  · cases rest
    simp only [not_or] at bare
    exact ⟨authdata, bare.2.1⟩

/-- Everything the command has checked when it stores a record. -/
structure RegisterAccepted (ext : AdminExternals) (files : Bytes → Except Bytes Bytes) (args : RegisterArgs)
    (cred : Credential) (response : AttestationResponse) (pkey : ext.Pkey) : Prop where
  responded : ∃ path body, args.responseFile = some path ∧ files path = .ok body ∧
    registerResponse ext body = .ok response
  verified : ∃ rpId level clientDataHash, args.rpId = some rpId ∧
    registerLevel args.requireAttestation = .ok level ∧
    hashSha256 ext.toExternals response.clientData = some clientDataHash ∧
    attestationVerify ext response.att rpId clientDataHash level = .ok
  decoded : coseToPkey ext response.ad.cosePublicKey = .ok (pkey, cred.alg)
  encoded : ext.i2dPubkey pkey = some cred.publicKey
  keyed : cred.publicKey ≠ []
  named : cred.credentialId = Base64url.encode response.ad.credentialId

theorem coseToDer_ok {cose der : Bytes} {alg : Int32} (encoded : coseToDer ext cose = .ok (der, alg)) :
    ∃ pkey, coseToPkey ext cose = .ok (pkey, alg) ∧ ext.i2dPubkey pkey = some der ∧ der ≠ [] := by
  unfold coseToDer at encoded
  split at encoded
  · cases encoded
  · rename_i pkey found decoded
    split at encoded
    · cases encoded
    · cases encoded
    · rename_i bytes nonempty made
      cases encoded
      exact ⟨pkey, decoded, made, nonempty⟩

theorem registerRecord_ok {files : Bytes → Except Bytes Bytes} {args : RegisterArgs} {now : Int64}
    {cred : Credential} (accepted : registerRecord ext files args now = .ok cred) :
    ∃ response pkey, RegisterAccepted ext files args cred response pkey := by
  unfold registerRecord at accepted
  split at accepted
  · rename_i userId path rpId user file relying
    simp only [except_bind_ok, mapError_ok] at accepted
    obtain ⟨level, required, body, opened, response, responded, verified⟩ := accepted
    simp only [registerVerified, except_bind_ok, orFail_ok] at verified
    obtain ⟨clientDataHash, hashed, rest⟩ := verified
    split_ifs at rest with passed
    · cases rest
    · simp only [except_bind_ok, orFail_ok, toOption_some] at rest
      obtain ⟨⟨der, alg⟩, stored, built⟩ := rest
      cases built
      obtain ⟨pkey, decoded, encoded, keyed⟩ := coseToDer_ok stored
      exact ⟨response, pkey,
        { responded := ⟨path, body, file, opened, responded⟩
          verified := ⟨rpId, level, clientDataHash, relying, required, hashed, not_not.mp passed⟩
          decoded
          encoded
          keyed
          named := rfl }⟩
  · cases accepted

end AuthWebauthn
