import AuthWebauthn.Register.Command
import AuthWebauthn.System.Completeness

namespace AuthWebauthn

open Process Redis

/-! The command and the module each have their own table of algorithms.  A key that the
command stores is one that the module can check signatures with.
-/

section

variable {ext : AdminExternals} {pkey : ext.Pkey} {alg : Int32}

/-- `EVP_PKEY_base_id` is the type that a key was built with. -/
structure KeyTypes (ext : AdminExternals) : Prop where
  ec : ∀ point pkey, ext.ecPkey point = some pkey → ext.pkeyBaseId pkey = .ec
  ed25519 : ∀ key pkey, ext.ed25519Pkey key = some pkey → ext.pkeyBaseId pkey = .ed25519
  rsa : ∀ n e pkey, ext.rsaPkey n e = some pkey → ext.pkeyBaseId pkey = .rsa

/-- `EVP_DigestVerifyInit` and `EVP_DigestVerify`. -/
def evpOutcome (ext : AdminExternals) (hashed : Bool) (pkey : ext.Pkey) (signature data : Bytes) : Rc :=
  if ext.digestVerifyInit hashed pkey = false then .error
  else if ext.digestVerify hashed pkey signature data = 1 then .ok
  else if ext.digestVerify hashed pkey signature data = 0 then .declined
  else .error

/-- The assertion check reaches OpenSSL, with the key and the digest of the registration. -/
structure ReadyKey (ext : AdminExternals) (got : Credential) (pkey : ext.Pkey) (alg : Int32)
    (hashed : Bool) : Prop where
  named : got.alg = alg
  scheme : signatureScheme got.alg = some (hashed, ext.pkeyBaseId pkey)
  loaded : ext.d2iPubkey got.publicKey = some pkey
  outcome : ∀ data signature, assertionCheckSignature ext.toExternals (assertionCredOf got) data signature =
    evpOutcome ext hashed pkey signature data
  accepts : ∀ data signature,
    assertionCheckSignature ext.toExternals (assertionCredOf got) data signature = .ok ↔
      PackedVerified ext pkey alg signature data

/-- Both tables have the algorithm of a decoded key, with the same digest. -/
theorem tables_agree (types : KeyTypes ext) {cose : Bytes} (decoded : coseToPkey ext cose = .ok (pkey, alg)) :
    ∃ hashed, packedDigest alg = some hashed ∧ signatureScheme alg = some (hashed, ext.pkeyBaseId pkey) := by
  obtain ⟨content, built, rfl⟩ := coseToPkey_built decoded
  cases content with
  | ec2 x y =>
      rw [types.ec _ _ built]
      exact ⟨true, rfl, rfl⟩
  | okp x =>
      rw [types.ed25519 _ _ built]
      exact ⟨false, rfl, rfl⟩
  | rsa n e =>
      rw [types.rsa _ _ _ built]
      exact ⟨true, rfl, rfl⟩

theorem readyKey_of {got : Credential} {hashed : Bool} (named : got.alg = alg)
    (digest : packedDigest alg = some hashed)
    (scheme : signatureScheme alg = some (hashed, ext.pkeyBaseId pkey))
    (loaded : ext.d2iPubkey got.publicKey = some pkey) : ReadyKey ext got pkey alg hashed := by
  subst named
  have outcome (data signature : Bytes) :
      assertionCheckSignature ext.toExternals (assertionCredOf got) data signature =
        evpOutcome ext hashed pkey signature data := by
    simp only [assertionCheckSignature, assertionCredOf, scheme, loaded, evpOutcome, ne_eq,
      not_true_eq_false, if_false]
    split_ifs with unstarted valid invalid
    · rfl
    · rw [valid]
      rfl
    · rw [invalid]
      rfl
    · split
      · rename_i same
        exact absurd same valid
      · rename_i same
        exact absurd same invalid
      · rfl
  refine ⟨rfl, scheme, loaded, outcome, ?_⟩
  intro data signature
  rw [outcome, evpOutcome]
  simp only [PackedVerified, digest, Option.some.injEq, exists_eq_left']
  split_ifs with unstarted valid invalid
  · simp [unstarted]
  · simp [unstarted, valid]
  · simp [invalid]
  · simp [valid]

/-- The record of an accepted `register`, as a deployment has it. -/
def registrationOf {files : Bytes → Except Bytes Bytes} {args : RegisterArgs} {now : Int64} {cred : Credential}
    (accepted : registerRecord ext files args now = .ok cred) : Registration where
  cred := cred
  named := by
    obtain ⟨response, pkey, checked⟩ := registerRecord_ok accepted
    obtain ⟨_, body, _, _, responded⟩ := checked.responded
    rw [checked.named]
    exact Base64url.encode_ne_nil (registerResponse_attested responded).2
  keyed := by
    obtain ⟨response, pkey, checked⟩ := registerRecord_ok accepted
    exact checked.keyed
  supported := by
    obtain ⟨response, pkey, checked⟩ := registerRecord_ok accepted
    exact coseToPkey_supported checked.decoded

end

section Runs

variable {ι : Type} {server : Server} {deployment : Deployment ι}

theorem storeTyped_kept {served : RedisServed ι}
    (may : (deployment.jobs served.process).May served.command) :
    Pool.Served.Keeps (machine server) (StoreTyped deployment.keyPrefix) served := by
  obtain ⟨process, command, mode, before, reply⟩ := served
  intro state typed
  dsimp only at may ⊢
  apply serve_keeps (StoreTyped _) typed
  intro _
  exact typed_kept typed may

variable [DecidableEq ι]

/-- After a registration and no later one or revocation, a served read finds a record. -/
theorem registered_read {ext : Externals} {db : Db} {events : List (RedisEvent ι)}
    {front middle back : List (RedisServed ι)} {put read : RedisServed ι} {cred : Credential}
    (split : (deployment.run ext server db events).log = (front ++ put :: middle) ++ read :: back)
    (typed : StoreTyped deployment.keyPrefix db) (runs : put.mode.runs = true)
    (command : put.command = .hset (credentialRecordKey deployment.keyPrefix cred.credentialId)
      (credentialPairs cred))
    (quiet : ∀ entry ∈ middle, ¬ (Puts deployment cred.credentialId entry ∨
      Removes deployment cred.credentialId entry)) :
    Identified (credentialRecordKey deployment.keyPrefix cred.credentialId) (.of cred) read.before ∧
      ∃ got, recordAt server deployment.keyPrefix cred.credentialId read.before = .ok got := by
  have identified := put_identity split (typed.isHash cred.credentialId) runs command quiet
  have store : StoreTyped deployment.keyPrefix read.before :=
    Pool.log_from_start (fun _ _ holds => ⟨holds.record, holds.index⟩) split typed fun entry member =>
      storeTyped_kept (deployment.log_may (by rw [split]; exact List.mem_append_left _ member))
  refine ⟨identified, ?_⟩
  rcases store.record cred.credentialId with absent | ⟨fields, found, complete | counterOnly⟩
  · have owner := congrArg Identity.userId identified.2
    rw [fieldsAt, absent] at owner
    cases owner
  · obtain ⟨got, readable, _⟩ := complete.read server cred.credentialId
    refine ⟨got, ?_⟩
    rw [recordAt, fieldsAt, found, fieldsOf_hashEntry]
    exact readable
  · have owner := congrArg Identity.userId identified.2
    rw [fieldsAt, found, fieldsOf_hashEntry, show identityOf fields = .none from counterOnly] at owner
    cases owner

/-- Whatever runs in between, a login that reads the record of an accepted registration
checks signatures with the attested key. -/
theorem register_login_agreement (ext : AdminExternals) (server : Server) (deployment : Deployment ι)
    (db : Db) (events : List (RedisEvent ι))
    (inverse : ∀ pkey der, ext.i2dPubkey pkey = some der → ext.d2iPubkey der = some pkey)
    (types : KeyTypes ext) (typed : StoreTyped deployment.keyPrefix db)
    (files : Bytes → Except Bytes Bytes) (args : RegisterArgs) (now : Int64) (cred : Credential)
    (accepted : registerRecord ext files args now = .ok cred) :
    ∃ response pkey hashed, RegisterAccepted ext files args cred response pkey ∧
      packedDigest cred.alg = some hashed ∧
      ∀ front put middle read back,
        (deployment.run ext.toExternals server db events).log = (front ++ put :: middle) ++ read :: back →
        put.mode.runs = true →
        put.command = .hset (credentialRecordKey deployment.keyPrefix cred.credentialId)
          (credentialPairs cred) →
        (∀ entry ∈ middle, ¬ (Puts deployment cred.credentialId entry ∨
          Removes deployment cred.credentialId entry)) →
        read.command = .hgetall (credentialRecordKey deployment.keyPrefix cred.credentialId) →
        (read.mode = .served → ∃ got, recordOfReply cred.credentialId read.reply = .ok got) ∧
        ∀ got, recordOfReply cred.credentialId read.reply = .ok got →
          ReadyKey ext got pkey cred.alg hashed := by
  obtain ⟨response, pkey, checked⟩ := registerRecord_ok accepted
  obtain ⟨hashed, digest, scheme⟩ := tables_agree types checked.decoded
  refine ⟨response, pkey, hashed, checked, digest, ?_⟩
  intro front put middle read back split runs stored quiet reads
  obtain ⟨identified, found, record⟩ := registered_read split typed runs stored quiet
  have answered := Pool.log_reply (by rw [split]; simp : read ∈ (deployment.run ext.toExternals server db events).log)
  rw [reads] at answered
  constructor
  · intro served
    refine ⟨found, ?_⟩
    rw [served] at answered
    change read.reply = some (exec server read.before _).2 at answered
    rw [answered, recordOfReply, exec_hgetall_reply server identified.1]
    exact record
  · intro got returned
    obtain ⟨_, key, alg⟩ := read_identity identified (read_record answered returned identified.1)
    exact readyKey_of alg digest scheme (by rw [key, inverse pkey _ checked.encoded])

end Runs

namespace Sample

def enrolBody : Bytes :=
  ascii "\x7b\"response\":\x7b\"clientDataJSON\":\"" ++ Base64url.encode enrolClientData ++
    ascii "\",\"attestationObject\":\"" ++ Base64url.encode plainObject ++ ascii "\"\x7d\x7d"

def enrolFiles (path : Bytes) : Except Bytes Bytes :=
  if path = ascii "response.json" then .ok enrolBody else .error (ascii "error: cannot open '" ++ path ++ ascii "'\n")

def enrolArgs : RegisterArgs where
  userId := some (ascii "alice")
  responseFile := some (ascii "response.json")
  rpId := some (ascii "example.com")
  requireAttestation := some (ascii "packed")
  transports := none
  redisHost := conf.redisHost
  keyPrefix := defaultKeyPrefix

def enrolCred : Credential :=
  { Credential.zero (ascii "AQ") with
    userId := ascii "alice", publicKey := enrolKey, alg := -8, createdAt := 1000, hasAaguid := true }

theorem enrolExt_inverse (pkey der : Bytes) (encoded : enrolExt.i2dPubkey pkey = some der) :
    enrolExt.d2iPubkey der = some pkey := by
  change (if pkey = enrolKey then some pkey else none) = some der at encoded
  rw [Option.ite_none_right_eq_some, Option.some.injEq] at encoded
  obtain ⟨same, rfl⟩ := encoded
  exact if_pos same

theorem enrolExt_types : KeyTypes enrolExt where
  ec _ _ built := by cases built
  ed25519 _ _ _ := rfl
  rsa _ _ _ built := by cases built

theorem enrol_accepted : registerRecord enrolExt enrolFiles enrolArgs 1000 = .ok enrolCred := by
  decide +kernel

def enrolment : Registration where
  cred := enrolCred
  named := by decide
  keyed := by decide
  supported := .inr (.inl rfl)

inductive Enrolling where
  | register
  | revoke
deriving DecidableEq

def Enrolling.job : Enrolling → Job
  | .register => .register enrolArgs.redisHost enrolArgs.keyPrefix enrolment
  | .revoke => .revoke enrolArgs.redisHost enrolArgs.keyPrefix (ascii "AQ")

def enrolling : Deployment Enrolling where
  jobs := Enrolling.job
  keyPrefix := defaultKeyPrefix
  shared := by
    intro process
    cases process with
    | register => rfl
    | revoke => rfl

/-- The credential is registered; a revocation has read the record. -/
def enrolEvents : List (RedisEvent Enrolling) := served .register 3 ++ served .revoke 2

end Sample

theorem enrolled_key_ready :
    ∃ read pkey hashed got,
      read ∈ (Sample.enrolling.run Sample.enrolExt.toExternals .inOrder Db.empty Sample.enrolEvents).log ∧
      recordOfReply (ascii "AQ") read.reply = .ok got ∧
      ReadyKey Sample.enrolExt got pkey Sample.enrolCred.alg hashed := by
  obtain ⟨_, pkey, hashed, _, _, later⟩ := register_login_agreement Sample.enrolExt .inOrder
    Sample.enrolling Db.empty Sample.enrolEvents Sample.enrolExt_inverse Sample.enrolExt_types
    storeTyped_empty Sample.enrolFiles Sample.enrolArgs 1000 Sample.enrolCred Sample.enrol_accepted
  have outlined :
      (Sample.enrolling.run Sample.enrolExt.toExternals .inOrder Db.empty Sample.enrolEvents).log.map outline =
      ([(Sample.Enrolling.register, Cmd.connect, Delivery.served)] ++
        (Sample.Enrolling.register, Cmd.hset (credentialRecordKey defaultKeyPrefix (ascii "AQ"))
          (credentialPairs Sample.enrolCred), Delivery.served) ::
        [(.register, .sadd (credentialIndexKey defaultKeyPrefix (ascii "alice")) (ascii "AQ"), .served),
          (.revoke, .connect, .served)]) ++
      [(.revoke, .hgetall (credentialRecordKey defaultKeyPrefix (ascii "AQ")), .served)] := by
    decide +kernel
  obtain ⟨front, put, middle, read, last, split, puts, outlinedMiddle, reads, _⟩ := split_of_outline outlined
  have quiet : ∀ entry ∈ middle, ¬ (Puts Sample.enrolling (ascii "AQ") entry ∨
      Removes Sample.enrolling (ascii "AQ") entry) := by
    intro entry member
    have listed := List.mem_map_of_mem (f := outline) member
    rw [outlinedMiddle] at listed
    intro written
    rcases written with ⟨_, cred, writes⟩ | ⟨_, removes⟩
    · simp [outline, writes] at listed
    · simp [outline, removes] at listed
  obtain ⟨found, ready⟩ := later front put middle read last split
    (congrArg (fun entry => entry.2.2.runs) puts) (congrArg (fun entry => entry.2.1) puts) quiet
    (congrArg (fun entry => entry.2.1) reads)
  obtain ⟨got, record⟩ := found (congrArg (fun entry => entry.2.2) reads)
  exact ⟨read, pkey, hashed, got, by simp [split], record, ready got record⟩

end AuthWebauthn
