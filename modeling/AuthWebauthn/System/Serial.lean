import AuthWebauthn.Data.Counter
import AuthWebauthn.System.Sample
import AuthWebauthn.Verify.Acceptance

namespace AuthWebauthn

open Process Redis

/-! Verify runs on one credential that do not overlap, each served completely.
Between two of them anything may happen except to the record.
-/

/-- A verify request and the state of Redis that it finds. -/
structure Visit where
  request : VerifyRequest
  before : Db

section Visits

variable (ext : Externals) (server : Server) (conf : LocConf)

def Visit.outcome (visit : Visit) : VerifyOutcome :=
  (solo server (verifyDone ext conf visit.request) visit.before).1

def Visit.after (visit : Visit) : Db :=
  (solo server (verifyDone ext conf visit.request) visit.before).2

/-- The assertion was accepted.  At a configured location with Redis at hand
what is not a 401 has got past the assertion; it is a 500 when no token can be
signed. -/
def Visit.accepted (visit : Visit) : Bool := visit.outcome ext server conf ≠ .rejected

/-- The counter that the request reports. -/
def Visit.count (visit : Visit) : Nat :=
  (parseVerifyBody ext visit.request.body).elim 0 fun parsed =>
    counterAt parsed.assertion.authenticatorData

/-- The record that `get` finds. -/
def Visit.stored (credentialId : Bytes) (visit : Visit) : Except Rc Credential :=
  (solo server (credentialGet conf.redisKeyPrefix credentialId) visit.before).1

/-- Each visit finds the record as the one before has left it. -/
def Serial (key : Bytes) : Option Entry → List Visit → Prop
  | _, [] => True
  | record, visit :: later =>
      visit.before.get key = record ∧ Serial key ((visit.after ext server conf).get key) later

/-- A request for the credential that is valid but for its counter: its
challenge is stored, and the assertion would be accepted without clone
detection. -/
structure OtherwiseValid (origins : List Bytes) (cred : Credential) (credentialId : Bytes) (visit : Visit)
    (parsed : ParsedRequest) : Prop where
  taken : parseVerifyBody ext visit.request.body = some parsed
  named : parsed.id = credentialId
  sized : parsed.challenge.length = challengeLength
  issued : ∃ value expiresAt, visit.before.get (challengeKey conf.redisKeyPrefix parsed.challenge) =
    some ⟨.str value, expiresAt⟩
  acceptable : Acceptable ext parsed.assertion (assertionCredOf cred)
    { policyOf conf parsed.challenge origins with cloneDetection := .off }

end Visits

section Series

variable {ext : Externals} {server : Server} {conf : LocConf} {origins : List Bytes}
  {cred stored : Credential} {credentialId : Bytes} {visit : Visit} {parsed : ParsedRequest}

/-- The counter is the only condition that clone detection adds. -/
theorem acceptable_strict_iff {assertion : Assertion} {policy : AssertionPolicy}
    (held known : AssertionCred) (sameKey : held.publicKey = known.publicKey) (sameAlg : held.alg = known.alg)
    (strict : policy.cloneDetection = .strict)
    (acceptable : Acceptable ext assertion known { policy with cloneDetection := .off }) :
    Acceptable ext assertion held policy ↔
      Counter.Advances held.signCount.toNat (counterAt assertion.authenticatorData) := by
  have unused : held.signCount = 0 ↔ held.signCount.toNat = ⊥ := UInt32.toNat_inj.symm
  constructor
  · intro accepted
    rcases accepted.counter strict with ⟨zero, fresh⟩ | grows
    · exact .inl ⟨zero, unused.mp fresh⟩
    · exact .inr grows
  · intro advances
    refine
      { clientData := acceptable.clientData
        long := acceptable.long
        rpId := acceptable.rpId
        unattested := acceptable.unattested
        unextended := acceptable.unextended
        present := acceptable.present
        userVerified := acceptable.userVerified
        counter := fun _ => ?_
        signature := by
          rw [sameKey, sameAlg]
          exact acceptable.signature }
    rcases advances with ⟨zero, fresh⟩ | grows
    · exact .inl ⟨zero, unused.mpr fresh⟩
    · exact .inr grows

/-- The run of an otherwise valid request up to the check of its assertion. -/
theorem OtherwiseValid.solo_eq (server : Server) {fields : Hash} {expiresAt : Option Nat}
    (configured : Configured conf origins)
    (valid : OtherwiseValid ext conf origins cred credentialId visit parsed)
    (found : visit.before.get (credentialRecordKey conf.redisKeyPrefix credentialId) =
      some ⟨.hash fields, expiresAt⟩) :
    ∃ consumed : Db, consumed.get (credentialRecordKey conf.redisKeyPrefix credentialId) =
        some ⟨.hash fields, expiresAt⟩ ∧
      solo server (verifyDone ext conf visit.request) visit.before =
        solo server (afterRead ext conf visit.request origins parsed
          (credentialGetPairs credentialId (server.fieldOrder (Hash.pairs fields)))) consumed := by
  obtain ⟨value, deadline, issued⟩ := valid.issued
  obtain ⟨taken, rfl, sized, _, _⟩ := valid
  have reply : getdelReply (some (exec server visit.before
      (.getdel (challengeKey conf.redisKeyPrefix parsed.challenge))).2) = some true := by
    simp only [exec, issued, getdelReply]
  refine ⟨(exec server visit.before (.getdel (challengeKey conf.redisKeyPrefix parsed.challenge))).1, ?_, ?_⟩
  · rw [exec_other_get (by simp [Cmd.key]), found]
  · rw [verifyDone_staged configured taken, afterParse, solo_call]
    change solo server (if rcOfReply (some .status) ≠ .ok then _ else _) visit.before = _
    rw [if_neg (by decide), afterConnect, if_neg (not_not.mpr sized), solo_call, if_pos reply,
      afterConsume, solo_call, exec_hgetall, recordOfReply, exec_hgetall_live]
    rw [exec_other_get (by simp [Cmd.key]), found]

/-- What a visit does to the record: nothing, or a counter update. -/
structure Visit.Updates (ext : Externals) (server : Server) (conf : LocConf) (key : Bytes) (visit : Visit) :
    Prop where
  rejected : visit.accepted ext server conf = false →
    (visit.after ext server conf).get key = visit.before.get key
  accepted : visit.accepted ext server conf = true →
    ∃ fields updated expiresAt, visit.before.get key = some ⟨.hash fields, expiresAt⟩ ∧
      (visit.after ext server conf).get key = some ⟨.hash updated, expiresAt⟩ ∧
      updated.lookup Field.signCount = some (Decimal.digits (visit.count ext)) ∧
      updated.lookup Field.lastUsedAt = some (Decimal.ofInt visit.request.now.toInt) ∧
      ∀ name, name ≠ Field.signCount → name ≠ Field.lastUsedAt → updated.lookup name = fields.lookup name

theorem mintSession_ne_rejected {userId id : Bytes} {now : Int64} {jti : Option (Vector UInt8 jtiLength)} :
    mintSession ext conf userId id now jti ≠ .rejected := by
  cases jti with
  | none => simp [mintSession]
  | some drawn =>
      simp only [mintSession]
      split <;> simp

/-- One visit: it is accepted exactly if its counter advances the stored one,
which it then replaces. -/
theorem OtherwiseValid.step {fields : Hash} {expiresAt : Option Nat}
    (configured : Configured conf origins) (strict : conf.cloneDetection = .strict)
    (valid : OtherwiseValid ext conf origins cred credentialId visit parsed)
    (found : visit.before.get (credentialRecordKey conf.redisKeyPrefix credentialId) =
      some ⟨.hash fields, expiresAt⟩)
    (read : credentialGetPairs credentialId (server.fieldOrder (Hash.pairs fields)) = .ok stored)
    (sameKey : stored.publicKey = cred.publicKey) (sameAlg : stored.alg = cred.alg) :
    (visit.accepted ext server conf = true ↔ Counter.Advances stored.signCount.toNat (visit.count ext)) ∧
    ((visit.accepted ext server conf = false ∧
        (visit.after ext server conf).get (credentialRecordKey conf.redisKeyPrefix credentialId) =
          some ⟨.hash fields, expiresAt⟩) ∨
      ∃ count : UInt32, visit.accepted ext server conf = true ∧ count.toNat = visit.count ext ∧
        (visit.after ext server conf).get (credentialRecordKey conf.redisKeyPrefix credentialId) =
          some ⟨.hash (Hash.setFields fields (counterPairs count visit.request.now)), expiresAt⟩) := by
  obtain ⟨consumed, kept, staged⟩ := valid.solo_eq server configured found
  have reported : visit.count ext = counterAt parsed.assertion.authenticatorData := by
    rw [Visit.count, valid.taken]
    rfl
  have judged : Acceptable ext parsed.assertion (assertionCredOf stored)
      (policyOf conf parsed.challenge origins) ↔
      Counter.Advances stored.signCount.toNat (visit.count ext) := by
    rw [reported]
    exact acceptable_strict_iff (assertionCredOf stored) (assertionCredOf cred) sameKey sameAlg strict
      valid.acceptable
  obtain ⟨_, named, _⟩ := valid
  rw [← judged]
  unfold Visit.accepted Visit.outcome Visit.after
  rw [staged, read, afterRead]
  cases verified : assertionVerify ext parsed.assertion (assertionCredOf stored)
      (policyOf conf parsed.challenge origins) with
  | error rc =>
      have unacceptable : ¬ Acceptable ext parsed.assertion (assertionCredOf stored)
          (policyOf conf parsed.challenge origins) := by
        intro acceptable
        rw [acceptable.checked.verify] at verified
        cases verified
      exact ⟨iff_of_false (by simp [solo]) unacceptable, .inl ⟨by simp [solo], kept⟩⟩
  | ok count =>
      obtain ⟨authdata, checked, rfl⟩ := assertionVerify_ok verified
      have passed : decide (mintSession ext conf stored.userId parsed.id visit.request.now
          visit.request.jti ≠ .rejected) = true := decide_eq_true mintSession_ne_rejected
      refine ⟨iff_of_true passed (acceptable_of_checked checked), .inr ⟨authdata.signCount, passed, ?_, ?_⟩⟩
      · rw [reported, (authdataParse_ok checked.parsed).2.2.2, bigEndian32_counterAt]
      · simp only [solo_call, named]
        exact exec_hset_live _ kept

theorem OtherwiseValid.updates {fields : Hash} {expiresAt : Option Nat}
    (configured : Configured conf origins) (strict : conf.cloneDetection = .strict)
    (valid : OtherwiseValid ext conf origins cred credentialId visit parsed)
    (found : visit.before.get (credentialRecordKey conf.redisKeyPrefix credentialId) =
      some ⟨.hash fields, expiresAt⟩)
    (read : credentialGetPairs credentialId (server.fieldOrder (Hash.pairs fields)) = .ok stored)
    (sameKey : stored.publicKey = cred.publicKey) (sameAlg : stored.alg = cred.alg) :
    visit.Updates ext server conf (credentialRecordKey conf.redisKeyPrefix credentialId) := by
  rcases (valid.step configured strict found read sameKey sameAlg).2 with
    ⟨rejected, same⟩ | ⟨count, accepted, counted, updated⟩
  · refine ⟨fun _ => same.trans found.symm, fun accepted => ?_⟩
    rw [rejected] at accepted
    cases accepted
  · refine ⟨fun rejected => ?_, fun _ => ⟨fields, _, expiresAt, found, updated, ?_, ?_, ?_⟩⟩
    · rw [accepted] at rejected
      cases rejected
    · rw [← counted]
      exact (lookup_counted fields count visit.request.now).1
    · exact (lookup_counted fields count visit.request.now).2
    · intro name notCount notUsed
      exact lookup_counterPairs ⟨notCount, notUsed⟩

/-- A visit with its counter and the verdict on it. -/
def Visit.judged (ext : Externals) (server : Server) (conf : LocConf) (visit : Visit) : Nat × Bool :=
  (visit.count ext, visit.accepted ext server conf)

/-- What holds of a series of visits to a record. -/
structure SerialVerdicts (ext : Externals) (server : Server) (conf : LocConf) (credentialId : Bytes)
    (signCount : Nat) (visits : List Visit) : Prop where
  judged : Counter.Judged signCount (visits.map (Visit.judged ext server conf))
  stored : ∀ front visit later, visits = front ++ visit :: later →
    ∃ held, visit.stored server conf credentialId = .ok held ∧
      held.signCount.toNat = Counter.lastAccepted signCount (front.map (Visit.judged ext server conf))
  updates : ∀ visit ∈ visits,
    visit.Updates ext server conf (credentialRecordKey conf.redisKeyPrefix credentialId)

theorem Serial.verdicts {visits : List Visit} {fields : Hash} {expiresAt : Option Nat}
    (configured : Configured conf origins) (strict : conf.cloneDetection = .strict)
    (serial : Serial ext server conf (credentialRecordKey conf.redisKeyPrefix credentialId)
      (some ⟨.hash fields, expiresAt⟩) visits)
    (valid : ∀ visit ∈ visits, ∃ parsed, OtherwiseValid ext conf origins cred credentialId visit parsed)
    (read : credentialGetPairs credentialId (server.fieldOrder (Hash.pairs fields)) = .ok stored)
    (sameKey : stored.publicKey = cred.publicKey) (sameAlg : stored.alg = cred.alg) :
    SerialVerdicts ext server conf credentialId stored.signCount.toNat visits := by
  induction visits generalizing fields stored with
  | nil => exact ⟨trivial, by simp, by simp⟩
  | cons visit later ih =>
      obtain ⟨found, rest⟩ := serial
      obtain ⟨parsed, first⟩ := valid visit (by simp)
      obtain ⟨judged, effect⟩ := first.step configured strict found read sameKey sameAlg
      have readNow : visit.stored server conf credentialId = .ok stored := by
        rw [Visit.stored, credentialGet_eq, solo_call, exec_hgetall_live found]
        exact read
      have remaining : SerialVerdicts ext server conf credentialId
          (if visit.accepted ext server conf then visit.count ext else stored.signCount.toNat) later := by
        rcases effect with ⟨rejected, same⟩ | ⟨count, accepted, counted, updated⟩
        · rw [same] at rest
          rw [rejected]
          exact ih rest (fun visit member => valid visit (by simp [member])) read sameKey sameAlg
        · rw [updated] at rest
          obtain ⟨next, readNext, keyNext, algNext, countNext⟩ :=
            credentialGetPairs_counted count visit.request.now read
          rw [accepted, if_pos rfl, ← counted, ← countNext]
          exact ih rest (fun visit member => valid visit (by simp [member])) readNext
            (keyNext.trans sameKey) (algNext.trans sameAlg)
      refine ⟨⟨judged, remaining.judged⟩, ?_, ?_⟩
      · intro front other back split
        cases front with
        | nil =>
            cases split
            exact ⟨stored, readNow, rfl⟩
        | cons head front =>
            cases split
            exact remaining.stored front other back rfl
      · intro other member
        rcases List.mem_cons.mp member with rfl | later
        · exact first.updates configured strict found read sameKey sameAlg
        · exact remaining.updates other later

/-- Clone detection over any series of logins.  Each is judged against the
counter stored after the last accepted one. -/
theorem serial_clone_detection (ext : Externals) (server : Server) (conf : LocConf) (origins : List Bytes)
    (credentialId : Bytes) (cred : Credential) (fields : Hash) (expiresAt : Option Nat) (visits : List Visit)
    (configured : Configured conf origins) (strict : conf.cloneDetection = .strict)
    (read : credentialGetPairs credentialId (server.fieldOrder (Hash.pairs fields)) = .ok cred)
    (serial : Serial ext server conf (credentialRecordKey conf.redisKeyPrefix credentialId)
      (some ⟨.hash fields, expiresAt⟩) visits)
    (valid : ∀ visit ∈ visits, ∃ parsed, OtherwiseValid ext conf origins cred credentialId visit parsed) :
    (∀ front visit later, visits = front ++ visit :: later →
      ∃ held, visit.stored server conf credentialId = .ok held ∧
        held.signCount.toNat =
          Counter.lastAccepted cred.signCount.toNat (front.map (Visit.judged ext server conf)) ∧
        (visit.accepted ext server conf = true ↔
          held.signCount.toNat < visit.count ext ∨ (visit.count ext = 0 ∧ held.signCount = 0))) ∧
    ((∀ visit ∈ visits, visit.accepted ext server conf = true) ↔
      ∃ zeros rising, visits.map (Visit.count ext) = List.replicate zeros 0 ++ rising ∧
        (zeros ≠ 0 → cred.signCount = 0) ∧ (cred.signCount.toNat :: rising).IsChain (· < ·)) ∧
    (∀ front used middle zero back, visits = front ++ used :: (middle ++ zero :: back) →
      used.accepted ext server conf = true → used.count ext ≠ 0 → zero.count ext = 0 →
      zero.accepted ext server conf = false) ∧
    ∀ visit ∈ visits,
      visit.Updates ext server conf (credentialRecordKey conf.redisKeyPrefix credentialId) := by
  have verdicts := Serial.verdicts configured strict serial valid read rfl rfl
  have unused {count : UInt32} : count = 0 ↔ count.toNat = ⊥ := UInt32.toNat_inj.symm
  refine ⟨?_, ?_, ?_, verdicts.updates⟩
  · intro front visit later split
    obtain ⟨held, stored, last⟩ := verdicts.stored front visit later split
    have judged := verdicts.judged
    rw [split, List.map_append, List.map_cons] at judged
    refine ⟨held, stored, last, ?_⟩
    rw [unused, or_comm, last]
    exact judged.accepted_iff
  · have all : (∀ visit ∈ visits, visit.accepted ext server conf = true) ↔
        ∀ entry ∈ visits.map (Visit.judged ext server conf), entry.2 = true := by
      simp [Visit.judged]
    have counts : (visits.map (Visit.judged ext server conf)).map Prod.fst = visits.map (Visit.count ext) := by
      simp [Visit.judged]
    rw [all, verdicts.judged.all_accepted_iff, Counter.isChain_advances_iff_rising, counts]
    simp only [unused]
    rfl
  · intro front used middle zero back split accepted counted reset
    subst split
    have judged := verdicts.judged
    simp only [List.map_append, List.map_cons, Visit.judged, accepted, reset] at judged
    exact judged.bot_rejected counted

end Series

namespace Sample

def Login.challengeEntry (login : Login) : Bytes :=
  challengeKey defaultKeyPrefix (List.replicate 32 login.challenge)

/-- The challenge of the login has been issued. -/
def Login.issued (login : Login) (db : Db) : Db := db.put login.challengeEntry ⟨.str (ascii "1"), none⟩

def Login.parsed (login : Login) : ParsedRequest where
  id := ascii "AQ"
  assertion := ⟨login.authenticatorData, login.clientData, login.signature⟩
  challenge := List.replicate 32 login.challenge

def firstVisit : Visit := ⟨first.request, first.issued registered⟩

def secondVisit : Visit := ⟨second.request, second.issued (firstVisit.after ext .inOrder conf)⟩

theorem Login.issued_get (login : Login) (db : Db) :
    (login.issued db).get (challengeKey conf.redisKeyPrefix (List.replicate 32 login.challenge)) =
      some ⟨.str (ascii "1"), none⟩ :=
  Db.get_of_persistent (Function.update_self ..)

theorem Login.issued_record (login : Login) (db : Db) (credentialId : Bytes) :
    (login.issued db).get (credentialRecordKey conf.redisKeyPrefix credentialId) =
      db.get (credentialRecordKey conf.redisKeyPrefix credentialId) := by
  have apart : credentialRecordKey conf.redisKeyPrefix credentialId ≠ login.challengeEntry :=
    record_ne_challengeKey _ _
  simp only [Db.get, Login.issued, Db.put, Function.update_of_ne apart]

theorem otherwiseValid {login : Login} {db : Db}
    (taken : parseVerifyBody ext login.request.body = some login.parsed)
    (verified : (assertionVerify ext login.parsed.assertion (assertionCredOf registration.cred)
      { policyOf conf login.parsed.challenge [ascii "https://example.com"] with
        cloneDetection := .off }).isOk = true) :
    OtherwiseValid ext conf [ascii "https://example.com"] registration.cred (ascii "AQ")
      ⟨login.request, login.issued db⟩ login.parsed where
  taken := taken
  named := rfl
  sized := by simp [Login.parsed]
  issued := ⟨_, _, login.issued_get db⟩
  acceptable := by
    cases result : assertionVerify ext login.parsed.assertion (assertionCredOf registration.cred)
        { policyOf conf login.parsed.challenge [ascii "https://example.com"] with
          cloneDetection := .off } with
    | error rc =>
        rw [result] at verified
        cases verified
    | ok count =>
        obtain ⟨_, checked, _⟩ := assertionVerify_ok result
        exact acceptable_of_checked checked

end Sample

/-- Counter 7 is accepted over 5, and 6 is then rejected. -/
theorem sample_logins_judged :
    Sample.firstVisit.accepted Sample.ext .inOrder Sample.conf = true ∧
      Sample.secondVisit.accepted Sample.ext .inOrder Sample.conf = false := by
  have judged := (serial_clone_detection Sample.ext .inOrder Sample.conf [ascii "https://example.com"]
    (ascii "AQ") Sample.registration.cred (Hash.setFields ∅ (credentialPairs Sample.registration.cred)) none
    [Sample.firstVisit, Sample.secondVisit] Sample.configured rfl (by decide +kernel)
    ⟨(Sample.first.issued_record _ _).trans (Db.get_of_persistent (Db.write_same ..)),
      Sample.second.issued_record _ _, trivial⟩ (by
      intro visit member
      simp only [List.mem_cons, List.not_mem_nil, or_false] at member
      rcases member with rfl | rfl
      · exact ⟨_, Sample.otherwiseValid (by decide +kernel) (by decide +kernel)⟩
      · exact ⟨_, Sample.otherwiseValid (by decide +kernel) (by decide +kernel)⟩)).1
  have firstCount : Sample.firstVisit.count Sample.ext = 7 := by decide +kernel
  have secondCount : Sample.secondVisit.count Sample.ext = 6 := by decide +kernel
  obtain ⟨held, _, before, verdict⟩ := judged [] Sample.firstVisit [Sample.secondVisit] rfl
  have passed : Sample.firstVisit.accepted Sample.ext .inOrder Sample.conf = true := by
    change held.signCount.toNat = 5 at before
    rw [verdict, before, firstCount]
    omega
  obtain ⟨held, _, before, verdict⟩ := judged [Sample.firstVisit] Sample.secondVisit [] rfl
  refine ⟨passed, ?_⟩
  rw [List.map_singleton, Visit.judged, passed, firstCount] at before
  change held.signCount.toNat = 7 at before
  rw [Bool.eq_false_iff, ne_eq, verdict, before, secondCount]
  omega

end AuthWebauthn
