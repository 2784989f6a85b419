import AuthWebauthn.System.Sample

namespace AuthWebauthn

open Process Redis

/-! A record's user, key and algorithm are written together by a registration and
removed together by a revocation; a counter update touches none of them.  So
what a verify run reads is what the last registration or revocation before its
read has left.
-/

variable {ι : Type} {ext : Externals} {server : Server} {deployment : Deployment ι} {db : Db}
  {events : List (RedisEvent ι)} {credentialId : Bytes} {served : RedisServed ι}

/-- The fields that say whose key a record holds. -/
structure Identity where
  userId : Option Bytes
  publicKey : Option Bytes
  alg : Option Bytes

def Identity.none : Identity := ⟨.none, .none, .none⟩

def Identity.of (cred : Credential) : Identity :=
  ⟨some cred.userId, some cred.publicKey, some (Decimal.ofInt cred.alg.toInt)⟩

def identityOf (fields : Hash) : Identity :=
  ⟨fields.lookup Field.userId, fields.lookup Field.publicKey, fields.lookup Field.alg⟩

/-- The record key is a hash key, and its identity is `identity`. -/
def Identified (key : Bytes) (identity : Identity) (db : Db) : Prop :=
  IsHash db key ∧ identityOf (fieldsAt db key) = identity

/-- A registration of the credential took effect. -/
def Puts (deployment : Deployment ι) (credentialId : Bytes) (served : RedisServed ι) : Prop :=
  served.mode.runs = true ∧ ∃ cred, served.command =
    .hset (credentialRecordKey deployment.keyPrefix credentialId) (credentialPairs cred)

/-- A revocation of the credential took effect. -/
def Removes (deployment : Deployment ι) (credentialId : Bytes) (served : RedisServed ι) : Prop :=
  served.mode.runs = true ∧
    served.command = .del (credentialRecordKey deployment.keyPrefix credentialId)

theorem identified_absent {key : Bytes} (absent : db.entries key = none) :
    Identified key .none db := by
  refine ⟨.inl absent, ?_⟩
  rw [fieldsAt, absent]
  rfl

theorem identityOf_credentialPairs (fields : Hash) (cred : Credential) :
    identityOf (Hash.setFields fields (credentialPairs cred)) = .of cred := by
  have user := lookup_credentialPairs (show (Field.userId, cred.userId) ∈ credentialPairs cred by
    simp [credentialPairs]) fields
  have key := lookup_credentialPairs (show (Field.publicKey, cred.publicKey) ∈ credentialPairs cred by
    simp [credentialPairs]) fields
  have alg := lookup_credentialPairs (show (Field.alg, Decimal.ofInt cred.alg.toInt) ∈
    credentialPairs cred by simp [credentialPairs]) fields
  simp only [identityOf, Identity.of, user, key, alg]

theorem identityOf_counterPairs (fields : Hash) (count : UInt32) (lastUsedAt : Int64) :
    identityOf (Hash.setFields fields (counterPairs count lastUsedAt)) = identityOf fields := by
  simp only [identityOf]
  rw [lookup_counterPairs (by decide), lookup_counterPairs (by decide), lookup_counterPairs (by decide)]

theorem stable_identified {key : Bytes} {identity : Identity} :
    Pool.Stable (machine server) (Identified key identity) := fun _ _ holds => holds

theorem credentialPairs_ne_counterPairs (cred : Credential) (count : UInt32) (lastUsedAt : Int64) :
    credentialPairs cred ≠ counterPairs count lastUsedAt := by
  intro same
  have names : Field.userId = Field.signCount := by
    simpa [credentialPairs, counterPairs] using congrArg (fun pairs => (pairs.map Prod.fst).head?) same
  exact absurd names (by decide)

/-- A served command other than a registration and a revocation leaves the
identity of the record. -/
theorem identity_kept {identity : Identity}
    (may : (deployment.jobs served.process).May served.command)
    (unput : ¬ Puts deployment credentialId served)
    (kept : ¬ Removes deployment credentialId served ∨ identity = .none) :
    Pool.Served.Keeps (machine server)
      (Identified (credentialRecordKey deployment.keyPrefix credentialId) identity) served := by
  obtain ⟨process, command, mode, before, reply⟩ := served
  intro state identified
  dsimp only at may ⊢
  apply serve_keeps (Identified _ identity) identified
  intro runs
  obtain ⟨typed, same⟩ := identified
  by_cases touches : command.key = some (credentialRecordKey deployment.keyPrefix credentialId)
  · cases deployment.record_command may touches with
    | read =>
        rw [exec_hgetall]
        exact ⟨typed, same⟩
    | count conf request count job =>
        obtain ⟨written, _⟩ := exec_hset server typed (counterPairs count request.now)
        rw [written]
        refine ⟨isHash_of_entry (Db.write_same ..), ?_⟩
        rw [fieldsAt, Db.write_same, fieldsOf_hashEntry, identityOf_counterPairs, same]
    | put host keyPrefix registration job named owned =>
        exact absurd ⟨runs, _, rfl⟩ unput
    | remove host keyPrefix job =>
        rcases kept with unremoved | rfl
        · exact absurd ⟨runs, rfl⟩ unremoved
        · exact identified_absent exec_del
  · have unchanged : (exec server state command).1.entries
        (credentialRecordKey deployment.keyPrefix credentialId) = state.entries _ :=
      exec_other touches
    exact ⟨typed.congr unchanged, by rw [fieldsAt_congr unchanged, same]⟩

theorem isHash_kept (served : RedisServed ι)
    (may : (deployment.jobs served.process).May served.command) :
    Pool.Served.Keeps (machine server)
      (IsHash · (credentialRecordKey deployment.keyPrefix credentialId)) served := by
  obtain ⟨process, command, mode, before, reply⟩ := served
  intro state typed
  dsimp only at may ⊢
  apply serve_keeps (IsHash · _) typed
  intro _
  by_cases touches : command.key = some (credentialRecordKey deployment.keyPrefix credentialId)
  · cases deployment.record_command may touches with
    | read => rwa [exec_hgetall]
    | count conf request count job =>
        rw [(exec_hset server typed _).1]
        exact isHash_of_entry (Db.write_same ..)
    | put host keyPrefix registration job named owned =>
        rw [(exec_hset server typed _).1]
        exact isHash_of_entry (Db.write_same ..)
    | remove host keyPrefix job => exact .inl exec_del
  · exact typed.congr (exec_other touches)

/-- The command of an effective registration comes from a `register` job. -/
theorem put_registration (may : (deployment.jobs served.process).May served.command)
    (puts : Puts deployment credentialId served) :
    ∃ host keyPrefix registration,
      deployment.jobs served.process = .register host keyPrefix registration ∧
      registration.cred.credentialId = credentialId ∧
      served.command = .hset (credentialRecordKey deployment.keyPrefix credentialId)
        (credentialPairs registration.cred) := by
  obtain ⟨process, command, mode, before, reply⟩ := served
  obtain ⟨_, cred, written⟩ := puts
  dsimp only at may written ⊢
  have touches : command.key = some (credentialRecordKey deployment.keyPrefix credentialId) := by
    rw [written]
    rfl
  cases deployment.record_command may touches with
  | read => cases written
  | count conf request count job =>
      exact absurd (Cmd.hset.inj written).2.symm (credentialPairs_ne_counterPairs cred count request.now)
  | put host keyPrefix registration job named owned =>
      exact ⟨host, keyPrefix, registration, job, named, rfl⟩
  | remove host keyPrefix job => cases written

/-- A reply that brought a record was served, and the record was stored. -/
theorem read_record {reply : Option Reply} {mode : Delivery} {before : Db} {cred : Credential}
    {keyPrefix : Bytes}
    (answered : reply = ((machine server).serve mode before
      (.hgetall (credentialRecordKey keyPrefix credentialId))).2)
    (record : recordOfReply credentialId reply = .ok cred)
    (typed : IsHash before (credentialRecordKey keyPrefix credentialId)) :
    recordAt server keyPrefix credentialId before = .ok cred := by
  subst answered
  cases mode with
  | served =>
      change recordOfReply credentialId (some (exec server before _).2) = _ at record
      rw [recordOfReply, exec_hgetall_reply server typed] at record
      exact record
  | refused => cases record
  | dropped => cases record
  | replyLost => cases record

variable [DecidableEq ι]

/-- Once revoked, a record has no identity until it is registered again. -/
theorem revoked_identity {front middle back : List (RedisServed ι)} {removal read : RedisServed ι}
    (split : (deployment.run ext server db events).log =
      (front ++ removal :: middle) ++ read :: back)
    (removed : Removes deployment credentialId removal)
    (unput : ∀ entry ∈ middle, ¬ Puts deployment credentialId entry) :
    Identified (credentialRecordKey deployment.keyPrefix credentialId) .none read.before := by
  refine Pool.log_between stable_identified split ?_ fun entry member =>
    identity_kept (deployment.log_may (by rw [split]; simp [member])) (unput entry member) (.inr rfl)
  rw [Served.after, removed.2, serve_run removed.1]
  exact identified_absent exec_del

/-- Reading a record without an identity never succeeds. -/
theorem read_unidentified (server : Server) (mode : Delivery) {before : Db} {keyPrefix : Bytes}
    (identified : Identified (credentialRecordKey keyPrefix credentialId) .none before) :
    (mode = .served → recordOfReply credentialId ((machine server).serve mode before
      (.hgetall (credentialRecordKey keyPrefix credentialId))).2 = .error .declined) ∧
    ∀ cred, recordOfReply credentialId ((machine server).serve mode before
      (.hgetall (credentialRecordKey keyPrefix credentialId))).2 ≠ .ok cred := by
  have keyless : recordAt server keyPrefix credentialId before = .error .declined :=
    credentialGetPairs_keyless (congrArg Identity.publicKey identified.2)
  constructor
  · intro ran
    subst ran
    change recordOfReply credentialId (some (exec server before _).2) = _
    rw [recordOfReply, exec_hgetall_reply server identified.1]
    exact keyless
  · intro cred record
    rw [read_record rfl record identified.1] at keyless
    cases keyless

/-- The read of a run that ended in 200 brought the record it was accepted with. -/
theorem Deployment.minted_read {process : ι} {conf : LocConf} {request : VerifyRequest}
    {claims : SessionClaims} {jwt cookie body : Bytes}
    (job : deployment.jobs process = .verify conf request)
    (ended : (deployment.run ext server db events).programs process =
      .done (.verify (.minted claims jwt cookie body))) :
    ∃ origins parsed consumed read cred count,
      Accepted ext conf request origins parsed consumed read cred count ∧
      claims.sub = cred.userId ∧ claims.cid = parsed.id ∧
      (∃ entry ∈ (deployment.run ext server db events).log, entry.process = process ∧
        entry.command = .hgetall (credentialRecordKey deployment.keyPrefix parsed.id) ∧
        entry.reply = read) ∧
      ∀ entry ∈ (deployment.run ext server db events).log, entry.process = process →
        ∀ key, entry.command = .hgetall key →
          key = credentialRecordKey deployment.keyPrefix parsed.id ∧ entry.reply = read := by
  obtain ⟨origins, parsed, connected, consumed, read, written, cred, count, accepted, past, minted⟩ :=
    verifyDone_minted (deployment.minted_talks job ended)
  have shared := deployment.verify_shared job
  have exchanged : (Cmd.hgetall (credentialRecordKey conf.redisKeyPrefix parsed.id), read) ∈
      (deployment.run ext server db events).exchanges process := by
    rw [past]
    simp [acceptedExchanges]
  obtain ⟨entry, logged, own, command, reply⟩ := exchange_mem exchanged
  obtain ⟨drawn, _, rfl, _⟩ := mintSession_minted minted
  refine ⟨origins, parsed, consumed, read, cred, count, accepted, rfl, rfl,
    ⟨entry, logged, by simpa using own, by rw [command, shared], reply⟩, ?_⟩
  intro other member same key reads
  have exchanged := deployment.mem_exchanges member same
  rw [past, reads] at exchanged
  simpa [acceptedExchanges, counterUpdate, shared] using exchanged

/-- From the DEL of a revocation to the next registration of the credential, no
read of its record succeeds, and no login whose read falls in between ends in
200, whatever counter updates run meanwhile. -/
theorem revocation_final (ext : Externals) (server : Server) (deployment : Deployment ι) (db : Db)
    (events : List (RedisEvent ι)) (credentialId : Bytes)
    (front middle back : List (RedisServed ι)) (removal read : RedisServed ι)
    (split : (deployment.run ext server db events).log =
      (front ++ removal :: middle) ++ read :: back)
    (removed : Removes deployment credentialId removal)
    (unput : ∀ entry ∈ middle, ¬ Puts deployment credentialId entry)
    (reads : read.command = .hgetall (credentialRecordKey deployment.keyPrefix credentialId)) :
    (read.mode = .served → recordOfReply credentialId read.reply = .error .declined) ∧
    (∀ cred, recordOfReply credentialId read.reply ≠ .ok cred) ∧
    ∀ conf request, deployment.jobs read.process = .verify conf request →
      ∀ claims jwt cookie body, (deployment.run ext server db events).programs read.process ≠
        .done (.verify (.minted claims jwt cookie body)) := by
  have logged : read ∈ (deployment.run ext server db events).log := by
    rw [split]
    simp
  have answered : read.reply = ((machine server).serve read.mode read.before
      (.hgetall (credentialRecordKey deployment.keyPrefix credentialId))).2 := by
    rw [← reads]
    exact Pool.log_reply logged
  obtain ⟨declined, failed⟩ := read_unidentified server read.mode
    (revoked_identity split removed unput)
  rw [← answered] at declined failed
  refine ⟨declined, failed, ?_⟩
  intro conf request job claims jwt cookie body ended
  obtain ⟨origins, parsed, consumed, reply, cred, count, accepted, _, _, _, only⟩ :=
    deployment.minted_read job ended
  obtain ⟨same, replied⟩ := only read logged rfl _ reads
  rw [credentialRecordKey_inj] at same
  subst same
  exact failed cred (replied ▸ accepted.record)

/-- What an entry of the log did, without the state it was served in. -/
def outline {ι : Type} (served : RedisServed ι) : ι × Cmd × Delivery :=
  (served.process, served.command, served.mode)

theorem split_of_outline {ι : Type} {log : List (RedisServed ι)} {front middle back : List (ι × Cmd × Delivery)}
    {first last : ι × Cmd × Delivery} (outlined : log.map outline = (front ++ first :: middle) ++ last :: back) :
    ∃ early entry between later late, log = (early ++ entry :: between) ++ later :: late ∧
      outline entry = first ∧ between.map outline = middle ∧ outline later = last ∧
      late.map outline = back := by
  obtain ⟨_, _, rfl, outlinedEarly, outlinedLate⟩ := List.map_eq_append_iff.mp outlined
  obtain ⟨early, _, rfl, _, outlinedRest⟩ := List.map_eq_append_iff.mp outlinedEarly
  obtain ⟨entry, between, rfl, same, outlinedBetween⟩ := List.map_eq_cons_iff.mp outlinedRest
  obtain ⟨later, late, rfl, sameLater, outlinedEnd⟩ := List.map_eq_cons_iff.mp outlinedLate
  exact ⟨early, entry, between, later, late, rfl, same, outlinedBetween, sameLater, outlinedEnd⟩

/-- One login has read the record when it is revoked, and writes its counter
after the DEL; then the owner tries to log in again. -/
def Sample.lateLogin : List (RedisEvent Sample.Actor) :=
  Sample.served .register 3 ++ Sample.served (.turn (.ask .second)) 2 ++
    Sample.served (.turn (.answer .second)) 3 ++ Sample.served .revoke 3 ++
    Sample.served (.turn (.answer .second)) 1 ++ Sample.served .revoke 1 ++
    Sample.served (.turn (.ask .first)) 2 ++ Sample.served (.turn (.answer .first)) 3

/-- What the run did up to the removal of the record. -/
def Sample.beforeRemoval : List (Sample.Actor × Cmd × Delivery) :=
  [(.register, .connect, .served),
    (.register, .hset (credentialRecordKey defaultKeyPrefix (ascii "AQ"))
      (credentialPairs Sample.registration.cred), .served),
    (.register, .sadd (credentialIndexKey defaultKeyPrefix (ascii "alice")) (ascii "AQ"), .served),
    (.turn (.ask .second), .connect, .served),
    (.turn (.ask .second), .setEx (challengeKey defaultKeyPrefix (List.replicate 32 2)) (ascii "1") 60, .served),
    (.turn (.answer .second), .connect, .served),
    (.turn (.answer .second), .getdel (challengeKey defaultKeyPrefix (List.replicate 32 2)), .served),
    (.turn (.answer .second), .hgetall (credentialRecordKey defaultKeyPrefix (ascii "AQ")), .served),
    (.revoke, .connect, .served),
    (.revoke, .hgetall (credentialRecordKey defaultKeyPrefix (ascii "AQ")), .served)]

/-- What it did between the removal and the read of the login. -/
def Sample.afterRemoval : List (Sample.Actor × Cmd × Delivery) :=
  [(.turn (.answer .second), .hset (credentialRecordKey defaultKeyPrefix (ascii "AQ"))
      (counterPairs 6 1000), .served),
    (.revoke, .srem (credentialIndexKey defaultKeyPrefix (ascii "alice")) (ascii "AQ"), .served),
    (.turn (.ask .first), .connect, .served),
    (.turn (.ask .first), .setEx (challengeKey defaultKeyPrefix (List.replicate 32 1)) (ascii "1") 60, .served),
    (.turn (.answer .first), .connect, .served),
    (.turn (.answer .first), .getdel (challengeKey defaultKeyPrefix (List.replicate 32 1)), .served)]

theorem late_login_fails :
    ∃ front removal middle read, (Sample.whole.run Sample.ext .inOrder Db.empty Sample.lateLogin).log =
        (front ++ removal :: middle) ++ [read] ∧
      Removes Sample.whole (ascii "AQ") removal ∧
      (Sample.Actor.turn (.answer .second), Cmd.hset (credentialRecordKey defaultKeyPrefix (ascii "AQ"))
        (counterPairs 6 1000), Delivery.served) ∈ middle.map outline ∧
      read.process = .turn (.answer .first) ∧
      recordOfReply (ascii "AQ") read.reply = .error .declined ∧
      ∀ claims jwt cookie body,
        (Sample.whole.run Sample.ext .inOrder Db.empty Sample.lateLogin).programs
          (.turn (.answer .first)) ≠ .done (.verify (.minted claims jwt cookie body)) := by
  have outlined : (Sample.whole.run Sample.ext .inOrder Db.empty Sample.lateLogin).log.map outline =
      (Sample.beforeRemoval ++
        (Sample.Actor.revoke, Cmd.del (credentialRecordKey defaultKeyPrefix (ascii "AQ")), Delivery.served) ::
          Sample.afterRemoval) ++
      [(.turn (.answer .first), .hgetall (credentialRecordKey defaultKeyPrefix (ascii "AQ")), .served)] := by
    decide +kernel
  obtain ⟨front, removal, middle, read, last, split, removes, outlinedMiddle, reads, nothing⟩ :=
    split_of_outline outlined
  obtain rfl := List.map_eq_nil_iff.mp nothing
  have removed : Removes Sample.whole (ascii "AQ") removal :=
    ⟨congrArg (fun entry => entry.2.2.runs) removes, congrArg (fun entry => entry.2.1) removes⟩
  have unput : ∀ entry ∈ middle, ¬ Puts Sample.whole (ascii "AQ") entry := by
    intro entry member puts
    obtain ⟨_, cred, writes⟩ := puts
    have listed := List.mem_map_of_mem (f := outline) member
    rw [outlinedMiddle] at listed
    simp [Sample.afterRemoval, outline, writes, credentialPairs_ne_counterPairs] at listed
  obtain ⟨declined, _, unminted⟩ := revocation_final Sample.ext .inOrder Sample.whole Db.empty
    Sample.lateLogin (ascii "AQ") front middle [] removal read split removed unput
    (congrArg (fun entry => entry.2.1) reads)
  have process : read.process = .turn (.answer .first) := congrArg Prod.fst reads
  rw [process] at unminted
  have counted : (Sample.Actor.turn (.answer .second), Cmd.hset
      (credentialRecordKey defaultKeyPrefix (ascii "AQ")) (counterPairs 6 1000), Delivery.served) ∈
        middle.map outline := by
    rw [outlinedMiddle]
    exact List.mem_cons_self
  exact ⟨front, removal, middle, read, split, removed, counted, process,
    declined (congrArg (fun entry => entry.2.2) reads), unminted Sample.conf Sample.first.request rfl⟩

/-- After a registration and no later one or revocation, the record still has
its identity. -/
theorem put_identity {front middle back : List (RedisServed ι)} {put read : RedisServed ι}
    (split : (deployment.run ext server db events).log = (front ++ put :: middle) ++ read :: back)
    (initial : IsHash db (credentialRecordKey deployment.keyPrefix credentialId)) {cred : Credential}
    (runs : put.mode.runs = true)
    (command : put.command = .hset (credentialRecordKey deployment.keyPrefix credentialId)
      (credentialPairs cred))
    (quiet : ∀ entry ∈ middle, ¬ (Puts deployment credentialId entry ∨
      Removes deployment credentialId entry)) :
    Identified (credentialRecordKey deployment.keyPrefix credentialId) (.of cred) read.before := by
  have early : (deployment.run ext server db events).log =
      front ++ put :: (middle ++ read :: back) := by simpa using split
  have typed : IsHash put.before (credentialRecordKey deployment.keyPrefix credentialId) :=
    Pool.log_from_start (fun _ _ holds => holds) early initial fun entry member =>
      isHash_kept entry (deployment.log_may (by rw [split]; simp [member]))
  refine Pool.log_between stable_identified split ?_ fun entry member =>
    identity_kept (deployment.log_may (by rw [split]; simp [member]))
      (fun puts => quiet entry member (.inl puts))
      (.inl fun removes => quiet entry member (.inr removes))
  rw [Served.after, command, serve_run runs, (exec_hset server typed _).1]
  refine ⟨isHash_of_entry (Db.write_same ..), ?_⟩
  rw [fieldsAt, Db.write_same, fieldsOf_hashEntry, identityOf_credentialPairs]

/-- A record read under an identity has the user, key and algorithm of that
identity. -/
theorem read_identity {before : Db} {keyPrefix : Bytes} {cred registered : Credential}
    (identified : Identified (credentialRecordKey keyPrefix credentialId) (.of registered) before)
    (record : recordAt server keyPrefix credentialId before = .ok cred) :
    cred.userId = registered.userId ∧ cred.publicKey = registered.publicKey ∧
      cred.alg = registered.alg := by
  obtain ⟨read, _, _⟩ := credentialGetPairs_ok record
  have user := congrArg Identity.userId identified.2
  have key := congrArg Identity.publicKey identified.2
  have alg := congrArg Identity.alg identified.2
  simp only [identityOf, Identity.of] at user key alg
  refine ⟨?_, ?_, ?_⟩
  · simpa [user] using read.userId.symm
  · simpa [key] using read.publicKey.symm
  · have parsed := read.alg
    rw [alg, Option.elim_some, algOfText_ofInt] at parsed
    exact (Option.some.inj parsed).symm

/-- The run's signature was checked against the key of the registration. -/
def CheckedAgainst (ext : Externals) (request : VerifyRequest) (cred : Credential) : Prop :=
  ∃ parsed hash, parseVerifyBody ext request.body = some parsed ∧
    hashSha256 ext parsed.assertion.clientDataJson = some hash ∧
    SignatureChecked ext cred.publicKey cred.alg (parsed.assertion.authenticatorData ++ hash)
      parsed.assertion.signature

/-- A token's user and the key its login was checked against come from one
registration, the last one before the run read the record. -/
theorem login_agrees_with_registration (ext : Externals) (server : Server)
    (deployment : Deployment ι) (db : Db) (events : List (RedisEvent ι))
    (unregistered : ∀ id, db.entries (credentialRecordKey deployment.keyPrefix id) = none)
    (process : ι) (conf : LocConf) (request : VerifyRequest) (claims : SessionClaims)
    (jwt cookie body : Bytes) (job : deployment.jobs process = .verify conf request)
    (ended : (deployment.run ext server db events).programs process =
      .done (.verify (.minted claims jwt cookie body))) :
    ∃ front put middle read back host keyPrefix registration,
      (deployment.run ext server db events).log = (front ++ put :: middle) ++ read :: back ∧
      read.process = process ∧
      read.command = .hgetall (credentialRecordKey deployment.keyPrefix claims.cid) ∧
      deployment.jobs put.process = .register host keyPrefix registration ∧
      registration.cred.credentialId = claims.cid ∧ registration.cred.userId = claims.sub ∧
      put.command = .hset (credentialRecordKey deployment.keyPrefix claims.cid)
        (credentialPairs registration.cred) ∧ put.mode.runs = true ∧
      (∀ entry ∈ middle, ¬ Puts deployment claims.cid entry ∧ ¬ Removes deployment claims.cid entry) ∧
      CheckedAgainst ext request registration.cred := by
  obtain ⟨origins, parsed, consumed, reply, cred, count, accepted, sub, cid, ⟨read, logged, own,
    command, replied⟩, _⟩ := deployment.minted_read job ended
  obtain ⟨before, back, split⟩ := List.append_of_mem logged
  have initial : IsHash db (credentialRecordKey deployment.keyPrefix parsed.id) :=
    .inl (unregistered parsed.id)
  have typed : IsHash read.before (credentialRecordKey deployment.keyPrefix parsed.id) :=
    Pool.log_from_start (fun _ _ holds => holds) split initial fun entry member =>
      isHash_kept entry (deployment.log_may (by rw [split]; simp [member]))
  have record : recordAt server deployment.keyPrefix parsed.id read.before = .ok cred := by
    have answered := Pool.log_reply logged
    rw [replied, command] at answered
    exact read_record answered accepted.record typed
  have unidentified : ¬ Identified (credentialRecordKey deployment.keyPrefix parsed.id) .none
      read.before := by
    intro identified
    rw [recordAt, credentialGetPairs_keyless (congrArg Identity.publicKey identified.2)] at record
    cases record
  rcases exists_last_split (fun entry => Puts deployment parsed.id entry ∨
      Removes deployment parsed.id entry) before with
    untouched | ⟨front, last, middle, rfl, puts | removes, quiet⟩
  · refine absurd (Pool.log_from_start stable_identified split
      (identified_absent (unregistered parsed.id)) fun entry member => ?_) unidentified
    exact identity_kept (deployment.log_may (by rw [split]; simp [member]))
      (fun puts => untouched entry member (.inl puts)) (.inr rfl)
  · obtain ⟨host, keyPrefix, registration, registers, named, stored⟩ :=
      put_registration (deployment.log_may (by rw [split]; simp)) puts
    obtain ⟨user, key, alg⟩ :=
      read_identity (put_identity split initial puts.1 stored quiet) record
    obtain ⟨authdata, checked, _⟩ := assertionVerify_ok accepted.verified
    obtain ⟨hash, hashed, signature⟩ := checked.signature
    refine ⟨front, last, middle, read, back, host, keyPrefix, registration, split, own,
      by rw [command, cid], registers, named.trans cid.symm, (sub.trans user).symm,
      by rw [stored, cid], puts.1, ?_, parsed, hash, accepted.taken, hashed, ?_⟩
    · rw [cid]
      exact fun entry member => not_or.mp (quiet entry member)
    · rw [← key, ← alg]
      exact signature
  · exact absurd (revoked_identity split removes fun entry member puts =>
      quiet entry member (.inl puts)) unidentified

theorem first_login_agrees :
    ∃ put host keyPrefix registration,
      put ∈ (Sample.whole.run Sample.ext .inOrder Db.empty Sample.firstLogin).log ∧
      Sample.whole.jobs put.process = .register host keyPrefix registration ∧
      registration.cred.credentialId = ascii "AQ" ∧ registration.cred.userId = ascii "alice" ∧
      CheckedAgainst Sample.ext Sample.first.request registration.cred := by
  obtain ⟨front, put, middle, read, back, host, keyPrefix, registration, split, _, _, job, named, owned,
    _, _, _, checked⟩ := login_agrees_with_registration Sample.ext .inOrder Sample.whole Db.empty
      Sample.firstLogin (fun _ => rfl) (.turn (.answer .first)) Sample.conf Sample.first.request _ _ _ _ rfl
      Sample.firstLogin_minted
  exact ⟨put, host, keyPrefix, registration, by simp [split], job, named, owned, checked⟩

end AuthWebauthn
