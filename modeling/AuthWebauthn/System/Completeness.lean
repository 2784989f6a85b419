import AuthWebauthn.Process.Always
import AuthWebauthn.System.Agreement

namespace AuthWebauthn

open Process Redis

/-! A registration writes a complete record and a counter update writes two fields.
A counter update that runs after the record was revoked leaves a hash with these
two fields alone, which no `delete` removes again.
-/

/-- The fields of a registered record, as far as `get` insists on them. -/
structure Complete (fields : Hash) : Prop where
  user : ∃ userId, userId ≠ [] ∧ fields.lookup Field.userId = some userId
  key : ∃ publicKey, publicKey ≠ [] ∧ fields.lookup Field.publicKey = some publicKey
  alg : ∃ alg : Int32, alg ≠ 0 ∧ fields.lookup Field.alg = some (Decimal.ofInt alg.toInt)
  count : ∃ count : UInt32, fields.lookup Field.signCount = some (Decimal.digits count.toNat)

/-- A hash that counter updates alone have made. -/
def CounterOnly (fields : Hash) : Prop := identityOf fields = .none

theorem complete_put (registration : Registration) (owned : registration.cred.userId ≠ [])
    (fields : Hash) : Complete (Hash.setFields fields (credentialPairs registration.cred)) where
  user := ⟨_, owned, lookup_credentialPairs (by simp [credentialPairs]) fields⟩
  key := ⟨_, registration.keyed, lookup_credentialPairs (by simp [credentialPairs]) fields⟩
  alg := by
    refine ⟨registration.cred.alg, ?_, lookup_credentialPairs (by simp [credentialPairs]) fields⟩
    rcases registration.supported with alg | alg | alg <;> rw [alg] <;> decide
  count := ⟨registration.cred.signCount, lookup_credentialPairs (by simp [credentialPairs]) fields⟩

theorem Complete.count_updated {fields : Hash} (complete : Complete fields) (count : UInt32)
    (lastUsedAt : Int64) : Complete (Hash.setFields fields (counterPairs count lastUsedAt)) where
  user := by
    rw [lookup_counterPairs (by decide)]
    exact complete.user
  key := by
    rw [lookup_counterPairs (by decide)]
    exact complete.key
  alg := by
    rw [lookup_counterPairs (by decide)]
    exact complete.alg
  count := ⟨count, (lookup_counted fields count lastUsedAt).1⟩

theorem CounterOnly.incomplete {fields : Hash} (counterOnly : CounterOnly fields) :
    ¬ Complete fields := by
  intro complete
  obtain ⟨userId, _, stored⟩ := complete.user
  have absent := congrArg Identity.userId counterOnly
  simp only [identityOf, stored] at absent
  cases absent

theorem Complete.read {fields : Hash} (complete : Complete fields) (server : Server)
    (credentialId : Bytes) :
    ∃ cred, credentialGetPairs credentialId (server.fieldOrder (Hash.pairs fields)) = .ok cred ∧
      cred.userId ≠ [] := by
  obtain ⟨userId, named, user⟩ := complete.user
  obtain ⟨publicKey, keyed, key⟩ := complete.key
  obtain ⟨alg, supported, written⟩ := complete.alg
  obtain ⟨count, counted⟩ := complete.count
  obtain ⟨cred, read, from_⟩ := credentialGetPairs_complete server credentialId
    key keyed written (algOfText_ofInt alg) supported counted
    (by rw [signCountOfText_digits]; rfl)
  refine ⟨cred, read, ?_⟩
  have same := from_.userId
  rw [user, Option.getD_some] at same
  rwa [← same]

/-- Record keys hold complete records or the leavings of counter updates, index
keys hold sets. -/
structure StoreTyped (keyPrefix : Bytes) (db : Db) : Prop where
  record : ∀ credentialId,
    db.entries (credentialRecordKey keyPrefix credentialId) = none ∨
    ∃ fields, db.entries (credentialRecordKey keyPrefix credentialId) = hashEntry fields ∧
      (Complete fields ∨ CounterOnly fields)
  index : ∀ userId, IsSet db (credentialIndexKey keyPrefix userId)

/-- All records are complete. -/
def AllComplete (keyPrefix : Bytes) (db : Db) : Prop :=
  ∀ credentialId fields,
    db.entries (credentialRecordKey keyPrefix credentialId) = hashEntry fields → Complete fields

variable {ι : Type} {ext : Externals} {server : Server} {deployment : Deployment ι} {db : Db}
  {keyPrefix : Bytes}

theorem storeTyped_empty : StoreTyped keyPrefix Db.empty := ⟨fun _ => .inl rfl, fun _ => rfl⟩

theorem StoreTyped.isHash (typed : StoreTyped keyPrefix db) (credentialId : Bytes) :
    IsHash db (credentialRecordKey keyPrefix credentialId) := by
  rcases typed.record credentialId with absent | ⟨fields, found, _⟩
  · exact .inl absent
  · exact isHash_of_entry found

/-- A counter update leaves a complete record complete and anything else
incomplete. -/
theorem counted_fields (typed : StoreTyped keyPrefix db) (credentialId : Bytes) (count : UInt32)
    (lastUsedAt : Int64) :
    (db.entries (credentialRecordKey keyPrefix credentialId) = none ∧ CounterOnly (Hash.setFields
      (fieldsAt db (credentialRecordKey keyPrefix credentialId)) (counterPairs count lastUsedAt))) ∨
    ∃ fields, db.entries (credentialRecordKey keyPrefix credentialId) = hashEntry fields ∧
      fieldsAt db (credentialRecordKey keyPrefix credentialId) = fields ∧
      (Complete fields ∧ Complete (Hash.setFields fields (counterPairs count lastUsedAt)) ∨
        CounterOnly fields ∧ CounterOnly (Hash.setFields fields (counterPairs count lastUsedAt))) := by
  rcases typed.record credentialId with absent | ⟨fields, found, complete | counterOnly⟩
  · refine .inl ⟨absent, ?_⟩
    rw [CounterOnly, identityOf_counterPairs, fieldsAt, absent]
    rfl
  · exact .inr ⟨fields, found, by rw [fieldsAt, found, fieldsOf_hashEntry],
      .inl ⟨complete, complete.count_updated count lastUsedAt⟩⟩
  · refine .inr ⟨fields, found, by rw [fieldsAt, found, fieldsOf_hashEntry], .inr ⟨counterOnly, ?_⟩⟩
    rw [CounterOnly, identityOf_counterPairs]
    exact counterOnly

/-- A command on a record key writes a complete record, removes it, or updates
the counter. -/
theorem typed_record (server : Server) {process : ι} {command : Cmd}
    (typed : StoreTyped deployment.keyPrefix db)
    (may : (deployment.jobs process).May command) (credentialId : Bytes) :
    (exec server db command).1.entries (credentialRecordKey deployment.keyPrefix credentialId) =
        db.entries (credentialRecordKey deployment.keyPrefix credentialId) ∨
    (exec server db command).1.entries (credentialRecordKey deployment.keyPrefix credentialId) = none ∨
    (∃ fields, (exec server db command).1.entries
        (credentialRecordKey deployment.keyPrefix credentialId) = hashEntry fields ∧ Complete fields) ∨
    ∃ count lastUsedAt, command = .hset (credentialRecordKey deployment.keyPrefix credentialId)
        (counterPairs count lastUsedAt) ∧
      (exec server db command).1.entries (credentialRecordKey deployment.keyPrefix credentialId) =
        hashEntry (Hash.setFields (fieldsAt db (credentialRecordKey deployment.keyPrefix credentialId))
          (counterPairs count lastUsedAt)) := by
  by_cases touches : command.key = some (credentialRecordKey deployment.keyPrefix credentialId)
  · cases deployment.record_command may touches with
    | read => exact .inl (by rw [exec_hgetall])
    | remove host keyPrefix job => exact .inr (.inl exec_del)
    | put host keyPrefix registration job named owned =>
        refine .inr (.inr (.inl ⟨_, ?_, complete_put registration owned
          (fieldsAt db (credentialRecordKey deployment.keyPrefix credentialId))⟩))
        rw [(exec_hset server (typed.isHash credentialId) _).1, Db.write_same]
    | count conf request count job =>
        refine .inr (.inr (.inr ⟨count, request.now, rfl, ?_⟩))
        rw [(exec_hset server (typed.isHash credentialId) _).1, Db.write_same]
  · exact .inl (exec_other touches)

theorem typed_kept {process : ι} {command : Cmd} (typed : StoreTyped deployment.keyPrefix db)
    (may : (deployment.jobs process).May command) :
    StoreTyped deployment.keyPrefix (exec server db command).1 where
  record credentialId := by
    rcases typed_record server typed may credentialId with
      same | absent | ⟨fields, found, complete⟩ | ⟨count, lastUsedAt, rfl, counted⟩
    · rw [same]
      exact typed.record credentialId
    · exact .inl absent
    · exact .inr ⟨fields, found, .inl complete⟩
    · refine .inr ⟨_, counted, ?_⟩
      rcases counted_fields typed credentialId count lastUsedAt with
        ⟨_, counterOnly⟩ | ⟨fields, _, rfl, ⟨_, complete⟩ | ⟨_, counterOnly⟩⟩
      · exact .inr counterOnly
      · exact .inl complete
      · exact .inr counterOnly
  index userId := by
    by_cases touches : command.key = some (credentialIndexKey deployment.keyPrefix userId)
    · cases deployment.index_command may touches with
      | list credentialId =>
          rw [(exec_sadd server (typed.index userId) credentialId).1]
          exact isSet_of_entry (Db.write_same ..)
      | unlist credentialId =>
          rw [(exec_srem server (typed.index userId) credentialId).1]
          exact isSet_of_entry (Db.write_same ..)
      | read =>
          rw [exec_smembers]
          exact typed.index userId
    · exact (typed.index userId).congr (exec_other touches)

/-- Completeness is lost exactly by a counter update of an absent record. -/
theorem allComplete_exec (server : Server) {process : ι} {command : Cmd} (typed : StoreTyped deployment.keyPrefix db)
    (may : (deployment.jobs process).May command) (complete : AllComplete deployment.keyPrefix db) :
    AllComplete deployment.keyPrefix (exec server db command).1 ↔
      ∀ credentialId count lastUsedAt,
        command = .hset (credentialRecordKey deployment.keyPrefix credentialId)
          (counterPairs count lastUsedAt) →
        (db.get (credentialRecordKey deployment.keyPrefix credentialId)).isSome := by
  constructor
  · intro after credentialId count lastUsedAt writes
    subst writes
    have stored := after credentialId _ (by
      rw [(exec_hset server (typed.isHash credentialId) _).1, Db.write_same])
    rcases counted_fields typed credentialId count lastUsedAt with
      ⟨_, counterOnly⟩ | ⟨fields, found, _, _⟩
    · exact absurd stored counterOnly.incomplete
    · rw [Db.get_of_persistent found]
      rfl
  · intro existing credentialId fields found
    rcases typed_record server typed may credentialId with
      same | absent | ⟨written, stored, whole⟩ | ⟨count, lastUsedAt, rfl, counted⟩
    · exact complete credentialId fields (same.symm.trans found)
    · rw [absent] at found
      cases found
    · rw [stored] at found
      cases found
      exact whole
    · rw [counted] at found
      cases found
      rcases counted_fields typed credentialId count lastUsedAt with
        ⟨absent, _⟩ | ⟨fields, stored, rfl, ⟨_, after⟩ | ⟨counterOnly, _⟩⟩
      · have present := existing credentialId count lastUsedAt rfl
        rw [Db.get_of_absent absent] at present
        cases present
      · exact after
      · exact absurd (complete credentialId _ stored) counterOnly.incomplete

/-- An existing record is complete, and `delete` removes it. -/
structure Revocable (server : Server) (keyPrefix credentialId : Bytes) (db : Db) : Prop where
  complete : ∀ entry, db.get (credentialRecordKey keyPrefix credentialId) = some entry →
    ∃ fields userId publicKey alg, entry.value = .hash fields ∧
      fields.lookup Field.userId = some userId ∧ userId ≠ [] ∧
      fields.lookup Field.publicKey = some publicKey ∧ publicKey ≠ [] ∧
      fields.lookup Field.alg = some alg
  removed : (db.get (credentialRecordKey keyPrefix credentialId)).isSome →
    (solo server (credentialDelete keyPrefix credentialId) db).1 = .ok ∧
    (solo server (credentialDelete keyPrefix credentialId) db).2.get
      (credentialRecordKey keyPrefix credentialId) = none
  declined : (solo server (credentialDelete keyPrefix credentialId) db).1 = .declined →
    db.get (credentialRecordKey keyPrefix credentialId) = none

theorem Complete.revocable {fields : Hash} {credentialId : Bytes} (typed : StoreTyped keyPrefix db)
    (found : db.entries (credentialRecordKey keyPrefix credentialId) = hashEntry fields)
    (complete : Complete fields) : Revocable server keyPrefix credentialId db := by
  obtain ⟨userId, named, user⟩ := complete.user
  obtain ⟨publicKey, keyed, key⟩ := complete.key
  obtain ⟨alg, _, written⟩ := complete.alg
  obtain ⟨cred, read, owned⟩ := complete.read server credentialId
  have record : recordAt server keyPrefix credentialId db = .ok cred := by
    rw [recordAt, fieldsAt, found, fieldsOf_hashEntry]
    exact read
  have deleted := credentialDelete_solo (typed.isHash credentialId) record owned
    (typed.index cred.userId)
  rw [hashEntry] at found
  refine ⟨?_, fun _ => ⟨by rw [deleted], ?_⟩, fun declined => ?_⟩
  · intro entry stored
    rw [Db.get_of_persistent found, Option.some.injEq] at stored
    subst stored
    exact ⟨fields, userId, publicKey, _, rfl, user, named, key, keyed, written⟩
  · rw [deleted]
    exact Db.get_of_absent (by simp)
  · rw [deleted] at declined
    cases declined

theorem revocable_absent {credentialId : Bytes}
    (absent : db.entries (credentialRecordKey keyPrefix credentialId) = none) :
    Revocable server keyPrefix credentialId db := by
  have none := Db.get_of_absent absent
  refine ⟨fun entry stored => ?_, fun present => ?_, fun _ => none⟩
  · rw [none] at stored
    cases stored
  · rw [none] at present
    cases present

theorem revocable_iff_complete (server : Server) (typed : StoreTyped keyPrefix db) :
    (∀ credentialId, Revocable server keyPrefix credentialId db) ↔ AllComplete keyPrefix db := by
  constructor
  · intro revocable credentialId fields found
    rcases typed.record credentialId with absent | ⟨stored, same, complete | counterOnly⟩
    · rw [absent] at found
      cases found
    · rw [same] at found
      cases found
      exact complete
    · rw [hashEntry] at same
      obtain ⟨held, userId, _, _, value, user, _⟩ :=
        (revocable credentialId).complete _ (Db.get_of_persistent same)
      cases value
      have absent := congrArg Identity.userId counterOnly
      simp only [identityOf, user] at absent
      cases absent
  · intro complete credentialId
    rcases typed.record credentialId with absent | ⟨fields, found, _⟩
    · exact revocable_absent absent
    · exact (complete credentialId fields found).revocable typed found

section Runs

variable [DecidableEq ι]

/-- The event's counter update, if it is one, finds a record. -/
def CountsExisting (deployment : Deployment ι) (pool : RedisPool ι) : RedisEvent ι → Prop
  | .environment _ => True
  | .step process _ => ∀ credentialId count lastUsedAt next,
      pool.programs process = .call (.hset (credentialRecordKey deployment.keyPrefix credentialId)
        (counterPairs count lastUsedAt)) next →
      (pool.state.get (credentialRecordKey deployment.keyPrefix credentialId)).isSome

/-- What every state of a run has, whatever is stored. -/
structure PoolTyped (deployment : Deployment ι) (pool : RedisPool ι) : Prop where
  issues : ∀ process, (pool.programs process).Issues (deployment.jobs process).May
  store : StoreTyped deployment.keyPrefix pool.state

theorem poolTyped_step {pool : RedisPool ι} (typed : PoolTyped deployment pool)
    {event : RedisEvent ι} (served : ServedEvent event) :
    PoolTyped deployment (pool.step (machine server) event) := by
  refine ⟨Pool.step_issues typed.issues event, ?_⟩
  rcases Pool.step_cases (machine server) pool event with
    same | ⟨change, rfl, stepped⟩ | ⟨process, mode, command, next, rfl, pending, stepped⟩
  · rw [same]
    exact typed.store
  · rw [stepped]
    exact ⟨typed.store.record, typed.store.index⟩
  · obtain rfl : mode = .served := served
    have may := typed.issues process
    rw [pending] at may
    rw [stepped]
    exact typed_kept typed.store may.1

theorem complete_step_iff {pool : RedisPool ι} (typed : PoolTyped deployment pool)
    {event : RedisEvent ι} (served : ServedEvent event)
    (complete : AllComplete deployment.keyPrefix pool.state) :
    AllComplete deployment.keyPrefix (pool.step (machine server) event).state ↔
      CountsExisting deployment pool event := by
  cases event with
  | environment change => exact iff_of_true complete trivial
  | step process mode =>
      obtain rfl : mode = .served := served
      cases pending : pool.programs process with
      | done value =>
          simp only [Pool.step, pending]
          exact iff_of_true complete fun _ _ _ _ calls => by rw [pending] at calls; cases calls
      | call command next =>
          have may := typed.issues process
          rw [pending] at may
          simp only [Pool.step, pending]
          refine (allComplete_exec server typed.store may.1 complete).trans ?_
          constructor
          · intro existing credentialId count lastUsedAt later calls
            rw [pending] at calls
            exact existing credentialId count lastUsedAt (Prog.call.inj calls).1
          · intro existing credentialId count lastUsedAt writes
            subst writes
            exact existing credentialId count lastUsedAt next pending

/-- Starting from an empty store and with every command served, all records are
complete and revocable at all times exactly if no counter update runs on a
record that is gone. -/
theorem records_complete_iff_counts_existing (ext : Externals) (server : Server)
    (deployment : Deployment ι) (events : List (RedisEvent ι))
    (served : ∀ event ∈ events, ServedEvent event) :
    Always (Pool.step (machine server))
        (fun pool : RedisPool ι => ∀ credentialId,
          Revocable server deployment.keyPrefix credentialId pool.state)
        (Pool.start Db.empty (deployment.programs ext)) events ↔
      Throughout (Pool.step (machine server)) (CountsExisting deployment)
        (Pool.start Db.empty (deployment.programs ext)) events := by
  have typed : PoolTyped deployment (Pool.start Db.empty (deployment.programs ext)) :=
    ⟨fun process => Job.issues _, storeTyped_empty⟩
  refine always_iff_throughout (fun _ event => ServedEvent event) typed ?_
    (fun pool event typed served => poolTyped_step typed served)
    (fun pool event typed served revocable => ?_) ?_
  · exact fun credentialId => revocable_absent rfl
  · have complete := (revocable_iff_complete server typed.store).mp revocable
    rw [revocable_iff_complete server (poolTyped_step typed served).store]
    exact complete_step_iff typed served complete
  · intro front event back split
    subst split
    exact served event (by simp)

end Runs

theorem first_login_complete_iff :
    (Sample.whole.run Sample.ext .inOrder Db.empty Sample.firstLogin).programs (.turn (.answer .first)) =
        .done (.verify (.minted Sample.claims Sample.jwt (sessionCookie Sample.conf Sample.jwt)
          (successBody Sample.claims))) ∧
      (Always (Pool.step (machine .inOrder))
          (fun pool : RedisPool Sample.Actor => ∀ credentialId,
            Revocable .inOrder defaultKeyPrefix credentialId pool.state)
          (Pool.start Db.empty (Sample.whole.programs Sample.ext)) Sample.firstLogin ↔
        Throughout (Pool.step (machine .inOrder)) (CountsExisting Sample.whole)
          (Pool.start Db.empty (Sample.whole.programs Sample.ext)) Sample.firstLogin) := by
  refine ⟨Sample.firstLogin_minted, records_complete_iff_counts_existing Sample.ext .inOrder
    Sample.whole Sample.firstLogin fun event member => ?_⟩
  simp only [Sample.firstLogin, List.mem_append] at member
  rcases member with (registers | asks) | answers
  · exact Sample.served_events _ _ event registers
  · exact Sample.served_events _ _ event asks
  · exact Sample.served_events _ _ event answers

/-- A login has read its record when the credential is revoked, and updates the
counter afterwards. -/
def Sample.overtakenLogin : List (RedisEvent Sample.Actor) :=
  Sample.served .register 3 ++ Sample.served (.turn (.ask .first)) 2 ++
    Sample.served (.turn (.answer .first)) 3 ++ Sample.served .revoke 4 ++
    Sample.served (.turn (.answer .first)) 1

/-- The hash that the counter update leaves has no user, and `delete` declines
it. -/
theorem overtaken_login_leaves_partial_record :
    (∀ event ∈ Sample.overtakenLogin, ServedEvent event) ∧
      (solo .inOrder (credentialDelete defaultKeyPrefix (ascii "AQ"))
        (Sample.whole.run Sample.ext .inOrder Db.empty Sample.overtakenLogin).state).1 = .declined ∧
      ¬ ∀ credentialId, Revocable .inOrder defaultKeyPrefix credentialId
        (Sample.whole.run Sample.ext .inOrder Db.empty Sample.overtakenLogin).state := by
  have exists_ : ((Sample.whole.run Sample.ext .inOrder Db.empty Sample.overtakenLogin).state.get
      (credentialRecordKey defaultKeyPrefix (ascii "AQ"))).isSome = true := by decide +kernel
  have declined : (solo .inOrder (credentialDelete defaultKeyPrefix (ascii "AQ"))
      (Sample.whole.run Sample.ext .inOrder Db.empty Sample.overtakenLogin).state).1 = .declined := by
    decide +kernel
  refine ⟨fun event member => ?_, declined, fun revocable => ?_⟩
  · simp only [Sample.overtakenLogin, List.mem_append] at member
    rcases member with (((registers | asks) | reads) | revokes) | writes
    · exact Sample.served_events _ _ event registers
    · exact Sample.served_events _ _ event asks
    · exact Sample.served_events _ _ event reads
    · exact Sample.served_events _ _ event revokes
    · exact Sample.served_events _ _ event writes
  · rw [(revocable (ascii "AQ")).declined declined] at exists_
    cases exists_

end AuthWebauthn
