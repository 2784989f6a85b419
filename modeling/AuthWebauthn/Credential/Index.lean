import AuthWebauthn.Credential.Store
import AuthWebauthn.Data.Catalog
import AuthWebauthn.Process.Always

namespace AuthWebauthn

open Process Redis

/-! `put` writes the record and lists it under its user; it does not look at the
record it replaces.  `delete` drops the listing under the user of the record it
reads.
-/

/-- Record keys hold hashes that name a user, index keys hold sets. -/
structure Shaped (keyPrefix : Bytes) (db : Db) : Prop where
  record : ∀ credentialId, IsHash db (credentialRecordKey keyPrefix credentialId)
  index : ∀ userId, IsSet db (credentialIndexKey keyPrefix userId)
  owned : ∀ credentialId, db.entries (credentialRecordKey keyPrefix credentialId) ≠ none →
    ∃ userId, userId ≠ [] ∧
      (fieldsAt db (credentialRecordKey keyPrefix credentialId)).lookup Field.userId = some userId

/-- Who owns each stored record, and what each user's index lists. -/
def catalog (keyPrefix : Bytes) (db : Db) : Catalog Bytes Bytes where
  owner credentialId :=
    (fieldsAt db (credentialRecordKey keyPrefix credentialId)).lookup Field.userId
  listed userId credentialId := credentialId ∈ membersAt db (credentialIndexKey keyPrefix userId)

inductive StoreOp where
  | put (cred : Credential)
  | updateCounter (credentialId : Bytes) (newCount : UInt32) (lastUsedAt : Int64)
  | delete (credentialId : Bytes)

namespace StoreOp

def program (keyPrefix : Bytes) : StoreOp → RedisProg Rc
  | .put cred => credentialPut keyPrefix cred
  | .updateCounter credentialId newCount lastUsedAt =>
      credentialUpdateCounter keyPrefix credentialId newCount lastUsedAt
  | .delete credentialId => credentialDelete keyPrefix credentialId

def run (server : Server) (keyPrefix : Bytes) (db : Db) (op : StoreOp) : Db :=
  (solo server (op.program keyPrefix) db).2

/-- Counters are only updated on records that exist. -/
def OnExisting (keyPrefix : Bytes) (db : Db) : StoreOp → Prop
  | .updateCounter credentialId _ _ => (db.get (credentialRecordKey keyPrefix credentialId)).isSome
  | _ => True

/-- A complete `put` finds no record, or one of the same user. -/
def KeepsOwner (keyPrefix : Bytes) (db : Db) : StoreOp → Prop
  | .put cred => cred.credentialId ≠ [] → cred.userId ≠ [] →
      ∀ owner, (catalog keyPrefix db).owner cred.credentialId = some owner → owner = cred.userId
  | _ => True

end StoreOp

variable {server : Server} {keyPrefix : Bytes} {db : Db}

theorem shaped_empty : Shaped keyPrefix Db.empty where
  record _ := .inl rfl
  index _ := rfl
  owned _ stored := absurd rfl stored

theorem catalog_empty_consistent : (catalog keyPrefix Db.empty).Consistent := by
  intro userId credentialId
  simp [catalog, membersAt, membersOf, fieldsAt, Db.empty]

theorem Shaped.writeRecord (shaped : Shaped keyPrefix db) (credentialId : Bytes)
    {record : Option Entry}
    (owned : record = none ∨ ∃ fields owner, record = hashEntry fields ∧
      fields.lookup Field.userId = some owner ∧ owner ≠ []) :
    Shaped keyPrefix (db.write (credentialRecordKey keyPrefix credentialId) record) where
  record other := by
    by_cases same : other = credentialId
    · subst same
      rcases owned with absent | ⟨fields, owner, found, _⟩
      · exact .inl (by rw [Db.write_same, absent])
      · exact isHash_of_entry ((Db.write_same ..).trans found)
    · exact (shaped.record other).congr (by simp [credentialRecordKey_inj, same])
  index other := (shaped.index other).congr (by simp)
  owned other stored := by
    by_cases same : other = credentialId
    · subst same
      rw [Db.write_same] at stored
      rcases owned with absent | ⟨fields, owner, found, named, nonempty⟩
      · exact absurd absent stored
      · exact ⟨owner, nonempty, by rw [fieldsAt, Db.write_same, found, fieldsOf_hashEntry, named]⟩
    · have unchanged := db.write_other record
        (mt credentialRecordKey_inj.mp same : credentialRecordKey keyPrefix other ≠ _)
      rw [unchanged] at stored
      rw [fieldsAt_congr unchanged]
      exact shaped.owned other stored

theorem Shaped.writeIndex (shaped : Shaped keyPrefix db) (userId : Bytes) (members : List Bytes) :
    Shaped keyPrefix (db.write (credentialIndexKey keyPrefix userId) (setEntry members)) where
  record other := (shaped.record other).congr (by simp)
  index other := by
    by_cases same : other = userId
    · subst same
      exact isSet_of_entry (Db.write_same ..)
    · exact (shaped.index other).congr (by simp [credentialIndexKey_inj, same])
  owned other stored := by
    have unchanged := db.write_other (setEntry members)
      (record_ne_index userId other (p := keyPrefix))
    rw [unchanged] at stored
    rw [fieldsAt_congr unchanged]
    exact shaped.owned other stored

theorem catalog_put {credentialId userId : Bytes} {fields : Hash}
    (owned : fields.lookup Field.userId = some userId) :
    catalog keyPrefix ((db.write (credentialRecordKey keyPrefix credentialId) (hashEntry fields)).write
      (credentialIndexKey keyPrefix userId)
      (setEntry ((membersAt db (credentialIndexKey keyPrefix userId)).insert credentialId))) =
    (catalog keyPrefix db).put credentialId userId := by
  apply Catalog.ext
  · intro other
    by_cases same : other = credentialId
    · subst same
      simp [catalog, Catalog.put, fieldsAt, owned]
    · simp [catalog, Catalog.put, fieldsAt, credentialRecordKey_inj, same]
  · intro other listing
    by_cases same : other = userId
    · subst same
      simp [catalog, Catalog.put, membersAt, or_comm]
    · simp [catalog, Catalog.put, membersAt, credentialIndexKey_inj, same]

theorem catalog_updateRecord {credentialId : Bytes} {fields : Hash}
    (kept : fields.lookup Field.userId = (catalog keyPrefix db).owner credentialId) :
    catalog keyPrefix (db.write (credentialRecordKey keyPrefix credentialId) (hashEntry fields)) =
      catalog keyPrefix db := by
  apply Catalog.ext
  · intro other
    by_cases same : other = credentialId
    · subst same
      simpa [catalog, fieldsAt] using kept
    · simp [catalog, fieldsAt, credentialRecordKey_inj, same]
  · intro other listing
    simp [catalog, membersAt]

theorem catalog_remove {credentialId userId : Bytes}
    (owned : (catalog keyPrefix db).owner credentialId = some userId) :
    catalog keyPrefix ((db.write (credentialRecordKey keyPrefix credentialId) none).write
      (credentialIndexKey keyPrefix userId)
      (setEntry ((membersAt db (credentialIndexKey keyPrefix userId)).filter (· ≠ credentialId)))) =
    (catalog keyPrefix db).remove credentialId := by
  apply Catalog.ext
  · intro other
    by_cases same : other = credentialId
    · subst same
      simp [catalog, Catalog.remove, fieldsAt]
    · simp [catalog, Catalog.remove, fieldsAt, credentialRecordKey_inj, same]
  · intro other listing
    rw [Catalog.remove, owned]
    by_cases same : other = userId
    · subst same
      simp [catalog, membersAt]
    · simp [catalog, membersAt, credentialIndexKey_inj, same, Ne.symm same]

theorem owner_of_read {credentialId : Bytes} {cred : Credential}
    (read : recordAt server keyPrefix credentialId db = .ok cred) :
    ((catalog keyPrefix db).owner credentialId).getD [] = cred.userId :=
  (credentialGetPairs_ok read).1.userId

theorem recordAt_absent {credentialId : Bytes}
    (absent : db.entries (credentialRecordKey keyPrefix credentialId) = none) :
    recordAt server keyPrefix credentialId db = .error .declined := by
  apply credentialGetPairs_keyless
  simp [fieldsAt, absent]

/-- In a shaped store a record that can be read has a user. -/
theorem Shaped.read_owner (shaped : Shaped keyPrefix db) {credentialId : Bytes} {cred : Credential}
    (read : recordAt server keyPrefix credentialId db = .ok cred) :
    (catalog keyPrefix db).owner credentialId = some cred.userId ∧ cred.userId ≠ [] := by
  have stored : db.entries (credentialRecordKey keyPrefix credentialId) ≠ none := by
    intro absent
    rw [recordAt_absent absent] at read
    cases read
  obtain ⟨userId, nonempty, owned⟩ := shaped.owned credentialId stored
  obtain rfl : userId = cred.userId := by simpa [catalog, owned] using owner_of_read read
  exact ⟨owned, nonempty⟩

theorem run_put (shaped : Shaped keyPrefix db) {cred : Credential} (named : cred.credentialId ≠ [])
    (owned : cred.userId ≠ []) :
    Shaped keyPrefix ((StoreOp.put cred).run server keyPrefix db) ∧
      catalog keyPrefix ((StoreOp.put cred).run server keyPrefix db) =
        (catalog keyPrefix db).put cred.credentialId cred.userId := by
  have owner : (Hash.setFields (fieldsAt db (credentialRecordKey keyPrefix cred.credentialId))
      (credentialPairs cred)).lookup Field.userId = some cred.userId :=
    lookup_credentialPairs (by simp [credentialPairs]) _
  rw [StoreOp.run, StoreOp.program, credentialPut_solo named owned
    (shaped.record cred.credentialId) (shaped.index cred.userId)]
  exact ⟨(shaped.writeRecord _ (.inr ⟨_, _, rfl, owner, owned⟩)).writeIndex _ _,
    catalog_put owner⟩

theorem run_put_refused {cred : Credential} (incomplete : cred.credentialId = [] ∨ cred.userId = []) :
    (StoreOp.put cred).run server keyPrefix db = db := by
  rw [StoreOp.run, StoreOp.program, credentialPut_refused incomplete]
  rfl

theorem run_updateCounter (shaped : Shaped keyPrefix db) {credentialId : Bytes} {newCount : UInt32}
    {lastUsedAt : Int64} (existing : (db.get (credentialRecordKey keyPrefix credentialId)).isSome) :
    Shaped keyPrefix
        ((StoreOp.updateCounter credentialId newCount lastUsedAt).run server keyPrefix db) ∧
      catalog keyPrefix
          ((StoreOp.updateCounter credentialId newCount lastUsedAt).run server keyPrefix db) =
        catalog keyPrefix db := by
  have stored : db.entries (credentialRecordKey keyPrefix credentialId) ≠ none :=
    fun absent => by simp [Db.get_of_absent absent] at existing
  have owner : (Hash.setFields (fieldsAt db (credentialRecordKey keyPrefix credentialId))
      (counterPairs newCount lastUsedAt)).lookup Field.userId =
      (catalog keyPrefix db).owner credentialId := lookup_counterPairs (by decide)
  obtain ⟨userId, nonempty, owned⟩ := shaped.owned credentialId stored
  rw [StoreOp.run, StoreOp.program, credentialUpdateCounter_solo (shaped.record credentialId)]
  exact ⟨shaped.writeRecord _ (.inr ⟨_, userId, rfl, owner.trans owned, nonempty⟩),
    catalog_updateRecord owner⟩

/-- `delete` either declines and leaves the store alone or removes the record
with its listing. -/
theorem run_delete (server : Server) (shaped : Shaped keyPrefix db) (credentialId : Bytes) :
    (solo server (credentialDelete keyPrefix credentialId) db = (.declined, db)) ∨
    (solo server (credentialDelete keyPrefix credentialId) db).1 = .ok ∧
      Shaped keyPrefix ((StoreOp.delete credentialId).run server keyPrefix db) ∧
      catalog keyPrefix ((StoreOp.delete credentialId).run server keyPrefix db) =
        (catalog keyPrefix db).remove credentialId := by
  cases read : recordAt server keyPrefix credentialId db with
  | error rc => exact .inl (credentialDelete_solo_unread (shaped.record credentialId) read)
  | ok cred =>
      obtain ⟨owned, nonempty⟩ := shaped.read_owner read
      have removed := credentialDelete_solo (shaped.record credentialId) read nonempty
        (shaped.index cred.userId)
      rw [StoreOp.run, StoreOp.program, removed]
      exact .inr ⟨rfl, (shaped.writeRecord _ (.inl rfl)).writeIndex _ _, catalog_remove owned⟩

theorem run_shaped (shaped : Shaped keyPrefix db) {op : StoreOp}
    (legal : op.OnExisting keyPrefix db) : Shaped keyPrefix (op.run server keyPrefix db) := by
  cases op with
  | put cred =>
      by_cases incomplete : cred.credentialId = [] ∨ cred.userId = []
      · rwa [run_put_refused incomplete]
      · obtain ⟨named, owned⟩ := not_or.mp incomplete
        exact (run_put shaped named owned).1
  | updateCounter credentialId newCount lastUsedAt => exact (run_updateCounter shaped legal).1
  | delete credentialId =>
      rcases run_delete server shaped credentialId with declined | ⟨_, kept, _⟩
      · rwa [StoreOp.run, StoreOp.program, declined]
      · exact kept

/-- From a consistent store only a `put` that changes a record's user leads to
an inconsistent one. -/
theorem run_consistent_iff (shaped : Shaped keyPrefix db) {op : StoreOp}
    (legal : op.OnExisting keyPrefix db) (consistent : (catalog keyPrefix db).Consistent) :
    (catalog keyPrefix (op.run server keyPrefix db)).Consistent ↔ op.KeepsOwner keyPrefix db := by
  cases op with
  | put cred =>
      by_cases incomplete : cred.credentialId = [] ∨ cred.userId = []
      · rw [run_put_refused incomplete]
        exact ⟨fun _ named owned => (incomplete.elim named owned).elim, fun _ => consistent⟩
      · obtain ⟨named, owned⟩ := not_or.mp incomplete
        rw [(run_put shaped named owned).2, consistent.put_iff]
        exact ⟨fun kept _ _ => kept, fun kept => kept named owned⟩
  | updateCounter credentialId newCount lastUsedAt =>
      rw [(run_updateCounter shaped legal).2]
      exact iff_of_true consistent trivial
  | delete credentialId =>
      refine iff_of_true ?_ trivial
      rcases run_delete server shaped credentialId with declined | ⟨_, _, removed⟩
      · rwa [StoreOp.run, StoreOp.program, declined]
      · rw [removed]
        exact consistent.remove

/-- Whenever `delete` succeeds along the run, no index mentions the credential
afterwards. -/
def DeletesUnlist (server : Server) (keyPrefix : Bytes) (db : Db) (ops : List StoreOp) : Prop :=
  ∀ front credentialId back, ops = front ++ .delete credentialId :: back →
    (solo server (credentialDelete keyPrefix credentialId)
      (front.foldl (StoreOp.run server keyPrefix) db)).1 = .ok →
    ∀ userId, ¬ (catalog keyPrefix ((StoreOp.delete credentialId).run server keyPrefix
      (front.foldl (StoreOp.run server keyPrefix) db))).listed userId credentialId

theorem index_consistent_iff_owner_kept (server : Server) (keyPrefix : Bytes) (ops : List StoreOp)
    (legal : Throughout (StoreOp.run server keyPrefix) (fun db op => op.OnExisting keyPrefix db)
      Db.empty ops) :
    (Always (StoreOp.run server keyPrefix) (fun db => (catalog keyPrefix db).Consistent)
        Db.empty ops ∧ DeletesUnlist server keyPrefix Db.empty ops) ↔
      Throughout (StoreOp.run server keyPrefix) (fun db op => op.KeepsOwner keyPrefix db)
        Db.empty ops := by
  have shaped : Always (StoreOp.run server keyPrefix) (Shaped keyPrefix) Db.empty ops :=
    always_of_legal shaped_empty (fun _ _ shaped legal => run_shaped shaped legal) legal
  have exact := always_iff_throughout _ shaped_empty catalog_empty_consistent
    (fun _ _ shaped legal => run_shaped shaped legal)
    (fun _ _ shaped legal consistent => run_consistent_iff shaped legal consistent) legal
  rw [← exact, and_iff_left_iff_imp]
  intro consistent front credentialId back split deleted userId
  subst split
  have before : (catalog keyPrefix (front.foldl (StoreOp.run server keyPrefix) Db.empty)).Consistent :=
    consistent front _ rfl
  rcases run_delete server (shaped front _ rfl) credentialId with
    declined | ⟨_, _, removed⟩
  · rw [declined] at deleted
    cases deleted
  · rw [removed]
    exact before.remove_unlisted userId

def registration (userId : Bytes) : StoreOp :=
  .put { Credential.zero (ascii "AQ") with userId, publicKey := [48], alg := -7 }

theorem index_consistent_after_revocation :
    Always (StoreOp.run .inOrder defaultKeyPrefix)
        (fun db => (catalog defaultKeyPrefix db).Consistent) Db.empty
        [registration (ascii "alice"), .updateCounter (ascii "AQ") 1 0, .delete (ascii "AQ"),
          registration (ascii "bob")] ∧
      DeletesUnlist .inOrder defaultKeyPrefix Db.empty
        [registration (ascii "alice"), .updateCounter (ascii "AQ") 1 0, .delete (ascii "AQ"),
          registration (ascii "bob")] := by
  rw [index_consistent_iff_owner_kept]
  · have vacant : (catalog defaultKeyPrefix ([registration (ascii "alice"),
        .updateCounter (ascii "AQ") 1 0, .delete (ascii "AQ")].foldl
        (StoreOp.run .inOrder defaultKeyPrefix) Db.empty)).owner (ascii "AQ") = none := by decide
    simp only [throughout_cons, throughout_nil, and_true]
    refine ⟨fun _ _ owner owned => ?_, trivial, trivial, fun _ _ owner owned => ?_⟩
    · cases owned
    · cases vacant.symm.trans owned
  · simp only [throughout_cons, throughout_nil, and_true]
    refine ⟨trivial, ?_, trivial, trivial⟩
    change (Db.get _ _).isSome = true
    decide

/-- The same credential id registered for one user and then for another. -/
def reRegistration : List StoreOp := [registration (ascii "alice"), registration (ascii "bob")]

/-- The former user's index keeps the credential, even after it is deleted. -/
theorem index_keeps_former_owner :
    Throughout (StoreOp.run .inOrder defaultKeyPrefix)
        (fun db op => op.OnExisting defaultKeyPrefix db) Db.empty reRegistration ∧
      ¬ (catalog defaultKeyPrefix (reRegistration.foldl
        (StoreOp.run .inOrder defaultKeyPrefix) Db.empty)).Consistent ∧
      (solo .inOrder (credentialDelete defaultKeyPrefix (ascii "AQ"))
        (reRegistration.foldl (StoreOp.run .inOrder defaultKeyPrefix) Db.empty)).1 = .ok ∧
      (catalog defaultKeyPrefix ((StoreOp.delete (ascii "AQ")).run .inOrder defaultKeyPrefix
        (reRegistration.foldl (StoreOp.run .inOrder defaultKeyPrefix) Db.empty))).listed
          (ascii "alice") (ascii "AQ") := by
  refine ⟨?_, ?_, by decide, ?_⟩
  · simp only [reRegistration, throughout_cons, throughout_nil, and_true]
    exact ⟨trivial, trivial⟩
  · intro consistent
    have listed : ascii "AQ" ∈ membersAt
        (reRegistration.foldl (StoreOp.run .inOrder defaultKeyPrefix) Db.empty)
        (credentialIndexKey defaultKeyPrefix (ascii "alice")) := by decide
    exact absurd ((consistent (ascii "alice") (ascii "AQ")).mp listed) (by decide)
  · change ascii "AQ" ∈ membersAt _ _
    decide

end AuthWebauthn
