import AuthWebauthn.Credential.Index

namespace AuthWebauthn

open Process Redis

/-! An operation is cut at one of its commands: that command is not run, or it is
run and its reply is lost.  The operation is then run again.
-/

variable {server : Server} {keyPrefix : Bytes} {db half : Db}

/-- Run a program whose first `served` commands go through and whose next
command meets `fault`. -/
def interrupted {α : Type} (server : Server) (program : RedisProg α) (served : Nat)
    (fault : Delivery) (db : Db) : α × Db :=
  program.exec (machine server) .served (List.replicate served .served ++ [fault]) db

theorem interrupted_first {α : Type} (command : Cmd) (next : Option Reply → RedisProg α)
    (fault : Delivery) :
    interrupted server (.call command next) 0 fault db =
      solo server (next ((machine server).serve fault db command).2)
        ((machine server).serve fault db command).1 := rfl

theorem interrupted_later {α : Type} (command : Cmd) (next : Option Reply → RedisProg α)
    (served : Nat) (fault : Delivery) :
    interrupted server (.call command next) (served + 1) fault db =
      interrupted server (next (some (exec server db command).2)) served fault
        (exec server db command).1 := rfl

theorem faulty_reply {fault : Delivery} {command : Cmd} (faulty : fault ≠ .served) :
    rcOfReply ((machine server).serve fault db command).2 ≠ .ok := by
  intro passed
  obtain ⟨answer, answered, proper⟩ := rcOfReply_ok_iff.mp passed
  exact faulty (serve_reply answered proper).1

theorem faulty_hgetall {fault : Delivery} {key : Bytes} (faulty : fault ≠ .served) :
    hgetallReply ((machine server).serve fault db (.hgetall key)).2 = none := by
  cases fault with
  | served => exact absurd rfl faulty
  | _ => rfl

/-- The store between the two commands of `put`. -/
def midPut (keyPrefix : Bytes) (cred : Credential) (db : Db) : Db :=
  db.write (credentialRecordKey keyPrefix cred.credentialId) (hashEntry (Hash.setFields
    (fieldsAt db (credentialRecordKey keyPrefix cred.credentialId)) (credentialPairs cred)))

def afterPut (keyPrefix : Bytes) (cred : Credential) (db : Db) : Db :=
  (midPut keyPrefix cred db).write (credentialIndexKey keyPrefix cred.userId)
    (setEntry ((membersAt db (credentialIndexKey keyPrefix cred.userId)).insert cred.credentialId))

theorem afterPut_midPut (cred : Credential) :
    afterPut keyPrefix cred (midPut keyPrefix cred db) = afterPut keyPrefix cred db := by
  simp only [afterPut, midPut, fieldsAt, membersAt, Db.write_same, fieldsOf_hashEntry,
    Hash.setFields_idem (credentialPairs_names_nodup cred), Db.write_write,
    Db.write_other _ _ (index_ne_record cred.userId cred.credentialId)]

theorem afterPut_afterPut (cred : Credential) :
    afterPut keyPrefix cred (afterPut keyPrefix cred db) = afterPut keyPrefix cred db := by
  have apart := index_ne_record cred.userId cred.credentialId (p := keyPrefix)
  simp only [afterPut, midPut, fieldsAt, membersAt, Db.write_same, fieldsOf_hashEntry,
    membersOf_setEntry, Db.write_other _ _ apart.symm, List.insert_of_mem List.mem_insert_self,
    Hash.setFields_idem (credentialPairs_names_nodup cred), Db.write_comm _ apart, Db.write_write]

/-- A cut `put` leaves the store as it was, half written or fully written. -/
theorem interrupted_put {cred : Credential} (shaped : Shaped keyPrefix db)
    (named : cred.credentialId ≠ []) (owned : cred.userId ≠ []) {served : Nat} {fault : Delivery}
    (faulty : fault ≠ .served)
    (cut : interrupted server (credentialPut keyPrefix cred) served fault db = (.error, half)) :
    half = db ∨ half = midPut keyPrefix cred db ∨ half = afterPut keyPrefix cred db := by
  obtain ⟨stored, answered⟩ := exec_hset server (shaped.record cred.credentialId) (credentialPairs cred)
  rw [← midPut] at stored
  have index : IsSet (midPut keyPrefix cred db) (credentialIndexKey keyPrefix cred.userId) :=
    (shaped.index cred.userId).congr (by simp [midPut])
  obtain ⟨listed, confirmed⟩ := exec_sadd server index cred.credentialId
  have complete : (exec server (midPut keyPrefix cred db)
      (.sadd (credentialIndexKey keyPrefix cred.userId) cred.credentialId)).1 =
      afterPut keyPrefix cred db := by
    rw [listed, afterPut, membersAt, membersAt, midPut, Db.write_other _ _ (index_ne_record _ _)]
  rw [credentialPut_eq named owned] at cut
  rcases served with _ | _ | served
  · rw [interrupted_first, if_pos (faulty_reply faulty)] at cut
    cases runs : fault.runs with
    | false => exact .inl (by rw [serve_not_run runs] at cut; exact (Prod.mk.inj cut).2.symm)
    | true =>
        rw [serve_run runs, stored] at cut
        exact .inr (.inl (Prod.mk.inj cut).2.symm)
  · rw [interrupted_later, rcOfReply_proper answered, if_neg (by simp), stored,
      interrupted_first, if_pos (faulty_reply faulty)] at cut
    cases runs : fault.runs with
    | false =>
        rw [serve_not_run runs] at cut
        exact .inr (.inl (Prod.mk.inj cut).2.symm)
    | true =>
        rw [serve_run runs] at cut
        exact .inr (.inr ((Prod.mk.inj cut).2.symm.trans complete))
  · rw [interrupted_later, rcOfReply_proper answered, if_neg (by simp), stored,
      interrupted_later, rcOfReply_proper confirmed] at cut
    cases cut

theorem Shaped.midPut (shaped : Shaped keyPrefix db) {cred : Credential} (owned : cred.userId ≠ []) :
    Shaped keyPrefix (midPut keyPrefix cred db) :=
  shaped.writeRecord _ (.inr ⟨_, _, rfl, lookup_credentialPairs
    (by simp [credentialPairs]) _, owned⟩)

theorem Shaped.afterPut (shaped : Shaped keyPrefix db) {cred : Credential} (owned : cred.userId ≠ []) :
    Shaped keyPrefix (afterPut keyPrefix cred db) := (shaped.midPut owned).writeIndex _ _

theorem solo_put {cred : Credential} (shaped : Shaped keyPrefix db)
    (named : cred.credentialId ≠ []) (owned : cred.userId ≠ []) :
    solo server (credentialPut keyPrefix cred) db = (.ok, afterPut keyPrefix cred db) :=
  credentialPut_solo named owned (shaped.record _) (shaped.index _)

theorem put_recovers {cred : Credential} (shaped : Shaped keyPrefix db) {served : Nat}
    {fault : Delivery} (faulty : fault ≠ .served)
    (cut : interrupted server (credentialPut keyPrefix cred) served fault db = (.error, half)) :
    solo server (credentialPut keyPrefix cred) half = solo server (credentialPut keyPrefix cred) db := by
  by_cases incomplete : cred.credentialId = [] ∨ cred.userId = []
  · rw [credentialPut_refused incomplete] at cut ⊢
    rw [← (Prod.mk.inj cut).2]
  · obtain ⟨named, owned⟩ := not_or.mp incomplete
    rw [solo_put shaped named owned]
    rcases interrupted_put shaped named owned faulty cut with rfl | rfl | rfl
    · exact solo_put shaped named owned
    · rw [solo_put (shaped.midPut owned) named owned, afterPut_midPut]
    · rw [solo_put (shaped.afterPut owned) named owned, afterPut_afterPut]

/-- The store between DEL and SREM. -/
def midDelete (keyPrefix credentialId : Bytes) (db : Db) : Db :=
  db.write (credentialRecordKey keyPrefix credentialId) none

def afterDelete (keyPrefix credentialId userId : Bytes) (db : Db) : Db :=
  (midDelete keyPrefix credentialId db).write (credentialIndexKey keyPrefix userId)
    (setEntry ((membersAt db (credentialIndexKey keyPrefix userId)).filter (· ≠ credentialId)))

/-- The cut falls after DEL took effect and before SREM did.  DEL is the second
and SREM the third command of `delete`. -/
def CutBetween (served : Nat) (fault : Delivery) : Prop :=
  served = 1 ∧ fault.runs = true ∨ served = 2 ∧ fault.runs = false

instance (served : Nat) (fault : Delivery) : Decidable (CutBetween served fault) :=
  inferInstanceAs (Decidable (_ ∨ _))

variable {credentialId : Bytes}

theorem Shaped.midDelete (shaped : Shaped keyPrefix db) (credentialId : Bytes) :
    Shaped keyPrefix (midDelete keyPrefix credentialId db) := shaped.writeRecord _ (.inl rfl)

theorem Shaped.afterDelete (shaped : Shaped keyPrefix db) (credentialId userId : Bytes) :
    Shaped keyPrefix (afterDelete keyPrefix credentialId userId db) :=
  (shaped.midDelete credentialId).writeIndex _ _

theorem solo_delete_absent (shaped : Shaped keyPrefix db)
    (absent : db.entries (credentialRecordKey keyPrefix credentialId) = none) :
    solo server (credentialDelete keyPrefix credentialId) db = (.declined, db) :=
  credentialDelete_solo_unread (shaped.record credentialId) (recordAt_absent absent)

theorem interrupted_deleteRecord {cred : Credential} (shaped : Shaped keyPrefix db)
    (owned : cred.userId ≠ []) {served : Nat} {fault : Delivery} (faulty : fault ≠ .served)
    (cut : interrupted server (deleteRecord keyPrefix credentialId (.ok cred)) served fault db =
      (.error, half)) :
    half = db ∧ ¬ CutBetween (served + 1) fault ∨
    half = midDelete keyPrefix credentialId db ∧ CutBetween (served + 1) fault ∨
    half = afterDelete keyPrefix credentialId cred.userId db ∧ ¬ CutBetween (served + 1) fault := by
  obtain ⟨removed, answered⟩ := exec_del_eq server db (credentialRecordKey keyPrefix credentialId)
  rw [← midDelete] at removed
  obtain ⟨unlisted, confirmed⟩ :=
    exec_srem server ((shaped.midDelete credentialId).index cred.userId) credentialId
  have complete : (exec server (midDelete keyPrefix credentialId db)
      (.srem (credentialIndexKey keyPrefix cred.userId) credentialId)).1 =
      afterDelete keyPrefix credentialId cred.userId db := by
    rw [unlisted, afterDelete, membersAt, membersAt, midDelete,
      Db.write_other _ _ (index_ne_record _ _)]
  rw [deleteRecord] at cut
  rcases served with _ | _ | served
  · rw [interrupted_first, if_pos (faulty_reply faulty)] at cut
    cases runs : fault.runs with
    | false =>
        rw [serve_not_run runs] at cut
        exact .inl ⟨(Prod.mk.inj cut).2.symm, by simp [CutBetween, runs]⟩
    | true =>
        rw [serve_run runs, removed] at cut
        exact .inr (.inl ⟨(Prod.mk.inj cut).2.symm, by simp [CutBetween, runs]⟩)
  · rw [interrupted_later, rcOfReply_proper answered, if_neg (by simp), if_neg owned, removed,
      interrupted_first, if_pos (faulty_reply faulty)] at cut
    cases runs : fault.runs with
    | false =>
        rw [serve_not_run runs] at cut
        exact .inr (.inl ⟨(Prod.mk.inj cut).2.symm, by simp [CutBetween, runs]⟩)
    | true =>
        rw [serve_run runs] at cut
        exact .inr (.inr ⟨(Prod.mk.inj cut).2.symm.trans complete, by simp [CutBetween, runs]⟩)
  · rw [interrupted_later, rcOfReply_proper answered, if_neg (by simp), if_neg owned, removed,
      interrupted_later, rcOfReply_proper confirmed] at cut
    cases cut

theorem interrupted_delete (shaped : Shaped keyPrefix db) {served : Nat} {fault : Delivery}
    (faulty : fault ≠ .served)
    (cut : interrupted server (credentialDelete keyPrefix credentialId) served fault db =
      (.error, half)) :
    half = db ∧ ¬ CutBetween served fault ∨
    ∃ cred, recordAt server keyPrefix credentialId db = .ok cred ∧
      (half = midDelete keyPrefix credentialId db ∧ CutBetween served fault ∨
        half = afterDelete keyPrefix credentialId cred.userId db ∧ ¬ CutBetween served fault) := by
  rw [credentialDelete_eq] at cut
  rcases served with _ | served
  · rw [interrupted_first, faulty_hgetall faulty] at cut
    refine .inl ⟨?_, by simp [CutBetween]⟩
    cases fault with
    | served => exact absurd rfl faulty
    | refused | dropped => exact (Prod.mk.inj cut).2.symm
    | replyLost =>
        rw [serve_run rfl, exec_hgetall] at cut
        exact (Prod.mk.inj cut).2.symm
  · rw [interrupted_later, exec_hgetall, exec_hgetall_reply server (shaped.record credentialId)] at cut
    change interrupted server (deleteRecord keyPrefix credentialId
      (recordAt server keyPrefix credentialId db)) served fault db = _ at cut
    cases read : recordAt server keyPrefix credentialId db with
    | error rc =>
        rw [read, credentialGetPairs_error read] at cut
        cases cut
    | ok cred =>
        rw [read] at cut
        rcases interrupted_deleteRecord shaped (shaped.read_owner read).2 faulty cut with
          unchanged | partway | complete
        · exact .inl unchanged
        · exact .inr ⟨cred, rfl, .inl partway⟩
        · exact .inr ⟨cred, rfl, .inr complete⟩

/-- Running a cut operation again gives what one uninterrupted run gives, except
for a `delete` cut between its two writes: the record is gone then, so the
second run declines, and the listing stays. -/
theorem interrupted_operation_recovers (server : Server) (keyPrefix : Bytes) (db : Db)
    (shaped : Shaped keyPrefix db) (consistent : (catalog keyPrefix db).Consistent)
    (served : Nat) (fault : Delivery) (faulty : fault ≠ .served) :
    (∀ cred half, interrupted server (credentialPut keyPrefix cred) served fault db = (.error, half) →
      (solo server (credentialPut keyPrefix cred) half).2 =
        (solo server (credentialPut keyPrefix cred) db).2) ∧
    (∀ credentialId half,
      interrupted server (credentialDelete keyPrefix credentialId) served fault db = (.error, half) →
      ((solo server (credentialDelete keyPrefix credentialId) half).2 =
          (solo server (credentialDelete keyPrefix credentialId) db).2 ↔
        ¬ CutBetween served fault) ∧
      (CutBetween served fault →
        solo server (credentialDelete keyPrefix credentialId) half = (.declined, half) ∧
        half.get (credentialRecordKey keyPrefix credentialId) = none ∧
        ∃ userId, (catalog keyPrefix half).listed userId credentialId ∧
          ¬ (catalog keyPrefix
            (solo server (credentialDelete keyPrefix credentialId) db).2).listed userId credentialId)) := by
  refine ⟨fun cred half cut => by rw [put_recovers shaped faulty cut], ?_⟩
  intro credentialId half cut
  rcases interrupted_delete shaped faulty cut with
    ⟨rfl, outside⟩ | ⟨cred, read, ⟨rfl, between⟩ | ⟨rfl, outside⟩⟩
  · exact ⟨iff_of_true rfl outside, fun between => absurd between outside⟩
  · obtain ⟨owned, nonempty⟩ := shaped.read_owner read
    have absent : (midDelete keyPrefix credentialId db).entries
        (credentialRecordKey keyPrefix credentialId) = none := Db.write_same ..
    have again : solo server (credentialDelete keyPrefix credentialId)
        (midDelete keyPrefix credentialId db) = (.declined, midDelete keyPrefix credentialId db) :=
      solo_delete_absent (shaped.midDelete credentialId) absent
    have full : solo server (credentialDelete keyPrefix credentialId) db =
        (.ok, afterDelete keyPrefix credentialId cred.userId db) :=
      credentialDelete_solo (shaped.record _) read nonempty (shaped.index _)
    have listed : (catalog keyPrefix (midDelete keyPrefix credentialId db)).listed cred.userId
        credentialId := by
      have before := (consistent cred.userId credentialId).mpr owned
      simpa [catalog, membersAt, midDelete] using before
    have unlisted : ¬ (catalog keyPrefix
        (afterDelete keyPrefix credentialId cred.userId db)).listed cred.userId credentialId := by
      simp [catalog, membersAt, afterDelete]
    refine ⟨iff_of_false ?_ (not_not_intro between), fun _ =>
      ⟨again, Db.get_of_absent absent, cred.userId, listed, by rwa [full]⟩⟩
    rw [again, full]
    intro same
    have equal : midDelete keyPrefix credentialId db =
        afterDelete keyPrefix credentialId cred.userId db := same
    exact unlisted (equal ▸ listed)
  · obtain ⟨owned, nonempty⟩ := shaped.read_owner read
    have absent : (afterDelete keyPrefix credentialId cred.userId db).entries
        (credentialRecordKey keyPrefix credentialId) = none := by
      simp [afterDelete, midDelete]
    refine ⟨iff_of_true ?_ outside, fun between => absurd between outside⟩
    rw [solo_delete_absent (shaped.afterDelete _ _) absent,
      credentialDelete_solo (shaped.record _) read nonempty (shaped.index _)]
    rfl

/-- A store with one credential of one user. -/
def oneCredential : Db := (registration (ascii "alice")).run .inOrder defaultKeyPrefix Db.empty

theorem oneCredential_shaped : Shaped defaultKeyPrefix oneCredential :=
  run_shaped shaped_empty trivial

theorem oneCredential_consistent : (catalog defaultKeyPrefix oneCredential).Consistent := by
  have legal : (registration (ascii "alice")).OnExisting defaultKeyPrefix Db.empty := trivial
  rw [oneCredential, run_consistent_iff shaped_empty legal catalog_empty_consistent]
  intro _ _ owner owned
  cases owned

theorem interrupted_before_write_recovers :
    (solo .inOrder (credentialDelete defaultKeyPrefix (ascii "AQ"))
      (interrupted .inOrder (credentialDelete defaultKeyPrefix (ascii "AQ")) 1 .dropped
        oneCredential).2).2 =
    (solo .inOrder (credentialDelete defaultKeyPrefix (ascii "AQ")) oneCredential).2 := by
  have failed : (interrupted .inOrder (credentialDelete defaultKeyPrefix (ascii "AQ")) 1 .dropped
      oneCredential).1 = .error := by decide
  exact (((interrupted_operation_recovers .inOrder defaultKeyPrefix oneCredential
    oneCredential_shaped oneCredential_consistent 1 .dropped (by decide)).2 (ascii "AQ") _
    (Prod.ext failed rfl)).1).mpr (by decide)

/-- DEL runs, its reply is lost, and the second `delete` declines: the user's
index keeps the credential. -/
theorem delete_cut_after_del_keeps_listing :
    Shaped defaultKeyPrefix oneCredential ∧ (catalog defaultKeyPrefix oneCredential).Consistent ∧
      (interrupted .inOrder (credentialDelete defaultKeyPrefix (ascii "AQ")) 1 .replyLost
        oneCredential).1 = .error ∧
      (solo .inOrder (credentialDelete defaultKeyPrefix (ascii "AQ"))
        (interrupted .inOrder (credentialDelete defaultKeyPrefix (ascii "AQ")) 1 .replyLost
          oneCredential).2).1 = .declined ∧
      (catalog defaultKeyPrefix (solo .inOrder (credentialDelete defaultKeyPrefix (ascii "AQ"))
        (interrupted .inOrder (credentialDelete defaultKeyPrefix (ascii "AQ")) 1 .replyLost
          oneCredential).2).2).listed (ascii "alice") (ascii "AQ") ∧
      ¬ (catalog defaultKeyPrefix (solo .inOrder (credentialDelete defaultKeyPrefix (ascii "AQ"))
        oneCredential).2).listed (ascii "alice") (ascii "AQ") := by
  refine ⟨oneCredential_shaped, oneCredential_consistent, by decide, by decide, ?_, ?_⟩
  · change ascii "AQ" ∈ membersAt _ _
    decide
  · change ascii "AQ" ∉ membersAt _ _
    decide

end AuthWebauthn
