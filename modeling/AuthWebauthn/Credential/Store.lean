import AuthWebauthn.Credential.Codec
import AuthWebauthn.Redis.Keys

namespace AuthWebauthn

open Process Redis

/-! The four operations as programs, and what each leaves behind when it runs alone
and every command is served.
-/

def credentialGet (keyPrefix credentialId : Bytes) : RedisProg (Except Rc Credential) := do
  match ← redisHgetall (credentialRecordKey keyPrefix credentialId) with
  | none => return .error .error
  | some pairs => return credentialGetPairs credentialId pairs

def credentialPut (keyPrefix : Bytes) (cred : Credential) : RedisProg Rc := do
  if cred.credentialId = [] ∨ cred.userId = [] then return .error
  if (← redisHset (credentialRecordKey keyPrefix cred.credentialId) (credentialPairs cred)) ≠ .ok then
    return .error
  if (← redisSadd (credentialIndexKey keyPrefix cred.userId) cred.credentialId) ≠ .ok then
    return .error
  return .ok

def credentialUpdateCounter (keyPrefix credentialId : Bytes) (newCount : UInt32)
    (lastUsedAt : Int64) : RedisProg Rc :=
  redisHset (credentialRecordKey keyPrefix credentialId) (counterPairs newCount lastUsedAt)

def credentialDelete (keyPrefix credentialId : Bytes) : RedisProg Rc := do
  match ← credentialGet keyPrefix credentialId with
  | .error rc => return rc
  | .ok cred =>
      if (← redisDel (credentialRecordKey keyPrefix credentialId)) ≠ .ok then return .error
      if cred.userId = [] then return .ok
      if (← redisSrem (credentialIndexKey keyPrefix cred.userId) credentialId) ≠ .ok then
        return .error
      return .ok

theorem credentialPairs_ne_nil (cred : Credential) : credentialPairs cred ≠ [] := by
  simp [credentialPairs]

theorem credentialPairs_names_nodup (cred : Credential) :
    ((credentialPairs cred).map Prod.fst).Nodup := by
  unfold credentialPairs
  split_ifs <;> simp +decide

theorem lookup_credentialPairs {cred : Credential} {name value : Bytes}
    (member : (name, value) ∈ credentialPairs cred) (fields : Hash) :
    (Hash.setFields fields (credentialPairs cred)).lookup name = some value :=
  Hash.lookup_setFields_of_mem (credentialPairs_names_nodup cred) member

theorem counterPairs_names_nodup (newCount : UInt32) (lastUsedAt : Int64) :
    ((counterPairs newCount lastUsedAt).map Prod.fst).Nodup := by
  simp +decide [counterPairs]

theorem lookup_counterPairs {fields : Hash} {newCount : UInt32} {lastUsedAt : Int64} {name : Bytes}
    (kept : name ≠ Field.signCount ∧ name ≠ Field.lastUsedAt) :
    (Hash.setFields fields (counterPairs newCount lastUsedAt)).lookup name = fields.lookup name := by
  apply Hash.lookup_setFields_absent
  simpa [counterPairs] using kept

theorem lookup_counted (fields : Hash) (newCount : UInt32) (lastUsedAt : Int64) :
    (Hash.setFields fields (counterPairs newCount lastUsedAt)).lookup Field.signCount =
        some (Decimal.digits newCount.toNat) ∧
      (Hash.setFields fields (counterPairs newCount lastUsedAt)).lookup Field.lastUsedAt =
        some (Decimal.ofInt lastUsedAt.toInt) :=
  ⟨Hash.lookup_setFields_of_mem (counterPairs_names_nodup newCount lastUsedAt) (by simp [counterPairs]),
    Hash.lookup_setFields_of_mem (counterPairs_names_nodup newCount lastUsedAt) (by simp [counterPairs])⟩

/-- A record is still one after a counter update, with the new counter. -/
theorem credentialGetPairs_counted {server : Server} {credentialId : Bytes} {fields : Hash}
    {cred : Credential} (newCount : UInt32) (lastUsedAt : Int64)
    (read : credentialGetPairs credentialId (server.fieldOrder (Hash.pairs fields)) = .ok cred) :
    ∃ counted, credentialGetPairs credentialId (server.fieldOrder (Hash.pairs
        (Hash.setFields fields (counterPairs newCount lastUsedAt)))) = .ok counted ∧
      counted.publicKey = cred.publicKey ∧ counted.alg = cred.alg ∧ counted.signCount = newCount := by
  obtain ⟨record, keyed, algSet⟩ := credentialGetPairs_ok read
  have sameKey : (Hash.setFields fields (counterPairs newCount lastUsedAt)).lookup Field.publicKey =
      fields.lookup Field.publicKey := lookup_counterPairs (by decide)
  have sameAlg : (Hash.setFields fields (counterPairs newCount lastUsedAt)).lookup Field.alg =
      fields.lookup Field.alg := lookup_counterPairs (by decide)
  have hasCount := (lookup_counted fields newCount lastUsedAt).1
  have key := record.publicKey
  have alg := record.alg
  cases hasKey : fields.lookup Field.publicKey with
  | none =>
      rw [hasKey] at key
      exact absurd key.symm keyed
  | some publicKey =>
      cases hasAlg : fields.lookup Field.alg with
      | none =>
          rw [hasAlg] at alg
          exact absurd (Option.some.inj alg).symm algSet
      | some text =>
          rw [hasKey] at sameKey key
          rw [hasAlg] at sameAlg alg
          obtain rfl : publicKey = cred.publicKey := key
          obtain ⟨counted, found, readBack⟩ := credentialGetPairs_complete server credentialId sameKey keyed
            sameAlg alg algSet hasCount (by rw [signCountOfText_digits]; rfl)
          have keyBack := readBack.publicKey
          have algBack := readBack.alg
          have countBack := readBack.signCount
          rw [sameKey] at keyBack
          rw [sameAlg, Option.elim_some, show algOfText text = some cred.alg from alg] at algBack
          rw [hasCount, Option.elim_some, signCountOfText_digits] at countBack
          exact ⟨counted, found, keyBack.symm, (Option.some.inj algBack).symm,
            (Option.some.inj countBack).symm⟩

section Commands

variable {keyPrefix credentialId : Bytes}

theorem credentialGet_eq : credentialGet keyPrefix credentialId =
    .call (.hgetall (credentialRecordKey keyPrefix credentialId)) fun reply =>
      .done (match hgetallReply reply with
        | none => .error .error
        | some pairs => credentialGetPairs credentialId pairs) := by
  simp only [credentialGet, redisHgetall, Prog.issue_bind, Prog.call_bind, Prog.done_bind,
    Prog.pure_eq]
  congr
  funext reply
  cases hgetallReply reply <;> rfl

theorem credentialPut_eq {cred : Credential} (named : cred.credentialId ≠ [])
    (owned : cred.userId ≠ []) : credentialPut keyPrefix cred =
    .call (.hset (credentialRecordKey keyPrefix cred.credentialId) (credentialPairs cred))
      fun stored => if rcOfReply stored ≠ .ok then .done .error else
        .call (.sadd (credentialIndexKey keyPrefix cred.userId) cred.credentialId) fun listed =>
          if rcOfReply listed ≠ .ok then .done .error else .done .ok := by
  have complete : ¬ (cred.credentialId = [] ∨ cred.userId = []) := not_or.mpr ⟨named, owned⟩
  simp only [credentialPut, if_neg complete, redisHset, if_neg (credentialPairs_ne_nil cred),
    redisSadd, redisSetOp, Prog.issue_bind, Prog.call_bind, Prog.done_bind, Prog.pure_eq]

theorem credentialUpdateCounter_eq {newCount : UInt32} {lastUsedAt : Int64} :
    credentialUpdateCounter keyPrefix credentialId newCount lastUsedAt =
      .call (.hset (credentialRecordKey keyPrefix credentialId) (counterPairs newCount lastUsedAt))
        fun stored => .done (rcOfReply stored) := rfl

/-- What `delete` does once it has read the record. -/
def deleteRecord (keyPrefix credentialId : Bytes) : Except Rc Credential → RedisProg Rc
  | .error rc => .done rc
  | .ok cred =>
      .call (.del (credentialRecordKey keyPrefix credentialId)) fun removed =>
        if rcOfReply removed ≠ .ok then .done .error
        else if cred.userId = [] then .done .ok
        else .call (.srem (credentialIndexKey keyPrefix cred.userId) credentialId) fun unlisted =>
          if rcOfReply unlisted ≠ .ok then .done .error else .done .ok

theorem credentialDelete_eq : credentialDelete keyPrefix credentialId =
    .call (.hgetall (credentialRecordKey keyPrefix credentialId)) fun reply =>
      deleteRecord keyPrefix credentialId (match hgetallReply reply with
        | none => .error .error
        | some pairs => credentialGetPairs credentialId pairs) := by
  unfold credentialDelete
  rw [credentialGet_eq]
  rfl

end Commands

section Solo

variable {server : Server} {db : Db} {keyPrefix credentialId : Bytes}

/-- Run one operation by itself, every command served. -/
def solo {α : Type} (server : Server) (program : RedisProg α) (db : Db) : α × Db :=
  program.exec (machine server) .served [] db

theorem solo_call {α : Type} (command : Cmd) (next : Option Reply → RedisProg α) :
    solo server (.call command next) db =
      solo server (next (some (exec server db command).2)) (exec server db command).1 := rfl

theorem rcOfReply_proper {reply : Reply} (proper : reply ≠ .error) :
    rcOfReply (some reply) = .ok := rcOfReply_ok_iff.mpr ⟨reply, rfl, proper⟩

theorem credentialPut_refused {cred : Credential}
    (incomplete : cred.credentialId = [] ∨ cred.userId = []) :
    credentialPut keyPrefix cred = .done .error := by
  simp [credentialPut, incomplete]

theorem credentialPut_solo {cred : Credential} (named : cred.credentialId ≠ [])
    (owned : cred.userId ≠ [])
    (record : IsHash db (credentialRecordKey keyPrefix cred.credentialId))
    (index : IsSet db (credentialIndexKey keyPrefix cred.userId)) :
    solo server (credentialPut keyPrefix cred) db =
      (.ok, (db.write (credentialRecordKey keyPrefix cred.credentialId)
          (hashEntry (Hash.setFields
            (fieldsAt db (credentialRecordKey keyPrefix cred.credentialId)) (credentialPairs cred)))).write
        (credentialIndexKey keyPrefix cred.userId)
        (setEntry ((membersAt db (credentialIndexKey keyPrefix cred.userId)).insert
          cred.credentialId))) := by
  obtain ⟨stored, answered⟩ := exec_hset server record (credentialPairs cred)
  have untouched := db.write_other (hashEntry (Hash.setFields
    (fieldsAt db (credentialRecordKey keyPrefix cred.credentialId)) (credentialPairs cred)))
    (index_ne_record cred.userId cred.credentialId (p := keyPrefix))
  obtain ⟨listed, confirmed⟩ := exec_sadd server (index.congr untouched)
    cred.credentialId
  rw [credentialPut_eq named owned, solo_call, stored, rcOfReply_proper answered]
  simp only [ne_eq, not_true_eq_false, if_false]
  rw [solo_call, listed, rcOfReply_proper confirmed, membersAt_congr untouched]
  rfl

theorem credentialUpdateCounter_solo {newCount : UInt32} {lastUsedAt : Int64}
    (record : IsHash db (credentialRecordKey keyPrefix credentialId)) :
    solo server (credentialUpdateCounter keyPrefix credentialId newCount lastUsedAt) db =
      (.ok, db.write (credentialRecordKey keyPrefix credentialId) (hashEntry (Hash.setFields
        (fieldsAt db (credentialRecordKey keyPrefix credentialId))
        (counterPairs newCount lastUsedAt)))) := by
  obtain ⟨stored, answered⟩ := exec_hset server record (counterPairs newCount lastUsedAt)
  rw [credentialUpdateCounter_eq, solo_call, stored, rcOfReply_proper answered]
  rfl

/-- The record that `get` reads when it runs alone. -/
def recordAt (server : Server) (keyPrefix credentialId : Bytes) (db : Db) : Except Rc Credential :=
  credentialGetPairs credentialId
    (server.fieldOrder (Hash.pairs (fieldsAt db (credentialRecordKey keyPrefix credentialId))))

theorem credentialDelete_solo_read (record : IsHash db (credentialRecordKey keyPrefix credentialId)) :
    solo server (credentialDelete keyPrefix credentialId) db =
      solo server (deleteRecord keyPrefix credentialId (recordAt server keyPrefix credentialId db))
        db := by
  rw [credentialDelete_eq, solo_call, exec_hgetall, exec_hgetall_reply server record]
  rfl

theorem credentialDelete_solo {cred : Credential}
    (record : IsHash db (credentialRecordKey keyPrefix credentialId))
    (read : recordAt server keyPrefix credentialId db = .ok cred) (owned : cred.userId ≠ [])
    (index : IsSet db (credentialIndexKey keyPrefix cred.userId)) :
    solo server (credentialDelete keyPrefix credentialId) db =
      (.ok, (db.write (credentialRecordKey keyPrefix credentialId) none).write
        (credentialIndexKey keyPrefix cred.userId)
        (setEntry ((membersAt db (credentialIndexKey keyPrefix cred.userId)).filter
          (· ≠ credentialId)))) := by
  have untouched := db.write_other none
    (index_ne_record cred.userId credentialId (p := keyPrefix))
  obtain ⟨unlisted, confirmed⟩ := exec_srem server (index.congr untouched) credentialId
  obtain ⟨removed, answered⟩ := exec_del_eq server db
    (credentialRecordKey keyPrefix credentialId)
  rw [credentialDelete_solo_read record, read, deleteRecord, solo_call, removed,
    rcOfReply_proper answered]
  simp only [ne_eq, not_true_eq_false, if_false, if_neg owned]
  rw [solo_call, unlisted, rcOfReply_proper confirmed, membersAt_congr untouched]
  rfl

theorem credentialDelete_solo_unread {rc : Rc}
    (record : IsHash db (credentialRecordKey keyPrefix credentialId))
    (unread : recordAt server keyPrefix credentialId db = .error rc) :
    solo server (credentialDelete keyPrefix credentialId) db = (.declined, db) := by
  rw [credentialDelete_solo_read record, unread, credentialGetPairs_error unread]
  rfl

end Solo

end AuthWebauthn
