import AuthWebauthn.Admin.Commands
import AuthWebauthn.Credential.Index
import AuthWebauthn.Register.KeyAgreement

namespace AuthWebauthn

open Process Redis

/-! A ledger says which credential is registered under each id.  Commands that are run one after the
other, with logins between them, answer as the ledger does.
-/

abbrev Ledger := Bytes → Option Credential

namespace Ledger

def empty : Ledger := fun _ => none

def read (ledger : Ledger) (credentialId : Bytes) : Except Rc Credential :=
  match ledger credentialId with
  | none => .error .declined
  | some cred => .ok cred

/-- A record that is registered again without transports keeps those it had. -/
def replacement (cred : Credential) (old : Option Credential) : Credential :=
  { cred with transports := if cred.transports = [] then (old.elim [] (·.transports)) else cred.transports }

def register (ledger : Ledger) (cred : Credential) : Ledger :=
  Function.update ledger cred.credentialId (some (replacement cred (ledger cred.credentialId)))

def revoke (ledger : Ledger) (credentialId : Bytes) : Ledger := Function.update ledger credentialId none

def count (ledger : Ledger) (credentialId : Bytes) (newCount : UInt32) (lastUsedAt : Int64) : Ledger :=
  Function.update ledger credentialId
    ((ledger credentialId).map fun cred => { cred with signCount := newCount, lastUsedAt := lastUsedAt })

end Ledger

/-- One use of the store: a command line that was read, or the counter update of a login. -/
inductive AdminRequest where
  | registers (files : FileReads) (now : Int64) (args : AdminArgs) (reads : Nat)
  | revokes (credentialId : Bytes)
  | lists (userId : Bytes)
  | shows (credentialId : Bytes)
  | counts (credentialId : Bytes) (newCount : UInt32) (lastUsedAt : Int64)

section Session

variable (ext : AdminExternals) (server : Server) (ctx : AdminCtx)

namespace AdminRequest

/-- What the request prints, if it is a command, and the store behind it. -/
def run (db : Db) : AdminRequest → Option AdminOutput × Db
  | registers files now args reads =>
      (solo server (adminCmdRegister ext files now ctx args reads) db).map some id
  | revokes credentialId => (solo server (adminCmdRevoke ctx credentialId) db).map some id
  | lists userId => (solo server (adminCmdList ctx userId) db).map some id
  | shows credentialId => (solo server (adminCmdShow ctx credentialId) db).map some id
  | counts credentialId newCount lastUsedAt =>
      (none, (solo server (credentialUpdateCounter ctx.keyPrefix credentialId newCount lastUsedAt) db).2)

/-- The record that a registration stores. -/
def stores (request : AdminRequest) : Option Credential :=
  match request with
  | registers files now args reads =>
      (registerRecord ext (files reads) (registerArgs ctx args) now).toOption.filter fun cred => cred.userId ≠ []
  | _ => none

def next (ledger : Ledger) (request : AdminRequest) : Ledger :=
  match request with
  | registers _ _ _ _ => ((request.stores ext ctx).map ledger.register).getD ledger
  | revokes credentialId => ledger.revoke credentialId
  | lists _ | shows _ => ledger
  | counts credentialId newCount lastUsedAt => ledger.count credentialId newCount lastUsedAt

/-- What the request should print. -/
def Answers (ledger : Ledger) (request : AdminRequest) (output : Option AdminOutput) : Prop :=
  match request with
  | registers files now args reads =>
      match registerRecord ext (files reads) (registerArgs ctx args) now with
      | .error failure => output = some ⟨[], failure.message, failure.code⟩
      | .ok cred =>
          if cred.userId = [] then output = some (adminFailed (ascii "error: failed to store credential in Redis\n"))
          else output = some (adminPrinted (registeredLine cred))
  | revokes credentialId =>
      match ledger credentialId with
      | none => output = some (adminFailed (ascii "error: no such credential\n"))
      | some _ => output = some (adminPrinted (revokedLine credentialId))
  | lists userId =>
      ∃ members : List Bytes, members.Nodup ∧
        (∀ credentialId, credentialId ∈ members ↔
          ∃ cred, ledger credentialId = some cred ∧ cred.userId = userId) ∧
        output = some (adminPrinted (listHeader ++
          members.flatMap fun member => listLine member (ledger.read member)))
  | shows credentialId =>
      match ledger credentialId with
      | none => output = some (adminFailed (ascii "error: no such credential\n"))
      | some cred => output = some (adminPrinted (showReport credentialId cred))
  | counts _ _ _ => output = none

/-- A registration finds no record of another user. -/
def Legal (ledger : Ledger) (request : AdminRequest) : Prop :=
  ∀ cred, request.stores ext ctx = some cred →
    ∀ old, ledger cred.credentialId = some old → old.userId = cred.userId

end AdminRequest

end Session

variable {ext : AdminExternals} {server : Server} {ctx : AdminCtx} {keyPrefix : Bytes} {db : Db}
  {ledger : Ledger} {cred : Credential} {credentialId : Bytes}

/-- The hash of a record that can be read as `cred`. -/
structure HoldsRecord (fields : Hash) (credentialId : Bytes) (cred : Credential) : Prop where
  named : cred.credentialId = credentialId
  owned : cred.userId ≠ []
  keyed : cred.publicKey ≠ []
  algSet : cred.alg ≠ 0
  hasAaguid : cred.hasAaguid = true
  stored : ∀ pair ∈ credentialPairs cred, fields.lookup pair.1 = some pair.2
  transports : (fields.lookup Field.transports).getD [] = cred.transports

/-- Record keys hold hashes, index keys sets. -/
structure Kinds (keyPrefix : Bytes) (db : Db) : Prop where
  record : ∀ credentialId, IsHash db (credentialRecordKey keyPrefix credentialId)
  index : ∀ userId, IsSet db (credentialIndexKey keyPrefix userId)

/-- No registration has left its fields here; a counter update may have. -/
structure Recordless (fields : Hash) : Prop where
  user : fields.lookup Field.userId = none
  key : fields.lookup Field.publicKey = none
  transports : fields.lookup Field.transports = none

structure HoldsLedger (keyPrefix : Bytes) (db : Db) (ledger : Ledger) : Prop where
  kinds : Kinds keyPrefix db
  listed : (catalog keyPrefix db).Consistent
  once : ∀ userId, (membersAt db (credentialIndexKey keyPrefix userId)).Nodup
  absent : ∀ credentialId, ledger credentialId = none →
    Recordless (fieldsAt db (credentialRecordKey keyPrefix credentialId))
  present : ∀ credentialId cred, ledger credentialId = some cred →
    HoldsRecord (fieldsAt db (credentialRecordKey keyPrefix credentialId)) credentialId cred

theorem Kinds.writeRecord (kinds : Kinds keyPrefix db) (credentialId : Bytes) {record : Option Entry}
    (kind : record = none ∨ ∃ fields, record = hashEntry fields) :
    Kinds keyPrefix (db.write (credentialRecordKey keyPrefix credentialId) record) where
  record other := by
    by_cases same : other = credentialId
    · subst same
      rcases kind with absent | ⟨fields, found⟩
      · exact .inl (by rw [Db.write_same, absent])
      · exact isHash_of_entry ((Db.write_same ..).trans found)
    · exact (kinds.record other).congr (by simp [credentialRecordKey_inj, same])
  index other := (kinds.index other).congr (by simp)

theorem Kinds.writeIndex (kinds : Kinds keyPrefix db) (userId : Bytes) (members : List Bytes) :
    Kinds keyPrefix (db.write (credentialIndexKey keyPrefix userId) (setEntry members)) where
  record other := (kinds.record other).congr (by simp)
  index other := by
    by_cases same : other = userId
    · subst same
      exact isSet_of_entry (Db.write_same ..)
    · exact (kinds.index other).congr (by simp [credentialIndexKey_inj, same])

theorem recordless_empty : Recordless ∅ := ⟨rfl, rfl, rfl⟩

theorem Recordless.count {fields : Hash} (recordless : Recordless fields) (newCount : UInt32)
    (lastUsedAt : Int64) : Recordless (Hash.setFields fields (counterPairs newCount lastUsedAt)) where
  user := by
    rw [lookup_counterPairs (by decide)]
    exact recordless.user
  key := by
    rw [lookup_counterPairs (by decide)]
    exact recordless.key
  transports := by
    rw [lookup_counterPairs (by decide)]
    exact recordless.transports

theorem HoldsRecord.read {fields : Hash} (holds : HoldsRecord fields credentialId cred) :
    credentialGetPairs credentialId (server.fieldOrder (Hash.pairs fields)) = .ok cred := by
  obtain ⟨got, read, same⟩ := credentialGetPairs_stored credentialId holds.keyed holds.algSet holds.stored
    (listsSchema_fieldOrder server fields)
  rw [read]
  have aaguid : fields.lookup Field.aaguid = some cred.aaguid.toList :=
    holds.stored (Field.aaguid, cred.aaguid.toList) (by simp [credentialPairs, holds.hasAaguid])
  have bytes := same.aaguid
  rw [aaguid] at bytes
  have wide : (some cred.aaguid.toList).filter (fun value => value.length = 16) = some cred.aaguid.toList := by
    simp [Option.filter]
  rw [wide] at bytes
  unfold Credential.aaguidBytes at bytes
  split_ifs at bytes with has
  have vectors : got.aaguid = cred.aaguid := Vector.toList_inj.mp (Option.some.inj bytes)
  have transports := same.transports.trans holds.transports
  have ids := same.credentialId.trans holds.named.symm
  have flags := has.trans holds.hasAaguid.symm
  obtain ⟨_, userId, publicKey, alg, signCount, createdAt, lastUsedAt, _, _⟩ := same
  obtain ⟨_, _, _, _, _, _, _, _, _, _⟩ := got
  obtain ⟨_, _, _, _, _, _, _, _, _, _⟩ := cred
  simp_all

section Solo

variable {α β : Type}

theorem solo_bind (program : RedisProg α) (rest : α → RedisProg β) (db : Db) :
    solo server (program >>= rest) db =
      solo server (rest (solo server program db).1) (solo server program db).2 := by
  induction program generalizing db with
  | done value => rfl
  | call command next ih =>
      rw [Prog.call_bind, solo_call, ih, solo_call]

theorem adminConnected_solo (addressed : ctx.redisHost ≠ [] ∧ ctx.redisPort ≠ 0)
    (command : RedisProg AdminOutput) (db : Db) :
    solo server (adminConnected ctx command) db = solo server command db := by
  have connects : solo server (adminConnect ctx) db = (.ok (), db) := by
    unfold adminConnect adminConf redisConnect
    rw [if_neg (not_or.mpr addressed), if_neg addressed.1]
    rfl
  unfold adminConnected
  rw [solo_bind, connects]

theorem credentialGet_solo_read (record : IsHash db (credentialRecordKey keyPrefix credentialId)) :
    solo server (credentialGet keyPrefix credentialId) db =
      (recordAt server keyPrefix credentialId db, db) := by
  rw [credentialGet_eq, solo_call, exec_hgetall, exec_hgetall_reply server record]
  rfl

theorem redisSmembers_solo {key : Bytes} (index : IsSet db key) :
    solo server (redisSmembers key) db = (some (server.memberOrder (membersAt db key)), db) := by
  have elements : ∀ members : List Bytes, membersOfElements (members.map .str) = some members := by
    intro members
    induction members with
    | nil => rfl
    | cons member members ih => simp [membersOfElements, ih]
  have reply : smembersReply (some (exec server db (.smembers key)).2) =
      some (server.memberOrder (membersAt db key)) := by
    unfold IsSet at index
    by_cases none : membersAt db key = []
    · rw [none, setEntry, if_pos rfl] at index
      have empty : server.memberOrder [] = [] := (server.memberOrder_perm []).eq_nil
      simp [exec, Db.get_of_absent index, smembersReply, membersOfElements, none, empty]
    · rw [setEntry, if_neg none] at index
      simp [exec, Db.get_of_persistent index, smembersReply, elements]
  unfold redisSmembers
  rw [solo_bind]
  change solo server (pure (smembersReply (some (exec server db (.smembers key)).2)))
    (exec server db (.smembers key)).1 = _
  rw [reply, exec_smembers]
  rfl

theorem listMembers_solo (kinds : Kinds keyPrefix db) (members : List Bytes) :
    solo server (listMembers keyPrefix members) db =
      (members.flatMap fun member => listLine member (recordAt server keyPrefix member db), db) := by
  induction members with
  | nil => rfl
  | cons member members ih =>
      unfold listMembers
      rw [solo_bind, credentialGet_solo_read (kinds.record member)]
      rw [solo_bind, ih]
      rfl

theorem adminCmdList_solo (addressed : ctx.redisHost ≠ [] ∧ ctx.redisPort ≠ 0)
    (kinds : Kinds ctx.keyPrefix db) (userId : Bytes) :
    solo server (adminCmdList ctx userId) db =
      (adminPrinted (listHeader ++
        (server.memberOrder (membersAt db (credentialIndexKey ctx.keyPrefix userId))).flatMap fun member =>
          listLine member (recordAt server ctx.keyPrefix member db)), db) := by
  unfold adminCmdList
  rw [adminConnected_solo addressed, solo_bind, redisSmembers_solo (kinds.index userId)]
  simp only
  rw [solo_bind, listMembers_solo kinds]
  rfl

theorem adminCmdShow_solo (addressed : ctx.redisHost ≠ [] ∧ ctx.redisPort ≠ 0)
    (kinds : Kinds ctx.keyPrefix db) (credentialId : Bytes) :
    solo server (adminCmdShow ctx credentialId) db =
      (showOutput credentialId (recordAt server ctx.keyPrefix credentialId db), db) := by
  unfold adminCmdShow
  rw [adminConnected_solo addressed, solo_bind, credentialGet_solo_read (kinds.record credentialId)]
  rfl

theorem adminCmdRevoke_solo (addressed : ctx.redisHost ≠ [] ∧ ctx.redisPort ≠ 0) (db : Db)
    (credentialId : Bytes) :
    solo server (adminCmdRevoke ctx credentialId) db =
      (solo server (credentialDelete ctx.keyPrefix credentialId) db).map (revokeOutput credentialId) id := by
  unfold adminCmdRevoke
  rw [adminConnected_solo addressed, solo_bind]
  rfl

theorem adminCmdRegister_solo (addressed : ctx.redisHost ≠ [] ∧ ctx.redisPort ≠ 0) {files : FileReads}
    {now : Int64} {args : AdminArgs} {reads : Nat}
    (accepted : registerRecord ext (files reads) (registerArgs ctx args) now = .ok cred) (db : Db) :
    solo server (adminCmdRegister ext files now ctx args reads) db =
      (solo server (credentialPut ctx.keyPrefix cred) db).map (registerOutput cred) id := by
  unfold adminCmdRegister
  rw [accepted]
  simp only
  rw [adminConnected_solo addressed, solo_bind]
  rfl

end Solo

/-- A record that was accepted for registration can be read back. -/
theorem registerRecord_storable {files : Bytes → Except Bytes Bytes} {args : RegisterArgs} {now : Int64}
    (accepted : registerRecord ext files args now = .ok cred) :
    cred.credentialId ≠ [] ∧ cred.publicKey ≠ [] ∧ cred.alg ≠ 0 ∧ cred.hasAaguid = true := by
  have supported : cred.alg = -7 ∨ cred.alg = -8 ∨ cred.alg = -257 := (registrationOf accepted).supported
  refine ⟨(registrationOf accepted).named, (registrationOf accepted).keyed, ?_, ?_⟩
  · rcases supported with alg | alg | alg
    · rw [alg]
      decide
    · rw [alg]
      decide
    · rw [alg]
      decide
  · unfold registerRecord at accepted
    split at accepted
    · simp only [except_bind_ok, mapError_ok] at accepted
      obtain ⟨_, _, _, _, _, _, verified⟩ := accepted
      simp only [registerVerified, except_bind_ok, orFail_ok] at verified
      obtain ⟨_, _, rest⟩ := verified
      split_ifs at rest with passed
      · cases rest
      · simp only [except_bind_ok] at rest
        obtain ⟨_, _, built⟩ := rest
        rw [← Except.ok.inj built]
    · cases accepted

theorem HoldsLedger.empty : HoldsLedger keyPrefix Db.empty Ledger.empty where
  kinds := ⟨fun _ => .inl rfl, fun _ => rfl⟩
  listed := catalog_empty_consistent
  once _ := List.nodup_nil
  absent _ _ := recordless_empty
  present _ _ found := by cases found

theorem HoldsLedger.owner (holds : HoldsLedger keyPrefix db ledger) (credentialId : Bytes) :
    (catalog keyPrefix db).owner credentialId = (ledger credentialId).map (·.userId) := by
  cases found : ledger credentialId with
  | none => exact (holds.absent credentialId found).user
  | some cred =>
      exact (holds.present credentialId cred found).stored (Field.userId, cred.userId) (by simp [credentialPairs])

theorem HoldsLedger.transports (holds : HoldsLedger keyPrefix db ledger) (credentialId : Bytes) :
    ((fieldsAt db (credentialRecordKey keyPrefix credentialId)).lookup Field.transports).getD [] =
      (ledger credentialId).elim [] (·.transports) := by
  cases found : ledger credentialId with
  | none => simp [(holds.absent credentialId found).transports]
  | some cred => exact (holds.present credentialId cred found).transports

theorem HoldsLedger.recordAt (holds : HoldsLedger keyPrefix db ledger) (credentialId : Bytes) :
    recordAt server keyPrefix credentialId db = ledger.read credentialId := by
  unfold Ledger.read
  cases found : ledger credentialId with
  | none => exact credentialGetPairs_keyless (holds.absent credentialId found).key
  | some cred => exact (holds.present credentialId cred found).read

theorem mem_credentialPairs {pair : Bytes × Bytes} : pair ∈ credentialPairs cred ↔
    pair ∈ [(Field.userId, cred.userId), (Field.publicKey, cred.publicKey),
      (Field.alg, Decimal.ofInt cred.alg.toInt), (Field.signCount, Decimal.digits cred.signCount.toNat),
      (Field.createdAt, Decimal.ofInt cred.createdAt.toInt),
      (Field.lastUsedAt, Decimal.ofInt cred.lastUsedAt.toInt)] ∨
    (cred.transports ≠ [] ∧ pair = (Field.transports, cred.transports)) ∨
    (cred.hasAaguid = true ∧ pair = (Field.aaguid, cred.aaguid.toList)) := by
  unfold credentialPairs
  rw [List.mem_append, List.mem_append, or_assoc]
  have optional : ∀ {condition : Prop} [Decidable condition] {entry : Bytes × Bytes},
      pair ∈ (if condition then [entry] else []) ↔ condition ∧ pair = entry := by
    intro condition _ entry
    split_ifs with holds <;> simp [holds]
  rw [optional, optional]

/-- What a registration writes, over what was there. -/
theorem holdsRecord_register {fields : Hash} {old : Option Credential}
    (before : (fields.lookup Field.transports).getD [] = old.elim [] (·.transports)) (owned : cred.userId ≠ [])
    (keyed : cred.publicKey ≠ []) (algSet : cred.alg ≠ 0) (hasAaguid : cred.hasAaguid = true) :
    HoldsRecord (Hash.setFields fields (credentialPairs cred)) cred.credentialId
      (Ledger.replacement cred old) := by
  have transports : ((Hash.setFields fields (credentialPairs cred)).lookup Field.transports).getD [] =
      (Ledger.replacement cred old).transports := by
    rw [lookup_transports, Ledger.replacement]
    split_ifs with none
    · exact before
    · rfl
  refine ⟨rfl, owned, keyed, algSet, hasAaguid, ?_, transports⟩
  intro pair member
  rcases mem_credentialPairs.mp member with base | ⟨some, rfl⟩ | ⟨has, rfl⟩
  · exact @lookup_credentialPairs cred _ _ (mem_credentialPairs.mpr (.inl base)) fields
  · cases found : (Hash.setFields fields (credentialPairs cred)).lookup Field.transports with
    | none =>
        rw [found] at transports
        exact absurd transports.symm some
    | some value =>
        rw [found] at transports
        exact congrArg Option.some transports
  · exact @lookup_credentialPairs cred _ _ (mem_credentialPairs.mpr (.inr (.inr ⟨has, rfl⟩))) fields

theorem HoldsRecord.count {fields : Hash} (holds : HoldsRecord fields credentialId cred) (newCount : UInt32)
    (lastUsedAt : Int64) :
    HoldsRecord (Hash.setFields fields (counterPairs newCount lastUsedAt)) credentialId
      { cred with signCount := newCount, lastUsedAt := lastUsedAt } := by
  obtain ⟨counted, used⟩ := lookup_counted fields newCount lastUsedAt
  have kept : ∀ {name value : Bytes}, name ≠ Field.signCount ∧ name ≠ Field.lastUsedAt →
      (name, value) ∈ credentialPairs cred →
      (Hash.setFields fields (counterPairs newCount lastUsedAt)).lookup name = some value := by
    intro name value other member
    rw [lookup_counterPairs other]
    exact holds.stored (name, value) member
  refine ⟨holds.named, holds.owned, holds.keyed, holds.algSet, holds.hasAaguid, ?_, ?_⟩
  · intro pair member
    rcases mem_credentialPairs.mp member with base | ⟨some, rfl⟩ | ⟨has, rfl⟩
    · simp only [List.mem_cons, List.not_mem_nil, or_false] at base
      rcases base with rfl | rfl | rfl | rfl | rfl | rfl
      · exact @kept Field.userId _ (by decide) (mem_credentialPairs.mpr (.inl (by simp)))
      · exact @kept Field.publicKey _ (by decide) (mem_credentialPairs.mpr (.inl (by simp)))
      · exact @kept Field.alg _ (by decide) (mem_credentialPairs.mpr (.inl (by simp)))
      · exact counted
      · exact @kept Field.createdAt _ (by decide) (mem_credentialPairs.mpr (.inl (by simp)))
      · exact used
    · exact @kept Field.transports _ (by decide) (mem_credentialPairs.mpr (.inr (.inl ⟨some, rfl⟩)))
    · exact @kept Field.aaguid _ (by decide) (mem_credentialPairs.mpr (.inr (.inr ⟨has, rfl⟩)))
  · rw [lookup_counterPairs (by decide)]
    exact holds.transports

/-- A store that differs in one record. -/
theorem HoldsLedger.update (holds : HoldsLedger keyPrefix db ledger) {after : Db} {entry : Option Credential}
    (kinds : Kinds keyPrefix after) (listed : (catalog keyPrefix after).Consistent)
    (once : ∀ userId, (membersAt after (credentialIndexKey keyPrefix userId)).Nodup)
    (others : ∀ other, other ≠ credentialId → after.entries (credentialRecordKey keyPrefix other) =
      db.entries (credentialRecordKey keyPrefix other))
    (absent : entry = none → Recordless (fieldsAt after (credentialRecordKey keyPrefix credentialId)))
    (present : ∀ cred, entry = some cred →
      HoldsRecord (fieldsAt after (credentialRecordKey keyPrefix credentialId)) credentialId cred) :
    HoldsLedger keyPrefix after (Function.update ledger credentialId entry) := by
  refine ⟨kinds, listed, once, ?_, ?_⟩
  · intro other found
    by_cases same : other = credentialId
    · subst same
      rw [Function.update_self] at found
      exact absent found
    · rw [Function.update_of_ne same] at found
      rw [fieldsAt_congr (others other same)]
      exact holds.absent other found
  · intro other cred found
    by_cases same : other = credentialId
    · subst same
      rw [Function.update_self] at found
      exact present cred found
    · rw [Function.update_of_ne same] at found
      rw [fieldsAt_congr (others other same)]
      exact holds.present other cred found

/-- A store with one record and one index written. -/
theorem HoldsLedger.rewrite (holds : HoldsLedger keyPrefix db ledger) {record : Option Entry} {userId : Bytes}
    {members : List Bytes} {entry : Option Credential}
    (kind : record = none ∨ ∃ fields, record = hashEntry fields)
    (listed : (catalog keyPrefix ((db.write (credentialRecordKey keyPrefix credentialId) record).write
      (credentialIndexKey keyPrefix userId) (setEntry members))).Consistent)
    (once : members.Nodup) (absent : entry = none → Recordless (fieldsOf record))
    (present : ∀ cred, entry = some cred → HoldsRecord (fieldsOf record) credentialId cred) :
    HoldsLedger keyPrefix ((db.write (credentialRecordKey keyPrefix credentialId) record).write
      (credentialIndexKey keyPrefix userId) (setEntry members)) (Function.update ledger credentialId entry) := by
  have written : ((db.write (credentialRecordKey keyPrefix credentialId) record).write
      (credentialIndexKey keyPrefix userId) (setEntry members)).entries (credentialRecordKey keyPrefix credentialId) =
        record := by
    rw [Db.write_other _ _ (record_ne_index userId credentialId), Db.write_same]
  refine holds.update ((holds.kinds.writeRecord credentialId kind).writeIndex userId members) listed ?_ ?_ ?_ ?_
  · intro other
    by_cases same : other = userId
    · subst same
      rw [membersAt, Db.write_same, membersOf_setEntry]
      exact once
    · rw [membersAt_congr (Db.write_other _ _ (mt credentialIndexKey_inj.mp same)),
        membersAt_congr (Db.write_other _ _ (index_ne_record other credentialId))]
      exact holds.once other
  · intro other different
    rw [Db.write_other _ _ (record_ne_index userId other),
      Db.write_other _ _ (mt credentialRecordKey_inj.mp different)]
  · intro none
    rw [fieldsAt, written]
    exact absent none
  · intro cred some
    rw [fieldsAt, written]
    exact present cred some

theorem HoldsLedger.register (holds : HoldsLedger keyPrefix db ledger) (named : cred.credentialId ≠ [])
    (owned : cred.userId ≠ []) (keyed : cred.publicKey ≠ []) (algSet : cred.alg ≠ 0)
    (hasAaguid : cred.hasAaguid = true)
    (kept : ∀ old, ledger cred.credentialId = some old → old.userId = cred.userId) :
    (solo server (credentialPut keyPrefix cred) db).1 = .ok ∧
      HoldsLedger keyPrefix (solo server (credentialPut keyPrefix cred) db).2 (ledger.register cred) := by
  have stored := @credentialPut_solo server _ _ _ named owned (holds.kinds.record cred.credentialId)
    (holds.kinds.index cred.userId)
  rw [stored]
  refine ⟨rfl, holds.rewrite (.inr ⟨_, rfl⟩) ?_ (holds.once cred.userId).insert (fun none => by cases none) ?_⟩
  · rw [catalog_put (lookup_credentialPairs (by simp [credentialPairs]) _), holds.listed.put_iff, holds.owner]
    intro old found
    obtain ⟨record, there, rfl⟩ := Option.map_eq_some_iff.mp found
    exact kept record there
  · intro record same
    cases same
    rw [fieldsOf_hashEntry]
    exact holdsRecord_register (holds.transports cred.credentialId) owned keyed algSet hasAaguid

theorem HoldsLedger.revoke (holds : HoldsLedger keyPrefix db ledger) (credentialId : Bytes) :
    (solo server (credentialDelete keyPrefix credentialId) db).1 =
        (if (ledger credentialId).isSome then .ok else .declined) ∧
      HoldsLedger keyPrefix (solo server (credentialDelete keyPrefix credentialId) db).2
        (ledger.revoke credentialId) := by
  have read := @HoldsLedger.recordAt server _ _ _ holds credentialId
  unfold Ledger.read at read
  cases found : ledger credentialId with
  | none =>
      rw [found] at read
      rw [credentialDelete_solo_unread (holds.kinds.record credentialId) read]
      refine ⟨rfl, ?_⟩
      rw [Ledger.revoke, ← found, Function.update_eq_self]
      exact holds
  | some cred =>
      rw [found] at read
      have owned : (catalog keyPrefix db).owner credentialId = some cred.userId := by
        rw [holds.owner, found]
        rfl
      have removed := credentialDelete_solo (holds.kinds.record credentialId) read
        (holds.present credentialId cred found).owned (holds.kinds.index cred.userId)
      rw [removed]
      refine ⟨rfl, holds.rewrite (.inl rfl) ?_ ((holds.once cred.userId).filter _)
        (fun _ => recordless_empty) (fun _ some => by cases some)⟩
      rw [catalog_remove owned]
      exact holds.listed.remove

/-- Counting an id without a record leaves a hash that nothing reads as a record. -/
theorem HoldsLedger.count (holds : HoldsLedger keyPrefix db ledger) (credentialId : Bytes) (newCount : UInt32)
    (lastUsedAt : Int64) :
    HoldsLedger keyPrefix
      (solo server (credentialUpdateCounter keyPrefix credentialId newCount lastUsedAt) db).2
      (ledger.count credentialId newCount lastUsedAt) := by
  rw [credentialUpdateCounter_solo (holds.kinds.record credentialId), Ledger.count]
  refine holds.update (holds.kinds.writeRecord credentialId (.inr ⟨_, rfl⟩)) ?_ ?_ ?_ ?_ ?_
  · rw [catalog_updateRecord (lookup_counterPairs (by decide))]
    exact holds.listed
  · intro userId
    rw [membersAt_congr (Db.write_other _ _ (index_ne_record userId credentialId))]
    exact holds.once userId
  · intro other different
    rw [Db.write_other _ _ (mt credentialRecordKey_inj.mp different)]
  · intro unknown
    rw [fieldsAt, Db.write_same, fieldsOf_hashEntry]
    exact (holds.absent credentialId (Option.map_eq_none_iff.mp unknown)).count newCount lastUsedAt
  · intro counted same
    obtain ⟨cred, found, rfl⟩ := Option.map_eq_some_iff.mp same
    rw [fieldsAt, Db.write_same, fieldsOf_hashEntry]
    exact (holds.present credentialId cred found).count newCount lastUsedAt

section Requests

variable (addressed : ctx.redisHost ≠ [] ∧ ctx.redisPort ≠ 0)

include addressed

theorem HoldsLedger.answers_register (holds : HoldsLedger ctx.keyPrefix db ledger) {files : FileReads} {now : Int64}
    {args : AdminArgs} {reads : Nat}
    (legal : AdminRequest.Legal ext ctx ledger (.registers files now args reads)) :
    AdminRequest.Answers ext ctx ledger (.registers files now args reads)
        (AdminRequest.run ext server ctx db (.registers files now args reads)).1 ∧
      HoldsLedger ctx.keyPrefix (AdminRequest.run ext server ctx db (.registers files now args reads)).2
        (AdminRequest.next ext ctx ledger (.registers files now args reads)) := by
  cases record : registerRecord ext (files reads) (registerArgs ctx args) now with
  | error failure =>
      have refused : solo server (adminCmdRegister ext files now ctx args reads) db =
          (⟨[], failure.message, failure.code⟩, db) := by
        unfold adminCmdRegister
        rw [record]
        rfl
      simp only [AdminRequest.Answers, AdminRequest.run, AdminRequest.next, AdminRequest.stores, record, refused]
      exact ⟨rfl, holds⟩
  | ok cred =>
      obtain ⟨named, keyed, algSet, hasAaguid⟩ := registerRecord_storable record
      simp only [AdminRequest.Answers, AdminRequest.run, adminCmdRegister_solo addressed record, record]
      by_cases unowned : cred.userId = []
      · have nothing : AdminRequest.stores ext ctx (.registers files now args reads) = none := by
          simp [AdminRequest.stores, record, Except.toOption, Option.filter, unowned]
        rw [credentialPut_refused (.inr unowned), if_pos unowned, AdminRequest.next, nothing]
        exact ⟨rfl, holds⟩
      · have stored : AdminRequest.stores ext ctx (.registers files now args reads) = some cred := by
          simp [AdminRequest.stores, record, Except.toOption, Option.filter, unowned]
        obtain ⟨put, after⟩ := @HoldsLedger.register server _ _ _ _ holds named unowned keyed algSet hasAaguid
          (legal cred stored)
        rw [if_neg unowned, AdminRequest.next, stored]
        refine ⟨?_, after⟩
        simp only [Prod.map_fst, put]
        rfl

theorem HoldsLedger.answers_list (holds : HoldsLedger ctx.keyPrefix db ledger) (userId : Bytes) :
    AdminRequest.Answers ext ctx ledger (.lists userId) (AdminRequest.run ext server ctx db (.lists userId)).1 := by
  simp only [AdminRequest.Answers, AdminRequest.run, adminCmdList_solo addressed holds.kinds]
  have ordered := server.memberOrder_perm (membersAt db (credentialIndexKey ctx.keyPrefix userId))
  refine ⟨_, ordered.nodup_iff.mpr (holds.once userId), ?_, ?_⟩
  · intro credentialId
    rw [ordered.mem_iff]
    have listed := holds.listed userId credentialId
    rw [holds.owner, Option.map_eq_some_iff] at listed
    exact listed
  · simp only [holds.recordAt]
    rfl

/-- One request is answered as the ledger says, and leaves a store that holds the next ledger. -/
theorem HoldsLedger.step (holds : HoldsLedger ctx.keyPrefix db ledger) {request : AdminRequest}
    (legal : AdminRequest.Legal ext ctx ledger request) :
    AdminRequest.Answers ext ctx ledger request (AdminRequest.run ext server ctx db request).1 ∧
      HoldsLedger ctx.keyPrefix (AdminRequest.run ext server ctx db request).2
        (AdminRequest.next ext ctx ledger request) := by
  cases request with
  | registers files now args reads => exact holds.answers_register addressed legal
  | revokes credentialId =>
      obtain ⟨answered, after⟩ := @HoldsLedger.revoke server _ _ _ holds credentialId
      simp only [AdminRequest.Answers, AdminRequest.run, adminCmdRevoke_solo addressed, Prod.map_fst, answered]
      refine ⟨?_, after⟩
      cases ledger credentialId with
      | none => rfl
      | some cred => rfl
  | lists userId =>
      refine ⟨holds.answers_list addressed userId, ?_⟩
      simp only [AdminRequest.run, adminCmdList_solo addressed holds.kinds]
      exact holds
  | shows credentialId =>
      simp only [AdminRequest.Answers, AdminRequest.run, adminCmdShow_solo addressed holds.kinds,
        holds.recordAt, Ledger.read]
      refine ⟨?_, holds⟩
      cases ledger credentialId with
      | none => rfl
      | some cred => rfl
  | counts credentialId newCount lastUsedAt => exact ⟨rfl, holds.count credentialId newCount lastUsedAt⟩

end Requests

/-- The store behind a request. -/
def AdminRequest.store (ext : AdminExternals) (server : Server) (ctx : AdminCtx) (db : Db)
    (request : AdminRequest) : Db :=
  (request.run ext server ctx db).2

theorem HoldsLedger.session (addressed : ctx.redisHost ≠ [] ∧ ctx.redisPort ≠ 0)
    (holds : HoldsLedger ctx.keyPrefix db ledger) {requests : List AdminRequest}
    (legal : Throughout (AdminRequest.next ext ctx) (AdminRequest.Legal ext ctx) ledger requests) :
    HoldsLedger ctx.keyPrefix (requests.foldl (AdminRequest.store ext server ctx) db)
      (requests.foldl (AdminRequest.next ext ctx) ledger) := by
  induction requests generalizing db ledger with
  | nil => exact holds
  | cons request rest ih =>
      obtain ⟨first, later⟩ := throughout_cons.mp legal
      exact ih (holds.step addressed first).2 later

/-- Commands that are run one after the other on a store that starts empty, with the counter updates
of logins between them, print what the ledger of registrations says: each list has one line for
each of the user's credentials and no other, each report is that of the stored record. -/
theorem admin_session_exact (ext : AdminExternals) (server : Server) (ctx : AdminCtx)
    (addressed : ctx.redisHost ≠ [] ∧ ctx.redisPort ≠ 0) (requests : List AdminRequest)
    (legal : Throughout (AdminRequest.next ext ctx) (AdminRequest.Legal ext ctx) Ledger.empty requests) :
    ∀ front request back, requests = front ++ request :: back →
      AdminRequest.Answers ext ctx (front.foldl (AdminRequest.next ext ctx) Ledger.empty) request
        (request.run ext server ctx (front.foldl (AdminRequest.store ext server ctx) Db.empty)).1 := by
  intro front request back split
  have before : Throughout (AdminRequest.next ext ctx) (AdminRequest.Legal ext ctx) Ledger.empty front := by
    intro start action later inside
    exact legal start action (later ++ request :: back) (by rw [split, inside]; simp)
  exact ((HoldsLedger.empty.session addressed before).step addressed (legal front request back split)).1

namespace Sample

def adminCtx : AdminCtx := { AuthWebauthn.adminCtx with redisHost := ascii "127.0.0.1", redisPort := 6379 }

def enrolOptions : AdminArgs :=
  { AdminArgs.none with
    userId := some (ascii "alice"), responseFile := some (ascii "response.json"),
    rpId := some (ascii "example.com"), requireAttestation := some (ascii "packed") }

/-- A credential is registered, used, listed and revoked, and then a login that had read it counts. -/
def adminRequests : List AdminRequest :=
  [.registers (fun _ => enrolFiles) 1000 enrolOptions 0, .counts (ascii "AQ") 5 2000, .lists (ascii "alice"),
    .revokes (ascii "AQ"), .counts (ascii "AQ") 6 2001, .shows (ascii "AQ")]

theorem adminRequests_legal : Throughout (AdminRequest.next enrolExt adminCtx)
    (AdminRequest.Legal enrolExt adminCtx) Ledger.empty adminRequests := by
  have quiet : ∀ {request : AdminRequest} {ledger : Ledger}, request.stores enrolExt adminCtx = none →
      request.Legal enrolExt adminCtx ledger := by
    intro request ledger nothing cred some
    rw [nothing] at some
    cases some
  simp only [adminRequests, throughout_cons]
  exact ⟨fun _ _ _ found => (by cases found), quiet rfl, quiet rfl, quiet rfl, quiet rfl, quiet rfl,
    throughout_nil⟩

end Sample

/-- The listing after the use, and the report after the late count. -/
theorem admin_session_enrolled :
    AdminRequest.Answers Sample.enrolExt Sample.adminCtx
        ((Sample.adminRequests.take 2).foldl (AdminRequest.next Sample.enrolExt Sample.adminCtx) Ledger.empty)
        (.lists (ascii "alice"))
        ((AdminRequest.lists (ascii "alice")).run Sample.enrolExt .inOrder Sample.adminCtx
          ((Sample.adminRequests.take 2).foldl (AdminRequest.store Sample.enrolExt .inOrder Sample.adminCtx)
            Db.empty)).1 ∧
      ((AdminRequest.shows (ascii "AQ")).run Sample.enrolExt .inOrder Sample.adminCtx
          ((Sample.adminRequests.take 5).foldl (AdminRequest.store Sample.enrolExt .inOrder Sample.adminCtx)
            Db.empty)).1 = some (adminFailed (ascii "error: no such credential\n")) := by
  have exact := admin_session_exact Sample.enrolExt .inOrder Sample.adminCtx (by decide) Sample.adminRequests
    Sample.adminRequests_legal
  refine ⟨exact (Sample.adminRequests.take 2) (.lists (ascii "alice")) (Sample.adminRequests.drop 3) rfl, ?_⟩
  have shown := exact (Sample.adminRequests.take 5) (.shows (ascii "AQ")) [] rfl
  have gone : ((Sample.adminRequests.take 5).foldl (AdminRequest.next Sample.enrolExt Sample.adminCtx)
      Ledger.empty) (ascii "AQ") = none := by
    simp [Sample.adminRequests, AdminRequest.next, Ledger.count, Ledger.revoke]
  simp only [AdminRequest.Answers, gone] at shown
  exact shown

end AuthWebauthn
