import AuthWebauthn.Credential.Store

namespace AuthWebauthn

open Process Redis

/-! `get` reads back every field that `put` has written.  Two fields are optional:
`put` leaves them out of its HSET, and HSET leaves what the hash already holds
under their names.
-/

def schemaNames : List Bytes :=
  [Field.userId, Field.publicKey, Field.alg, Field.signCount, Field.createdAt, Field.lastUsedAt,
    Field.transports, Field.aaguid]

/-- The aaguid of a record that has one. -/
def Credential.aaguidBytes (cred : Credential) : Option Bytes :=
  if cred.hasAaguid then some cred.aaguid.toList else none

/-- Two records are the same, field by field. -/
structure Credential.Agrees (got cred : Credential) : Prop where
  userId : got.userId = cred.userId
  publicKey : got.publicKey = cred.publicKey
  alg : got.alg = cred.alg
  signCount : got.signCount = cred.signCount
  createdAt : got.createdAt = cred.createdAt
  lastUsedAt : got.lastUsedAt = cred.lastUsedAt
  transports : got.transports = cred.transports
  aaguid : got.aaguidBytes = cred.aaguidBytes

variable {start out next cred : Credential} {credentialId : Bytes} {fields : Hash}
  {pairs : List (Bytes × Bytes)}

/-- A time that cannot be read is skipped, as is an aaguid of another width. -/
theorem credentialGetField_optional {pair : Bytes × Bytes}
    (stepped : credentialGetField out pair = some next) :
    (if pair.1 = Field.createdAt then
        ∀ time, credentialAtoi64 pair.2 = some time → next.createdAt = time
      else next.createdAt = out.createdAt) ∧
    (if pair.1 = Field.lastUsedAt then
        ∀ time, credentialAtoi64 pair.2 = some time → next.lastUsedAt = time
      else next.lastUsedAt = out.lastUsedAt) ∧
    (if pair.1 = Field.transports then pair.2 = next.transports
      else next.transports = out.transports) ∧
    next.aaguidBytes =
      if pair.1 = Field.aaguid ∧ pair.2.length = 16 then some pair.2 else out.aaguidBytes := by
  obtain ⟨name, value⟩ := pair
  cases credentialGetField_turn stepped with
  | createdAt _ read parsed => simp +decide [parsed, Credential.aaguidBytes]
  | lastUsedAt _ read parsed => simp +decide [parsed, Credential.aaguidBytes]
  | aaguid _ read same =>
      have width : value.length = 16 := by rw [← same, Vector.length_toList]
      simp +decide [same, width, Credential.aaguidBytes]
  | narrow _ width => simp +decide [width]
  | unreadable _ _ time unread => rcases time with rfl | rfl <;> simp +decide [unread]
  | unknown _ _ other => simp [other]
  | userId | publicKey | alg | signCount | transports => simp +decide [Credential.aaguidBytes]

/-- What `get` makes of pairs that list the schema fields of a hash, each once. -/
structure Credential.StoredAs (got cred : Credential) (credentialId : Bytes) (fields : Hash) : Prop where
  credentialId : got.credentialId = credentialId
  userId : got.userId = cred.userId
  publicKey : got.publicKey = cred.publicKey
  alg : got.alg = cred.alg
  signCount : got.signCount = cred.signCount
  createdAt : got.createdAt = cred.createdAt
  lastUsedAt : got.lastUsedAt = cred.lastUsedAt
  transports : got.transports = (fields.lookup Field.transports).getD []
  aaguid : got.aaguidBytes = (fields.lookup Field.aaguid).filter (fun value => value.length = 16)

/-- The pairs list the hash's fields of the schema, and nothing else under their
names. -/
def ListsSchema (pairs : List (Bytes × Bytes)) (fields : Hash) : Prop :=
  ∀ name ∈ schemaNames, ∀ value, (name, value) ∈ pairs ↔ fields.lookup name = some value

theorem fold_aaguid (lists : ListsSchema pairs fields) (fresh : start.aaguidBytes = none)
    (folded : pairs.foldlM credentialGetField start = some out) :
    out.aaguidBytes = (fields.lookup Field.aaguid).filter (fun value => value.length = 16) := by
  have listed := lists Field.aaguid (by simp [schemaNames])
  cases usable : (fields.lookup Field.aaguid).filter (fun value => value.length = 16) with
  | none =>
      rw [← fresh]
      refine Slots.foldlM_keeps Credential.aaguidBytes (fun pair member state next stepped => ?_) folded
      rw [(credentialGetField_optional stepped).2.2.2, if_neg]
      intro taken
      obtain ⟨named, wide⟩ := taken
      have stored := (listed pair.2).mp (named ▸ member)
      simp [stored, wide] at usable
  | some value =>
      obtain ⟨stored, wide⟩ := Option.filter_eq_some_iff.mp usable
      refine Slots.foldlM_writes Credential.aaguidBytes (fun held => held = some value)
        ((listed value).mpr stored) (fun pair member different state next stepped => ?_)
        (fun state next stepped => ?_) folded
      · rw [(credentialGetField_optional stepped).2.2.2, if_neg]
        intro taken
        obtain ⟨named, _⟩ := taken
        obtain ⟨name, text⟩ := pair
        change name = Field.aaguid at named
        subst named
        rw [listed text, stored, Option.some.injEq] at member
        exact different (by rw [member])
      · rw [(credentialGetField_optional stepped).2.2.2, if_pos ⟨rfl, by simpa using wide⟩]

/-- A field that the hash holds fills its slot. -/
theorem slot_of_stored {γ : Type} (lists : ListsSchema pairs fields) (slot : Credential → γ)
    {name text : Bytes} (schema : name ∈ schemaNames) (written : Bytes → γ → Prop)
    (turn : ∀ out next pair, credentialGetField out pair = some next →
      if pair.1 = name then written pair.2 (slot next) else slot next = slot out)
    (stored : fields.lookup name = some text)
    (folded : pairs.foldlM credentialGetField start = some out) : written text (slot out) := by
  have filled := slot_of_pairs slot name written turn (lists name schema) folded
  rw [stored] at filled
  exact filled

theorem fold_time (lists : ListsSchema pairs fields) {name : Bytes} (schema : name ∈ schemaNames)
    (slot : Credential → Int64)
    (turn : ∀ out next pair, credentialGetField out pair = some next →
      if pair.1 = name then ∀ time, credentialAtoi64 pair.2 = some time → slot next = time
      else slot next = slot out) {time : Int64}
    (stored : fields.lookup name = some (Decimal.ofInt time.toInt))
    (folded : pairs.foldlM credentialGetField start = some out) : slot out = time := by
  have held := slot_of_stored lists slot schema
    (fun value held => ∀ time, credentialAtoi64 value = some time → held = time) turn stored folded
  obtain ⟨read, parsed, same⟩ := credentialAtoi64_ofInt time.toInt time.le_toInt time.toInt_lt
  rw [held read parsed]
  exact Int64.toInt_inj.mp same

theorem fold_transports (lists : ListsSchema pairs fields) (fresh : start.transports = [])
    (folded : pairs.foldlM credentialGetField start = some out) :
    out.transports = (fields.lookup Field.transports).getD [] := by
  have filled := slot_of_pairs Credential.transports Field.transports (fun value held => value = held)
    (fun _ _ _ stepped => (credentialGetField_optional stepped).2.2.1)
    (lists Field.transports (by simp [schemaNames])) folded
  cases found : fields.lookup Field.transports with
  | none =>
      rw [found, Option.elim_none, fresh] at filled
      exact filled
  | some value =>
      rw [found] at filled
      exact filled.symm

theorem mandatory_pairs (cred : Credential) :
    (Field.userId, cred.userId) ∈ credentialPairs cred ∧
    (Field.publicKey, cred.publicKey) ∈ credentialPairs cred ∧
    (Field.alg, Decimal.ofInt cred.alg.toInt) ∈ credentialPairs cred ∧
    (Field.signCount, Decimal.digits cred.signCount.toNat) ∈ credentialPairs cred ∧
    (Field.createdAt, Decimal.ofInt cred.createdAt.toInt) ∈ credentialPairs cred ∧
    (Field.lastUsedAt, Decimal.ofInt cred.lastUsedAt.toInt) ∈ credentialPairs cred := by
  simp [credentialPairs]

/-- As long as the hash holds what `put` wrote, `get` reads the record. -/
theorem credentialGetPairs_stored (credentialId : Bytes) (keyed : cred.publicKey ≠ [])
    (algSet : cred.alg ≠ 0) (stored : ∀ pair ∈ credentialPairs cred, fields.lookup pair.1 = some pair.2)
    (lists : ListsSchema pairs fields) :
    ∃ got, credentialGetPairs credentialId pairs = .ok got ∧ got.StoredAs cred credentialId fields := by
  obtain ⟨userId, publicKey, alg, signCount, createdAt, lastUsedAt⟩ := mandatory_pairs cred
  replace userId := stored _ userId
  replace publicKey := stored _ publicKey
  replace alg := stored _ alg
  replace signCount := stored _ signCount
  replace createdAt := stored _ createdAt
  replace lastUsedAt := stored _ lastUsedAt
  have accepts : ∀ pair ∈ pairs, ∀ state, (credentialGetField state pair).isSome := by
    intro pair member state
    obtain ⟨name, value⟩ := pair
    refine credentialGetField_isSome (fun named => ?_) (fun named => ?_)
    · change name = Field.alg at named
      subst named
      rw [lists Field.alg (by simp [schemaNames]), alg, Option.some.injEq] at member
      rw [← member, algOfText_ofInt]
      rfl
    · change name = Field.signCount at named
      subst named
      rw [lists Field.signCount (by simp [schemaNames]), signCount, Option.some.injEq] at member
      rw [← member, signCountOfText_digits]
      rfl
  obtain ⟨got, folded⟩ := Slots.foldlM_isSome accepts (Credential.zero credentialId)
  have sameUser : got.userId = cred.userId :=
    slot_of_stored lists Credential.userId (by simp [schemaNames]) (fun value held => held = value)
      (fun _ _ _ stepped => by rw [(credentialGetField_slots stepped).2.1]; split <;> rfl) userId folded
  have sameKey : got.publicKey = cred.publicKey :=
    slot_of_stored lists Credential.publicKey (by simp [schemaNames]) (fun value held => held = value)
      (fun _ _ _ stepped => by rw [(credentialGetField_slots stepped).2.2.1]; split <;> rfl) publicKey
      folded
  have readAlg : algOfText (Decimal.ofInt cred.alg.toInt) = some got.alg :=
    slot_of_stored lists Credential.alg (by simp [schemaNames])
      (fun value held => algOfText value = some held)
      (fun _ _ _ stepped => (credentialGetField_slots stepped).2.2.2.1) alg folded
  have sameAlg : got.alg = cred.alg :=
    (Option.some.inj ((algOfText_ofInt cred.alg).symm.trans readAlg)).symm
  have readCount : signCountOfText (Decimal.digits cred.signCount.toNat) = some got.signCount :=
    slot_of_stored lists Credential.signCount (by simp [schemaNames])
      (fun value held => signCountOfText value = some held)
      (fun _ _ _ stepped => (credentialGetField_slots stepped).2.2.2.2) signCount folded
  have sameCount : got.signCount = cred.signCount :=
    (Option.some.inj ((signCountOfText_digits cred.signCount).symm.trans readCount)).symm
  have listed : pairs ≠ [] :=
    List.ne_nil_of_mem ((lists Field.userId (by simp [schemaNames]) cred.userId).mpr userId)
  refine ⟨got, ?_, ?_, sameUser, sameKey, sameAlg, sameCount,
    fold_time lists (by simp [schemaNames]) Credential.createdAt
      (fun _ _ _ stepped => (credentialGetField_optional stepped).1) createdAt folded,
    fold_time lists (by simp [schemaNames]) Credential.lastUsedAt
      (fun _ _ _ stepped => (credentialGetField_optional stepped).2.1) lastUsedAt folded,
    fold_transports lists rfl folded, fold_aaguid lists rfl folded⟩
  · simp [credentialGetPairs, listed, folded, sameKey, keyed, sameAlg, algSet]
  · exact Slots.foldlM_keeps Credential.credentialId
      (fun _ _ _ _ stepped => (credentialGetField_slots stepped).1) folded

/-- The buffer each number is formatted into, and the pairs that `put` has room for. -/
abbrev numbuf : Nat := 24

abbrev maxPairs : Nat := 8

/-- The numbers that `put` formats. -/
def numberTexts (cred : Credential) : List Bytes :=
  [Decimal.ofInt cred.alg.toInt, Decimal.digits cred.signCount.toNat,
    Decimal.ofInt cred.createdAt.toInt, Decimal.ofInt cred.lastUsedAt.toInt]

theorem numberTexts_fit (cred : Credential) : ∀ text ∈ numberTexts cred, text.length < numbuf := by
  have wide {value : Int} (lower : -2 ^ 63 ≤ value) (upper : value < 2 ^ 63) :
      (Decimal.ofInt value).length < numbuf := by
    refine Nat.lt_of_le_of_lt (Decimal.ofInt_length_le (k := 19) (by decide) ?_ ?_) (by decide)
    · omega
    · omega
  have counted : (Decimal.digits cred.signCount.toNat).length < numbuf := by
    have bound := cred.signCount.toNat_lt
    exact Nat.lt_of_le_of_lt (Decimal.digits_length_le (k := 10) (by decide) (by omega)) (by decide)
  have alg := wide (Int.le_trans (by decide) cred.alg.le_toInt) (Int.lt_trans cred.alg.toInt_lt (by decide))
  intro text member
  simp only [numberTexts, List.mem_cons, List.not_mem_nil, or_false] at member
  rcases member with rfl | rfl | rfl | rfl
  · exact alg
  · exact counted
  · exact wide cred.createdAt.le_toInt cred.createdAt.toInt_lt
  · exact wide cred.lastUsedAt.le_toInt cred.lastUsedAt.toInt_lt

theorem credentialPairs_length_le (cred : Credential) : (credentialPairs cred).length ≤ maxPairs := by
  unfold credentialPairs
  split_ifs <;> simp [maxPairs]

theorem credentialPairs_schema (cred : Credential) :
    ∀ pair ∈ credentialPairs cred, pair.1 ∈ schemaNames := by
  unfold credentialPairs
  split_ifs <;> simp [schemaNames]

/-! What a hash holds after `put`. -/

theorem lookup_transports (cred : Credential) (old : Hash) :
    (Hash.setFields old (credentialPairs cred)).lookup Field.transports =
      if cred.transports = [] then old.lookup Field.transports else some cred.transports := by
  split_ifs with empty
  · apply Hash.lookup_setFields_absent
    simp only [credentialPairs, empty, ne_eq, not_true_eq_false, if_false]
    split_ifs <;> simp +decide
  · exact lookup_credentialPairs (by simp [credentialPairs, empty]) old

theorem lookup_aaguid (cred : Credential) (old : Hash) :
    (Hash.setFields old (credentialPairs cred)).lookup Field.aaguid =
      if cred.hasAaguid then some cred.aaguid.toList else old.lookup Field.aaguid := by
  split_ifs with has
  · exact lookup_credentialPairs (by simp [credentialPairs, has]) old
  · apply Hash.lookup_setFields_absent
    simp only [credentialPairs, has, Bool.false_eq_true, if_false]
    split_ifs <;> simp +decide

/-- Under each optional field that the record leaves out, the hash holds nothing
that `get` would take. -/
structure LeavesNothing (cred : Credential) (old : Hash) : Prop where
  transports : cred.transports = [] → (old.lookup Field.transports).getD [] = []
  aaguid : cred.hasAaguid = false → ∀ value, old.lookup Field.aaguid = some value → value.length ≠ 16

theorem Credential.StoredAs.agrees_iff {got : Credential} {old : Hash}
    (stored : got.StoredAs cred credentialId (Hash.setFields old (credentialPairs cred))) :
    got.Agrees cred ↔ LeavesNothing cred old := by
  have transports : got.transports = cred.transports ↔
      (cred.transports = [] → (old.lookup Field.transports).getD [] = []) := by
    rw [stored.transports, lookup_transports]
    split_ifs with empty <;> simp [empty]
  have aaguid : got.aaguidBytes = cred.aaguidBytes ↔
      (cred.hasAaguid = false → ∀ value, old.lookup Field.aaguid = some value → value.length ≠ 16) := by
    rw [stored.aaguid, lookup_aaguid, Credential.aaguidBytes]
    split_ifs with has
    · simp [has, Option.filter]
    · simp [has, Option.filter_eq_none_iff]
  constructor
  · intro agrees
    exact ⟨transports.mp agrees.transports, aaguid.mp agrees.aaguid⟩
  · intro clear
    exact ⟨stored.userId, stored.publicKey, stored.alg, stored.signCount, stored.createdAt,
      stored.lastUsedAt, transports.mpr clear.transports, aaguid.mpr clear.aaguid⟩

/-- Reading back what `put` writes, in any order and among any other fields. -/
theorem credential_codec_round_trip (cred : Credential) (keyed : cred.publicKey ≠ [])
    (algSet : cred.alg ≠ 0) (pairs : List (Bytes × Bytes))
    (permuted : (pairs.filter fun pair => schemaNames.contains pair.1).Perm (credentialPairs cred)) :
    (∃ got, credentialGetPairs cred.credentialId pairs = .ok got ∧
        got.credentialId = cred.credentialId ∧ got.Agrees cred) ∧
      (∀ text ∈ numberTexts cred, text.length < numbuf) ∧
      (credentialPairs cred).length ≤ maxPairs := by
  refine ⟨?_, numberTexts_fit cred, credentialPairs_length_le cred⟩
  have lists : ListsSchema pairs (Hash.setFields ∅ (credentialPairs cred)) := by
    intro name schema value
    rw [← Hash.mem_iff_lookup_setFields (credentialPairs_names_nodup cred), ← permuted.mem_iff]
    simp [schema]
  obtain ⟨got, read, stored⟩ := credentialGetPairs_stored cred.credentialId keyed algSet
    (fun pair member => lookup_credentialPairs member ∅) lists
  exact ⟨got, read, stored.credentialId, stored.agrees_iff.mpr ⟨fun _ => by simp, fun _ => by simp⟩⟩

/-- A record with extreme values. -/
def Sample.extremeRecord : Credential :=
  { Credential.zero (ascii "AQ") with
    userId := [0, 255]
    publicKey := [48, 0]
    alg := -2147483648
    signCount := 4294967295
    createdAt := -9223372036854775808
    lastUsedAt := 9223372036854775807 }

theorem reversed_record_read_back :
    (∃ got, credentialGetPairs (ascii "AQ")
          ((ascii "note", []) :: (credentialPairs Sample.extremeRecord).reverse) = .ok got ∧
        got.credentialId = ascii "AQ" ∧ got.Agrees Sample.extremeRecord) ∧
      (∀ text ∈ numberTexts Sample.extremeRecord, text.length < numbuf) ∧
      (credentialPairs Sample.extremeRecord).length ≤ maxPairs :=
  credential_codec_round_trip Sample.extremeRecord (by decide) (by decide)
    ((ascii "note", []) :: (credentialPairs Sample.extremeRecord).reverse) (by
      have schema := fun pair member =>
        List.contains_iff_mem.mpr (credentialPairs_schema Sample.extremeRecord pair member)
      rw [List.filter_cons_of_neg (by decide), List.filter_reverse, List.filter_eq_self.mpr schema]
      exact List.reverse_perm _)

variable {server : Server} {keyPrefix : Bytes} {db after : Db}

theorem credentialPut_ok (named : cred.credentialId ≠ []) (owned : cred.userId ≠ [])
    (stored : solo server (credentialPut keyPrefix cred) db = (.ok, after)) :
    ∃ expiresAt, after.get (credentialRecordKey keyPrefix cred.credentialId) =
      some ⟨.hash (Hash.setFields
        (fieldsOf (db.get (credentialRecordKey keyPrefix cred.credentialId))) (credentialPairs cred)),
        expiresAt⟩ := by
  rw [credentialPut_eq named owned, solo_call] at stored
  split_ifs at stored with failed
  · cases stored
  rw [not_not, rcOfReply_ok_iff] at failed
  obtain ⟨answer, answered, proper⟩ := failed
  rw [Option.some.injEq] at answered
  obtain ⟨expiresAt, found⟩ := exec_hset_get (answered ▸ proper)
  rw [solo_call] at stored
  split_ifs at stored with unlisted
  · cases stored
  · refine ⟨expiresAt, ?_⟩
    obtain rfl := (Prod.mk.inj stored).2
    rw [← found]
    exact exec_other_get (by simp [Cmd.key])

theorem credentialGet_solo {fields : Hash} {expiresAt : Option Nat}
    (found : db.get (credentialRecordKey keyPrefix credentialId) = some ⟨.hash fields, expiresAt⟩) :
    solo server (credentialGet keyPrefix credentialId) db =
      (credentialGetPairs credentialId (server.fieldOrder (Hash.pairs fields)), db) := by
  rw [credentialGet_eq, solo_call, exec_hgetall, exec_hgetall_live found]
  rfl

theorem listsSchema_fieldOrder (server : Server) (fields : Hash) :
    ListsSchema (server.fieldOrder (Hash.pairs fields)) fields :=
  fun _ _ _ => mem_fieldOrder

/-- After a successful `put`, `get` returns the stored record exactly if the hash
held nothing before under the optional fields that the record leaves out. -/
theorem put_replaces_record_iff (server : Server) (keyPrefix : Bytes) (db after : Db) (cred : Credential)
    (named : cred.credentialId ≠ []) (owned : cred.userId ≠ []) (keyed : cred.publicKey ≠ [])
    (algSet : cred.alg ≠ 0)
    (stored : solo server (credentialPut keyPrefix cred) db = (.ok, after)) :
    (∃ got, (solo server (credentialGet keyPrefix cred.credentialId) after).1 = .ok got ∧
        got.Agrees cred) ↔
      LeavesNothing cred (fieldsOf (db.get (credentialRecordKey keyPrefix cred.credentialId))) := by
  obtain ⟨expiresAt, found⟩ := credentialPut_ok named owned stored
  obtain ⟨got, read, same⟩ := credentialGetPairs_stored cred.credentialId keyed algSet
    (fun pair member => lookup_credentialPairs member _) (listsSchema_fieldOrder server _)
  rw [credentialGet_solo found, read, ← same.agrees_iff]
  constructor
  · intro readBack
    obtain ⟨again, returned, agrees⟩ := readBack
    obtain rfl : got = again := Except.ok.inj returned
    exact agrees
  · intro agrees
    exact ⟨got, rfl, agrees⟩

namespace Sample

def usbRecord : Credential :=
  { Credential.zero (ascii "AQ") with
    userId := ascii "alice", publicKey := [48, 0], alg := -7, transports := ascii "usb" }

/-- The same credential registered again with other transports. -/
def nfcRecord : Credential := { usbRecord with transports := ascii "nfc" }

/-- The same credential registered again without transports. -/
def bareRecord : Credential := { usbRecord with transports := [] }

def afterUsb : Db := (solo .inOrder (credentialPut defaultKeyPrefix usbRecord) Db.empty).2

def afterNfc : Db := (solo .inOrder (credentialPut defaultKeyPrefix nfcRecord) afterUsb).2

end Sample

theorem stated_transports_replaced :
    ∃ got, (solo .inOrder (credentialGet defaultKeyPrefix (ascii "AQ")) Sample.afterNfc).1 = .ok got ∧
      got.Agrees Sample.nfcRecord := by
  have replaced := put_replaces_record_iff .inOrder defaultKeyPrefix Sample.afterUsb Sample.afterNfc
    Sample.nfcRecord (by decide) (by decide) (by decide) (by decide) (Prod.ext (by decide) rfl)
  refine replaced.mpr ⟨fun empty => absurd empty (by decide), ?_⟩
  intro _ value stored
  have unstored : (fieldsOf (Sample.afterUsb.get
      (credentialRecordKey defaultKeyPrefix (ascii "AQ")))).lookup Field.aaguid = none := by decide
  exact absurd (stored.symm.trans unstored) nofun

/-- The transports of the record that was stored before are still there. -/
theorem second_put_keeps_transports :
    (solo .inOrder (credentialPut defaultKeyPrefix Sample.bareRecord) Sample.afterUsb).1 = .ok ∧
      ¬ ∃ got, (solo .inOrder (credentialGet defaultKeyPrefix (ascii "AQ"))
          (solo .inOrder (credentialPut defaultKeyPrefix Sample.bareRecord) Sample.afterUsb).2).1 = .ok got ∧
        got.Agrees Sample.bareRecord := by
  refine ⟨by decide, ?_⟩
  intro readBack
  obtain ⟨got, read, agrees⟩ := readBack
  have kept : (solo .inOrder (credentialGet defaultKeyPrefix (ascii "AQ"))
      (solo .inOrder (credentialPut defaultKeyPrefix Sample.bareRecord) Sample.afterUsb).2).1.map
        Credential.transports = .ok (ascii "usb") := by decide +kernel
  rw [read] at kept
  have same : got.transports = ascii "usb" := Except.ok.inj kept
  rw [agrees.transports] at same
  exact absurd same (by decide)

end AuthWebauthn
