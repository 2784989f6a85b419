import AuthWebauthn.Credential.Numbers
import AuthWebauthn.Data.Slots

namespace AuthWebauthn

open Redis

/-! What was written is read back: `atoi64` inverts the decimal conversions, and in the
loop of `get` each field name writes one slot of the record, so the result depends on
the set of pairs and not on their order.
-/

theorem numeral_ofInt (value : Int) : Numeral (Decimal.ofInt value) value := by
  have digits := Decimal.digits_isDigit value.natAbs
  have some_digit := Decimal.digits_ne_nil value.natAbs
  unfold Decimal.ofInt
  split_ifs with negative
  · have denoted := Numeral.negative some_digit digits
    rw [Decimal.valueFrom_digits] at denoted
    rwa [show -(value.natAbs : Int) = value by omega] at denoted
  · have denoted := Numeral.unsigned some_digit digits
    rw [Decimal.valueFrom_digits] at denoted
    rwa [show (value.natAbs : Int) = value by omega] at denoted

theorem credentialAtoi64_ofInt (value : Int) (lower : -2 ^ 63 ≤ value) (upper : value < 2 ^ 63) :
    ∃ result, credentialAtoi64 (Decimal.ofInt value) = some result ∧ result.toInt = value := by
  have kept : (Int64.ofInt value).toInt = value := Int64.toInt_ofInt_of_le lower upper
  refine ⟨Int64.ofInt value, (credentialAtoi64_eq_some_iff _ _).mpr ?_, kept⟩
  rw [kept]
  exact numeral_ofInt value

theorem credentialAtoi64_digits (value : Nat) (bound : value < 2 ^ 63) :
    ∃ result, credentialAtoi64 (Decimal.digits value) = some result ∧ result.toInt = value := by
  have printed : Decimal.ofInt value = Decimal.digits value := if_neg (by omega)
  rw [← printed]
  exact credentialAtoi64_ofInt value (by omega) (by omega)

theorem algOfText_ofInt (alg : Int32) : algOfText (Decimal.ofInt alg.toInt) = some alg := by
  have lower := alg.le_toInt
  have upper := alg.toInt_lt
  obtain ⟨value, parsed, same⟩ := credentialAtoi64_ofInt alg.toInt (by omega) (by omega)
  have inRange : ¬ (value < -2147483648 ∨ value > 2147483647) := by
    have least : (-2147483648 : Int64).toInt = -2147483648 := by decide
    have most : (2147483647 : Int64).toInt = 2147483647 := by decide
    rw [gt_iff_lt, Int64.lt_iff_toInt_lt, Int64.lt_iff_toInt_lt, same, least, most]
    omega
  simp only [algOfText, parsed, if_neg inRange, same, Int32.ofInt_toInt]

theorem signCountOfText_digits (count : UInt32) :
    signCountOfText (Decimal.digits count.toNat) = some count := by
  have upper := count.toNat_lt
  obtain ⟨value, parsed, same⟩ := credentialAtoi64_digits count.toNat (by omega)
  have inRange : ¬ (value < 0 ∨ value > 4294967295) := by
    have least : (0 : Int64).toInt = 0 := by decide
    have most : (4294967295 : Int64).toInt = 4294967295 := by decide
    rw [gt_iff_lt, Int64.lt_iff_toInt_lt, Int64.lt_iff_toInt_lt, same, least, most]
    omega
  simp only [signCountOfText, parsed, if_neg inRange, same, Int.toNat_natCast, UInt32.ofNat_toNat]

/-- What one turn of the loop does to the record. -/
inductive FieldTurn (out : Credential) : Bytes → Bytes → Credential → Prop where
  | userId (value : Bytes) : FieldTurn out Field.userId value { out with userId := value }
  | publicKey (value : Bytes) : FieldTurn out Field.publicKey value { out with publicKey := value }
  | alg (value : Bytes) (alg : Int32) (parsed : algOfText value = some alg) :
      FieldTurn out Field.alg value { out with alg }
  | signCount (value : Bytes) (signCount : UInt32) (parsed : signCountOfText value = some signCount) :
      FieldTurn out Field.signCount value { out with signCount }
  | createdAt (value : Bytes) (createdAt : Int64) (parsed : credentialAtoi64 value = some createdAt) :
      FieldTurn out Field.createdAt value { out with createdAt }
  | lastUsedAt (value : Bytes) (lastUsedAt : Int64) (parsed : credentialAtoi64 value = some lastUsedAt) :
      FieldTurn out Field.lastUsedAt value { out with lastUsedAt }
  | aaguid (value : Bytes) (aaguid : Vector UInt8 16) (same : aaguid.toList = value) :
      FieldTurn out Field.aaguid value { out with aaguid, hasAaguid := true }
  | transports (value : Bytes) : FieldTurn out Field.transports value { out with transports := value }
  | unreadable (name value : Bytes) (time : name = Field.createdAt ∨ name = Field.lastUsedAt)
      (unread : credentialAtoi64 value = none) : FieldTurn out name value out
  | narrow (value : Bytes) (width : value.length ≠ 16) : FieldTurn out Field.aaguid value out
  | unknown (name value : Bytes) (other : name ≠ Field.userId ∧ name ≠ Field.publicKey ∧ name ≠ Field.alg ∧
      name ≠ Field.signCount ∧ name ≠ Field.createdAt ∧ name ≠ Field.lastUsedAt ∧
      name ≠ Field.aaguid ∧ name ≠ Field.transports) : FieldTurn out name value out

theorem credentialGetField_turn {out next : Credential} {name value : Bytes}
    (stepped : credentialGetField out (name, value) = some next) : FieldTurn out name value next := by
  unfold credentialGetField at stepped
  dsimp only at stepped
  by_cases userId : name = Field.userId
  · rw [if_pos userId] at stepped
    subst userId
    cases stepped
    exact .userId value
  rw [if_neg userId] at stepped
  by_cases publicKey : name = Field.publicKey
  · rw [if_pos publicKey] at stepped
    subst publicKey
    cases stepped
    exact .publicKey value
  rw [if_neg publicKey] at stepped
  by_cases alg : name = Field.alg
  · rw [if_pos alg] at stepped
    subst alg
    obtain ⟨read, parsed, rfl⟩ := Option.map_eq_some_iff.mp stepped
    exact .alg value read parsed
  rw [if_neg alg] at stepped
  by_cases signCount : name = Field.signCount
  · rw [if_pos signCount] at stepped
    subst signCount
    obtain ⟨read, parsed, rfl⟩ := Option.map_eq_some_iff.mp stepped
    exact .signCount value read parsed
  rw [if_neg signCount] at stepped
  by_cases createdAt : name = Field.createdAt
  · rw [if_pos createdAt] at stepped
    subst createdAt
    cases parsed : credentialAtoi64 value with
    | none =>
        rw [parsed] at stepped
        cases stepped
        exact .unreadable _ value (.inl rfl) parsed
    | some time =>
        rw [parsed] at stepped
        cases stepped
        exact .createdAt value time parsed
  rw [if_neg createdAt] at stepped
  by_cases lastUsedAt : name = Field.lastUsedAt
  · rw [if_pos lastUsedAt] at stepped
    subst lastUsedAt
    cases parsed : credentialAtoi64 value with
    | none =>
        rw [parsed] at stepped
        cases stepped
        exact .unreadable _ value (.inr rfl) parsed
    | some time =>
        rw [parsed] at stepped
        cases stepped
        exact .lastUsedAt value time parsed
  rw [if_neg lastUsedAt] at stepped
  by_cases aaguid : name = Field.aaguid
  · rw [if_pos aaguid] at stepped
    subst aaguid
    by_cases width : value.length = 16
    · rw [dif_pos width] at stepped
      cases stepped
      exact .aaguid value _ rfl
    · rw [dif_neg width] at stepped
      cases stepped
      exact .narrow value width
  rw [if_neg aaguid] at stepped
  by_cases transports : name = Field.transports
  · rw [if_pos transports] at stepped
    subst transports
    cases stepped
    exact .transports value
  rw [if_neg transports] at stepped
  cases stepped
  exact .unknown name value ⟨userId, publicKey, alg, signCount, createdAt, lastUsedAt, aaguid, transports⟩

/-- What one turn of the loop leaves in the slots that later code reads. -/
theorem credentialGetField_slots {out next : Credential} {pair : Bytes × Bytes}
    (stepped : credentialGetField out pair = some next) :
    next.credentialId = out.credentialId ∧
    next.userId = (if pair.1 = Field.userId then pair.2 else out.userId) ∧
    next.publicKey = (if pair.1 = Field.publicKey then pair.2 else out.publicKey) ∧
    (if pair.1 = Field.alg then algOfText pair.2 = some next.alg else next.alg = out.alg) ∧
    (if pair.1 = Field.signCount then signCountOfText pair.2 = some next.signCount
      else next.signCount = out.signCount) := by
  obtain ⟨name, value⟩ := pair
  cases credentialGetField_turn stepped with
  | alg _ read parsed => simp +decide [parsed]
  | signCount _ read parsed => simp +decide [parsed]
  | unreadable _ _ time => rcases time with rfl | rfl <;> simp +decide
  | unknown _ _ other => simp [other.1, other.2.1, other.2.2.1, other.2.2.2.1]
  | userId | publicKey | createdAt | lastUsedAt | aaguid | transports | narrow => simp +decide

variable {server : Server} {fields : Hash} {start out : Credential} {credentialId : Bytes}

theorem mem_fieldOrder {name value : Bytes} :
    (name, value) ∈ server.fieldOrder (Hash.pairs fields) ↔ fields.lookup name = some value := by
  rw [(server.fieldOrder_perm _).mem_iff, Hash.mem_pairs]

/-- The pairs fill a slot from the value listed under its name, wherever in the
list it stands. -/
theorem slot_of_pairs {γ : Type} (slot : Credential → γ) (name : Bytes) (written : Bytes → γ → Prop)
    (turn : ∀ out next pair, credentialGetField out pair = some next →
      if pair.1 = name then written pair.2 (slot next) else slot next = slot out)
    {pairs : List (Bytes × Bytes)} {found : Option Bytes}
    (lists : ∀ value, (name, value) ∈ pairs ↔ found = some value)
    (folded : pairs.foldlM credentialGetField start = some out) :
    found.elim (slot out = slot start) fun value => written value (slot out) := by
  cases found with
  | none =>
      refine Slots.foldlM_keeps slot (fun pair member state next stepped => ?_) folded
      have other : pair.1 ≠ name := by
        intro same
        subst same
        cases (lists pair.2).mp member
      simpa [other] using turn state next pair stepped
  | some value =>
      refine Slots.foldlM_writes slot (written value) ((lists value).mpr rfl)
        (fun pair member different state next stepped => ?_)
        (fun state next stepped => by simpa using turn state next _ stepped) folded
      have other : pair.1 ≠ name := by
        intro same
        subst same
        apply different
        cases (lists pair.2).mp member
        rfl
      simpa [other] using turn state next pair stepped

/-- The pairs of a hash fill a slot from the field that names it, in whatever
order the server lists them. -/
theorem slot_of_fold {γ : Type} (slot : Credential → γ) (name : Bytes) (read : Bytes → Option γ)
    (turn : ∀ out next pair, credentialGetField out pair = some next →
      if pair.1 = name then read pair.2 = some (slot next) else slot next = slot out)
    (folded : (server.fieldOrder (Hash.pairs fields)).foldlM credentialGetField start = some out) :
    (fields.lookup name).elim (some (slot start)) read = some (slot out) := by
  have filled := slot_of_pairs slot name (fun value held => read value = some held) turn
    (fun _ => mem_fieldOrder) folded
  cases found : fields.lookup name with
  | none =>
      rw [found] at filled
      exact congrArg some filled.symm
  | some value =>
      rw [found] at filled
      exact filled

/-- What a record read from a hash has to do with the hash. -/
structure Credential.ReadFrom (out : Credential) (credentialId : Bytes) (fields : Hash) : Prop where
  credentialId : out.credentialId = credentialId
  userId : (fields.lookup Field.userId).getD [] = out.userId
  publicKey : (fields.lookup Field.publicKey).getD [] = out.publicKey
  alg : (fields.lookup Field.alg).elim (some 0) algOfText = some out.alg
  signCount : (fields.lookup Field.signCount).elim (some 0) signCountOfText = some out.signCount

theorem fold_readFrom
    (folded : (server.fieldOrder (Hash.pairs fields)).foldlM credentialGetField
      (Credential.zero credentialId) = some out) : out.ReadFrom credentialId fields where
  credentialId := Slots.foldlM_keeps Credential.credentialId
    (fun _ _ _ _ stepped => (credentialGetField_slots stepped).1) folded
  userId := by
    have filled := slot_of_fold Credential.userId Field.userId some
      (fun out next pair stepped => by
        rw [(credentialGetField_slots stepped).2.1]
        split <;> rfl) folded
    cases found : fields.lookup Field.userId <;> simpa [found, Credential.zero] using filled
  publicKey := by
    have filled := slot_of_fold Credential.publicKey Field.publicKey some
      (fun out next pair stepped => by
        rw [(credentialGetField_slots stepped).2.2.1]
        split <;> rfl) folded
    cases found : fields.lookup Field.publicKey <;> simpa [found, Credential.zero] using filled
  alg := slot_of_fold Credential.alg Field.alg algOfText
    (fun _ _ _ stepped => (credentialGetField_slots stepped).2.2.2.1) folded
  signCount := slot_of_fold Credential.signCount Field.signCount signCountOfText
    (fun _ _ _ stepped => (credentialGetField_slots stepped).2.2.2.2) folded

theorem credentialGetPairs_ok
    (read : credentialGetPairs credentialId (server.fieldOrder (Hash.pairs fields)) = .ok out) :
    out.ReadFrom credentialId fields ∧ out.publicKey ≠ [] ∧ out.alg ≠ 0 := by
  unfold credentialGetPairs at read
  split at read
  · cases read
  · cases folded : (server.fieldOrder (Hash.pairs fields)).foldlM credentialGetField
        (Credential.zero credentialId) with
    | none => simp [folded] at read
    | some result =>
        simp only [folded] at read
        split at read
        · cases read
        · rename_i usable
          cases read
          exact ⟨fold_readFrom folded, not_or.mp usable⟩

/-- A hash without a public key is never a record. -/
theorem credentialGetPairs_keyless (keyless : fields.lookup Field.publicKey = none) :
    credentialGetPairs credentialId (server.fieldOrder (Hash.pairs fields)) = .error .declined := by
  unfold credentialGetPairs
  split
  · rfl
  · cases folded : (server.fieldOrder (Hash.pairs fields)).foldlM credentialGetField
        (Credential.zero credentialId) with
    | none => rfl
    | some out =>
        have empty : out.publicKey = [] := by simpa [keyless] using (fold_readFrom folded).publicKey.symm
        simp [empty]

theorem credentialGetPairs_error {pairs : List (Bytes × Bytes)} {rc : Rc}
    (failed : credentialGetPairs credentialId pairs = .error rc) : rc = .declined := by
  unfold credentialGetPairs at failed
  split at failed
  · cases failed
    rfl
  · split at failed
    · cases failed
      rfl
    · split at failed <;> cases failed
      rfl

theorem isSome_ite {α : Type} {condition : Prop} [Decidable condition] {first second : Option α}
    (one : first.isSome = true) (other : second.isSome = true) :
    (if condition then first else second).isSome = true := by
  split
  · exact one
  · exact other

/-- The loop only stops early at a number it cannot read. -/
theorem credentialGetField_isSome {pair : Bytes × Bytes}
    (alg : pair.1 = Field.alg → (algOfText pair.2).isSome)
    (signCount : pair.1 = Field.signCount → (signCountOfText pair.2).isSome) :
    (credentialGetField out pair).isSome := by
  unfold credentialGetField
  by_cases named : pair.1 = Field.alg
  · obtain ⟨read, parsed⟩ := Option.isSome_iff_exists.mp (alg named)
    rw [named, parsed]
    rfl
  by_cases counted : pair.1 = Field.signCount
  · obtain ⟨read, parsed⟩ := Option.isSome_iff_exists.mp (signCount counted)
    rw [counted, parsed]
    rfl
  rw [if_neg named, if_neg counted]
  apply isSome_ite rfl
  apply isSome_ite rfl
  apply isSome_ite
  · cases credentialAtoi64 pair.2 <;> rfl
  apply isSome_ite
  · cases credentialAtoi64 pair.2 <;> rfl
  apply isSome_ite
  · split <;> rfl
  exact isSome_ite rfl rfl

theorem credentialGetPairs_complete (server : Server) (credentialId : Bytes) {key algText countText : Bytes} {alg : Int32}
    (hasKey : fields.lookup Field.publicKey = some key) (keyed : key ≠ [])
    (hasAlg : fields.lookup Field.alg = some algText) (algRead : algOfText algText = some alg)
    (algSet : alg ≠ 0) (hasCount : fields.lookup Field.signCount = some countText)
    (countRead : (signCountOfText countText).isSome) :
    ∃ out, credentialGetPairs credentialId (server.fieldOrder (Hash.pairs fields)) = .ok out ∧
      out.ReadFrom credentialId fields := by
  have accepts : ∀ pair ∈ server.fieldOrder (Hash.pairs fields), ∀ state,
      (credentialGetField state pair).isSome := by
    intro pair member state
    have stored := mem_fieldOrder.mp member
    refine credentialGetField_isSome (fun named => ?_) (fun named => ?_)
    · rw [named, hasAlg, Option.some.injEq] at stored
      rw [← stored, algRead]
      rfl
    · rw [named, hasCount, Option.some.injEq] at stored
      rwa [← stored]
  obtain ⟨out, folded⟩ := Slots.foldlM_isSome accepts (Credential.zero credentialId)
  have read := fold_readFrom folded
  have sameKey : out.publicKey = key := by simpa [hasKey] using read.publicKey.symm
  have sameAlg : out.alg = alg := by simpa [hasAlg, algRead] using read.alg.symm
  have listed : server.fieldOrder (Hash.pairs fields) ≠ [] :=
    List.ne_nil_of_mem (mem_fieldOrder.mpr hasKey)
  refine ⟨out, ?_, read⟩
  simp [credentialGetPairs, listed, folded, sameKey, keyed, sameAlg, algSet]

end AuthWebauthn
