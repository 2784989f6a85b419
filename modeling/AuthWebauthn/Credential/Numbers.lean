import AuthWebauthn.Credential.Record
import AuthWebauthn.Data.Checked

namespace AuthWebauthn

/-! `atoi64` reads exactly the numerals whose value fits in 64 bits.  The same function
once more with every operation checked: an outer `none` is an operation that leaves
its range.
-/

def atoi64LoopChecked (limit : UInt64) : UInt64 → Bytes → Option (Option UInt64)
  | acc, [] => some (some acc)
  | acc, byte :: rest =>
      if byte < 48 ∨ byte > 57 then some none
      else do
        let room ← Checked.subUInt64 limit (byte - 48).toUInt64
        if acc > room / 10 then return none
        else
          let next ← Checked.addUInt64 (← Checked.mulUInt64 acc 10) (byte - 48).toUInt64
          atoi64LoopChecked limit next rest

def credentialAtoi64Checked : Bytes → Option (Option Int64)
  | [] => some none
  | byte :: rest =>
      if byte = 45 then
        if rest = [] then some none
        else do
          let limit ← Checked.addUInt64 9223372036854775807 1
          match ← atoi64LoopChecked limit 0 rest with
          | none => return none
          | some acc => (Checked.negInt64 acc.toInt64).map some
      else do
        match ← atoi64LoopChecked 9223372036854775807 0 (byte :: rest) with
        | none => return none
        | some acc => return some acc.toInt64

/-- An optional sign and at least one digit, with the number they denote. -/
inductive Numeral : Bytes → Int → Prop where
  | unsigned {text : Bytes} (some_digit : text ≠ []) (digits : ∀ byte ∈ text, Decimal.IsDigit byte) :
      Numeral text (Decimal.valueFrom 0 text)
  | negative {text : Bytes} (some_digit : text ≠ []) (digits : ∀ byte ∈ text, Decimal.IsDigit byte) :
      Numeral (45 :: text) (-(Decimal.valueFrom 0 text : Int))

section Digit

variable {limit acc : UInt64} {byte : UInt8}

theorem isDigit_iff : Decimal.IsDigit byte ↔ ¬ (byte < 48 ∨ byte > 57) := by
  have low : (48 : UInt8).toNat = 48 := rfl
  have high : (57 : UInt8).toNat = 57 := rfl
  rw [UInt8.lt_iff_toNat_lt, gt_iff_lt, UInt8.lt_iff_toNat_lt, Decimal.IsDigit]
  omega

theorem digit_toNat (digit : Decimal.IsDigit byte) : (byte - 48).toUInt64.toNat = byte.toNat - 48 := by
  have lower : (48 : UInt8) ≤ byte := UInt8.le_iff_toNat_le.mpr digit.1
  rw [UInt8.toNat_toUInt64, UInt8.toNat_sub_of_le _ _ lower]
  rfl

theorem digit_le (digit : Decimal.IsDigit byte) (room : 9 ≤ limit.toNat) :
    (byte - 48).toUInt64.toNat ≤ limit.toNat := by
  have upper := digit.2
  rw [digit_toNat digit]
  omega

/-- The division in the overflow test loses nothing. -/
theorem overLimit_iff (digit : Decimal.IsDigit byte) (room : 9 ≤ limit.toNat) :
    acc > (limit - (byte - 48).toUInt64) / 10 ↔ limit.toNat < acc.toNat * 10 + (byte.toNat - 48) := by
  have ten : (10 : UInt64).toNat = 10 := rfl
  have order : (byte - 48).toUInt64 ≤ limit := UInt64.le_iff_toNat_le.mpr (digit_le digit room)
  have small := digit_le digit room
  rw [digit_toNat digit] at small
  rw [gt_iff_lt, UInt64.lt_iff_toNat_lt, UInt64.toNat_div, UInt64.toNat_sub_of_le _ _ order,
    digit_toNat digit, ten]
  omega

theorem next_toNat (digit : Decimal.IsDigit byte)
    (within : acc.toNat * 10 + (byte.toNat - 48) ≤ limit.toNat) :
    (acc * 10 + (byte - 48).toUInt64).toNat = acc.toNat * 10 + (byte.toNat - 48) := by
  have ten : (10 : UInt64).toNat = 10 := rfl
  have bounded := limit.toNat_lt
  rw [UInt64.toNat_add, UInt64.toNat_mul, digit_toNat digit, ten]
  omega

end Digit

/-- The digits that the loop accepts, from the value accumulated so far. -/
def LoopAccepts (limit : UInt64) (acc : UInt64) (text : Bytes) : Prop :=
  (∀ byte ∈ text, Decimal.IsDigit byte) ∧ Decimal.valueFrom acc.toNat text ≤ limit.toNat

theorem atoi64Loop_eq_some_iff {limit : UInt64} (room : 9 ≤ limit.toNat) {acc : UInt64}
    (below : acc.toNat ≤ limit.toNat) (text : Bytes) (result : UInt64) :
    atoi64Loop limit acc text = some result ↔
      LoopAccepts limit acc text ∧ result.toNat = Decimal.valueFrom acc.toNat text := by
  induction text generalizing acc with
  | nil =>
      simp only [atoi64Loop, LoopAccepts, Option.some.injEq, List.not_mem_nil, false_implies,
        implies_true, true_and, Decimal.valueFrom_nil, ← UInt64.toNat_inj]
      exact ⟨fun same => ⟨below, same.symm⟩, fun same => same.2.symm⟩
  | cons byte rest ih =>
      by_cases digit : Decimal.IsDigit byte
      · by_cases exceeded : limit.toNat < acc.toNat * 10 + (byte.toNat - 48)
        · have grown := Decimal.valueFrom_ge (acc.toNat * 10 + (byte.toNat - 48)) rest
          rw [atoi64Loop, if_neg (isDigit_iff.mp digit), if_pos ((overLimit_iff digit room).mpr exceeded)]
          apply iff_of_false (by simp)
          intro accepted
          have fits := accepted.1.2
          rw [Decimal.valueFrom_cons] at fits
          omega
        · have within : acc.toNat * 10 + (byte.toNat - 48) ≤ limit.toNat := Nat.le_of_not_lt exceeded
          have next := next_toNat digit within
          rw [atoi64Loop, if_neg (isDigit_iff.mp digit),
            if_neg (fun high => exceeded ((overLimit_iff digit room).mp high)), ih (by rw [next]; exact within),
            LoopAccepts, LoopAccepts, next, Decimal.valueFrom_cons, List.forall_mem_cons]
          simp only [digit, true_and]
      · rw [atoi64Loop, if_pos (not_not.mp (fun range => digit (isDigit_iff.mpr range)))]
        apply iff_of_false (by simp)
        intro accepted
        exact digit (accepted.1.1 byte (by simp))

/-- No operation of the loop wraps around, on any input. -/
theorem atoi64LoopChecked_eq {limit : UInt64} (room : 9 ≤ limit.toNat) (acc : UInt64) (text : Bytes) :
    atoi64LoopChecked limit acc text = some (atoi64Loop limit acc text) := by
  induction text generalizing acc with
  | nil => rfl
  | cons byte rest ih =>
      by_cases digit : Decimal.IsDigit byte
      · have range := isDigit_iff.mp digit
        have subtracted := Checked.subUInt64_eq (digit_le digit room)
        by_cases exceeded : acc > (limit - (byte - 48).toUInt64) / 10
        · rw [atoi64LoopChecked, atoi64Loop, if_neg range, if_neg range, subtracted, if_pos exceeded]
          exact if_pos exceeded
        · have within := Nat.le_of_not_lt (fun high => exceeded ((overLimit_iff digit room).mpr high))
          have bounded := limit.toNat_lt
          have multiplied : Checked.mulUInt64 acc 10 = some (acc * 10) := by
            apply Checked.mulUInt64_eq
            have ten : (10 : UInt64).toNat = 10 := rfl
            rw [ten]
            omega
          have product : (acc * 10).toNat = acc.toNat * 10 := by
            have ten : (10 : UInt64).toNat = 10 := rfl
            rw [UInt64.toNat_mul, ten]
            omega
          have added : Checked.addUInt64 (acc * 10) (byte - 48).toUInt64 =
              some (acc * 10 + (byte - 48).toUInt64) := by
            apply Checked.addUInt64_eq
            rw [product, digit_toNat digit]
            omega
          rw [atoi64LoopChecked, atoi64Loop, if_neg range, if_neg range, subtracted, if_neg exceeded]
          simp only [Option.bind_eq_bind, Option.bind_some, if_neg exceeded, multiplied, added, ih]
      · have range := not_not.mp (fun range => digit (isDigit_iff.mpr range))
        rw [atoi64LoopChecked, atoi64Loop, if_pos range, if_pos range]

theorem not_isDigit_minus : ¬ Decimal.IsDigit 45 := by
  intro digit
  exact absurd digit.1 (by decide)

theorem not_numeral_nil {value : Int} : ¬ Numeral [] value := by
  intro numeral
  cases numeral with
  | unsigned some_digit => exact some_digit rfl

theorem numeral_minus_iff {rest : Bytes} {value : Int} :
    Numeral (45 :: rest) value ↔ rest ≠ [] ∧ (∀ byte ∈ rest, Decimal.IsDigit byte) ∧
      value = -(Decimal.valueFrom 0 rest : Int) := by
  constructor
  · intro numeral
    cases numeral with
    | unsigned some_digit digits => exact absurd (digits 45 (by simp)) not_isDigit_minus
    | negative some_digit digits => exact ⟨some_digit, digits, rfl⟩
  · intro parts
    obtain ⟨some_digit, digits, rfl⟩ := parts
    exact .negative some_digit digits

theorem numeral_unsigned_iff {byte : UInt8} {rest : Bytes} {value : Int} (unsigned : byte ≠ 45) :
    Numeral (byte :: rest) value ↔ (∀ later ∈ byte :: rest, Decimal.IsDigit later) ∧
      value = Decimal.valueFrom 0 (byte :: rest) := by
  constructor
  · intro numeral
    cases numeral with
    | unsigned some_digit digits => exact ⟨digits, rfl⟩
    | negative some_digit digits => exact absurd rfl unsigned
  · intro parts
    obtain ⟨digits, rfl⟩ := parts
    exact .unsigned (by simp) digits

theorem positiveLimit : (9223372036854775807 : UInt64).toNat = 2 ^ 63 - 1 := rfl

theorem negativeLimit : (9223372036854775807 + 1 : UInt64).toNat = 2 ^ 63 := rfl

theorem negativeRoom : 9 ≤ (9223372036854775807 + 1 : UInt64).toNat := by decide

theorem toInt64_eq_ofNat (acc : UInt64) : acc.toInt64 = Int64.ofNat acc.toNat := by
  rw [← UInt64.toInt64_ofNat', UInt64.ofNat_toNat]

theorem toInt64_toInt {acc : UInt64} (fits : acc.toNat ≤ 2 ^ 63 - 1) : acc.toInt64.toInt = acc.toNat := by
  rw [toInt64_eq_ofNat, Int64.toInt_ofNat_of_lt (by omega)]

/-- The negation gives the right value at the lower end too, where it wraps around. -/
theorem neg_toInt64_toInt {acc : UInt64} (fits : acc.toNat ≤ 2 ^ 63) :
    (-acc.toInt64).toInt = -(acc.toNat : Int) := by
  rw [toInt64_eq_ofNat, Int64.toInt_neg_ofNat_of_le fits]

/-- What the loop accepts from the start, for a conversion that keeps what fits. -/
theorem atoi64Loop_map_iff {limit : UInt64} (room : 9 ≤ limit.toNat) {convert : UInt64 → Int64}
    {sign : Int} (exact : ∀ acc, acc.toNat ≤ limit.toNat → (convert acc).toInt = sign * acc.toNat)
    (inRange : ∀ (value : Int64) (magnitude : Nat), value.toInt = sign * magnitude → magnitude ≤ limit.toNat)
    (text : Bytes) (value : Int64) :
    (atoi64Loop limit 0 text).map convert = some value ↔
      (∀ byte ∈ text, Decimal.IsDigit byte) ∧ value.toInt = sign * (Decimal.valueFrom 0 text : Nat) := by
  have below : (0 : UInt64).toNat ≤ limit.toNat := Nat.zero_le _
  have looped := atoi64Loop_eq_some_iff room below text
  rw [Option.map_eq_some_iff]
  constructor
  · intro converted
    obtain ⟨acc, read, rfl⟩ := converted
    obtain ⟨⟨digits, fits⟩, same⟩ := (looped acc).mp read
    refine ⟨digits, ?_⟩
    rw [exact acc (by rw [same]; exact fits), same]
    rfl
  · intro numeral
    obtain ⟨digits, same⟩ := numeral
    have fits := inRange value _ same
    have bounded := limit.toNat_lt
    have kept : (UInt64.ofNat (Decimal.valueFrom 0 text)).toNat = Decimal.valueFrom 0 text :=
      UInt64.toNat_ofNat_of_lt' (Nat.lt_of_le_of_lt fits bounded)
    refine ⟨UInt64.ofNat (Decimal.valueFrom 0 text), (looped _).mpr ⟨⟨digits, fits⟩, kept⟩, ?_⟩
    apply Int64.toInt_inj.mp
    rw [exact _ (by rw [kept]; exact fits), kept, same]

theorem credentialAtoi64_eq_some_iff (text : Bytes) (value : Int64) :
    credentialAtoi64 text = some value ↔ Numeral text value.toInt := by
  cases text with
  | nil =>
      apply iff_of_false (by simp [credentialAtoi64])
      exact not_numeral_nil
  | cons byte rest =>
      by_cases minus : byte = 45
      · subst minus
        have exact : ∀ acc : UInt64, acc.toNat ≤ (9223372036854775807 + 1 : UInt64).toNat →
            (-acc.toInt64).toInt = -1 * (acc.toNat : Int) := by
          intro acc fits
          rw [negativeLimit] at fits
          rw [neg_toInt64_toInt fits, Int.neg_one_mul]
        have inRange : ∀ (value : Int64) (magnitude : Nat), value.toInt = -1 * (magnitude : Int) →
            magnitude ≤ (9223372036854775807 + 1 : UInt64).toNat := by
          intro value magnitude same
          have lower := value.le_toInt
          rw [negativeLimit]
          omega
        rw [numeral_minus_iff, credentialAtoi64, if_pos rfl]
        by_cases empty : rest = []
        · simp [empty]
        · rw [if_neg empty, atoi64Loop_map_iff negativeRoom exact inRange, Int.neg_one_mul]
          exact ⟨fun read => ⟨empty, read⟩, fun read => read.2⟩
      · have exact : ∀ acc : UInt64, acc.toNat ≤ (9223372036854775807 : UInt64).toNat →
            acc.toInt64.toInt = 1 * (acc.toNat : Int) := by
          intro acc fits
          rw [positiveLimit] at fits
          rw [toInt64_toInt fits, Int.one_mul]
        have inRange : ∀ (value : Int64) (magnitude : Nat), value.toInt = 1 * (magnitude : Int) →
            magnitude ≤ (9223372036854775807 : UInt64).toNat := by
          intro value magnitude same
          have upper := value.toInt_lt
          rw [positiveLimit]
          omega
        rw [numeral_unsigned_iff minus, credentialAtoi64, if_neg minus,
          atoi64Loop_map_iff (by decide) exact inRange, Int.one_mul]

theorem credentialAtoi64Checked_unsigned {byte : UInt8} (minus : byte ≠ 45) (rest : Bytes) :
    credentialAtoi64Checked (byte :: rest) = some (credentialAtoi64 (byte :: rest)) := by
  rw [credentialAtoi64Checked, credentialAtoi64, if_neg minus, if_neg minus,
    atoi64LoopChecked_eq (by decide)]
  cases atoi64Loop 9223372036854775807 0 (byte :: rest) <;> rfl

theorem credentialAtoi64Checked_minus {rest : Bytes} (some_digit : rest ≠ []) :
    credentialAtoi64Checked (45 :: rest) =
      match atoi64Loop (9223372036854775807 + 1) 0 rest with
      | none => some none
      | some acc => (Checked.negInt64 acc.toInt64).map some := by
  have limit : Checked.addUInt64 9223372036854775807 1 = some (9223372036854775807 + 1) := by decide
  rw [credentialAtoi64Checked, if_pos rfl, if_neg some_digit, limit]
  simp only [Option.bind_eq_bind, Option.bind_some, atoi64LoopChecked_eq negativeRoom]
  cases atoi64Loop (9223372036854775807 + 1) 0 rest <;> rfl

/-- The cast of the magnitude is the one value that has no negation exactly at 2^63. -/
theorem negInt64_magnitude_iff {acc : UInt64} (fits : acc.toNat ≤ 2 ^ 63) :
    Checked.negInt64 acc.toInt64 = some (-acc.toInt64) ↔ acc.toNat ≠ 2 ^ 63 := by
  rw [Checked.negInt64_eq_iff]
  by_cases least : acc.toNat = 2 ^ 63
  · have same : acc = 9223372036854775807 + 1 := UInt64.toNat_inj.mp (least.trans negativeLimit.symm)
    subst same
    exact ⟨fun other => absurd (by decide) other, fun other => absurd least other⟩
  · rw [toInt64_toInt (by omega)]
    exact ⟨fun _ => least, fun _ => by omega⟩

theorem credentialAtoi64Checked_minus_iff {rest : Bytes} (some_digit : rest ≠ []) :
    credentialAtoi64Checked (45 :: rest) = some (credentialAtoi64 (45 :: rest)) ↔
      ¬ Numeral (45 :: rest) (-2 ^ 63) := by
  have below : (0 : UInt64).toNat ≤ (9223372036854775807 + 1 : UInt64).toNat := by decide
  have looped := atoi64Loop_eq_some_iff negativeRoom below rest
  rw [credentialAtoi64Checked_minus some_digit, credentialAtoi64, if_pos rfl, if_neg some_digit,
    numeral_minus_iff]
  cases read : atoi64Loop (9223372036854775807 + 1) 0 rest with
  | none =>
      refine ⟨fun _ numeral => ?_, fun _ => rfl⟩
      obtain ⟨_, digits, least⟩ := numeral
      have value : Decimal.valueFrom 0 rest = 2 ^ 63 := by omega
      have accepted := (looped (9223372036854775807 + 1)).mpr
        ⟨⟨digits, by rw [negativeLimit]; exact Nat.le_of_eq value⟩, negativeLimit.trans value.symm⟩
      rw [read] at accepted
      cases accepted
  | some acc =>
      obtain ⟨⟨digits, fits⟩, same⟩ := (looped acc).mp read
      rw [negativeLimit, ← same] at fits
      have magnitude : acc.toNat = Decimal.valueFrom 0 rest := same
      have negated : (Checked.negInt64 acc.toInt64).map some = some (some (-acc.toInt64)) ↔
          Checked.negInt64 acc.toInt64 = some (-acc.toInt64) := by simp
      simp only [Option.map_some, negated, negInt64_magnitude_iff fits]
      constructor
      · intro other numeral
        have least := numeral.2.2
        omega
      · intro other least
        exact other ⟨some_digit, digits, by omega⟩

theorem credentialAtoi64Checked_eq_iff (text : Bytes) :
    credentialAtoi64Checked text = some (credentialAtoi64 text) ↔ ¬ Numeral text (-2 ^ 63) := by
  cases text with
  | nil => exact ⟨fun _ => not_numeral_nil, fun _ => rfl⟩
  | cons byte rest =>
      by_cases minus : byte = 45
      · subst minus
        by_cases empty : rest = []
        · subst empty
          rw [numeral_minus_iff]
          exact ⟨fun _ numeral => numeral.1 rfl, fun _ => rfl⟩
        · exact credentialAtoi64Checked_minus_iff empty
      · rw [numeral_unsigned_iff minus]
        refine ⟨fun _ numeral => ?_, fun _ => credentialAtoi64Checked_unsigned minus rest⟩
        have positive := numeral.2
        omega

/-- `atoi64` on one text: it returns a value exactly for a numeral of 64 bits, and then that
value; and no operation on the way leaves its range. -/
structure Atoi64Exact (text : Bytes) : Prop where
  exact : ∀ value : Int64, credentialAtoi64 text = some value ↔ Numeral text value.toInt
  inRange : credentialAtoi64Checked text = some (credentialAtoi64 text)

/-- Every text is read as it should be, but for the spellings of the least 64-bit number:
there the negated magnitude is no longer a number of 64 bits. -/
theorem atoi64_exact_iff (text : Bytes) : Atoi64Exact text ↔ ¬ Numeral text (-2 ^ 63) := by
  constructor
  · intro exact
    exact (credentialAtoi64Checked_eq_iff text).mp exact.inRange
  · intro other
    exact ⟨credentialAtoi64_eq_some_iff text, (credentialAtoi64Checked_eq_iff text).mpr other⟩

theorem atoi64_least_overflows : ¬ Atoi64Exact (ascii "-9223372036854775808") := by
  intro exact
  have checked := exact.inRange
  revert checked
  decide

end AuthWebauthn
