import Mathlib.Data.Nat.Basic
import Mathlib.Tactic.IntervalCases

namespace Decimal

/-! `digits` and `ofInt` are what the printf conversions `%lu` and `%d`/`%lld`
write.  `valueFrom` reads a digit string back, starting from a value already
accumulated, the way a digit-by-digit parser does.
-/

def digits (value : Nat) : List UInt8 :=
  (Nat.toDigits 10 value).map fun char => UInt8.ofNat char.toNat

def ofInt (value : Int) : List UInt8 :=
  if value < 0 then 45 :: digits value.natAbs else digits value.natAbs

def IsDigit (byte : UInt8) : Prop := 48 ≤ byte.toNat ∧ byte.toNat ≤ 57

def valueFrom (start : Nat) (text : List UInt8) : Nat :=
  text.foldl (fun value byte => value * 10 + (byte.toNat - 48)) start

private theorem digitByte_toNat {digit : Nat} (small : digit < 10) :
    (UInt8.ofNat (Nat.digitChar digit).toNat).toNat = 48 + digit := by
  interval_cases digit <;> rfl

theorem digits_small {value : Nat} (small : value < 10) :
    digits value = [UInt8.ofNat (Nat.digitChar value).toNat] := by
  simp [digits, Nat.toDigits_of_lt_base small]

theorem digits_large {value : Nat} (large : 10 ≤ value) :
    digits value = digits (value / 10) ++ [UInt8.ofNat (Nat.digitChar (value % 10)).toNat] := by
  simp [digits, Nat.toDigits_of_base_le (by decide : 1 < 10) large]

theorem digits_ne_nil (value : Nat) : digits value ≠ [] := by
  simp [digits]

theorem digits_length_le {value k : Nat} (some_digit : 0 < k) (bound : value < 10 ^ k) :
    (digits value).length ≤ k := by
  rw [digits, List.length_map, Nat.length_toDigits_le_iff (by decide) some_digit]
  exact bound

theorem ofInt_length_le {value : Int} {k : Nat} (some_digit : 0 < k) (lower : -(10 ^ k : Nat) < value)
    (upper : value < (10 ^ k : Nat)) : (ofInt value).length ≤ k + 1 := by
  have short : (digits value.natAbs).length ≤ k := digits_length_le some_digit (by omega)
  unfold ofInt
  split_ifs
  · exact Nat.succ_le_succ short
  · exact Nat.le_succ_of_le short

theorem digits_isDigit (value : Nat) : ∀ byte ∈ digits value, IsDigit byte := by
  induction value using Nat.strongRecOn with
  | ind value ih =>
      by_cases small : value < 10
      · rw [digits_small small]
        intro byte member
        obtain rfl := List.mem_singleton.mp member
        have code := digitByte_toNat small
        exact ⟨by omega, by omega⟩
      · rw [digits_large (by omega)]
        intro byte member
        rcases List.mem_append.mp member with front | last
        · exact ih (value / 10) (by omega) byte front
        · obtain rfl := List.mem_singleton.mp last
          have code := digitByte_toNat (Nat.mod_lt value (by decide : 0 < 10))
          exact ⟨by omega, by omega⟩

theorem ofInt_ne_nil (value : Int) : ofInt value ≠ [] := by
  unfold ofInt
  split_ifs
  · exact List.cons_ne_nil _ _
  · exact digits_ne_nil value.natAbs

/-- The sign and the digits lie close together. -/
theorem ofInt_bytes (value : Int) : ∀ byte ∈ ofInt value, 45 ≤ byte.toNat ∧ byte.toNat ≤ 57 := by
  have inside : ∀ byte ∈ digits value.natAbs, 45 ≤ byte.toNat ∧ byte.toNat ≤ 57 := by
    intro byte member
    have digit := digits_isDigit value.natAbs byte member
    exact ⟨Nat.le_trans (by decide) digit.1, digit.2⟩
  intro byte member
  unfold ofInt at member
  split_ifs at member
  · rcases List.mem_cons.mp member with rfl | later
    · decide
    · exact inside byte later
  · exact inside byte member

@[simp] theorem valueFrom_nil (start : Nat) : valueFrom start [] = start := rfl

@[simp] theorem valueFrom_cons (start : Nat) (byte : UInt8) (text : List UInt8) :
    valueFrom start (byte :: text) = valueFrom (start * 10 + (byte.toNat - 48)) text := by
  simp only [valueFrom, List.foldl_cons]

theorem valueFrom_append (start : Nat) (front back : List UInt8) :
    valueFrom start (front ++ back) = valueFrom (valueFrom start front) back :=
  List.foldl_append

/-- Reading digits never lowers the accumulated value. -/
theorem valueFrom_ge (start : Nat) (text : List UInt8) : start ≤ valueFrom start text := by
  induction text generalizing start with
  | nil => exact Nat.le_refl _
  | cons byte text ih =>
      have grown := ih (start * 10 + (byte.toNat - 48))
      simp only [valueFrom_cons]
      omega

theorem valueFrom_digits (value : Nat) : valueFrom 0 (digits value) = value := by
  induction value using Nat.strongRecOn with
  | ind value ih =>
      by_cases small : value < 10
      · rw [digits_small small, valueFrom_cons, valueFrom_nil, digitByte_toNat small]
        omega
      · rw [digits_large (by omega), valueFrom_append, ih (value / 10) (by omega),
          valueFrom_cons, valueFrom_nil,
          digitByte_toNat (Nat.mod_lt value (by decide : 0 < 10))]
        omega

/-- No leading zero: the first digit is `0` only for zero itself. -/
theorem digits_head_ne_zero {value : Nat} (positive : 0 < value) :
    (digits value).head (digits_ne_nil value) ≠ 48 := by
  induction value using Nat.strongRecOn with
  | ind value ih =>
      by_cases small : value < 10
      · intro zero
        have code := digitByte_toNat small
        simp only [digits_small small, List.head_cons] at zero
        rw [zero] at code
        have fortyEight : (48 : UInt8).toNat = 48 := rfl
        omega
      · have first := ih (value / 10) (by omega) (by omega)
        intro zero
        apply first
        simp only [digits_large (show 10 ≤ value by omega)] at zero
        rwa [List.head_append_of_ne_nil (digits_ne_nil _)] at zero

end Decimal
