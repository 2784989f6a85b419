import AuthWebauthn.Data.Decimal
import Mathlib.Data.List.TakeWhile

namespace Strtol

/-! Leading white space and a sign are read over, and a value out of range becomes the nearest one.
Without a digit nothing is read.
-/

def isSpace (byte : UInt8) : Bool := byte == 32 || (9 ≤ byte && byte ≤ 13)

def isDigit (byte : UInt8) : Bool := 48 ≤ byte && byte ≤ 57

def splitSign : List UInt8 → Bool × List UInt8
  | [] => (false, [])
  | byte :: rest => if byte = 45 then (true, rest) else if byte = 43 then (false, rest) else (false, byte :: rest)

def clampLong (value : Int) : Int := max (-9223372036854775808) (min 9223372036854775807 value)

/-- The value, and what stands behind it. -/
def strtol (text : List UInt8) : Int × List UInt8 :=
  let signed := splitSign (text.dropWhile isSpace)
  let run := signed.2.takeWhile isDigit
  if run = [] then (0, text)
  else
    let value : Int := Decimal.valueFrom 0 run
    (clampLong (if signed.1 then -value else value), signed.2.dropWhile isDigit)

theorem isDigit_iff {byte : UInt8} : isDigit byte = true ↔ Decimal.IsDigit byte := by
  simp [isDigit, Decimal.IsDigit, UInt8.le_iff_toNat_le]

/-- A run of digits is read whole. -/
theorem strtol_run {run : List UInt8} (nonempty : run ≠ []) (all : ∀ byte ∈ run, isDigit byte = true) :
    strtol run = (clampLong (Decimal.valueFrom 0 run), []) := by
  cases run with
  | nil => exact absurd rfl nonempty
  | cons byte rest =>
      have digit := isDigit_iff.mp (all byte (List.mem_cons_self ..))
      have noSpace : isSpace byte = false := by
        have bounds := digit
        unfold Decimal.IsDigit at bounds
        simp only [isSpace, Bool.or_eq_false_iff, Bool.and_eq_false_iff, beq_eq_false_iff_ne, ne_eq,
          decide_eq_false_iff_not, UInt8.le_iff_toNat_le, ← UInt8.toNat_inj]
        have : (32 : UInt8).toNat = 32 := rfl
        have : (13 : UInt8).toNat = 13 := rfl
        omega
      have noSign : splitSign (byte :: rest) = (false, byte :: rest) := by
        have minus : byte ≠ 45 := by
          intro same
          subst same
          exact absurd digit.1 (by decide)
        have plus : byte ≠ 43 := by
          intro same
          subst same
          exact absurd digit.1 (by decide)
        simp [splitSign, minus, plus]
      have start : (byte :: rest).dropWhile isSpace = byte :: rest := by
        simp [noSpace]
      unfold strtol
      rw [start, noSign]
      simp only
      rw [List.takeWhile_eq_self_iff.mpr all, List.dropWhile_eq_nil_iff.mpr all, if_neg nonempty]
      simp

theorem clampLong_of_fits {value : Int} (lower : -9223372036854775808 ≤ value)
    (upper : value ≤ 9223372036854775807) : clampLong value = value := by
  unfold clampLong
  omega

end Strtol
