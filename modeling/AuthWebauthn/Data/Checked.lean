import Mathlib.Algebra.Group.Nat.Defs
import Mathlib.Algebra.Ring.Int.Defs

namespace Checked

/-! Each operation with the condition under which its exact result is a value of the
type.  `none` is an unsigned result that wraps around, or a signed one for which the
language defines nothing.
-/

def addUInt64 (left right : UInt64) : Option UInt64 :=
  if left.toNat + right.toNat < 2 ^ 64 then some (left + right) else none

def mulUInt64 (left right : UInt64) : Option UInt64 :=
  if left.toNat * right.toNat < 2 ^ 64 then some (left * right) else none

def subUInt64 (left right : UInt64) : Option UInt64 :=
  if right.toNat ≤ left.toNat then some (left - right) else none

def negInt64 (value : Int64) : Option Int64 :=
  if -value.toInt < 2 ^ 63 then some (-value) else none

/-- A shift to the left of a value that is not negative. -/
def shlInt32 (value : Int32) (count : Nat) : Option Int32 :=
  if 0 ≤ value.toInt ∧ value.toInt * 2 ^ count < 2 ^ 31 then some (value <<< Int32.ofNat count) else none

theorem addUInt64_eq {left right : UInt64} (fits : left.toNat + right.toNat < 2 ^ 64) :
    addUInt64 left right = some (left + right) :=
  if_pos fits

theorem mulUInt64_eq {left right : UInt64} (fits : left.toNat * right.toNat < 2 ^ 64) :
    mulUInt64 left right = some (left * right) :=
  if_pos fits

theorem subUInt64_eq {left right : UInt64} (fits : right.toNat ≤ left.toNat) :
    subUInt64 left right = some (left - right) :=
  if_pos fits

theorem negInt64_eq_iff {value : Int64} : negInt64 value = some (-value) ↔ value.toInt ≠ -2 ^ 63 := by
  have lower := value.le_toInt
  unfold negInt64
  split_ifs with fits
  · exact iff_of_true rfl (by omega)
  · apply iff_of_false (by simp)
    omega

end Checked
