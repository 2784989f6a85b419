import Mathlib.Algebra.Ring.Int.Defs
import Mathlib.Data.List.Nodup
import Mathlib.Data.Option.Basic

namespace Cbor

/-! The items that a decoder delivers.  How wide an integer was encoded is not kept:
it makes no difference to the value.
-/

inductive Item where
  | uint (value : UInt64)
  /-- The integer `-1 - value`. -/
  | negint (value : UInt64)
  | bytes (content : List UInt8)
  /-- A byte string of indefinite length, in chunks. -/
  | byteChunks (chunks : List (List UInt8))
  | text (content : List UInt8)
  | textChunks (chunks : List (List UInt8))
  | array (items : List Item)
  | map (pairs : List (Item × Item))
  | tag (number : UInt64) (content : Item)
  | simple (value : UInt8)
  | float (bits : UInt64)

namespace Item

/-- The integer that an item stands for. -/
def int? : Item → Option Int
  | .uint value => some value.toNat
  | .negint value => some (-1 - value.toNat)
  | _ => none

/-- The content of a byte string of definite length. -/
def bytes? : Item → Option (List UInt8)
  | .bytes content => some content
  | _ => none

/-- The content of a text string of definite length. -/
def text? : Item → Option (List UInt8)
  | .text content => some content
  | _ => none

theorem text?_eq_some {item : Item} {content : List UInt8} :
    item.text? = some content ↔ item = .text content := by
  cases item with
  | text held => simp [text?]
  | _ => simp [text?]

theorem bytes?_eq_some {item : Item} {content : List UInt8} :
    item.bytes? = some content ↔ item = .bytes content := by
  cases item with
  | bytes held => simp [bytes?]
  | _ => simp [bytes?]

theorem int?_range {item : Item} {value : Int} (read : item.int? = some value) :
    -2 ^ 64 ≤ value ∧ value < 2 ^ 64 := by
  cases item with
  | uint held =>
      have bound := held.toNat_lt
      simp only [int?, Option.some.injEq] at read
      omega
  | negint held =>
      have bound := held.toNat_lt
      simp only [int?, Option.some.injEq] at read
      omega
  | _ => cases read

/-- An integer is one item only. -/
theorem int?_inj {first second : Item} {value : Int} (left : first.int? = some value)
    (right : second.int? = some value) : first = second := by
  cases first with
  | uint held =>
      cases second with
      | uint other =>
          simp only [int?, Option.some.injEq] at left right
          rw [UInt64.toNat_inj.mp (by omega : held.toNat = other.toNat)]
      | negint other =>
          simp only [int?, Option.some.injEq] at left right
          omega
      | _ => cases right
  | negint held =>
      cases second with
      | uint other =>
          simp only [int?, Option.some.injEq] at left right
          omega
      | negint other =>
          simp only [int?, Option.some.injEq] at left right
          rw [UInt64.toNat_inj.mp (by omega : held.toNat = other.toNat)]
      | _ => cases right
  | _ => cases left

end Item

/-- No key occurs twice. -/
def DistinctKeys (pairs : List (Item × Item)) : Prop := (pairs.map Prod.fst).Nodup

theorem DistinctKeys.value_eq {pairs : List (Item × Item)} (distinct : DistinctKeys pairs)
    {key first second : Item} (left : (key, first) ∈ pairs) (right : (key, second) ∈ pairs) :
    first = second := by
  have same := List.inj_on_of_nodup_map distinct left right rfl
  exact (Prod.mk.inj same).2

/-- The map has `item` under the integer `label`. -/
def At (pairs : List (Item × Item)) (label : Int) (item : Item) : Prop :=
  ∃ key, (key, item) ∈ pairs ∧ key.int? = some label

theorem At.unique {pairs : List (Item × Item)} (distinct : DistinctKeys pairs) {label : Int}
    {first second : Item} (left : At pairs label first) (right : At pairs label second) :
    first = second := by
  obtain ⟨key, member, read⟩ := left
  obtain ⟨other, otherMember, otherRead⟩ := right
  obtain rfl := Item.int?_inj read otherRead
  exact distinct.value_eq member otherMember

/-- The map has the integer `value` under the integer `label`. -/
def IntAt (pairs : List (Item × Item)) (label value : Int) : Prop :=
  ∃ item, At pairs label item ∧ item.int? = some value

instance (pairs : List (Item × Item)) (label value : Int) : Decidable (IntAt pairs label value) :=
  decidable_of_iff (∃ pair ∈ pairs, pair.1.int? = some label ∧ pair.2.int? = some value) (by
    constructor
    · rintro ⟨⟨key, item⟩, member, named, read⟩
      exact ⟨item, ⟨key, member, named⟩, read⟩
    · rintro ⟨item, ⟨key, member, named⟩, read⟩
      exact ⟨(key, item), member, named, read⟩)

/-- The map has the byte string `content` under the integer `label`. -/
def BytesAt (pairs : List (Item × Item)) (label : Int) (content : List UInt8) : Prop :=
  ∃ item, At pairs label item ∧ item.bytes? = some content

/-- The other integer that an item can hold with the same low 64 bits. -/
def twin (value : Int) : Int := if value < 0 then value + 2 ^ 64 else value - 2 ^ 64

theorem ofInt_eq_iff {value target : Int} (low : -2 ^ 64 ≤ value) (high : value < 2 ^ 64)
    (least : -2 ^ 63 ≤ target) (most : target < 2 ^ 63) :
    Int64.ofInt value = Int64.ofInt target ↔ value = target ∨ value = twin target := by
  have wrapped : Int64.ofInt value = Int64.ofInt target ↔ ((2 ^ 64 : Nat) : Int) ∣ value - target := by
    rw [← Int64.toInt_inj, Int64.toInt_ofInt, Int64.toInt_ofInt]
    exact Int.bmod_eq_bmod_iff_bmod_sub_eq_zero.trans Int.dvd_iff_bmod_eq_zero.symm
  rw [wrapped, twin]
  split <;> omega

end Cbor
