import Mathlib.Logic.Function.Basic

/-! The two views of one relation are kept apart and written separately.  They
agree as long as no key changes owner without being removed first.
-/

structure Catalog (K V : Type) where
  owner : K → Option V
  listed : V → K → Prop

namespace Catalog

variable {K V : Type} {catalog : Catalog K V} {key : K} {value : V}

@[ext] theorem ext {left right : Catalog K V} (owners : ∀ key, left.owner key = right.owner key)
    (lists : ∀ value key, left.listed value key ↔ right.listed value key) : left = right := by
  obtain ⟨leftOwner, leftListed⟩ := left
  obtain ⟨rightOwner, rightListed⟩ := right
  obtain rfl : leftOwner = rightOwner := funext owners
  obtain rfl : leftListed = rightListed := funext fun value => funext fun key => propext (lists value key)
  rfl

def Consistent (catalog : Catalog K V) : Prop :=
  ∀ value key, catalog.listed value key ↔ catalog.owner key = some value

variable [DecidableEq K]

/-- Give `key` a new owner and list it there; its other listings stay. -/
def put (catalog : Catalog K V) (key : K) (value : V) : Catalog K V where
  owner := Function.update catalog.owner key (some value)
  listed other listing := catalog.listed other listing ∨ (other = value ∧ listing = key)

/-- Drop `key` and its listing under its present owner. -/
def remove (catalog : Catalog K V) (key : K) : Catalog K V where
  owner := Function.update catalog.owner key none
  listed other listing :=
    catalog.listed other listing ∧ ¬ (catalog.owner key = some other ∧ listing = key)

theorem Consistent.put_iff (consistent : catalog.Consistent) :
    (catalog.put key value).Consistent ↔ ∀ old, catalog.owner key = some old → old = value := by
  constructor
  · intro agree old owned
    have listed : (catalog.put key value).listed old key := .inl ((consistent old key).mpr owned)
    have kept := (agree old key).mp listed
    simpa [put, eq_comm] using kept
  · intro unchanged other listing
    by_cases same : listing = key
    · subst same
      simp only [put, Function.update_self, and_true, Option.some.injEq, consistent other listing]
      constructor
      · intro owner
        rcases owner with owned | rfl
        · exact (unchanged other owned).symm
        · rfl
      · intro same
        subst same
        exact .inr rfl
    · simp [put, same, consistent other listing]

theorem Consistent.remove (consistent : catalog.Consistent) : (catalog.remove key).Consistent := by
  intro other listing
  by_cases same : listing = key
  · subst same
    simp [Catalog.remove, consistent other listing]
  · simp [Catalog.remove, same, consistent other listing]

theorem Consistent.remove_unlisted (consistent : catalog.Consistent) (other : V) :
    ¬ (catalog.remove key).listed other key := by
  intro stillListed
  obtain ⟨listed, kept⟩ := stillListed
  exact kept ⟨(consistent other key).mp listed, rfl⟩

end Catalog
