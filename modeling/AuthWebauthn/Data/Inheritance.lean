import Mathlib.Data.List.Basic
import Mathlib.Data.Option.Basic

namespace Inheritance

/-! A path lists blocks from the outermost to the innermost.  A setting takes its
value from the nearest block that has one.
-/

variable {α β : Type}

def nearest (field : β → Option α) (fallback : α) (path : List β) : α :=
  (path.reverse.findSome? field).getD fallback

theorem nearest_concat (field : β → Option α) (fallback : α) (path : List β) (block : β) :
    nearest field fallback (path ++ [block]) = (field block).getD (nearest field fallback path) := by
  cases own : field block <;> simp [nearest, own]

theorem nearest_singleton (field : β → Option α) (fallback : α) (block : β) :
    (field block).getD fallback = nearest field fallback [block] := by
  cases own : field block <;> simp [nearest, own]

theorem nearest_congr {first second : β → Option α} {path : List β}
    (same : ∀ block ∈ path, first block = second block) (fallback : α) :
    nearest first fallback path = nearest second fallback path := by
  have reversed : ∀ block ∈ path.reverse, first block = second block :=
    fun block member => same block (List.mem_reverse.mp member)
  unfold nearest
  generalize path.reverse = blocks at reversed
  induction blocks with
  | nil => rfl
  | cons block rest ih =>
      rw [List.findSome?_cons, List.findSome?_cons, reversed block (by simp)]
      cases second block with
      | none => exact ih fun later member => reversed later (by simp [member])
      | some value => rfl

theorem nearest_map {γ : Type} (field : β → Option α) (fallback : α) (within : γ → β) (path : List γ) :
    nearest field fallback (path.map within) = nearest (fun block => field (within block)) fallback path := by
  rw [nearest, nearest, ← List.map_reverse, List.findSome?_map]
  rfl

theorem nearest_of_none {field : β → Option α} {fallback : α} {path : List β}
    (none : ∀ block ∈ path, field block = none) : nearest field fallback path = fallback := by
  have missing : path.reverse.findSome? field = Option.none :=
    List.findSome?_eq_none_iff.mpr fun block member => none block (List.mem_reverse.mp member)
  rw [nearest, missing, Option.getD_none]

theorem nearest_of_split {field : β → Option α} {fallback value : α} {path front back : List β} {block : β}
    (split : path.reverse = front ++ block :: back) (inner : ∀ block ∈ front, field block = none)
    (own : field block = some value) : nearest field fallback path = value := by
  have found : path.reverse.findSome? field = some value := by
    rw [split, List.findSome?_append, List.findSome?_eq_none_iff.mpr inner]
    simp [own]
  rw [nearest, found, Option.getD_some]

/-- The shortest path that passes a test, from `front` down `below`, `front`
itself left out. -/
def outermost (test : List β → Bool) : List β → List β → Option (List β)
  | _, [] => none
  | front, block :: below =>
      if test (front ++ [block]) then some (front ++ [block])
      else outermost test (front ++ [block]) below

theorem outermost_concat (test : List β → Bool) (front below : List β) (block : β) :
    outermost test front (below ++ [block]) =
      (outermost test front below).or
        (if test (front ++ below ++ [block]) then some (front ++ below ++ [block]) else none) := by
  induction below generalizing front with
  | nil => simp [outermost]
  | cons first below ih =>
      by_cases found : test (front ++ [first])
      · simp [outermost, found]
      · simp only [List.cons_append, outermost, found, ih]
        simp

end Inheritance
