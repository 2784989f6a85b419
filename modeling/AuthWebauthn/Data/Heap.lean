import Mathlib.Data.List.Basic
import Mathlib.Data.List.Nodup
import Mathlib.Logic.Function.Basic

namespace CHeap

/-! A program allocates, reads, writes and frees whole blocks.  Touching a block that
is not allocated is a fault.  What is allocated is described by the list of its
cells: no two have one address, and nothing else is allocated.  The rules below say
how each operation changes that list; a cell is brought to the front by permuting.
-/

abbrev Addr := Nat

/-- A pointer; `none` is NULL. -/
abbrev Ptr := Option Addr

variable {B α β : Type}

/-- What `malloc` answers for a size, call after call: NULL, or the address of a
block that is not allocated.  The address of a freed block may come again. -/
structure Allocator (B : Type) where
  pick : Nat → Nat → (Addr → Option B) → Ptr
  fresh : ∀ {turn size : Nat} {blocks : Addr → Option B} {addr : Addr},
    pick turn size blocks = some addr → blocks addr = none

structure State (B : Type) where
  blocks : Addr → Option B
  /-- How often `malloc` was called. -/
  turns : Nat

/-- `none` is a fault. -/
abbrev Exec (B α : Type) := StateT (State B) Option α

def fault : Exec B α := fun _ => none

def malloc (allocator : Allocator B) (size : Nat) (initial : B) : Exec B Ptr := fun state =>
  match allocator.pick state.turns size state.blocks with
  | none => some (none, { state with turns := state.turns + 1 })
  | some addr => some (some addr, ⟨Function.update state.blocks addr (some initial), state.turns + 1⟩)

def load (pointer : Ptr) : Exec B B := fun state =>
  (pointer.bind state.blocks).map fun block => (block, state)

def store (pointer : Ptr) (block : B) : Exec B Unit := fun state =>
  match pointer with
  | none => none
  | some addr => (state.blocks addr).map fun _ =>
      ((), { state with blocks := Function.update state.blocks addr (some block) })

/-- Freeing NULL does nothing. -/
def free (pointer : Ptr) : Exec B Unit := fun state =>
  match pointer with
  | none => some ((), state)
  | some addr => (state.blocks addr).map fun _ =>
      ((), { state with blocks := Function.update state.blocks addr none })

/-- A list is walked at most this far: it has no more nodes than were allocated. -/
def reach : Exec B Nat := fun state => some (state.turns, state)

def Runs (program : Exec B α) (before : State B) (result : α) (after : State B) : Prop :=
  program before = some (result, after)

namespace Runs

theorem pure (value : α) (state : State B) : Runs (Pure.pure value : Exec B α) state value state := rfl

theorem bind {first : Exec B α} {rest : α → Exec B β} {before middle after : State B} {value : α}
    {result : β} (ran : Runs first before value middle) (later : Runs (rest value) middle result after) :
    Runs (first >>= rest) before result after := by
  change (first before).bind (fun answer => rest answer.1 answer.2) = some (result, after)
  rw [show first before = some (value, middle) from ran]
  exact later

theorem of_bind {first : Exec B α} {rest : α → Exec B β} {before after : State B} {result : β}
    (ran : Runs (first >>= rest) before result after) :
    ∃ value middle, Runs first before value middle ∧ Runs (rest value) middle result after := by
  obtain ⟨⟨value, middle⟩, ran, later⟩ := Option.bind_eq_some_iff.mp ran
  exact ⟨value, middle, ran, later⟩

theorem unique {program : Exec B α} {before first second : State B} {value other : α}
    (ran : Runs program before value first) (again : Runs program before other second) :
    value = other ∧ first = second := by
  have same := ran.symm.trans again
  simpa using same

end Runs

structure Holds (state : State B) (cells : List (Addr × B)) : Prop where
  apart : (cells.map Prod.fst).Nodup
  exact_cells : ∀ addr block, state.blocks addr = some block ↔ (addr, block) ∈ cells

namespace Holds

variable {state : State B} {cells rest : List (Addr × B)} {addr : Addr} {block : B}

theorem perm (held : Holds state cells) (same : cells.Perm rest) : Holds state rest where
  apart := (same.map Prod.fst).nodup held.apart
  exact_cells addr block := (held.exact_cells addr block).trans same.mem_iff

/-- The first cell moves to where the second part starts. -/
theorem sink (first : List (Addr × B)) {second : List (Addr × B)} {cell : Addr × B}
    (held : Holds state (cell :: (first ++ second))) : Holds state (first ++ cell :: second) :=
  held.perm List.perm_middle.symm

theorem lift (first : List (Addr × B)) {second : List (Addr × B)} {cell : Addr × B}
    (held : Holds state (first ++ cell :: second)) : Holds state (cell :: (first ++ second)) :=
  held.perm List.perm_middle

theorem front (held : Holds state ((addr, block) :: rest)) : state.blocks addr = some block :=
  (held.exact_cells addr block).mpr (List.mem_cons_self ..)

theorem absent (held : Holds state cells) (free : addr ∉ cells.map Prod.fst) : state.blocks addr = none := by
  cases found : state.blocks addr with
  | none => rfl
  | some block =>
      have member := (held.exact_cells addr block).mp found
      exact absurd (List.mem_map_of_mem member) free

theorem unused (held : Holds state cells) (dead : state.blocks addr = none) :
    addr ∉ cells.map Prod.fst := by
  intro member
  obtain ⟨⟨_, block⟩, listed, rfl⟩ := List.mem_map.mp member
  have found := (held.exact_cells _ block).mpr listed
  rw [dead] at found
  cases found

theorem load (front : List (Addr × B)) {back : List (Addr × B)}
    (held : Holds state (front ++ (addr, block) :: back)) :
    Runs (CHeap.load (some addr)) state block state := by
  have found := (held.perm List.perm_middle).front
  simp [Runs, CHeap.load, found]

theorem not_listed {found : B} (outside : addr ∉ rest.map Prod.fst) : (addr, found) ∉ rest := by
  intro member
  exact outside (List.mem_map_of_mem member)

private theorem store_front (held : Holds state ((addr, block) :: rest)) (replacement : B) :
    ∃ after, Runs (CHeap.store (some addr) replacement) state () after ∧ after.turns = state.turns ∧
      Holds after ((addr, replacement) :: rest) := by
  refine ⟨{ state with blocks := Function.update state.blocks addr (some replacement) },
    by simp [Runs, CHeap.store, held.front], rfl, held.apart, ?_⟩
  intro other found
  have elsewhere := held.exact_cells other found
  obtain ⟨outside, _⟩ := List.nodup_cons.mp held.apart
  by_cases same : other = addr
  · subst same
    simp [not_listed outside, eq_comm]
  · simpa [Function.update_of_ne same, same] using elsewhere

private theorem free_front (held : Holds state ((addr, block) :: rest)) :
    ∃ after, Runs (CHeap.free (some addr)) state () after ∧ after.turns = state.turns ∧
      Holds after rest := by
  obtain ⟨outside, apart⟩ := List.nodup_cons.mp held.apart
  refine ⟨{ state with blocks := Function.update state.blocks addr none },
    by simp [Runs, CHeap.free, held.front], rfl, apart, ?_⟩
  intro other found
  have elsewhere := held.exact_cells other found
  by_cases same : other = addr
  · subst same
    simp [not_listed outside]
  · simpa [Function.update_of_ne same, same] using elsewhere

theorem store (front : List (Addr × B)) {back : List (Addr × B)}
    (held : Holds state (front ++ (addr, block) :: back)) (replacement : B) :
    ∃ after, Runs (CHeap.store (some addr) replacement) state () after ∧ after.turns = state.turns ∧
      Holds after (front ++ (addr, replacement) :: back) := by
  obtain ⟨after, ran, turns, changed⟩ := store_front (held.perm List.perm_middle) replacement
  exact ⟨after, ran, turns, changed.perm List.perm_middle.symm⟩

theorem free (front : List (Addr × B)) {back : List (Addr × B)}
    (held : Holds state (front ++ (addr, block) :: back)) :
    ∃ after, Runs (CHeap.free (some addr)) state () after ∧ after.turns = state.turns ∧
      Holds after (front ++ back) :=
  free_front (held.perm List.perm_middle)

/-- An allocation either fails and changes nothing or adds one cell. -/
theorem malloc (held : Holds state cells) (allocator : Allocator B) (size : Nat) (initial : B) :
    ∃ result after, Runs (CHeap.malloc allocator size initial) state result after ∧
      after.turns = state.turns + 1 ∧
      ((result = none ∧ Holds after cells) ∨
        ∃ addr, result = some addr ∧ Holds after ((addr, initial) :: cells)) := by
  cases picked : allocator.pick state.turns size state.blocks with
  | none =>
      exact ⟨none, { state with turns := state.turns + 1 }, by simp [Runs, CHeap.malloc, picked], rfl,
        .inl ⟨rfl, held.apart, held.exact_cells⟩⟩
  | some addr =>
      have outside := held.unused (allocator.fresh picked)
      refine ⟨some addr, ⟨Function.update state.blocks addr (some initial), state.turns + 1⟩,
        by simp [Runs, CHeap.malloc, picked], rfl,
        .inr ⟨addr, rfl, List.nodup_cons.mpr ⟨outside, held.apart⟩, ?_⟩⟩
      intro other found
      have elsewhere := held.exact_cells other found
      by_cases same : other = addr
      · subst same
        simp [not_listed outside, eq_comm]
      · simpa [Function.update_of_ne same, same] using elsewhere

end Holds

/-- Where addresses differ, replacing what one address holds changes one entry. -/
theorem map_replaced {front back : List (Addr × α)} {addr : Addr} {old : α}
    (apart : ((front ++ (addr, old) :: back).map Prod.fst).Nodup) (new : α) :
    (front ++ (addr, old) :: back).map (fun entry => if entry.1 = addr then (addr, new) else entry) =
      front ++ (addr, new) :: back := by
  rw [List.map_append, List.map_cons] at apart
  have outside := (List.nodup_cons.mp (List.perm_middle.nodup apart)).1
  have kept : ∀ entries : List (Addr × α), addr ∉ entries.map Prod.fst →
      entries.map (fun entry => if entry.1 = addr then (addr, new) else entry) = entries := by
    intro entries absent
    rw [List.map_congr_left (g := id), List.map_id]
    intro entry member
    have other : entry.1 ≠ addr := fun same => absent (same ▸ List.mem_map_of_mem member)
    rw [if_neg other, id]
  rw [List.mem_append, not_or] at outside
  simp [kept front outside.1, kept back outside.2]

/-! A node carries an item and points to the next node. -/

def headOf : List (Addr × α) → Ptr
  | [] => none
  | (node, _) :: _ => some node

/-- The cells of a list whose nodes are made by `cell` from item and next pointer. -/
def linked (cell : α → Ptr → B) : List (Addr × α) → List (Addr × B)
  | [] => []
  | (node, item) :: rest => (node, cell item (headOf rest)) :: linked cell rest

theorem linked_addrs (cell : α → Ptr → B) (items : List (Addr × α)) :
    (linked cell items).map Prod.fst = items.map Prod.fst := by
  induction items with
  | nil => rfl
  | cons entry rest ih => simp [linked, ih]

theorem headOf_append (front : List (Addr × α)) {first second : List (Addr × α)}
    (same : headOf first = headOf second) : headOf (front ++ first) = headOf (front ++ second) := by
  cases front with
  | nil => exact same
  | cons entry front => rfl

/-- What stands before a place in a list depends on what is behind it only through the node
there. -/
theorem linked_split (cell : α → Ptr → B) (front : List (Addr × α)) {back changed : List (Addr × α)}
    (same : headOf back = headOf changed) :
    ∃ before, linked cell (front ++ back) = before ++ linked cell back ∧
      linked cell (front ++ changed) = before ++ linked cell changed := by
  induction front with
  | nil => exact ⟨[], rfl, rfl⟩
  | cons entry front ih =>
      obtain ⟨before, split, splitChanged⟩ := ih
      refine ⟨(entry.1, cell entry.2 (headOf (front ++ back))) :: before, by simp [linked, split], ?_⟩
      simp [linked, splitChanged, headOf_append front same]

end CHeap
