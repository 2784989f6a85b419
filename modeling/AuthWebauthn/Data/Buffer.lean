import Mathlib.Data.List.Basic
import Mathlib.Data.Option.Basic

namespace Memory

/-! A read at or past the end of a block faults, and so do a write past the end of
what was allocated and a difference of sizes that would wrap around.  `none` is the
fault.
-/

variable {α : Type}

def cell (block : List α) (offset : Nat) : Option α := block[offset]?

/-- The cells from `offset` on, `length` of them. -/
def slice (block : List α) (offset length : Nat) : Option (List α) :=
  if offset + length ≤ block.length then some ((block.drop offset).take length) else none

def sizeSub (left right : Nat) : Option Nat := if right ≤ left then some (left - right) else none

theorem cell_eq {block : List α} {offset : Nat} (inside : offset < block.length) (fallback : α) :
    cell block offset = some (block.getD offset fallback) := by
  simp [cell, inside]

theorem slice_eq {block : List α} {offset length : Nat} (inside : offset + length ≤ block.length) :
    slice block offset length = some ((block.drop offset).take length) :=
  if_pos inside

theorem sizeSub_eq {left right : Nat} (enough : right ≤ left) : sizeSub left right = some (left - right) :=
  if_pos enough

/-! A block that is written at offsets: what is not written keeps what the allocator
left there.
-/

/-- A copy over the cells from `offset` on. -/
def store (block : List α) (offset : Nat) (cells : List α) : Option (List α) :=
  if offset + cells.length ≤ block.length then
    some (block.take offset ++ cells ++ block.drop (offset + cells.length))
  else none

/-- The copy together with the offset of its end. -/
def storeNext (block : List α) (offset : Nat) (cells : List α) : Option (List α × Nat) :=
  (store block offset cells).map fun next => (next, offset + cells.length)

def stores (block : List α) (offset : Nat) : List (List α) → Option (List α)
  | [] => some block
  | cells :: rest => (store block offset cells).bind fun next => stores next (offset + cells.length) rest

theorem storeNext_bind {β : Type} (block : List α) (offset : Nat) (cells : List α)
    (next : List α × Nat → Option β) :
    (storeNext block offset cells).bind next =
      (store block offset cells).bind fun stored => next (stored, offset + cells.length) := by
  rw [storeNext, Option.bind_map]
  rfl

theorem store_over {front old cells : List α} (room : cells.length ≤ old.length) :
    store (front ++ old) front.length cells = some (front ++ cells ++ old.drop cells.length) := by
  have inside : front.length + cells.length ≤ (front ++ old).length := by
    rw [List.length_append]
    omega
  rw [store, if_pos inside, List.take_left, List.drop_length_add_append]

/-- Copies one behind the other leave nothing of a block that is as long as all of them. -/
theorem stores_over {front old : List α} {parts : List (List α)}
    (sized : old.length = parts.flatten.length) :
    stores (front ++ old) front.length parts = some (front ++ parts.flatten) := by
  induction parts generalizing front old with
  | nil =>
      rw [List.length_eq_zero_iff.mp sized]
      rfl
  | cons cells rest ih =>
      rw [List.flatten_cons, List.length_append] at sized
      have remaining : (old.drop cells.length).length = rest.flatten.length := by
        rw [List.length_drop]
        omega
      have following := @ih (front ++ cells) _ remaining
      rw [List.length_append] at following
      rw [stores, store_over (by omega), Option.bind_some, following, List.flatten_cons, List.append_assoc]

/-- What an allocator returns for each size, with anything in the cells; `none` is a
null pointer. -/
structure Allocator (α : Type) where
  pnalloc : Nat → Option (List α)
  sized : ∀ {size block}, pnalloc size = some block → block.length = size

theorem Allocator.stores_filled (pool : Allocator α) {parts : List (List α)} {block : List α}
    (allocated : pool.pnalloc parts.flatten.length = some block) :
    stores block 0 parts = some parts.flatten :=
  @stores_over _ [] block parts (pool.sized allocated)

/-- A block that is filled from its start. -/
structure Buffer (α : Type) where
  capacity : Nat
  written : List α
  fits : written.length ≤ capacity

namespace Buffer

variable {buffer filled : Buffer α}

def alloc (capacity : Nat) : Buffer α := ⟨capacity, [], Nat.zero_le _⟩

def write (buffer : Buffer α) (cells : List α) : Option (Buffer α) :=
  if fits : (buffer.written ++ cells).length ≤ buffer.capacity then
    some ⟨buffer.capacity, buffer.written ++ cells, fits⟩
  else none

def writes (buffer : Buffer α) : List (List α) → Option (Buffer α)
  | [] => some buffer
  | cells :: rest => (buffer.write cells).bind fun next => next.writes rest

theorem write_fits {cells : List α} (room : buffer.written.length + cells.length ≤ buffer.capacity) :
    ∃ filled, buffer.write cells = some filled ∧ filled.capacity = buffer.capacity ∧
      filled.written = buffer.written ++ cells := by
  have fits : (buffer.written ++ cells).length ≤ buffer.capacity := by
    rw [List.length_append]
    exact room
  exact ⟨_, dif_pos fits, rfl, rfl⟩

/-- No write of a sequence faults if all of it fits. -/
theorem writes_fit {parts : List (List α)}
    (room : buffer.written.length + parts.flatten.length ≤ buffer.capacity) :
    ∃ filled, buffer.writes parts = some filled ∧ filled.written = buffer.written ++ parts.flatten := by
  induction parts generalizing buffer with
  | nil => exact ⟨buffer, rfl, by simp⟩
  | cons cells rest ih =>
      rw [List.flatten_cons, List.length_append] at room
      obtain ⟨next, stored, capacity, written⟩ := write_fits (show
        buffer.written.length + cells.length ≤ buffer.capacity by omega)
      obtain ⟨filled, rest, whole⟩ := @ih next (by
        rw [written, capacity, List.length_append]
        omega)
      refine ⟨filled, ?_, ?_⟩
      · rw [writes, stored, Option.bind_some, rest]
      · rw [whole, written, List.flatten_cons, List.append_assoc]

theorem writes_append (front back : List (List α)) :
    buffer.writes (front ++ back) = (buffer.writes front).bind fun next => next.writes back := by
  induction front generalizing buffer with
  | nil => rfl
  | cons cells rest ih =>
      simp only [List.cons_append, writes, ih, Option.bind_assoc]

theorem write_eq_writes (cells : List α) : buffer.write cells = buffer.writes [cells] := by
  simp only [writes, Option.bind_fun_some]

/-- A loop that writes for each item is one sequence of writes. -/
theorem foldlM_writes {β : Type} (parts : β → List (List α)) (items : List β) :
    items.foldlM (fun current item => current.writes (parts item)) buffer =
      buffer.writes (items.flatMap parts) := by
  induction items generalizing buffer with
  | nil => rfl
  | cons item rest ih =>
      rw [List.foldlM_cons, List.flatMap_cons, writes_append]
      exact congrArg (Option.bind _) (funext fun next => ih)

theorem alloc_writes {capacity : Nat} {parts : List (List α)}
    (room : parts.flatten.length ≤ capacity) :
    ((alloc capacity).writes parts).map written = some parts.flatten := by
  have empty : (alloc capacity : Buffer α).written = [] := rfl
  obtain ⟨filled, stored, whole⟩ := @writes_fit α (alloc capacity) parts (by
    rw [empty, List.length_nil, Nat.zero_add]
    exact room)
  rw [stored, Option.map_some, whole, empty, List.nil_append]

end Buffer

end Memory
