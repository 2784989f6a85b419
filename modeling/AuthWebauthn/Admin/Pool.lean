import AuthWebauthn.Ngx
import AuthWebauthn.Data.Heap

namespace AuthWebauthn.CompatPool

open CHeap

/-! `ngx_compat.c` builds the pool of the nginx core on `malloc`: a list of the blocks it
gave out and a list of cleanup handlers, both linked through allocated nodes.  Any
call of `malloc` may fail.  The pointer `log` of a pool is not modelled.
-/

/-- A byte that was never written is `none`. -/
abbrev Contents := List (Option UInt8)

abbrev Handler := Nat

inductive Block where
  | pool (large cleanup : Ptr)
  | large (next alloc : Ptr)
  | cleanup (handler : Option Handler) (data next : Ptr)
  | bytes (contents : Contents)

def unwritten (size : Nat) : Contents := List.replicate size none

def largeSize : Nat := 16

def cleanupSize : Nat := 24

variable (allocator : Allocator Block)

def mallocBytes (size : Nat) : Exec Block Ptr := malloc allocator size (.bytes (unwritten size))

def poolFields (pool : Ptr) : Exec Block (Ptr × Ptr) := do
  match ← load pool with
  | .pool large cleanup => return (large, cleanup)
  | _ => fault

def palloc (pool : Ptr) (size : Nat) : Exec Block Ptr := do
  match ← mallocBytes allocator size with
  | none => return none
  | some block =>
      match ← mallocBytes allocator largeSize with
      | none =>
          free (some block)
          return none
      | some large =>
          let (next, cleanup) ← poolFields pool
          store (some large) (.large next (some block))
          store pool (.pool (some large) cleanup)
          return some block

def pnalloc (pool : Ptr) (size : Nat) : Exec Block Ptr := palloc allocator pool size

def memzero (pointer : Ptr) (size : Nat) : Exec Block Unit := do
  match ← load pointer with
  | .bytes contents =>
      if size ≤ contents.length then
        store pointer (.bytes (List.replicate size (some 0) ++ contents.drop size))
      else fault
  | _ => fault

def pcalloc (pool : Ptr) (size : Nat) : Exec Block Ptr := do
  match ← palloc allocator pool size with
  | none => return none
  | some block =>
      memzero (some block) size
      return some block

def linkCleanup (pool : Ptr) (node : Addr) (data : Ptr) : Exec Block Ptr := do
  let (large, next) ← poolFields pool
  store (some node) (.cleanup none data next)
  store pool (.pool large (some node))
  return some node

def poolCleanupAdd (pool : Ptr) (size : Nat) : Exec Block Ptr := do
  if pool = none then return none
  match ← mallocBytes allocator cleanupSize with
  | none => return none
  | some node =>
      if 0 < size then
        match ← mallocBytes allocator size with
        | none =>
            free (some node)
            return none
        | some data => linkCleanup pool node (some data)
      else linkCleanup pool node none

def largeFields (node : Addr) : Exec Block (Ptr × Ptr) := do
  match ← load (some node) with
  | .large next alloc => return (next, alloc)
  | _ => fault

/-- What `prev` of `ngx_pfree` points at: the head of the list or the `next` of a node. -/
inductive Link where
  | head (pool : Addr)
  | next (node : Addr)

def setLink : Link → Ptr → Exec Block Unit
  | .head pool, target => do
      let (_, cleanup) ← poolFields (some pool)
      store (some pool) (.pool target cleanup)
  | .next node, target => do
      let (_, alloc) ← largeFields node
      store (some node) (.large target alloc)

/-- The loop of `ngx_pfree`. -/
def pfreeFrom (block : Ptr) : Nat → Link → Ptr → Exec Block Rc
  | _, _, none => return .error
  | 0, _, some _ => fault
  | fuel + 1, prev, some node => do
      let (next, alloc) ← largeFields node
      if alloc = block then
        setLink prev next
        free alloc
        free (some node)
        return .ok
      else pfreeFrom block fuel (.next node) next

def pfree (pool block : Ptr) : Exec Block Rc := do
  match pool with
  | none => return .error
  | some pool =>
      let (large, _) ← poolFields (some pool)
      pfreeFrom block (← reach) (.head pool) large

inductive Op where
  | palloc (size : Nat)
  | pnalloc (size : Nat)
  | pcalloc (size : Nat)
  | pfree (block : Ptr)
  | cleanupAdd (size : Nat)
  /-- The caller of `ngx_pool_cleanup_add` fills in what it got. -/
  | setCleanup (node : Addr) (handler : Option Handler) (data : Ptr)
  | write (block : Addr) (contents : Contents)
  /-- Other code of the process uses the same heap. -/
  | mallocOutside (size : Nat)
  | freeOutside (block : Addr)

inductive Result where
  | pointer (pointer : Ptr)
  | rc (rc : Rc)
  | done

def setCleanup (node : Addr) (handler : Option Handler) (data : Ptr) : Exec Block Unit := do
  match ← load (some node) with
  | .cleanup _ _ next => store (some node) (.cleanup handler data next)
  | _ => fault

def write (block : Addr) (contents : Contents) : Exec Block Unit := do
  match ← load (some block) with
  | .bytes old => if old.length = contents.length then store (some block) (.bytes contents) else fault
  | _ => fault

def perform (pool : Addr) : Op → Exec Block Result
  | .palloc size => return .pointer (← palloc allocator (some pool) size)
  | .pnalloc size => return .pointer (← pnalloc allocator (some pool) size)
  | .pcalloc size => return .pointer (← pcalloc allocator (some pool) size)
  | .pfree block => return .rc (← pfree (some pool) block)
  | .cleanupAdd size => return .pointer (← poolCleanupAdd allocator (some pool) size)
  | .setCleanup node handler data => do setCleanup node handler data; return .done
  | .write block contents => do write block contents; return .done
  | .mallocOutside size => return .pointer (← mallocBytes allocator size)
  | .freeOutside block => do free (some block); return .done

def performAll (pool : Addr) : List Op → Exec Block (List Result)
  | [] => return []
  | op :: ops => do
      let result ← perform allocator pool op
      return result :: (← performAll pool ops)

/-! The blocks given out and not taken back, newest first, each with its bytes; the cleanups in
the order they will run; the data blocks that `ngx_pool_cleanup_add` allocated; and what
other code holds.  Nodes are not part of it.
-/

structure Spec where
  blocks : List (Addr × Contents)
  cleanups : List (Addr × Option Handler × Ptr)
  cleanupData : List (Addr × Contents)
  outside : List (Addr × Contents)

namespace Spec

def memory (spec : Spec) : List (Addr × Contents) := spec.blocks ++ (spec.cleanupData ++ spec.outside)

/-- Addresses that callers hold. -/
def used (spec : Spec) : List Addr := spec.memory.map Prod.fst ++ spec.cleanups.map Prod.fst

def overwrite (block : Addr) (contents : Contents) (memory : List (Addr × Contents)) :
    List (Addr × Contents) :=
  memory.map fun entry => if entry.1 = block then (block, contents) else entry

/-- The callers' side: they write only inside blocks they hold and set only handlers of
cleanups they added. -/
def Allows (spec : Spec) : Op → Prop
  | .setCleanup node _ _ => node ∈ spec.cleanups.map Prod.fst
  | .write block contents => ∃ old, (block, old) ∈ spec.memory ∧ old.length = contents.length
  | .freeOutside block => block ∈ spec.outside.map Prod.fst
  | _ => True

inductive Step : Spec → Op → Result → Spec → Prop where
  | refused {spec : Spec} {op : Op} {size : Nat}
      (allocates : op ∈ [.palloc size, .pnalloc size, .pcalloc size, .cleanupAdd size, .mallocOutside size]) :
      Step spec op (.pointer none) spec
  | palloc {spec : Spec} {op : Op} {size : Nat} {block : Addr} (fresh : block ∉ spec.used)
      (allocates : op ∈ [.palloc size, .pnalloc size]) :
      Step spec op (.pointer (some block)) { spec with blocks := (block, unwritten size) :: spec.blocks }
  | pcalloc {spec : Spec} {size : Nat} {block : Addr} (fresh : block ∉ spec.used) :
      Step spec (.pcalloc size) (.pointer (some block))
        { spec with blocks := (block, List.replicate size (some 0)) :: spec.blocks }
  | pfree {spec : Spec} {block : Addr} (owned : block ∈ spec.blocks.map Prod.fst) :
      Step spec (.pfree (some block)) (.rc .ok)
        { spec with blocks := spec.blocks.eraseP fun entry => entry.1 = block }
  | pfreeUnknown {spec : Spec} {block : Ptr}
      (unknown : ∀ addr, block = some addr → addr ∉ spec.blocks.map Prod.fst) :
      Step spec (.pfree block) (.rc .error) spec
  | cleanupAdd {spec : Spec} {node : Addr} (fresh : node ∉ spec.used) :
      Step spec (.cleanupAdd 0) (.pointer (some node))
        { spec with cleanups := (node, none, none) :: spec.cleanups }
  | cleanupAddData {spec : Spec} {size : Nat} {node data : Addr} (positive : 0 < size)
      (fresh : node ∉ spec.used) (freshData : data ∉ spec.used) (apart : data ≠ node) :
      Step spec (.cleanupAdd size) (.pointer (some node))
        { spec with
          cleanups := (node, none, some data) :: spec.cleanups
          cleanupData := (data, unwritten size) :: spec.cleanupData }
  | setCleanup {spec : Spec} {node : Addr} {handler : Option Handler} {data : Ptr} :
      Step spec (.setCleanup node handler data) .done
        { spec with cleanups := spec.cleanups.map fun cleanup =>
            if cleanup.1 = node then (node, handler, data) else cleanup }
  | write {spec : Spec} {block : Addr} {contents : Contents} :
      Step spec (.write block contents) .done
        { spec with
          blocks := overwrite block contents spec.blocks
          cleanupData := overwrite block contents spec.cleanupData
          outside := overwrite block contents spec.outside }
  | mallocOutside {spec : Spec} {size : Nat} {block : Addr} (fresh : block ∉ spec.used) :
      Step spec (.mallocOutside size) (.pointer (some block))
        { spec with outside := (block, unwritten size) :: spec.outside }
  | freeOutside {spec : Spec} {block : Addr} :
      Step spec (.freeOutside block) .done
        { spec with outside := spec.outside.eraseP fun entry => entry.1 = block }

inductive Run : Spec → List Op → List Result → Spec → Prop where
  | nil (spec : Spec) : Run spec [] [] spec
  | cons {before middle after : Spec} {op : Op} {ops : List Op} {result : Result} {results : List Result}
      (allowed : before.Allows op) (step : Step before op result middle) (rest : Run middle ops results after) :
      Run before (op :: ops) (result :: results) after

end Spec

section Cells

variable {allocator : Allocator Block} {state : State Block} {pool : Addr} {large cleanup : Ptr}
  {rest : List (Addr × Block)}

theorem poolFields_runs (front : List (Addr × Block))
    (held : Holds state (front ++ (pool, .pool large cleanup) :: rest)) :
    Runs (poolFields (some pool)) state (large, cleanup) state :=
  (held.load front).bind (.pure _ _)

theorem largeFields_runs {node : Addr} {next alloc : Ptr} (front : List (Addr × Block))
    (held : Holds state (front ++ (node, .large next alloc) :: rest)) :
    Runs (largeFields node) state (next, alloc) state :=
  (held.load front).bind (.pure _ _)

theorem palloc_runs (size : Nat) (held : Holds state ((pool, .pool large cleanup) :: rest)) :
    ∃ result after, Runs (palloc allocator (some pool) size) state result after ∧
      state.turns < after.turns ∧
      ((result = none ∧ Holds after ((pool, .pool large cleanup) :: rest)) ∨
        ∃ block node, result = some block ∧
          Holds after ((block, .bytes (unwritten size)) :: (pool, .pool (some node) cleanup) ::
            (node, .large large (some block)) :: rest)) := by
  obtain ⟨result, first, ran, turns, outcome⟩ := held.malloc allocator size (.bytes (unwritten size))
  rcases outcome with ⟨rfl, kept⟩ | ⟨block, rfl, added⟩
  · exact ⟨none, first, ran.bind (.pure _ _), by omega, .inl ⟨rfl, kept⟩⟩
  obtain ⟨result, second, ranNode, turnsNode, outcome⟩ :=
    added.malloc allocator largeSize (.bytes (unwritten largeSize))
  rcases outcome with ⟨rfl, kept⟩ | ⟨node, rfl, addedNode⟩
  · obtain ⟨after, freed, same, holds⟩ := kept.free []
    exact ⟨none, after, ran.bind (ranNode.bind (freed.bind (.pure _ _))), by omega, .inl ⟨rfl, holds⟩⟩
  · have fields := poolFields_runs [_, _] addedNode
    obtain ⟨third, filled, turnsFilled, holdsFilled⟩ := addedNode.store [] (.large large (some block))
    obtain ⟨after, linked, turnsLinked, holds⟩ := holdsFilled.store [_, _] (.pool (some node) cleanup)
    refine ⟨some block, after, ran.bind (ranNode.bind (fields.bind (filled.bind (linked.bind (.pure _ _))))),
      by omega, .inr ⟨block, node, rfl, ?_⟩⟩
    exact holds.sink [_, _]

theorem pcalloc_runs (size : Nat) (held : Holds state ((pool, .pool large cleanup) :: rest)) :
    ∃ result after, Runs (pcalloc allocator (some pool) size) state result after ∧
      state.turns < after.turns ∧
      ((result = none ∧ Holds after ((pool, .pool large cleanup) :: rest)) ∨
        ∃ block node, result = some block ∧
          Holds after ((block, .bytes (List.replicate size (some 0))) :: (pool, .pool (some node) cleanup) ::
            (node, .large large (some block)) :: rest)) := by
  obtain ⟨result, first, ran, turns, outcome⟩ := @palloc_runs allocator _ _ _ _ _ size held
  rcases outcome with ⟨rfl, kept⟩ | ⟨block, node, rfl, added⟩
  · exact ⟨none, first, ran.bind (.pure _ _), turns, .inl ⟨rfl, kept⟩⟩
  · obtain ⟨after, stored, same, holds⟩ :=
      added.store [] (.bytes (List.replicate size (some 0) ++ (unwritten size).drop size))
    have zeroed : Runs (memzero (some block) size) first () after := by
      refine (added.load []).bind ?_
      simpa [unwritten] using stored
    refine ⟨some block, after, ran.bind (zeroed.bind (.pure _ _)), by omega, .inr ⟨block, node, rfl, ?_⟩⟩
    simpa [unwritten] using holds

theorem linkCleanup_runs {node : Addr} {data : Ptr} {block : Block} (front : List (Addr × Block))
    (held : Holds state (front ++ (node, block) :: (pool, .pool large cleanup) :: rest)) :
    ∃ after, Runs (linkCleanup (some pool) node data) state (some node) after ∧
      after.turns = state.turns ∧
      Holds after (front ++ (node, .cleanup none data cleanup) :: (pool, .pool large (some node)) :: rest) := by
  have fields : Runs (poolFields (some pool)) state (large, cleanup) state :=
    poolFields_runs (front ++ [(node, block)]) (by simpa using held)
  obtain ⟨first, filled, turns, holdsFilled⟩ := held.store front (.cleanup none data cleanup)
  obtain ⟨after, linked, turnsLinked, holds⟩ := Holds.store (front ++ [(node, .cleanup none data cleanup)])
    (by simpa using holdsFilled) (.pool large (some node))
  exact ⟨after, fields.bind (filled.bind (linked.bind (.pure _ _))), by omega, by simpa using holds⟩

theorem poolCleanupAdd_runs (size : Nat) (held : Holds state ((pool, .pool large cleanup) :: rest)) :
    ∃ result after, Runs (poolCleanupAdd allocator (some pool) size) state result after ∧
      state.turns < after.turns ∧
      ((result = none ∧ Holds after ((pool, .pool large cleanup) :: rest)) ∨
        (size = 0 ∧ ∃ node, result = some node ∧
          Holds after ((node, .cleanup none none cleanup) :: (pool, .pool large (some node)) :: rest)) ∨
        (0 < size ∧ ∃ node data, result = some node ∧
          Holds after ((data, .bytes (unwritten size)) :: (node, .cleanup none (some data) cleanup) ::
            (pool, .pool large (some node)) :: rest))) := by
  unfold poolCleanupAdd
  rw [if_neg (by simp)]
  obtain ⟨result, first, ran, turns, outcome⟩ :=
    held.malloc allocator cleanupSize (.bytes (unwritten cleanupSize))
  rcases outcome with ⟨rfl, kept⟩ | ⟨node, rfl, added⟩
  · exact ⟨none, first, ran.bind (.pure _ _), by omega, .inl ⟨rfl, kept⟩⟩
  by_cases positive : 0 < size
  · obtain ⟨result, second, ranData, turnsData, outcome⟩ :=
      added.malloc allocator size (.bytes (unwritten size))
    rcases outcome with ⟨rfl, kept⟩ | ⟨data, rfl, addedData⟩
    · obtain ⟨after, freed, same, holds⟩ := kept.free []
      refine ⟨none, after, ran.bind ?_, by omega, .inl ⟨rfl, holds⟩⟩
      simp only [if_pos positive]
      exact ranData.bind (freed.bind (.pure _ _))
    · obtain ⟨after, linked, same, holds⟩ := @linkCleanup_runs _ _ _ _ _ _ (some data) _ [_] addedData
      refine ⟨some node, after, ran.bind ?_, by omega, .inr (.inr ⟨positive, node, data, rfl, holds⟩)⟩
      simp only [if_pos positive]
      exact ranData.bind linked
  · obtain ⟨after, linked, same, holds⟩ := @linkCleanup_runs _ _ _ _ _ _ none _ [] added
    refine ⟨some node, after, ran.bind ?_, by omega, .inr (.inl ⟨by omega, node, rfl, holds⟩)⟩
    simp only [if_neg positive]
    exact linked

/-- The cell that holds a link, with what else the cell holds. -/
def Link.cell (other : Ptr) : Link → Ptr → Addr × Block
  | .head pool, target => (pool, .pool target other)
  | .next node, target => (node, .large target other)

def largeCell (item : Addr × Contents) (next : Ptr) : Block := .large next (some item.1)

def cleanupCell (item : Option Handler × Ptr) (next : Ptr) : Block := .cleanup item.1 item.2 next

theorem setLink_runs {link : Link} {other old : Ptr} (held : Holds state (link.cell other old :: rest))
    (target : Ptr) :
    ∃ after, Runs (setLink link target) state () after ∧ after.turns = state.turns ∧
      Holds after (link.cell other target :: rest) := by
  cases link with
  | head pool =>
      obtain ⟨after, stored, turns, holds⟩ := held.store [] (.pool target other)
      exact ⟨after, (poolFields_runs [] held).bind stored, turns, holds⟩
  | next node =>
      obtain ⟨after, stored, turns, holds⟩ := held.store [] (.large target other)
      exact ⟨after, (largeFields_runs [] held).bind stored, turns, holds⟩

/-- The first block of the list with the address sought is unlinked and freed with its node. -/
theorem pfreeFrom_found {block node : Addr} {contents : Contents} {bytes : Block}
    {before later : List (Addr × Addr × Contents)} {fuel : Nat} {link : Link} {other : Ptr}
    (first : block ∉ before.map fun entry => entry.2.1) (enough : before.length < fuel)
    (held : Holds state (link.cell other (headOf (before ++ (node, block, contents) :: later)) ::
      (linked largeCell (before ++ (node, block, contents) :: later) ++ (block, bytes) :: rest))) :
    ∃ after, Runs (pfreeFrom (some block) fuel link (headOf (before ++ (node, block, contents) :: later)))
        state .ok after ∧ after.turns = state.turns ∧
      Holds after (link.cell other (headOf (before ++ later)) ::
        (linked largeCell (before ++ later) ++ rest)) := by
  induction before generalizing link other rest fuel state with
  | nil =>
      obtain ⟨fuel, rfl⟩ : ∃ more, fuel = more + 1 := ⟨fuel - 1, by omega⟩
      have fields : Runs (largeFields node) state (headOf later, some block) state :=
        largeFields_runs [_] held
      obtain ⟨unlinked, set, turns, holds⟩ := setLink_runs held (headOf later)
      obtain ⟨taken, freed, turnsTaken, holdsTaken⟩ := Holds.free
        (link.cell other (headOf later) :: (node, .large (headOf later) (some block)) ::
          linked largeCell later) holds
      obtain ⟨after, freedNode, turnsAfter, holdsAfter⟩ := Holds.free [_] holdsTaken
      refine ⟨after, fields.bind ?_, by omega, holdsAfter⟩
      simp only [if_true]
      exact set.bind (freed.bind (freedNode.bind (.pure _ _)))
  | cons entry before ih =>
      obtain ⟨passed, alloc, bytesOf⟩ := entry
      obtain ⟨fuel, rfl⟩ : ∃ more, fuel = more + 1 := ⟨fuel - 1, by simp at enough; omega⟩
      simp only [List.map_cons, List.mem_cons, not_or] at first
      have fields : Runs (largeFields passed) state
          (headOf (before ++ (node, block, contents) :: later), some alloc) state :=
        largeFields_runs [_] held
      have moved : Holds state ((Link.next passed).cell (some alloc)
            (headOf (before ++ (node, block, contents) :: later)) ::
          (linked largeCell (before ++ (node, block, contents) :: later) ++
            (block, bytes) :: link.cell other (some passed) :: rest)) := by
        have sunk := @Holds.sink _ _ ((passed, .large (headOf (before ++ (node, block, contents) :: later))
          (some alloc)) :: (linked largeCell (before ++ (node, block, contents) :: later) ++
            [(block, bytes)])) rest _ (by simpa [linked, largeCell, headOf] using held)
        simpa [Link.cell] using sunk
      obtain ⟨after, ran, turns, holds⟩ := ih first.2 (by simpa using enough) moved
      refine ⟨after, fields.bind ?_, turns, ?_⟩
      · simp only [Option.some.injEq, if_neg (Ne.symm first.1)]
        exact ran
      · have lifted := holds.lift ((Link.next passed).cell (some alloc) (headOf (before ++ later)) ::
          linked largeCell (before ++ later))
        simpa [linked, largeCell, headOf, Link.cell] using lifted

theorem pfreeFrom_missing {block : Ptr} {larges : List (Addr × Addr × Contents)} {fuel : Nat} {link : Link}
    (missing : ∀ addr, block = some addr → addr ∉ larges.map fun entry => entry.2.1)
    (enough : larges.length ≤ fuel) (front : List (Addr × Block))
    (held : Holds state (front ++ (linked largeCell larges ++ rest))) :
    Runs (pfreeFrom block fuel link (headOf larges)) state .error state := by
  induction larges generalizing link front fuel with
  | nil => cases fuel <;> exact .pure _ _
  | cons entry larges ih =>
      obtain ⟨node, alloc, contents⟩ := entry
      obtain ⟨fuel, rfl⟩ : ∃ more, fuel = more + 1 := ⟨fuel - 1, by simp at enough; omega⟩
      have fields : Runs (largeFields node) state (headOf larges, some alloc) state :=
        largeFields_runs front held
      have other : ¬ (some alloc = block) := by
        intro same
        exact missing alloc same.symm (by simp)
      refine fields.bind ?_
      simp only [if_neg other]
      refine ih (fun addr same => ?_) (by simpa using enough)
        (front ++ [(node, .large (headOf larges) (some alloc))]) (by simpa [linked, largeCell] using held)
      have absent := missing addr same
      simp only [List.map_cons, List.mem_cons, not_or] at absent
      exact absent.2

end Cells

end AuthWebauthn.CompatPool
