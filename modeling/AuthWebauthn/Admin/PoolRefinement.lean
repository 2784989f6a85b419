import AuthWebauthn.Admin.Pool

namespace AuthWebauthn.CompatPool

open CHeap

/-! Every run of the callers' operations on the pool in the heap is a run of its specification, and
destroying the pool gives back what it held.
-/

def bytesCell (entry : Addr × Contents) : Addr × Block := (entry.1, .bytes entry.2)

/-- All that is allocated: the pool, its two lists and the memory that callers hold. -/
def cells (pool : Addr) (larges : List (Addr × Addr × Contents))
    (cleanups : List (Addr × Option Handler × Ptr)) (memory : List (Addr × Contents)) : List (Addr × Block) :=
  (pool, .pool (headOf larges) (headOf cleanups)) ::
    (linked largeCell larges ++ (linked cleanupCell cleanups ++ memory.map bytesCell))

structure Laid (pool : Addr) (spec : Spec) (state : State Block)
    (larges : List (Addr × Addr × Contents)) : Prop where
  listed : larges.map Prod.snd = spec.blocks
  held : Holds state (cells pool larges spec.cleanups spec.memory)
  reached : larges.length ≤ state.turns
  reachedCleanups : spec.cleanups.length ≤ state.turns

def Represents (pool : Addr) (spec : Spec) (state : State Block) : Prop :=
  ∃ larges, Laid pool spec state larges

section Steps

variable {allocator : Allocator Block} {pool : Addr} {spec : Spec} {state after : State Block}
  {larges : List (Addr × Addr × Contents)}

theorem cells_addrs (pool : Addr) (larges : List (Addr × Addr × Contents))
    (cleanups : List (Addr × Option Handler × Ptr)) (memory : List (Addr × Contents)) :
    (cells pool larges cleanups memory).map Prod.fst =
      pool :: (larges.map Prod.fst ++ (cleanups.map Prod.fst ++ memory.map Prod.fst)) := by
  simp [cells, linked_addrs, bytesCell, Function.comp_def]

theorem not_used {addr : Addr}
    (outside : addr ∉ (cells pool larges spec.cleanups spec.memory).map Prod.fst) : addr ∉ spec.used := by
  rw [cells_addrs] at outside
  simp only [List.mem_cons, List.mem_append, not_or] at outside
  simp [Spec.used, outside]

theorem memory_outside (spec : Spec) :
    spec.memory = (spec.blocks ++ spec.cleanupData) ++ spec.outside := (List.append_assoc ..).symm

theorem Laid.memory_apart (laid : Laid pool spec state larges) : (spec.memory.map Prod.fst).Nodup := by
  have apart := laid.held.apart
  rw [cells_addrs] at apart
  exact (List.nodup_append.mp (List.nodup_append.mp (List.nodup_cons.mp apart).2).2.1).2.1

theorem Laid.cleanups_apart (laid : Laid pool spec state larges) :
    (spec.cleanups.map Prod.fst).Nodup := by
  have apart := laid.held.apart
  rw [cells_addrs] at apart
  exact (List.nodup_append.mp (List.nodup_append.mp (List.nodup_cons.mp apart).2).2.1).1

/-- One entry of the memory apart from the rest. -/
theorem cells_memory (pool : Addr) (larges : List (Addr × Addr × Contents))
    (cleanups : List (Addr × Option Handler × Ptr)) (front back : List (Addr × Contents))
    (entry : Addr × Contents) :
    (cells pool larges cleanups (front ++ entry :: back)).Perm
      (bytesCell entry :: cells pool larges cleanups (front ++ back)) := by
  have middle := @List.perm_middle _ (bytesCell entry) ((pool, .pool (headOf larges) (headOf cleanups)) ::
    (linked largeCell larges ++ (linked cleanupCell cleanups ++ front.map bytesCell))) (back.map bytesCell)
  simpa [cells] using middle

theorem Laid.later (laid : Laid pool spec state larges) (turns : state.turns ≤ after.turns)
    (holds : Holds after (cells pool larges spec.cleanups spec.memory)) : Represents pool spec after :=
  ⟨larges, laid.listed, holds, Nat.le_trans laid.reached turns, Nat.le_trans laid.reachedCleanups turns⟩

/-- A new block behind a new node at the head of the list. -/
theorem Laid.added {block node : Addr} {contents : Contents} (laid : Laid pool spec state larges)
    (turns : state.turns < after.turns)
    (holds : Holds after ((block, .bytes contents) :: (pool, .pool (some node) (headOf spec.cleanups)) ::
      (node, .large (headOf larges) (some block)) ::
      (linked largeCell larges ++ (linked cleanupCell spec.cleanups ++ spec.memory.map bytesCell)))) :
    block ∉ spec.used ∧ Represents pool { spec with blocks := (block, contents) :: spec.blocks } after := by
  have grown : Holds after (bytesCell (block, contents) ::
    cells pool ((node, block, contents) :: larges) spec.cleanups spec.memory) := holds
  constructor
  · exact not_used (List.nodup_cons.mp grown.apart).1
  · refine ⟨(node, block, contents) :: larges, by simp [laid.listed],
      grown.perm (cells_memory pool _ spec.cleanups [] spec.memory (block, contents)).symm, ?_,
      Nat.le_trans laid.reachedCleanups (Nat.le_of_lt turns)⟩
    exact Nat.lt_of_le_of_lt laid.reached turns

theorem Laid.palloc (laid : Laid pool spec state larges) (size : Nat) :
    ∃ result after, Runs (palloc allocator (some pool) size) state result after ∧
      ((result = none ∧ Represents pool spec after) ∨
        ∃ block, result = some block ∧ block ∉ spec.used ∧
          Represents pool { spec with blocks := (block, unwritten size) :: spec.blocks } after) := by
  obtain ⟨result, after, ran, turns, outcome⟩ := @palloc_runs allocator _ _ _ _ _ size laid.held
  refine ⟨result, after, ran, ?_⟩
  rcases outcome with ⟨rfl, kept⟩ | ⟨block, node, rfl, added⟩
  · exact .inl ⟨rfl, laid.later (Nat.le_of_lt turns) kept⟩
  · exact .inr ⟨block, rfl, laid.added turns added⟩

theorem Laid.pcalloc (laid : Laid pool spec state larges) (size : Nat) :
    ∃ result after, Runs (pcalloc allocator (some pool) size) state result after ∧
      ((result = none ∧ Represents pool spec after) ∨
        ∃ block, result = some block ∧ block ∉ spec.used ∧
          Represents pool { spec with blocks := (block, List.replicate size (some 0)) :: spec.blocks }
            after) := by
  obtain ⟨result, after, ran, turns, outcome⟩ := @pcalloc_runs allocator _ _ _ _ _ size laid.held
  refine ⟨result, after, ran, ?_⟩
  rcases outcome with ⟨rfl, kept⟩ | ⟨block, node, rfl, added⟩
  · exact .inl ⟨rfl, laid.later (Nat.le_of_lt turns) kept⟩
  · exact .inr ⟨block, rfl, laid.added turns added⟩

theorem Laid.pfree_owned {block : Addr} (laid : Laid pool spec state larges)
    (owned : block ∈ spec.blocks.map Prod.fst) :
    ∃ after, Runs (pfree (some pool) (some block)) state .ok after ∧
      Represents pool { spec with blocks := spec.blocks.eraseP fun entry => entry.1 = block } after := by
  rw [← laid.listed, List.map_map] at owned
  obtain ⟨entry, member, sought⟩ := List.mem_map.mp owned
  obtain ⟨⟨node, found, contents⟩, before, later, unlike, same, split, erased⟩ :=
    @List.exists_of_eraseP _ (fun entry => entry.2.1 = block) _ _ member (by simpa using sought)
  obtain rfl : found = block := by simpa using same
  have first : found ∉ before.map fun entry => entry.2.1 := by
    intro earlier
    obtain ⟨entry, listed, equal⟩ := List.mem_map.mp earlier
    exact unlike entry listed (by simpa using equal)
  have remaining : (before ++ later).map Prod.snd = spec.blocks.eraseP fun entry => entry.1 = found := by
    rw [← erased, ← laid.listed, List.eraseP_map]
    rfl
  have memory : spec.memory = before.map Prod.snd ++ (found, contents) ::
      (later.map Prod.snd ++ (spec.cleanupData ++ spec.outside)) := by
    simp [Spec.memory, ← laid.listed, split]
  have held := laid.held
  have reached := laid.reached
  rw [memory, split] at held
  rw [split, List.length_append, List.length_cons] at reached
  have apart := (held.perm (cells_memory ..)).sink ((pool, .pool
    (headOf (before ++ (node, found, contents) :: later)) (headOf spec.cleanups)) ::
      linked largeCell (before ++ (node, found, contents) :: later))
  obtain ⟨after, ran, turns, holds⟩ :=
    @pfreeFrom_found _ _ _ _ _ _ _ _ state.turns (.head pool) (headOf spec.cleanups) first (by omega) apart
  refine ⟨after, (poolFields_runs [] held).bind ran, before ++ later, remaining, ?_, ?_, ?_⟩
  · rw [Spec.memory, ← remaining, List.map_append, List.append_assoc]
    exact holds
  · rw [turns, List.length_append]
    omega
  · rw [turns]
    exact laid.reachedCleanups

theorem Laid.pfree_unknown {block : Ptr} (laid : Laid pool spec state larges)
    (unknown : ∀ addr, block = some addr → addr ∉ spec.blocks.map Prod.fst) :
    Runs (pfree (some pool) block) state .error state := by
  refine (poolFields_runs [] laid.held).bind ?_
  refine pfreeFrom_missing (fun addr same => ?_) laid.reached [_] laid.held
  have absent := unknown addr same
  rwa [← laid.listed, List.map_map] at absent

theorem Laid.cleanupAdd (laid : Laid pool spec state larges) (size : Nat) :
    ∃ result after next, Runs (poolCleanupAdd allocator (some pool) size) state result after ∧
      spec.Step (.cleanupAdd size) (.pointer result) next ∧ Represents pool next after := by
  obtain ⟨result, after, ran, turns, outcome⟩ := @poolCleanupAdd_runs allocator _ _ _ _ _ size laid.held
  have reached := laid.reached
  have reachedCleanups := laid.reachedCleanups
  rcases outcome with ⟨rfl, kept⟩ | ⟨rfl, node, rfl, added⟩ | ⟨positive, node, data, rfl, added⟩
  · exact ⟨none, after, spec, ran, @Spec.Step.refused _ _ size (by simp),
      laid.later (Nat.le_of_lt turns) kept⟩
  · have fresh := @not_used pool spec larges node (List.nodup_cons.mp added.apart).1
    have sunk := added.sink ((pool, .pool (headOf larges) (some node)) :: linked largeCell larges)
    refine ⟨some node, after, _, ran, .cleanupAdd fresh, larges, laid.listed, sunk, by omega, ?_⟩
    exact Nat.lt_of_le_of_lt reachedCleanups turns
  · obtain ⟨outside, apart⟩ := List.nodup_cons.mp added.apart
    have fresh := @not_used pool spec larges node (List.nodup_cons.mp apart).1
    have freshData := @not_used pool spec larges data fun member => outside (List.mem_cons_of_mem _ member)
    have distinct : data ≠ node := by
      intro same
      exact outside (same ▸ List.mem_cons_self ..)
    have settled : Holds after (bytesCell (data, unwritten size) ::
        cells pool larges ((node, none, some data) :: spec.cleanups) spec.memory) := by
      have sunk := (added.perm (.swap ..)).sink ((data, .bytes (unwritten size)) ::
        (pool, .pool (headOf larges) (some node)) :: linked largeCell larges)
      exact sunk
    refine ⟨some node, after, _, ran, .cleanupAddData positive fresh freshData distinct, larges, laid.listed,
      settled.perm (cells_memory pool larges _ spec.blocks (spec.cleanupData ++ spec.outside) _).symm,
      by omega, ?_⟩
    exact Nat.lt_of_le_of_lt reachedCleanups turns

theorem Laid.setCleanup {node : Addr} {handler : Option Handler} {data : Ptr}
    (laid : Laid pool spec state larges) (listed : node ∈ spec.cleanups.map Prod.fst) :
    ∃ after, Runs (setCleanup node handler data) state () after ∧
      Represents pool { spec with cleanups := spec.cleanups.map fun cleanup =>
        if cleanup.1 = node then (node, handler, data) else cleanup } after := by
  obtain ⟨⟨found, item⟩, member, same⟩ := List.mem_map.mp listed
  obtain ⟨front, back, split⟩ := List.append_of_mem member
  obtain rfl : found = node := same
  have apart := laid.cleanups_apart
  have held := laid.held
  have reached := laid.reachedCleanups
  rw [split] at apart held reached
  obtain ⟨before, old, new⟩ := @linked_split _ _ cleanupCell front ((found, item) :: back)
    ((found, handler, data) :: back) rfl
  have sameHead : headOf (front ++ (found, item) :: back) = headOf (front ++ (found, handler, data) :: back) :=
    headOf_append front rfl
  rw [cells, old, sameHead] at held
  have spelled : Holds state (((pool, .pool (headOf larges) (headOf (front ++ (found, handler, data) :: back)))
      :: (linked largeCell larges ++ before)) ++ (found, .cleanup item.1 item.2 (headOf back)) ::
        (linked cleanupCell back ++ spec.memory.map bytesCell)) := by
    simpa [linked, cleanupCell] using held
  obtain ⟨after, stored, turns, holds⟩ := spelled.store _ (.cleanup handler data (headOf back))
  refine ⟨after, (spelled.load _).bind stored, larges, laid.listed, ?_, turns ▸ laid.reached, ?_⟩
  · rw [split, map_replaced apart, cells, new]
    simpa [linked, cleanupCell, Spec.memory] using holds
  · rw [split, map_replaced apart, turns]
    simpa using reached

theorem linked_overwritten (block : Addr) (contents : Contents) (larges : List (Addr × Addr × Contents)) :
    headOf (larges.map fun entry => if entry.2.1 = block then (entry.1, block, contents) else entry) =
        headOf larges ∧
      linked largeCell (larges.map fun entry =>
        if entry.2.1 = block then (entry.1, block, contents) else entry) = linked largeCell larges := by
  induction larges with
  | nil => exact ⟨rfl, rfl⟩
  | cons entry larges ih =>
      obtain ⟨node, alloc, old⟩ := entry
      by_cases same : alloc = block
      · refine ⟨?_, by simp [linked, largeCell, ih, same]⟩
        rw [List.map_cons, if_pos same]
        rfl
      · refine ⟨?_, by simp [linked, largeCell, ih, same]⟩
        rw [List.map_cons, if_neg same]
        rfl

theorem Laid.write {block : Addr} {old contents : Contents} (laid : Laid pool spec state larges)
    (member : (block, old) ∈ spec.memory) (sized : old.length = contents.length) :
    ∃ after, Runs (write block contents) state () after ∧
      Represents pool { spec with
        blocks := Spec.overwrite block contents spec.blocks
        cleanupData := Spec.overwrite block contents spec.cleanupData
        outside := Spec.overwrite block contents spec.outside } after := by
  obtain ⟨front, back, split⟩ := List.append_of_mem member
  obtain ⟨sameHead, sameCells⟩ := linked_overwritten block contents larges
  have apart := laid.memory_apart
  have held := laid.held
  rw [split] at apart held
  have first := held.perm (cells_memory ..)
  obtain ⟨after, stored, turns, holds⟩ := first.store [] (.bytes contents)
  have written : Runs (CompatPool.write block contents) state () after := by
    refine (first.load []).bind ?_
    simpa [sized] using stored
  have settled := holds.perm (cells_memory pool larges spec.cleanups front back (block, contents)).symm
  refine ⟨after, written, larges.map fun entry =>
    if entry.2.1 = block then (entry.1, block, contents) else entry, ?_, ?_, ?_, turns ▸ laid.reachedCleanups⟩
  · rw [← laid.listed]
    simp only [Spec.overwrite, List.map_map]
    refine List.map_congr_left fun entry _ => ?_
    by_cases same : entry.2.1 = block
    · simp [same]
    · simp [same]
  · have memory : Spec.overwrite block contents spec.memory = front ++ (block, contents) :: back := by
      rw [split]
      exact map_replaced apart contents
    simp only [Spec.memory, Spec.overwrite, List.map_append] at memory
    simp only [cells, sameHead, sameCells, Spec.memory, Spec.overwrite, memory]
    exact settled
  · rw [List.length_map, turns]
    exact laid.reached

theorem Laid.mallocOutside (laid : Laid pool spec state larges) (size : Nat) :
    ∃ result after next, Runs (mallocBytes allocator size) state result after ∧
      spec.Step (.mallocOutside size) (.pointer result) next ∧ Represents pool next after := by
  obtain ⟨result, after, ran, turns, outcome⟩ :=
    laid.held.malloc allocator size (.bytes (unwritten size))
  rcases outcome with ⟨rfl, kept⟩ | ⟨block, rfl, added⟩
  · exact ⟨none, after, spec, ran, @Spec.Step.refused _ _ size (by simp), laid.later (by omega) kept⟩
  · have fresh := @not_used pool spec larges block (List.nodup_cons.mp added.apart).1
    have reached := laid.reached
    have reachedCleanups := laid.reachedCleanups
    rw [memory_outside] at added
    have settled := added.perm (cells_memory pool larges spec.cleanups (spec.blocks ++ spec.cleanupData)
      spec.outside (block, unwritten size)).symm
    refine ⟨some block, after, _, ran, .mallocOutside fresh, larges, laid.listed, ?_, by omega, ?_⟩
    · rw [memory_outside]
      exact settled
    · exact Nat.le_trans reachedCleanups (by omega)

theorem Laid.freeOutside {block : Addr} (laid : Laid pool spec state larges)
    (outside : block ∈ spec.outside.map Prod.fst) :
    ∃ after, Runs (free (some block)) state () after ∧
      Represents pool { spec with outside := spec.outside.eraseP fun entry => entry.1 = block } after := by
  obtain ⟨entry, member, sought⟩ := List.mem_map.mp outside
  obtain ⟨⟨found, contents⟩, before, later, _, same, split, erased⟩ :=
    @List.exists_of_eraseP _ (fun entry => entry.1 = block) _ _ member (by simpa using sought)
  obtain rfl : found = block := by simpa using same
  have held := laid.held
  rw [memory_outside, split, ← List.append_assoc] at held
  obtain ⟨after, freed, turns, holds⟩ := (held.perm (cells_memory ..)).free []
  refine ⟨after, freed, larges, laid.listed, ?_, turns ▸ laid.reached, turns ▸ laid.reachedCleanups⟩
  rw [memory_outside, erased, ← List.append_assoc]
  exact holds

/-- One operation of a caller that keeps to the rules. -/
theorem Represents.step {op : Op} (represented : Represents pool spec state) (allowed : spec.Allows op) :
    ∃ result after next, Runs (perform allocator pool op) state result after ∧
      spec.Step op result next ∧ Represents pool next after := by
  obtain ⟨larges, laid⟩ := represented
  cases op with
  | palloc size =>
      obtain ⟨result, after, ran, outcome⟩ := @Laid.palloc allocator _ _ _ _ laid size
      rcases outcome with ⟨rfl, kept⟩ | ⟨block, rfl, fresh, grown⟩
      · exact ⟨_, after, spec, ran.bind (.pure _ _), @Spec.Step.refused _ _ size (by simp), kept⟩
      · exact ⟨_, after, _, ran.bind (.pure _ _), .palloc fresh (by simp), grown⟩
  | pnalloc size =>
      obtain ⟨result, after, ran, outcome⟩ := @Laid.palloc allocator _ _ _ _ laid size
      rcases outcome with ⟨rfl, kept⟩ | ⟨block, rfl, fresh, grown⟩
      · exact ⟨_, after, spec, Runs.bind ran (.pure _ _), @Spec.Step.refused _ _ size (by simp), kept⟩
      · exact ⟨_, after, _, Runs.bind ran (.pure _ _), .palloc fresh (by simp), grown⟩
  | pcalloc size =>
      obtain ⟨result, after, ran, outcome⟩ := @Laid.pcalloc allocator _ _ _ _ laid size
      rcases outcome with ⟨rfl, kept⟩ | ⟨block, rfl, fresh, grown⟩
      · exact ⟨_, after, spec, ran.bind (.pure _ _), @Spec.Step.refused _ _ size (by simp), kept⟩
      · exact ⟨_, after, _, ran.bind (.pure _ _), .pcalloc fresh, grown⟩
  | pfree block =>
      by_cases owned : ∃ addr, block = some addr ∧ addr ∈ spec.blocks.map Prod.fst
      · obtain ⟨addr, rfl, member⟩ := owned
        obtain ⟨after, ran, remaining⟩ := laid.pfree_owned member
        exact ⟨_, after, _, ran.bind (.pure _ _), .pfree member, remaining⟩
      · have unknown : ∀ addr, block = some addr → addr ∉ spec.blocks.map Prod.fst :=
          fun addr same member => owned ⟨addr, same, member⟩
        exact ⟨_, state, spec, (laid.pfree_unknown unknown).bind (.pure _ _), .pfreeUnknown unknown,
          larges, laid⟩
  | cleanupAdd size =>
      obtain ⟨result, after, next, ran, step, kept⟩ := @Laid.cleanupAdd allocator _ _ _ _ laid size
      exact ⟨_, after, next, ran.bind (.pure _ _), step, kept⟩
  | setCleanup node handler data =>
      obtain ⟨after, ran, kept⟩ := @Laid.setCleanup _ _ _ _ _ handler data laid allowed
      exact ⟨_, after, _, ran.bind (.pure _ _), .setCleanup, kept⟩
  | write block contents =>
      obtain ⟨old, member, sized⟩ := allowed
      obtain ⟨after, ran, kept⟩ := laid.write member sized
      exact ⟨_, after, _, ran.bind (.pure _ _), .write, kept⟩
  | mallocOutside size =>
      obtain ⟨result, after, next, ran, step, kept⟩ := @Laid.mallocOutside allocator _ _ _ _ laid size
      exact ⟨_, after, next, ran.bind (.pure _ _), step, kept⟩
  | freeOutside block =>
      obtain ⟨after, ran, kept⟩ := laid.freeOutside allowed
      exact ⟨_, after, _, ran.bind (.pure _ _), .freeOutside, kept⟩

end Steps

/-- A pool that was just created, in a heap where other code holds `outside`. -/
def Spec.created (outside : List (Addr × Contents)) : Spec := ⟨[], [], [], outside⟩

/-- The callers' operations up to the first that breaks the rules. -/
theorem Represents.run {allocator : Allocator Block} {pool : Addr} {spec : Spec} {state : State Block}
    (represented : Represents pool spec state) (ops : List Op) :
    (∃ results after final, Runs (performAll allocator pool ops) state results after ∧
      spec.Run ops results final ∧ Represents pool final after) ∨
    ∃ front op back results after middle, ops = front ++ op :: back ∧
      Runs (performAll allocator pool front) state results after ∧ spec.Run front results middle ∧
      Represents pool middle after ∧ ¬ middle.Allows op := by
  induction ops generalizing spec state with
  | nil => exact .inl ⟨[], state, spec, .pure _ _, .nil spec, represented⟩
  | cons op ops ih =>
      by_cases allowed : spec.Allows op
      · obtain ⟨result, middle, next, ran, step, kept⟩ :=
          @Represents.step allocator _ _ _ _ represented allowed
        rcases ih kept with ⟨results, after, final, rest, run, reached⟩ |
          ⟨front, broken, back, results, after, last, rfl, rest, run, reached, refused⟩
        · exact .inl ⟨result :: results, after, final, ran.bind (rest.bind (.pure _ _)),
            .cons allowed step run, reached⟩
        · exact .inr ⟨op :: front, broken, back, result :: results, after, last, rfl,
            ran.bind (rest.bind (.pure _ _)), .cons allowed step run, reached, refused⟩
      · exact .inr ⟨[], op, ops, [], state, spec, rfl, .pure _ _, .nil spec, represented, allowed⟩

/-- The handlers set, each with its data, newest first. -/
def Spec.handlers (spec : Spec) : List (Handler × Ptr) :=
  spec.cleanups.flatMap fun entry => (entry.2.1.map (·, entry.2.2)).toList

/-- Whether the heap shows that the operation is the caller's to make; a free by other code is
never shown to be. -/
def Op.fits (state : State Block) : Op → Bool
  | .setCleanup node _ _ =>
      match state.blocks node with
      | some (.cleanup _ _ _) => true
      | _ => false
  | .write block contents =>
      match state.blocks block with
      | some (.bytes old) => old.length = contents.length
      | _ => false
  | .freeOutside _ => false
  | _ => true

/-- Whether an operation made a data block for a cleanup. -/
def Made (op : Op) (result : Result) : Prop :=
  ∃ size node, op = .cleanupAdd size ∧ 0 < size ∧ result = .pointer (some node)

theorem Spec.Step.cleanupData {before after : Spec} {op : Op} {result : Result}
    (step : before.Step op result after) :
    after.cleanupData = [] ↔ before.cleanupData = [] ∧ ¬ Made op result := by
  cases step with
  | cleanupAddData positive fresh freshData apart =>
      simp [Made, positive]
  | write => simp [Made, Spec.overwrite]
  | palloc fresh allocates =>
      have other : ∀ size, op ≠ .cleanupAdd size := by
        intro size same
        subst same
        simp at allocates
      simp [Made, other]
  | _ => simp [Made]

theorem Spec.Step.outside {before after : Spec} {op : Op} {result : Result}
    (step : before.Step op result after) (own : ∀ size, op ≠ .mallocOutside size)
    (empty : before.outside = []) : after.outside = [] := by
  cases step with
  | mallocOutside fresh => exact absurd rfl (own _)
  | write => simp [Spec.overwrite, empty]
  | freeOutside => simp [empty]
  | _ => exact empty

theorem Spec.Run.leaves {before after : Spec} {ops : List Op} {results : List Result}
    (run : before.Run ops results after) (own : ∀ size, Op.mallocOutside size ∉ ops)
    (empty : before.outside = []) :
    after.outside = [] ∧ (after.cleanupData = [] ↔ before.cleanupData = [] ∧
      ∀ entry ∈ ops.zip results, ¬ Made entry.1 entry.2) := by
  induction run with
  | nil spec => simp [empty]
  | cons allowed step rest ih =>
      simp only [List.mem_cons, not_or] at own
      obtain ⟨outside, data⟩ := ih (fun size => (own size).2)
        (step.outside (fun size same => (own size).1 same.symm) empty)
      refine ⟨outside, ?_⟩
      rw [data, step.cleanupData, List.zip_cons_cons, List.forall_mem_cons, and_assoc]

end AuthWebauthn.CompatPool
