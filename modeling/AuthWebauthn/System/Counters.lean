import AuthWebauthn.Data.Counter
import AuthWebauthn.Process.Always
import AuthWebauthn.System.Agreement
import AuthWebauthn.Verify.Acceptance

namespace AuthWebauthn

open Process Redis

/-! A verify run compares the reported counter with the one it has read and later
writes the reported one, whatever is stored by then.  With strict clone
detection the stored counter keeps rising and tells clones apart exactly if the
comparison would still succeed at each write.
-/

variable {ι : Type} {ext : Externals} {server : Server} {deployment : Deployment ι} {db : Db}
  {events : List (RedisEvent ι)} {credentialId : Bytes}

/-- The counter of a record, as `get` reads it. -/
def storedCount (keyPrefix credentialId : Bytes) (db : Db) : Option UInt32 :=
  ((fieldsAt db (credentialRecordKey keyPrefix credentialId)).lookup Field.signCount).elim (some 0)
    signCountOfText

/-- Verify runs on the credential are strict, and it is neither registered nor
revoked. -/
structure StrictUse (deployment : Deployment ι) (credentialId : Bytes) : Prop where
  strict : ∀ process conf request, deployment.jobs process = .verify conf request →
    conf.cloneDetection = .strict
  unregistered : ∀ process host keyPrefix registration,
    deployment.jobs process = .register host keyPrefix registration →
    registration.cred.credentialId ≠ credentialId
  unrevoked : ∀ process host keyPrefix,
    deployment.jobs process ≠ .revoke host keyPrefix credentialId

/-- The counter that a command writes to the record. -/
def countOf (key : Bytes) : Cmd → Option UInt32
  | .hset target pairs =>
      if target = key then (pairs.lookup Field.signCount).bind signCountOfText else none
  | _ => none

theorem countOf_counterPairs (key : Bytes) (count : UInt32) (lastUsedAt : Int64) :
    countOf key (.hset key (counterPairs count lastUsedAt)) = some count := by
  simp [countOf, counterPairs, signCountOfText_digits]

theorem countOf_key {key : Bytes} {command : Cmd} {count : UInt32}
    (counts : countOf key command = some count) : command.key = some key := by
  unfold countOf at counts
  split at counts
  · split_ifs at counts with same
    rw [Cmd.key, same]
  · cases counts

/-- The only commands of a strictly used credential that touch its record. -/
theorem StrictUse.record_command (use : StrictUse deployment credentialId) {process : ι}
    {command : Cmd} (may : (deployment.jobs process).May command)
    (touches : command.key = some (credentialRecordKey deployment.keyPrefix credentialId)) :
    command = .hgetall (credentialRecordKey deployment.keyPrefix credentialId) ∨
    ∃ conf request count, deployment.jobs process = .verify conf request ∧
      command = .hset (credentialRecordKey deployment.keyPrefix credentialId)
        (counterPairs count request.now) := by
  cases deployment.record_command may touches with
  | read => exact .inl rfl
  | count conf request count job => exact .inr ⟨conf, request, count, job, rfl⟩
  | put host keyPrefix registration job named owned =>
      exact absurd named (use.unregistered process host keyPrefix registration job)
  | remove host keyPrefix job => exact absurd job (use.unrevoked process host keyPrefix)

theorem StrictUse.stored_exec (use : StrictUse deployment credentialId) (server : Server)
    {process : ι} {command : Cmd} (may : (deployment.jobs process).May command)
    (typed : IsHash db (credentialRecordKey deployment.keyPrefix credentialId)) :
    storedCount deployment.keyPrefix credentialId (exec server db command).1 =
      (countOf (credentialRecordKey deployment.keyPrefix credentialId) command).or
        (storedCount deployment.keyPrefix credentialId db) := by
  by_cases touches : command.key = some (credentialRecordKey deployment.keyPrefix credentialId)
  · rcases use.record_command may touches with rfl | ⟨conf, request, count, job, rfl⟩
    · rw [exec_hgetall]
      rfl
    · rw [countOf_counterPairs, storedCount, (exec_hset server typed _).1, fieldsAt, Db.write_same,
        fieldsOf_hashEntry, Hash.lookup_setFields_of_mem (counterPairs_names_nodup count request.now)
          (List.mem_cons_self ..), Option.elim_some, signCountOfText_digits]
      rfl
  · have silent : countOf (credentialRecordKey deployment.keyPrefix credentialId) command = none :=
      Option.eq_none_iff_forall_ne_some.mpr fun count counts => touches (countOf_key counts)
    rw [silent, storedCount, fieldsAt_congr (exec_other touches)]
    rfl

/-- The counters that were written to the record, and by which runs. -/
def writtenCounts (keyPrefix credentialId : Bytes) (log : List (RedisServed ι)) :
    List (ι × UInt32) :=
  log.filterMap fun served =>
    (countOf (credentialRecordKey keyPrefix credentialId) served.command).map (served.process, ·)

section Runs

variable [DecidableEq ι]

/-- The event executes a counter update of the record. -/
def CounterUpdate (deployment : Deployment ι) (credentialId : Bytes) (pool : RedisPool ι)
    (event : RedisEvent ι) (count : UInt32) : Prop :=
  ∃ process lastUsedAt next, event = .step process .served ∧
    pool.programs process = .call (.hset (credentialRecordKey deployment.keyPrefix credentialId)
      (counterPairs count lastUsedAt)) next

/-- What every state of a run has. -/
structure PoolCounted (deployment : Deployment ι) (credentialId : Bytes) (initial : Option UInt32)
    (pool : RedisPool ι) : Prop where
  issues : ∀ process, (pool.programs process).Issues (deployment.jobs process).May
  typed : IsHash pool.state (credentialRecordKey deployment.keyPrefix credentialId)
  stored : storedCount deployment.keyPrefix credentialId pool.state =
    (initial.toList ++ (writtenCounts deployment.keyPrefix credentialId pool.log).map Prod.snd).getLast?

/-- A served event is a counter update of the record or does not concern its
counter. -/
theorem StrictUse.step_cases (use : StrictUse deployment credentialId) (server : Server) {initial : Option UInt32}
    {pool : RedisPool ι} (counted : PoolCounted deployment credentialId initial pool)
    {event : RedisEvent ι} (served : ServedEvent event) :
    ((∀ count, ¬ CounterUpdate deployment credentialId pool event count) ∧
      writtenCounts deployment.keyPrefix credentialId (pool.step (machine server) event).log =
        writtenCounts deployment.keyPrefix credentialId pool.log ∧
      storedCount deployment.keyPrefix credentialId (pool.step (machine server) event).state =
        storedCount deployment.keyPrefix credentialId pool.state) ∨
    ∃ process count, (∀ other, CounterUpdate deployment credentialId pool event other ↔
        other = count) ∧
      writtenCounts deployment.keyPrefix credentialId (pool.step (machine server) event).log =
        writtenCounts deployment.keyPrefix credentialId pool.log ++ [(process, count)] ∧
      storedCount deployment.keyPrefix credentialId (pool.step (machine server) event).state =
        some count := by
  cases event with
  | environment change =>
      refine .inl ⟨?_, rfl, rfl⟩
      intro count update
      obtain ⟨_, _, _, steps, _⟩ := update
      cases steps
  | step process mode =>
      obtain rfl : mode = .served := served
      cases pending : pool.programs process with
      | done value =>
          refine .inl ⟨?_, by simp only [Pool.step, pending], by simp only [Pool.step, pending]⟩
          intro count update
          obtain ⟨actor, _, _, steps, calls⟩ := update
          cases steps
          rw [pending] at calls
          cases calls
      | call command next =>
          have may := counted.issues process
          rw [pending] at may
          have stored := use.stored_exec server may.1 counted.typed
          have updates : ∀ count, CounterUpdate deployment credentialId pool (.step process .served)
              count → countOf (credentialRecordKey deployment.keyPrefix credentialId) command =
                some count := by
            intro count update
            obtain ⟨actor, lastUsedAt, _, steps, calls⟩ := update
            cases steps
            rw [pending] at calls
            obtain ⟨rfl, _⟩ := Prog.call.inj calls
            exact countOf_counterPairs ..
          simp only [Pool.step, pending, writtenCounts, List.filterMap_append]
          cases counts : countOf (credentialRecordKey deployment.keyPrefix credentialId) command with
          | none =>
              refine .inl ⟨fun count update => ?_, by simp [counts], ?_⟩
              · rw [updates count update] at counts
                cases counts
              · rw [counts] at stored
                exact stored
          | some count =>
              refine .inr ⟨process, count, fun other => ⟨fun update => ?_, ?_⟩, by simp [counts], ?_⟩
              · rw [updates other update] at counts
                exact Option.some.inj counts
              · intro same
                subst same
                rcases use.record_command may.1 (countOf_key counts) with
                  rfl | ⟨conf, request, written, _, rfl⟩
                · cases counts
                · rw [countOf_counterPairs, Option.some.injEq] at counts
                  exact ⟨process, request.now, next, rfl, by rw [pending, counts]⟩
              · rw [counts] at stored
                exact stored

theorem StrictUse.counted_step (use : StrictUse deployment credentialId) {initial : Option UInt32}
    {pool : RedisPool ι} (counted : PoolCounted deployment credentialId initial pool)
    {event : RedisEvent ι} (served : ServedEvent event) :
    PoolCounted deployment credentialId initial (pool.step (machine server) event) where
  issues := Pool.step_issues counted.issues event
  typed := by
    rcases Pool.step_cases (machine server) pool event with
      same | ⟨change, rfl, stepped⟩ | ⟨process, mode, command, next, rfl, pending, stepped⟩
    · rw [same]
      exact counted.typed
    · rw [stepped]
      exact counted.typed
    · have may := counted.issues process
      rw [pending] at may
      rw [stepped]
      exact isHash_kept ⟨process, command, mode, pool.state, none⟩ may.1 _ counted.typed
  stored := by
    rcases use.step_cases server counted served with
      ⟨_, written, stored⟩ | ⟨process, count, _, written, stored⟩
    · rw [written, stored, counted.stored]
    · rw [written, stored, List.map_append, ← List.append_assoc]
      simp

omit [DecidableEq ι] in
theorem poolCounted_start (ext : Externals)
    (typed : IsHash db (credentialRecordKey deployment.keyPrefix credentialId)) :
    PoolCounted deployment credentialId (storedCount deployment.keyPrefix credentialId db)
      (Pool.start db (deployment.programs ext)) where
  issues _ := Job.issues _
  typed := typed
  stored := by
    cases stored : storedCount deployment.keyPrefix credentialId db <;>
      simp [Pool.start, writtenCounts, stored]

theorem StrictUse.counted (use : StrictUse deployment credentialId) (ext : Externals)
    (server : Server)
    (typed : IsHash db (credentialRecordKey deployment.keyPrefix credentialId))
    (served : ∀ event ∈ events, ServedEvent event) :
    PoolCounted deployment credentialId (storedCount deployment.keyPrefix credentialId db)
      (deployment.run ext server db events) := by
  induction events using List.reverseRecOn with
  | nil => exact poolCounted_start ext typed
  | append_singleton events event ih =>
      rw [Deployment.run_concat]
      exact use.counted_step (ih fun earlier member => served earlier (by simp [member]))
        (served event (by simp))

/-- A relation between each written counter and the one it overwrites is a
relation between neighbours in the list of all counters. -/
theorem StrictUse.isChain_iff (use : StrictUse deployment credentialId)
    (typed : IsHash db (credentialRecordKey deployment.keyPrefix credentialId))
    (served : ∀ event ∈ events, ServedEvent event) (R : UInt32 → UInt32 → Prop) :
    Throughout (Pool.step (machine server)) (fun pool event =>
        ∀ count, CounterUpdate deployment credentialId pool event count →
          ∀ stored ∈ storedCount deployment.keyPrefix credentialId pool.state, R stored count)
      (Pool.start db (deployment.programs ext)) events ↔
    ((storedCount deployment.keyPrefix credentialId db).toList ++
      (writtenCounts deployment.keyPrefix credentialId
        (deployment.run ext server db events).log).map Prod.snd).IsChain R := by
  induction events using List.reverseRecOn with
  | nil =>
      cases storedCount deployment.keyPrefix credentialId db <;>
        simp [throughout_nil, Deployment.run, Pool.start, writtenCounts]
  | append_singleton events event ih =>
      have earlier : ∀ event ∈ events, ServedEvent event :=
        fun event member => served event (by simp [member])
      have counted := use.counted ext server typed earlier
      rw [throughout_concat, ih earlier, Deployment.run_concat]
      change _ ∧ (∀ count, CounterUpdate deployment credentialId (deployment.run ext server db events)
        event count → _) ↔ _
      rcases use.step_cases server counted (served event (by simp)) with
        ⟨silent, written, _⟩ | ⟨process, count, updates, written, _⟩
      · rw [written]
        exact and_iff_left fun count update => absurd update (silent count)
      · rw [written, List.map_append, ← List.append_assoc, List.map_singleton,
          Counter.isChain_concat_iff]
        simp only [updates, forall_eq]
        rw [← counted.stored]
        rfl

/-- The run accepted an assertion for the credential that reports `count`, and
has answered. -/
def AcceptedWith (ext : Externals) (deployment : Deployment ι) (credentialId : Bytes)
    (pool : RedisPool ι) (process : ι) (count : UInt32) : Prop :=
  ∃ conf request origins parsed connected consumed read written cred,
    deployment.jobs process = .verify conf request ∧ parsed.id = credentialId ∧
    Accepted ext conf request origins parsed consumed read cred count ∧
    pool.exchanges process = acceptedExchanges conf parsed connected consumed read ++
      [(counterUpdate conf request parsed count, written)]

/-- A counter update in the log comes from a run that has accepted its assertion
and does nothing else afterwards. -/
theorem StrictUse.update_accepted (use : StrictUse deployment credentialId)
    {front back : List (RedisServed ι)} {served : RedisServed ι} {count : UInt32}
    (split : (deployment.run ext server db events).log = front ++ served :: back)
    (counts : countOf (credentialRecordKey deployment.keyPrefix credentialId) served.command =
      some count) :
    ∃ conf request origins parsed connected consumed read cred,
      deployment.jobs served.process = .verify conf request ∧ parsed.id = credentialId ∧
      Accepted ext conf request origins parsed consumed read cred count ∧
      (front.filter fun entry => entry.process = served.process).map Served.exchange =
        acceptedExchanges conf parsed connected consumed read ∧
      served.command = counterUpdate conf request parsed count ∧
      (back.filter fun entry => entry.process = served.process) = [] := by
  rcases use.record_command (deployment.log_may (by rw [split]; simp)) (countOf_key counts) with
    reads | ⟨conf, request, _, job, command⟩
  · rw [reads] at counts
    cases counts
  have shared := deployment.verify_shared job
  obtain ⟨rest, _, own⟩ := deployment.verify_talks job
  rw [Pool.exchanges, split, List.filter_append, List.map_append, List.filter_cons_of_pos (by simp),
    List.map_cons] at own
  obtain ⟨middle, earlier, later⟩ := own.split
  cases later with
  | cons later =>
      rcases verifyDone_talks earlier with unaccepted | accepted
      · rw [command] at unaccepted
        exact unaccepted.elim
      · cases accepted with
        | @pending origins parsed connected consumed read cred reported accepted past next =>
            obtain ⟨issued, continues⟩ := Prog.call.inj next
            rw [continues] at later
            have counted := counts
            rw [issued, counterUpdate, shared] at counted
            have named : parsed.id = credentialId := by
              have touches := countOf_key counted
              rwa [Cmd.key, Option.some.injEq, credentialRecordKey_inj] at touches
            rw [named, countOf_counterPairs, Option.some.injEq] at counted
            subst counted
            exact ⟨conf, request, origins, parsed, connected, consumed, read, cred, job, named,
              accepted, past, issued, List.map_eq_nil_iff.mp later.done_nil.1⟩
        | finished accepted past ended => cases ended

theorem checkCounter_strict_iff {auth stored : UInt32} :
    assertionCheckCounter .strict auth stored = .ok ↔ Counter.Advances stored.toNat auth.toNat := by
  have zero {count : UInt32} : count = 0 ↔ count.toNat = ⊥ := UInt32.toNat_inj.symm
  rw [checkCounter_ok_iff, Counter.Advances, ← zero, ← zero, ← UInt32.lt_iff_toNat_lt]
  simp only [true_implies]

/-- The count of an update was checked against one that the record held before. -/
theorem StrictUse.update_checked (use : StrictUse deployment credentialId)
    (typed : IsHash db (credentialRecordKey deployment.keyPrefix credentialId))
    (modes : ∀ event ∈ events, ServedEvent event)
    {front back : List (RedisServed ι)} {served : RedisServed ι} {count : UInt32}
    (split : (deployment.run ext server db events).log = front ++ served :: back)
    (counts : countOf (credentialRecordKey deployment.keyPrefix credentialId) served.command =
      some count) :
    ∃ stored ∈ (storedCount deployment.keyPrefix credentialId db).toList ++
        (writtenCounts deployment.keyPrefix credentialId front).map Prod.snd,
      assertionCheckCounter .strict count stored = .ok := by
  obtain ⟨conf, request, origins, parsed, connected, consumed, read, cred, job, rfl, accepted, past,
    _, _⟩ := use.update_accepted split counts
  have exchanged : (Cmd.hgetall (credentialRecordKey conf.redisKeyPrefix parsed.id), read) ∈
      (front.filter fun entry => entry.process = served.process).map Served.exchange := by
    rw [past]
    simp [acceptedExchanges]
  obtain ⟨reader, member, _, command, reply⟩ := exchange_mem exchanged
  obtain ⟨earlier, between, rfl⟩ := List.append_of_mem member
  have readSplit : (deployment.run ext server db events).log =
      earlier ++ reader :: (between ++ served :: back) := by simpa using split
  obtain ⟨before, after, rfl, located⟩ := Pool.run_locate readSplit
  have counted := use.counted ext server typed fun event (earlier : event ∈ before) =>
    modes event (by simp [earlier])
  have stored := counted.stored
  rw [Deployment.run, located.log, located.reached] at stored
  have typedThere := counted.typed
  rw [Deployment.run, located.reached] at typedThere
  have answered := located.reply
  rw [command, reply, deployment.verify_shared job] at answered
  obtain ⟨readFrom, _, _⟩ := credentialGetPairs_ok (read_record answered accepted.record typedThere)
  have held : storedCount deployment.keyPrefix parsed.id reader.before = some cred.signCount :=
    readFrom.signCount
  rw [held] at stored
  obtain ⟨authdata, checked, rfl⟩ := assertionVerify_ok accepted.verified
  refine ⟨cred.signCount, ?_, ?_⟩
  · have found := List.mem_of_getLast? stored.symm
    rw [writtenCounts, List.filterMap_append, List.map_append]
    rcases List.mem_append.mp found with initial | written
    · exact List.mem_append_left _ initial
    · exact List.mem_append_right _ (List.mem_append_left _ written)
  · have passed := checked.counter
    rwa [policyOf, use.strict _ _ _ job] at passed

/-- The same in terms of the counters alone. -/
theorem StrictUse.written_checked (use : StrictUse deployment credentialId) (ext : Externals)
    (server : Server)
    (typed : IsHash db (credentialRecordKey deployment.keyPrefix credentialId))
    (modes : ∀ event ∈ events, ServedEvent event) {front back : List Nat} {value : Nat}
    (split : ((writtenCounts deployment.keyPrefix credentialId
      (deployment.run ext server db events).log).map Prod.snd).map UInt32.toNat =
        front ++ value :: back) :
    ∃ read ∈ ((storedCount deployment.keyPrefix credentialId db).map UInt32.toNat).toList ++ front,
      Counter.Advances read value := by
  rw [List.map_map, writtenCounts, List.map_filterMap] at split
  obtain ⟨earlier, rest, log, rfl, from_⟩ := List.filterMap_eq_append_iff.mp split
  obtain ⟨between, served, later, rfl, silent, writes, _⟩ := List.filterMap_eq_cons_iff.mp from_
  obtain ⟨count, counts, rfl⟩ : ∃ count, countOf (credentialRecordKey deployment.keyPrefix
      credentialId) served.command = some count ∧ count.toNat = value := by
    simpa using writes
  have placed : (deployment.run ext server db events).log =
      (earlier ++ between) ++ served :: later := by simpa using log
  obtain ⟨stored, held, passed⟩ := use.update_checked typed modes placed counts
  refine ⟨stored.toNat, ?_, checkCounter_strict_iff.mp passed⟩
  have unwritten : writtenCounts deployment.keyPrefix credentialId between = [] := by
    refine List.filterMap_eq_nil_iff.mpr fun entry member => ?_
    simpa using silent entry member
  have written : (writtenCounts deployment.keyPrefix credentialId (earlier ++ between)) =
      writtenCounts deployment.keyPrefix credentialId earlier := by
    rw [writtenCounts, List.filterMap_append, ← writtenCounts, ← writtenCounts, unwritten,
      List.append_nil]
  rw [written] at held
  have mapped : stored.toNat ∈ List.map UInt32.toNat _ := List.mem_map_of_mem held
  rwa [List.map_append, ← Option.toList_map, List.map_map, writtenCounts, List.map_filterMap] at mapped

theorem StrictUse.written_iff_accepted (use : StrictUse deployment credentialId) {process : ι}
    {count : UInt32} :
    (process, count) ∈ writtenCounts deployment.keyPrefix credentialId
        (deployment.run ext server db events).log ↔
      AcceptedWith ext deployment credentialId (deployment.run ext server db events) process count := by
  constructor
  · intro written
    obtain ⟨served, logged, counts⟩ := List.mem_filterMap.mp written
    obtain ⟨reported, counts, same⟩ := Option.map_eq_some_iff.mp counts
    cases same
    obtain ⟨front, back, split⟩ := List.append_of_mem logged
    obtain ⟨conf, request, origins, parsed, connected, consumed, read, cred, job, named, accepted,
      past, issued, finished⟩ := use.update_accepted split counts
    refine ⟨conf, request, origins, parsed, connected, consumed, read, served.reply, cred, job, named,
      accepted, ?_⟩
    rw [Pool.exchanges, split, List.filter_append, List.filter_cons_of_pos (by simp), finished,
      List.map_append, past, List.map_singleton, Served.exchange, issued]
  · intro recorded
    obtain ⟨conf, request, origins, parsed, connected, consumed, read, written, cred, job, rfl, _,
      past⟩ := recorded
    have exchanged : (counterUpdate conf request parsed count, written) ∈
        (deployment.run ext server db events).exchanges process := by
      rw [past]
      simp
    obtain ⟨served, logged, own, command, _⟩ := exchange_mem exchanged
    refine List.mem_filterMap.mpr ⟨served, logged, ?_⟩
    rw [command, counterUpdate, deployment.verify_shared job, countOf_counterPairs]
    simpa using own

/-- No run updates the counter twice. -/
theorem StrictUse.written_once (use : StrictUse deployment credentialId) :
    (writtenCounts deployment.keyPrefix credentialId (deployment.run ext server db events).log).Pairwise
      fun first second => first.1 ≠ second.1 := by
  refine List.pairwise_filterMap.mpr (pairwise_of_splits fun front first back split second later => ?_)
  intro entry counts later countsAgain sameProcess
  obtain ⟨process, count⟩ := entry
  obtain ⟨other, again⟩ := later
  subst sameProcess
  obtain ⟨_, counts, same⟩ := Option.map_eq_some_iff.mp counts
  obtain ⟨_, _, sameOther⟩ := Option.map_eq_some_iff.mp countsAgain
  cases same
  obtain ⟨_, _, _, _, _, _, _, _, _, _, _, _, _, finished⟩ := use.update_accepted split counts
  refine absurd (List.filter_eq_nil_iff.mp finished second later) ?_
  simpa using congrArg Prod.fst sameOther

/-- The event does not lower the stored counter. -/
def CountKept (server : Server) (deployment : Deployment ι) (credentialId : Bytes)
    (pool : RedisPool ι) (event : RedisEvent ι) : Prop :=
  ∀ before ∈ storedCount deployment.keyPrefix credentialId pool.state,
    ∀ after ∈ storedCount deployment.keyPrefix credentialId
      (pool.step (machine server) event).state, before ≤ after

/-- No two runs accepted the same counter, unless the authenticator has none. -/
def DistinctCounts (ext : Externals) (deployment : Deployment ι) (credentialId : Bytes)
    (pool : RedisPool ι) : Prop :=
  ∀ first second count, first ≠ second → AcceptedWith ext deployment credentialId pool first count →
    AcceptedWith ext deployment credentialId pool second count → count = 0

/-- A counter update passes the strict check against what is stored when it is
executed. -/
def CheckedWhenWritten (deployment : Deployment ι) (credentialId : Bytes) (pool : RedisPool ι)
    (event : RedisEvent ι) : Prop :=
  ∀ count, CounterUpdate deployment credentialId pool event count →
    ∀ stored ∈ storedCount deployment.keyPrefix credentialId pool.state,
      assertionCheckCounter .strict count stored = .ok

theorem StrictUse.kept_iff_isChain (use : StrictUse deployment credentialId)
    (typed : IsHash db (credentialRecordKey deployment.keyPrefix credentialId))
    (served : ∀ event ∈ events, ServedEvent event) :
    Throughout (Pool.step (machine server)) (CountKept server deployment credentialId)
        (Pool.start db (deployment.programs ext)) events ↔
      ((storedCount deployment.keyPrefix credentialId db).toList ++
        (writtenCounts deployment.keyPrefix credentialId
          (deployment.run ext server db events).log).map Prod.snd).IsChain (· ≤ ·) := by
  rw [← use.isChain_iff typed served]
  refine forall₃_congr fun front event back => imp_congr_right fun split => ?_
  have counted := use.counted ext server typed fun earlier (member : earlier ∈ front) =>
    served earlier (by simp [split, member])
  change CountKept server deployment credentialId (deployment.run ext server db front) event ↔ _
  unfold CountKept
  rcases use.step_cases server counted (served event (by simp [split])) with
    ⟨silent, _, same⟩ | ⟨process, count, updates, _, stored⟩
  · rw [same]
    refine iff_of_true (fun before held after kept => ?_) fun count update =>
      absurd update (silent count)
    rw [Option.mem_unique held kept]
    exact UInt32.le_refl _
  · rw [stored]
    constructor
    · intro rises other update before held
      rw [(updates other).mp update]
      exact rises before held count rfl
    · intro above before held after same
      cases same
      exact above count ((updates count).mpr rfl) before held

theorem StrictUse.distinct_iff_pairwise (use : StrictUse deployment credentialId) :
    DistinctCounts ext deployment credentialId (deployment.run ext server db events) ↔
      ((writtenCounts deployment.keyPrefix credentialId
        (deployment.run ext server db events).log).map Prod.snd).Pairwise
        fun first second => first = second → first = 0 := by
  rw [List.pairwise_map]
  constructor
  · intro distinct
    refine use.written_once.imp_of_mem fun {first second} member later apart same => ?_
    refine distinct first.1 second.1 first.2 apart (use.written_iff_accepted.mp member)
      (use.written_iff_accepted.mp ?_)
    rw [same]
    exact later
  · intro pairwise first second count apart accepted again
    have symmetric : Std.Symm fun first second : ι × UInt32 => first.2 = second.2 → first.2 = 0 :=
      ⟨fun _ _ unused same => same ▸ unused same.symm⟩
    exact pairwise.forall (use.written_iff_accepted.mpr accepted)
      (use.written_iff_accepted.mpr again) (fun same => apart (congrArg Prod.fst same)) rfl

/-- With all commands served and strict clone detection everywhere, the stored
counter never falls and no counter is accepted twice exactly if every counter
update would still pass the check when it is written. -/
theorem counters_safe_iff_checked_when_written (ext : Externals) (server : Server)
    (deployment : Deployment ι) (db : Db) (events : List (RedisEvent ι)) (credentialId : Bytes)
    (use : StrictUse deployment credentialId)
    (typed : IsHash db (credentialRecordKey deployment.keyPrefix credentialId))
    (served : ∀ event ∈ events, ServedEvent event) :
    (Throughout (Pool.step (machine server)) (CountKept server deployment credentialId)
        (Pool.start db (deployment.programs ext)) events ∧
      DistinctCounts ext deployment credentialId (deployment.run ext server db events)) ↔
    Throughout (Pool.step (machine server)) (CheckedWhenWritten deployment credentialId)
      (Pool.start db (deployment.programs ext)) events := by
  have exact := Counter.isChain_advances_iff fun front value back split =>
    use.written_checked ext server typed served split
  have joined : ((storedCount deployment.keyPrefix credentialId db).map UInt32.toNat).toList ++
      ((writtenCounts deployment.keyPrefix credentialId
        (deployment.run ext server db events).log).map Prod.snd).map UInt32.toNat =
      ((storedCount deployment.keyPrefix credentialId db).toList ++
        (writtenCounts deployment.keyPrefix credentialId
          (deployment.run ext server db events).log).map Prod.snd).map UInt32.toNat := by
    rw [List.map_append, Option.toList_map]
  rw [joined, List.isChain_map, List.isChain_map, List.pairwise_map] at exact
  rw [use.kept_iff_isChain typed served, use.distinct_iff_pairwise]
  unfold CheckedWhenWritten
  rw [use.isChain_iff typed served fun stored count => assertionCheckCounter .strict count stored = .ok]
  simpa only [checkCounter_strict_iff, UInt32.le_iff_toNat_le, UInt32.toNat_inj, ← UInt32.toNat_zero,
    Nat.bot_eq_zero] using exact

end Runs

theorem Sample.strictUse : StrictUse Sample.logins (ascii "AQ") where
  strict := by
    rintro (index | index) conf request job
    · cases job
    · obtain ⟨rfl, _⟩ := Job.verify.inj job
      rfl
  unregistered := by
    rintro (index | index) host keyPrefix registration job <;> cases job
  unrevoked := by
    rintro (index | index) host keyPrefix job <;> cases job

theorem single_login_counters_iff :
    storedCount defaultKeyPrefix (ascii "AQ") (Sample.logins.run Sample.ext .inOrder Sample.registered
        (Sample.served (.ask .first) 2 ++ Sample.served (.answer .first) 4)).state = some 7 ∧
      (Throughout (Pool.step (machine .inOrder)) (CountKept .inOrder Sample.logins (ascii "AQ"))
          (Pool.start Sample.registered (Sample.logins.programs Sample.ext))
          (Sample.served (.ask .first) 2 ++ Sample.served (.answer .first) 4) ∧
        DistinctCounts Sample.ext Sample.logins (ascii "AQ")
          (Sample.logins.run Sample.ext .inOrder Sample.registered
            (Sample.served (.ask .first) 2 ++ Sample.served (.answer .first) 4)) ↔
      Throughout (Pool.step (machine .inOrder)) (CheckedWhenWritten Sample.logins (ascii "AQ"))
        (Pool.start Sample.registered (Sample.logins.programs Sample.ext))
        (Sample.served (.ask .first) 2 ++ Sample.served (.answer .first) 4)) := by
  refine ⟨by decide +kernel, counters_safe_iff_checked_when_written Sample.ext .inOrder Sample.logins
    Sample.registered _ (ascii "AQ") Sample.strictUse Sample.registered_isHash fun event member => ?_⟩
  rcases List.mem_append.mp member with asks | answers
  · exact Sample.served_events _ _ event asks
  · exact Sample.served_events _ _ event answers

/-- Three logins read the counter 5 before any of them writes, then write 7, 6
and 6. -/
def Sample.raceBefore : List (RedisEvent Sample.Turn) :=
  Sample.served (.ask .first) 2 ++ Sample.served (.ask .second) 2 ++ Sample.served (.ask .third) 2 ++
    Sample.served (.answer .first) 3 ++ Sample.served (.answer .second) 3 ++ Sample.served (.answer .third) 3 ++
    Sample.served (.answer .first) 1

def Sample.race : List (RedisEvent Sample.Turn) :=
  Sample.raceBefore ++ .step (.answer .second) .served :: [.step (.answer .third) .served]

theorem Sample.race_served : ∀ event ∈ Sample.race, ServedEvent event := by
  intro event member
  simp only [Sample.race, Sample.raceBefore, Sample.served, List.mem_append, List.mem_replicate,
    List.mem_cons, List.not_mem_nil, or_false] at member
  rcases member with ((((((⟨_, rfl⟩ | ⟨_, rfl⟩) | ⟨_, rfl⟩) | ⟨_, rfl⟩) | ⟨_, rfl⟩) | ⟨_, rfl⟩) |
    ⟨_, rfl⟩) | rfl | rfl <;> rfl

/-- The stored counter falls from 7 to 6, and two logins are accepted with 6. -/
theorem race_lowers_and_repeats_counter :
    StrictUse Sample.logins (ascii "AQ") ∧
      IsHash Sample.registered (credentialRecordKey defaultKeyPrefix (ascii "AQ")) ∧
      (∀ event ∈ Sample.race, ServedEvent event) ∧
      ¬ Throughout (Pool.step (machine .inOrder)) (CountKept .inOrder Sample.logins (ascii "AQ"))
        (Pool.start Sample.registered (Sample.logins.programs Sample.ext)) Sample.race ∧
      ¬ DistinctCounts Sample.ext Sample.logins (ascii "AQ")
        (Sample.logins.run Sample.ext .inOrder Sample.registered Sample.race) := by
  refine ⟨Sample.strictUse, Sample.registered_isHash, Sample.race_served, fun kept => ?_,
    fun distinct => ?_⟩
  · have counts : storedCount defaultKeyPrefix (ascii "AQ") (Sample.raceBefore.foldl
          (Pool.step (machine .inOrder))
          (Pool.start Sample.registered (Sample.logins.programs Sample.ext))).state = some 7 ∧
        storedCount defaultKeyPrefix (ascii "AQ") (Pool.step (machine .inOrder)
          (Sample.raceBefore.foldl (Pool.step (machine .inOrder))
            (Pool.start Sample.registered (Sample.logins.programs Sample.ext)))
          (.step (.answer .second) .served)).state = some 6 := by
      decide +kernel
    exact absurd (kept Sample.raceBefore (.step (.answer .second) .served) [.step (.answer .third) .served] rfl 7
      counts.1 6 counts.2) (by decide)
  · have written : (Sample.Turn.answer .second, 6) ∈ writtenCounts defaultKeyPrefix (ascii "AQ")
          (Sample.logins.run Sample.ext .inOrder Sample.registered Sample.race).log ∧
        (Sample.Turn.answer .third, 6) ∈ writtenCounts defaultKeyPrefix (ascii "AQ")
          (Sample.logins.run Sample.ext .inOrder Sample.registered Sample.race).log := by
      decide +kernel
    have unused := distinct (.answer .second) (.answer .third) 6 (by decide)
      (Sample.strictUse.written_iff_accepted.mp written.1)
      (Sample.strictUse.written_iff_accepted.mp written.2)
    cases unused

end AuthWebauthn
