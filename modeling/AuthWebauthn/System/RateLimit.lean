import AuthWebauthn.Data.FixedWindow
import AuthWebauthn.System.Sample

namespace AuthWebauthn

open Process Redis

/-! The rate limit is one counter per client address, kept in Redis and shared by all nodes.  Only
the script touches it, so its hits come one after the other whatever else runs.
-/

/-- What Redis stores for a counter. -/
def counterEntry (counter : FixedWindow.Counter) : Entry :=
  ⟨.str (Decimal.ofInt counter.count), some counter.deadline⟩

/-- The key holds the counter as long as it lives. -/
structure Holds (key : Bytes) (held : Option FixedWindow.Counter) (db : Db) : Prop where
  get : db.get key = (FixedWindow.live db.now held).map counterEntry
  valid : ∀ counter ∈ held, 1 ≤ counter.count ∧ counter.count < 2 ^ 63

section Counter

variable {server : Server} {db : Db} {key : Bytes} {held : Option FixedWindow.Counter}

theorem Holds.evolve (server : Server) (holds : Holds key held db) (milliseconds : Nat) :
    Holds key held ((machine server).evolve milliseconds db) where
  valid := holds.valid
  get := by
    have before := holds.get
    have gone : Pool.Stable (machine server) fun db => db.get key = none := stable_get_none
    change (db.entries key).filter (Entry.live (db.now + milliseconds)) =
      (FixedWindow.live (db.now + milliseconds) held).map counterEntry
    cases held with
    | none => exact gone milliseconds db before
    | some counter =>
        by_cases early : db.now < counter.deadline
        · rw [FixedWindow.live_some early] at before
          rw [(Db.get_eq_some before).1]
          by_cases still : db.now + milliseconds < counter.deadline
          · rw [FixedWindow.live_some still]
            simp [counterEntry, Entry.live, still]
          · rw [FixedWindow.live_none (Nat.not_lt.mp still)]
            simp [counterEntry, Entry.live, still]
        · have late : counter.deadline ≤ db.now := Nat.not_lt.mp early
          rw [FixedWindow.live_none late] at before
          rw [FixedWindow.live_none (Nat.le_trans late (Nat.le_add_right _ _))]
          exact gone milliseconds db before

theorem Holds.other {delivery : Delivery} {command : Cmd} (holds : Holds key held db)
    (different : command.key ≠ some key) :
    Holds key held ((machine server).serve delivery db command).1 where
  valid := holds.valid
  get := by rw [serve_other_get different, serve_now, holds.get]

/-- The script is one hit. -/
theorem Holds.hit {seconds : Nat} (holds : Holds key held db) (positive : 0 < seconds)
    (answered : (exec server db (.incrExpire key seconds)).2 ≠ .error) :
    Holds key (some (FixedWindow.hit (seconds * 1000) db.now held))
        (exec server db (.incrExpire key seconds)).1 ∧
      (exec server db (.incrExpire key seconds)).2 =
        .integer (FixedWindow.hit (seconds * 1000) db.now held).count ∧
      ((FixedWindow.hit (seconds * 1000) db.now held).count = 1 ↔ db.get key = none) := by
  have get := holds.get
  cases found : FixedWindow.live db.now held with
  | none =>
      rw [found] at get
      have ahead : db.now < db.now + seconds * 1000 := by omega
      rw [FixedWindow.hit_of_none found, exec_incrExpire_absent get positive]
      refine ⟨⟨?_, ?_⟩, rfl, iff_of_true rfl get⟩
      · change (db.put key _).get key = (FixedWindow.live db.now _).map counterEntry
        rw [Db.put_get ahead, FixedWindow.live_some ahead]
        rfl
      · simp
  | some counter =>
      rw [found] at get
      obtain ⟨rfl, early⟩ : held = some counter ∧ db.now < counter.deadline := by
        simpa [FixedWindow.live, Option.filter_eq_some_iff] using found
      obtain ⟨used, small⟩ := holds.valid counter rfl
      obtain ⟨room, ran⟩ := exec_incrExpire_counter used small get answered
      rw [FixedWindow.hit_of_some found, ran]
      refine ⟨⟨?_, ?_⟩, rfl, iff_of_false ?_ ?_⟩
      · change (db.put key _).get key = (FixedWindow.live db.now _).map counterEntry
        have kept : FixedWindow.live db.now (some ⟨counter.count + 1, counter.deadline⟩) = some _ :=
          FixedWindow.live_some early
        rw [Db.put_get early, kept]
        rfl
      · simpa using room
      · simp only
        omega
      · rw [get]
        simp

end Counter

section Hits

variable {ι : Type}

/-- Every challenge location has this limit. -/
structure OneLimit (deployment : Deployment ι) (rateLimitMax : UInt64) (rateLimitWindow : Int64) : Prop where
  rateLimitMax : ∀ process conf request, deployment.jobs process = .challenge conf request →
    conf.rateLimitMax = rateLimitMax
  rateLimitWindow : ∀ process conf request, deployment.jobs process = .challenge conf request →
    conf.rateLimitWindow = rateLimitWindow

/-- The runs of the script for one address. -/
def limitHits (keyPrefix ip : Bytes) (log : List (RedisServed ι)) : List (RedisServed ι) :=
  log.filter fun served => served.command.key = some (rateLimitKey keyPrefix ip)

def hitTime (served : RedisServed ι) : Nat := served.before.now

def hitCount (served : RedisServed ι) : Nat :=
  match served.reply with
  | some (.integer count) => count.toNat
  | _ => 0

/-- What every state of a run has. -/
structure PoolLimited (deployment : Deployment ι) (ip : Bytes) (width : Nat) (pool : RedisPool ι) : Prop where
  issues : ∀ process, (pool.programs process).Issues (deployment.jobs process).May
  counted : FixedWindow.Counted hitTime hitCount width none (limitHits deployment.keyPrefix ip pool.log)
  holds : Holds (rateLimitKey deployment.keyPrefix ip)
    (FixedWindow.heldAfter hitTime width none (limitHits deployment.keyPrefix ip pool.log)) pool.state
  sorted : (limitHits deployment.keyPrefix ip pool.log).Pairwise fun first second =>
    hitTime first ≤ hitTime second
  past : ∀ hit ∈ limitHits deployment.keyPrefix ip pool.log, hitTime hit ≤ pool.state.now
  opens : ∀ hit ∈ limitHits deployment.keyPrefix ip pool.log,
    (hitCount hit = 1 ↔ hit.before.get (rateLimitKey deployment.keyPrefix ip) = none)
  small : ∀ hit ∈ limitHits deployment.keyPrefix ip pool.log,
    ∃ count : Nat, hit.reply = some (.integer count) ∧ count < 2 ^ 63

variable {ext : Externals} {server : Server} {deployment : Deployment ι} {db : Db}
  {events : List (RedisEvent ι)} {ip : Bytes} {rateLimitMax : UInt64} {rateLimitWindow : Int64}

theorem limitHits_hit {keyPrefix ip : Bytes} {served : RedisServed ι}
    (touches : served.command.key = some (rateLimitKey keyPrefix ip)) (log : List (RedisServed ι)) :
    limitHits keyPrefix ip (log ++ [served]) = limitHits keyPrefix ip log ++ [served] := by
  simp [limitHits, touches]

theorem limitHits_other {keyPrefix ip : Bytes} {served : RedisServed ι}
    (different : served.command.key ≠ some (rateLimitKey keyPrefix ip)) (log : List (RedisServed ι)) :
    limitHits keyPrefix ip (log ++ [served]) = limitHits keyPrefix ip log := by
  simp [limitHits, different]

/-- The counter that the hits so far have left. -/
def heldBy (deployment : Deployment ι) (ip : Bytes) (width : Nat) (pool : RedisPool ι) :
    Option FixedWindow.Counter :=
  FixedWindow.heldAfter hitTime width none (limitHits deployment.keyPrefix ip pool.log)

/-- The counter takes a hit. -/
theorem PoolLimited.hit {pool : RedisPool ι} {width : Nat} (limited : PoolLimited deployment ip width pool)
    {served : RedisServed ι} {after : Db} {programs : ι → RedisProg Outcome}
    (touches : served.command.key = some (rateLimitKey deployment.keyPrefix ip))
    (before : served.before = pool.state) (now : after.now = pool.state.now)
    (issues : ∀ process, (programs process).Issues (deployment.jobs process).May)
    (holds : Holds (rateLimitKey deployment.keyPrefix ip)
      (some (FixedWindow.hit width pool.state.now (heldBy deployment ip width pool))) after)
    (reply : served.reply =
      some (.integer (FixedWindow.hit width pool.state.now (heldBy deployment ip width pool)).count))
    (opens : (FixedWindow.hit width pool.state.now (heldBy deployment ip width pool)).count = 1 ↔
      pool.state.get (rateLimitKey deployment.keyPrefix ip) = none) :
    PoolLimited deployment ip width ⟨after, programs, pool.log ++ [served]⟩ := by
  have time : hitTime served = pool.state.now := congrArg Db.now before
  have count : hitCount served =
      (FixedWindow.hit width pool.state.now (heldBy deployment ip width pool)).count := by
    simp [hitCount, reply]
  have small := (holds.valid _ rfl).2
  have hits := limitHits_hit touches pool.log
  constructor
  · exact issues
  · rw [hits, FixedWindow.counted_concat, time]
    exact ⟨limited.counted, count⟩
  · rw [hits, FixedWindow.heldAfter_concat, time]
    exact holds
  · rw [hits, List.pairwise_append]
    refine ⟨limited.sorted, List.pairwise_singleton .., fun hit member last same => ?_⟩
    rw [List.mem_singleton.mp same, time]
    exact limited.past hit member
  · rw [hits]
    intro hit member
    rcases List.mem_append.mp member with earlier | last
    · exact (limited.past hit earlier).trans_eq now.symm
    · rw [List.mem_singleton.mp last, time]
      exact now.ge
  · rw [hits]
    intro hit member
    rcases List.mem_append.mp member with earlier | last
    · exact limited.opens hit earlier
    · rw [List.mem_singleton.mp last, count, before]
      exact opens
  · rw [hits]
    intro hit member
    rcases List.mem_append.mp member with earlier | last
    · exact limited.small hit earlier
    · rw [List.mem_singleton.mp last]
      exact ⟨_, reply, small⟩

variable [DecidableEq ι]

/-- One event: time passes, another key is served, or the counter takes a hit. -/
theorem OneLimit.limited_step (limit : OneLimit deployment rateLimitMax rateLimitWindow)
    (windowed : 0 < rateLimitWindow.toUInt64.toNat) {pool : RedisPool ι} {event : RedisEvent ι}
    (limited : PoolLimited deployment ip (rateLimitWindow.toUInt64.toNat * 1000) pool)
    (answered : ∀ served ∈ (pool.step (machine server) event).log,
      served.command.key = some (rateLimitKey deployment.keyPrefix ip) →
      ∃ count, served.reply = some (.integer count)) :
    PoolLimited deployment ip (rateLimitWindow.toUInt64.toNat * 1000) (pool.step (machine server) event) := by
  have issues : ∀ process, ((pool.step (machine server) event).programs process).Issues
      (deployment.jobs process).May := Pool.step_issues limited.issues event
  rcases Pool.step_cases (machine server) pool event with
    same | ⟨change, rfl, stepped⟩ | ⟨process, mode, command, next, rfl, pending, stepped⟩
  · rw [same]
    exact limited
  · rw [stepped] at issues ⊢
    exact
      { limited with
        issues := issues
        holds := limited.holds.evolve server change
        past := fun hit member => Nat.le_trans (limited.past hit member) (Nat.le_add_right _ _) }
  · have may := limited.issues process
    rw [pending] at may
    rw [stepped] at answered issues ⊢
    have now : ((machine server).serve mode pool.state command).1.now = pool.state.now := serve_now
    by_cases touches : command.key = some (rateLimitKey deployment.keyPrefix ip)
    · obtain ⟨conf, request, job, _, _, rfl⟩ := deployment.rate_command may.1 touches
      rw [limit.rateLimitWindow process conf request job] at *
      obtain ⟨count, reply⟩ := answered ⟨process, _, mode, pool.state, _⟩
        (List.mem_append_right _ (List.mem_singleton_self _)) rfl
      obtain ⟨rfl, ran⟩ := serve_reply reply (by simp)
      have proper : (exec server pool.state (.incrExpire (rateLimitKey deployment.keyPrefix ip)
          rateLimitWindow.toUInt64.toNat)).2 ≠ .error := by
        rw [ran]
        simp
      obtain ⟨holds, replied, opens⟩ := limited.holds.hit windowed proper
      exact limited.hit rfl rfl now issues holds (congrArg some replied) opens
    · have unchanged : limitHits deployment.keyPrefix ip (pool.log ++ [⟨process, command, mode, pool.state,
          ((machine server).serve mode pool.state command).2⟩]) =
            limitHits deployment.keyPrefix ip pool.log := limitHits_other touches pool.log
      exact
        { issues := issues
          counted := by rw [unchanged]; exact limited.counted
          holds := by rw [unchanged]; exact limited.holds.other touches
          sorted := by rw [unchanged]; exact limited.sorted
          past := by rw [unchanged, now]; exact limited.past
          opens := by rw [unchanged]; exact limited.opens
          small := by rw [unchanged]; exact limited.small }

omit [DecidableEq ι] in
theorem poolLimited_start (ext : Externals) (width : Nat)
    (fresh : db.get (rateLimitKey deployment.keyPrefix ip) = none) :
    PoolLimited deployment ip width (Pool.start db (deployment.programs ext)) where
  issues _ := Job.issues _
  counted := trivial
  holds := ⟨fresh, by simp [Pool.start, limitHits, FixedWindow.heldAfter]⟩
  sorted := .nil
  past := by simp [Pool.start, limitHits]
  opens := by simp [Pool.start, limitHits]
  small := by simp [Pool.start, limitHits]

/-- Every script run for the address was answered with the count. -/
def Answered (deployment : Deployment ι) (ip : Bytes) (log : List (RedisServed ι)) : Prop :=
  ∀ served ∈ log, served.command.key = some (rateLimitKey deployment.keyPrefix ip) →
    ∃ count, served.reply = some (.integer count)

theorem OneLimit.limited (limit : OneLimit deployment rateLimitMax rateLimitWindow)
    (windowed : 0 < rateLimitWindow.toUInt64.toNat)
    (fresh : db.get (rateLimitKey deployment.keyPrefix ip) = none)
    (answered : Answered deployment ip (deployment.run ext server db events).log) :
    PoolLimited deployment ip (rateLimitWindow.toUInt64.toNat * 1000)
      (deployment.run ext server db events) := by
  induction events using List.reverseRecOn with
  | nil => exact poolLimited_start ext _ fresh
  | append_singleton events event ih =>
      rw [Deployment.run_concat] at answered ⊢
      refine limit.limited_step windowed (ih ?_) answered
      obtain ⟨added, grown⟩ := Pool.run_log_extends (machine server)
        (deployment.run ext server db events) [event]
      intro served member touches
      refine answered served ?_ touches
      change served ∈ ((deployment.run ext server db events).run (machine server) [event]).log
      rw [grown]
      exact List.mem_append_left _ member

theorem rateVerdict_integer {count : Nat} (small : count < 2 ^ 63) (rateLimitMax : UInt64) :
    rateVerdict rateLimitMax (some (.integer count)) = decide (count ≤ rateLimitMax.toNat) := by
  have value : (UInt64.ofInt (count : Int)).toNat = count := by
    have reduced : ((count : Int) % 2 ^ 64).toNat = count := by omega
    rw [UInt64.ofInt, reduced, UInt64.toNat_ofNat']
    omega
  simp only [rateVerdict, incrExpireReply, gt_iff_lt, UInt64.lt_iff_toNat_lt, value, Nat.not_lt]

/-- The request passed `rate_limit` with the reply it got. -/
def passed (rateLimitMax : UInt64) (served : RedisServed ι) : Bool := rateVerdict rateLimitMax served.reply

omit [DecidableEq ι] in
theorem PoolLimited.passed_eq {pool : RedisPool ι} {width : Nat}
    (limited : PoolLimited deployment ip width pool) (rateLimitMax : UInt64) :
    ∀ hit ∈ limitHits deployment.keyPrefix ip pool.log,
      passed rateLimitMax hit = decide (hitCount hit ≤ rateLimitMax.toNat) := by
  intro hit member
  obtain ⟨count, reply, small⟩ := limited.small hit member
  rw [passed, reply, rateVerdict_integer small, hitCount, reply]
  rfl

/-- A window of hits: its first one finds no counter, the others find one, and
the first ones up to the limit pass. -/
structure HitWindow (key : Bytes) (rateLimitMax : UInt64) (window : List (RedisServed ι)) : Prop where
  opening : ∀ first ∈ window.head?, first.before.get key = none
  counting : ∀ later ∈ window.tail, later.before.get key ≠ none
  verdicts : window.map (passed rateLimitMax) =
    (List.range window.length).map fun index => decide (index < rateLimitMax.toNat)

omit [DecidableEq ι] in
theorem PoolLimited.window {pool : RedisPool ι} {width : Nat}
    (limited : PoolLimited deployment ip width pool) (rateLimitMax : UInt64) {window : List (RedisServed ι)}
    (part : ∀ hit ∈ window, hit ∈ limitHits deployment.keyPrefix ip pool.log)
    (counts : window.map hitCount = List.range' 1 window.length) :
    HitWindow (rateLimitKey deployment.keyPrefix ip) rateLimitMax window where
  opening := by
    cases window with
    | nil => simp
    | cons first rest =>
        rw [List.map_cons, List.length_cons, List.range'_succ] at counts
        intro _ heads
        cases heads
        exact (limited.opens first (part first (by simp))).mp (List.cons.inj counts).1
  counting := by
    cases window with
    | nil => simp
    | cons first rest =>
        rw [List.map_cons, List.length_cons, List.range'_succ] at counts
        intro later member
        rw [ne_eq, ← limited.opens later (part later (by simp [show later ∈ rest from member]))]
        have counted : hitCount later ∈ List.range' (1 + 1) rest.length := by
          rw [← (List.cons.inj counts).2]
          exact List.mem_map_of_mem member
        have above := (List.mem_range'_1.mp counted).1
        omega
  verdicts := by
    rw [← FixedWindow.map_passes_of_counted counts]
    exact List.map_congr_left fun hit member => limited.passed_eq rateLimitMax hit (part hit member)

end Hits

namespace Sample

/-- Three challenge requests of one client where one per minute may pass. -/
def asks : Deployment Position where
  jobs _ := .challenge { conf with rateLimitMax := 1 } ⟨ascii "192.0.2.1", none, none⟩
  keyPrefix := defaultKeyPrefix
  shared _ := rfl

end Sample

end AuthWebauthn
