import AuthWebauthn.Process.Matching
import AuthWebauthn.System.Sample

namespace AuthWebauthn

open Process Redis

/-! The last command that touched a challenge key before a successful GETDEL was
the SET of an issue whose TTL had not run out: a GETDEL in between would have
left the key absent.
-/

section Log

variable {ι : Type}

/-- The entry stored the challenge. -/
def stores (keyPrefix challenge : Bytes) (served : RedisServed ι) : Bool :=
  match served.command with
  | .setEx key _ _ => key = challengeKey keyPrefix challenge ∧ served.mode.runs
  | _ => false

/-- The entry let a verify run past `challenge_consume`. -/
def passes (keyPrefix challenge : Bytes) (served : RedisServed ι) : Bool :=
  served.command = .getdel (challengeKey keyPrefix challenge) ∧ getdelReply served.reply = some true

/-- The issue was stored by a challenge request and had not expired when the
pass took place. -/
def FreshIssue (deployment : Deployment ι) (challenge : Bytes) (pass issue : RedisServed ι) : Prop :=
  ∃ conf request, deployment.jobs issue.process = .challenge conf request ∧
    issue.command = .setEx (challengeKey deployment.keyPrefix challenge) (ascii "1")
      conf.challengeTtl.toInt.toNat ∧
    issue.before.now ≤ pass.before.now ∧
    pass.before.now < issue.before.now + conf.challengeTtl.toInt.toNat * 1000

end Log

variable {ι : Type} {ext : Externals} {server : Server} {deployment : Deployment ι}
  {db : Db} {events : List (RedisEvent ι)} {challenge : Bytes} {served : RedisServed ι}

/-- A challenge key holds nothing or a string. -/
def Plain (key : Bytes) (db : Db) : Prop :=
  db.get key = none ∨ ∃ value expiresAt, db.entries key = some ⟨.str value, expiresAt⟩

theorem stable_plain {key : Bytes} : Pool.Stable (machine server) (Plain key) := by
  intro milliseconds db plain
  rcases plain with absent | ⟨value, expiresAt, found⟩
  · exact .inl (stable_get_none milliseconds db absent)
  · exact .inr ⟨value, expiresAt, found⟩

theorem plain_kept (may : (deployment.jobs served.process).May served.command) :
    Pool.Served.Keeps (machine server) (Plain (challengeKey deployment.keyPrefix challenge)) served := by
  obtain ⟨process, command, mode, before, reply⟩ := served
  intro state plain
  dsimp only at may ⊢
  apply serve_keeps (Plain _) plain
  intro _
  by_cases touches : command.key = some (challengeKey deployment.keyPrefix challenge)
  · cases deployment.challenge_command may touches with
    | issue conf request job positive => exact .inr ⟨_, _, exec_setEx positive⟩
    | consume conf request job => exact .inl (exec_getdel plain)
  · rw [Plain, exec_other_get touches, exec_other touches]
    exact plain

/-- An entry that does not run on the key leaves an absent key absent. -/
theorem get_none_kept {key : Bytes}
    (untouched : ¬ (served.command.key = some key ∧ served.mode.runs = true)) :
    Pool.Served.Keeps (machine server) (fun db => db.get key = none) served := by
  intro state absent
  by_cases touches : served.command.key = some key
  · have lost : served.mode.runs = false := by simpa [touches] using untouched
    rwa [serve_not_run lost]
  · rwa [serve_other_get touches]

theorem entry_kept {key : Bytes} (property : Option Entry → Prop)
    (untouched : ¬ (served.command.key = some key ∧ served.mode.runs = true)) :
    Pool.Served.Keeps (machine server) (fun db => property (db.entries key)) served := by
  intro state holds
  by_cases touches : served.command.key = some key
  · have lost : served.mode.runs = false := by simpa [touches] using untouched
    rwa [serve_not_run lost]
  · rwa [serve_other touches]

theorem passes_iff {keyPrefix : Bytes} : passes keyPrefix challenge served = true ↔
    served.command = .getdel (challengeKey keyPrefix challenge) ∧
      getdelReply served.reply = some true := by
  simp [passes]

variable [DecidableEq ι]

/-- A pass was served, and found the key alive. -/
theorem passes_found (member : served ∈ (deployment.run ext server db events).log)
    (passed : passes deployment.keyPrefix challenge served = true) :
    served.mode = .served ∧ ∃ value expiresAt,
      served.before.get (challengeKey deployment.keyPrefix challenge) = some ⟨.str value, expiresAt⟩ := by
  obtain ⟨command, found⟩ := passes_iff.mp passed
  obtain ⟨value, answered⟩ := getdelReply_found_iff.mp found
  rw [Pool.log_reply member, command] at answered
  obtain ⟨mode, reply⟩ := serve_reply answered (by simp)
  exact ⟨mode, value, exec_getdel_found reply⟩

theorem clock_later {front middle back : List (RedisServed ι)} {first last : RedisServed ι}
    (split : (deployment.run ext server db events).log = (front ++ first :: middle) ++ last :: back) :
    first.before.now ≤ last.before.now := by
  have stable : Pool.Stable (machine server) fun db => first.before.now ≤ db.now :=
    fun milliseconds db earlier => Nat.le_trans earlier (Nat.le_add_right _ _)
  refine Pool.log_between stable split ?_ ?_
  · rw [Served.after, serve_now]
  · intro entry _ state earlier
    rw [serve_now]
    exact earlier

/-- A pass touches its key, and its command runs. -/
theorem passes_runs (member : served ∈ (deployment.run ext server db events).log)
    (passed : passes deployment.keyPrefix challenge served = true) :
    served.command.key = some (challengeKey deployment.keyPrefix challenge) ∧
      served.mode.runs = true := by
  rw [(passes_iff.mp passed).1, (passes_found member passed).1]
  exact ⟨rfl, rfl⟩

/-- Before every pass there is a fresh issue with no pass in between. -/
theorem pass_justified
    (absent : db.get (challengeKey deployment.keyPrefix challenge) = none)
    {front back : List (RedisServed ι)} {pass : RedisServed ι}
    (split : (deployment.run ext server db events).log = front ++ pass :: back)
    (passed : passes deployment.keyPrefix challenge pass = true) :
    Justified (stores deployment.keyPrefix challenge) (passes deployment.keyPrefix challenge)
      (FreshIssue deployment challenge) front pass := by
  have logged : ∀ entry ∈ front, entry ∈ (deployment.run ext server db events).log := by
    intro entry member
    rw [split]
    exact List.mem_append_left _ member
  obtain ⟨_, value, expiresAt, alive⟩ := passes_found (by rw [split]; simp) passed
  rcases exists_last_split (fun entry : RedisServed ι =>
      entry.command.key = some (challengeKey deployment.keyPrefix challenge) ∧
        entry.mode.runs = true) front with
    untouched | ⟨earlier, last, between, rfl, ⟨touches, runs⟩, quiet⟩
  · have gone := Pool.log_from_start stable_get_none split absent fun entry member =>
      get_none_kept (untouched entry member)
    rw [gone] at alive
    cases alive
  · have lastSplit : (deployment.run ext server db events).log =
        earlier ++ last :: (between ++ pass :: back) := by simpa using split
    have may := deployment.log_may (logged last (by simp))
    have command := deployment.challenge_command may touches
    obtain ⟨process, issued, mode, before, reply⟩ := last
    cases command with
    | consume conf request job =>
        have plain := Pool.log_from_start stable_plain lastSplit (.inl absent) fun entry member =>
          plain_kept (deployment.log_may (logged entry (by simp [member])))
        have gone := Pool.log_between stable_get_none split (by
          change ((machine server).serve mode before _).1.get _ = none
          rw [serve_run runs]
          exact exec_getdel plain) fun entry member => get_none_kept (quiet entry member)
        rw [gone] at alive
        cases alive
    | issue conf request job positive =>
        have stored : pass.before.entries (challengeKey deployment.keyPrefix challenge) =
            some ⟨.str (ascii "1"), some (before.now + conf.challengeTtl.toInt.toNat * 1000)⟩ := by
          refine Pool.log_between (stable_entry (· = some _)) split ?_ fun entry member =>
            entry_kept (· = some _) (quiet entry member)
          change ((machine server).serve mode before _).1.entries _ = _
          rw [serve_run runs]
          exact exec_setEx positive
        obtain ⟨found, live⟩ := Db.get_eq_some alive
        rw [stored, Option.some.injEq] at found
        refine ⟨earlier, _, between, rfl, by simp [stores, runs], ?_,
          conf, request, job, rfl, clock_later split, ?_⟩
        · intro entry member
          refine Bool.eq_false_iff.mpr fun passed => quiet entry member ?_
          exact passes_runs (logged entry (by simp [member])) passed
        · rw [← found] at live
          simpa [Entry.live] using live

/-- The run ended in 200, and `challenge` is what its signed clientDataJSON
names. -/
def AnsweredFor (ext : Externals) (deployment : Deployment ι) (pool : RedisPool ι) (challenge : Bytes)
    (process : ι) : Prop :=
  ∃ conf request claims jwt cookie body parsed root,
    deployment.jobs process = .verify conf request ∧
    pool.programs process = .done (.verify (.minted claims jwt cookie body)) ∧
    parseVerifyBody ext request.body = some parsed ∧
    ext.jsonParseUntrusted parsed.assertion.clientDataJson = some root ∧
    clientdataChallenge ext root = .ok challenge

/-- The run's only GETDEL deleted the key of `challenge`, 32 bytes that the
clientDataJSON of a checked signature names. -/
structure Consumed (ext : Externals) (server : Server) (deployment : Deployment ι) (pool : RedisPool ι)
    (process : ι) (parsed : ParsedRequest) (challenge : Bytes) (entry : RedisServed ι) : Prop where
  named : ∃ root, ext.jsonParseUntrusted parsed.assertion.clientDataJson = some root ∧
    clientdataChallenge ext root = .ok challenge
  signed : ∃ publicKey alg hash, hashSha256 ext parsed.assertion.clientDataJson = some hash ∧
    SignatureChecked ext publicKey alg (parsed.assertion.authenticatorData ++ hash)
      parsed.assertion.signature
  sized : challenge.length = challengeLength
  logged : entry ∈ pool.log
  own : entry.process = process
  passed : passes deployment.keyPrefix challenge entry = true
  found : (entry.before.get (challengeKey deployment.keyPrefix challenge)).isSome
  deleted : (entry.after (machine server)).get (challengeKey deployment.keyPrefix challenge) = none
  only : ∀ other ∈ pool.log, other.process = process → ∀ key, other.command = .getdel key →
    key = challengeKey deployment.keyPrefix challenge

theorem minted_consumed {process : ι} {conf : LocConf} {request : VerifyRequest}
    {claims : SessionClaims} {jwt cookie body : Bytes}
    (job : deployment.jobs process = .verify conf request)
    (ended : (deployment.run ext server db events).programs process =
      .done (.verify (.minted claims jwt cookie body))) :
    ∃ parsed challenge entry, parseVerifyBody ext request.body = some parsed ∧
      Consumed ext server deployment (deployment.run ext server db events) process parsed challenge
        entry := by
  obtain ⟨origins, parsed, connected, consumed, read, written, cred, count, accepted, past, _⟩ :=
    verifyDone_minted (deployment.minted_talks job ended)
  have shared := deployment.verify_shared job
  obtain ⟨authdata, checked, _⟩ := assertionVerify_ok accepted.verified
  obtain ⟨root, clientdata⟩ := checked.clientdata
  obtain ⟨hash, hashed, signature⟩ := checked.signature
  have exchanged : (Cmd.getdel (challengeKey conf.redisKeyPrefix parsed.challenge), consumed) ∈
      (deployment.run ext server db events).exchanges process := by
    rw [past]
    simp [acceptedExchanges]
  obtain ⟨entry, logged, own, command, reply⟩ := exchange_mem exchanged
  have passed : passes deployment.keyPrefix parsed.challenge entry = true := by
    rw [passes_iff, command, reply, shared]
    exact ⟨rfl, accepted.found⟩
  obtain ⟨mode, value, expiresAt, alive⟩ := passes_found logged passed
  refine ⟨parsed, parsed.challenge, entry, accepted.taken,
    ⟨⟨root, clientdata.parsed, clientdata.challenge⟩, ⟨_, _, hash, hashed, signature⟩,
      accepted.sized, logged, by simpa using own, passed, by simp [alive], ?_, ?_⟩⟩
  · rw [Served.after, command, mode, shared, serve_run rfl]
    exact exec_getdel (.inr ⟨_, _, (Db.get_eq_some alive).1⟩)
  · intro other member same key deletes
    have exchanged := deployment.mem_exchanges member same
    rw [past, deletes] at exchanged
    obtain ⟨equal, _⟩ : key = challengeKey deployment.keyPrefix parsed.challenge ∧
        other.reply = consumed := by
      simpa [acceptedExchanges, counterUpdate, shared] using exchanged
    exact equal

omit [DecidableEq ι] in
theorem stores_not_passes {keyPrefix : Bytes} (stored : stores keyPrefix challenge served = true) :
    passes keyPrefix challenge served = false := by
  unfold stores at stored
  split at stored
  · rename_i command
    simp [passes, command]
  · cases stored

/-- The passes, in order, have different fresh issues. -/
theorem passes_matched (ext : Externals) (server : Server) (events : List (RedisEvent ι))
    (absent : db.get (challengeKey deployment.keyPrefix challenge) = none) :
    ∃ issues, issues.Sublist ((deployment.run ext server db events).log.filter
        (stores deployment.keyPrefix challenge)) ∧
      List.Forall₂ (FreshIssue deployment challenge)
        ((deployment.run ext server db events).log.filter (passes deployment.keyPrefix challenge))
        issues :=
  exists_matching (fun _ => stores_not_passes) fun _ _ _ split passed =>
    pass_justified absent split passed

theorem runs_le_stores (absent : db.get (challengeKey deployment.keyPrefix challenge) = none)
    {runs : List ι} (distinct : runs.Nodup)
    (passed : ∀ process ∈ runs, ∃ entry ∈ (deployment.run ext server db events).log,
      entry.process = process ∧ passes deployment.keyPrefix challenge entry = true) :
    runs.length ≤ ((deployment.run ext server db events).log.filter
      (stores deployment.keyPrefix challenge)).length := by
  obtain ⟨issues, chosen, pairs⟩ := passes_matched ext server events absent
  have covered : runs ⊆ ((deployment.run ext server db events).log.filter
      (passes deployment.keyPrefix challenge)).map Served.process := by
    intro process member
    obtain ⟨entry, logged, own, pass⟩ := passed process member
    exact List.mem_map.mpr ⟨entry, List.mem_filter.mpr ⟨logged, pass⟩, own⟩
  calc runs.length
      ≤ (((deployment.run ext server db events).log.filter
          (passes deployment.keyPrefix challenge)).map Served.process).length :=
        (List.subperm_of_subset distinct covered).length_le
    _ = issues.length := by rw [List.length_map, pairs.length_eq]
    _ ≤ _ := chosen.length_le

/-- However challenge and verify requests interleave, whatever commands or
replies get lost and however time passes. -/
theorem challenge_consumed_at_most_once (ext : Externals) (server : Server)
    (deployment : Deployment ι) (db : Db) (events : List (RedisEvent ι))
    (unissued : ∀ challenge, db.get (challengeKey deployment.keyPrefix challenge) = none) :
    (∀ challenge : Bytes, challenge.length = challengeLength →
      (∃ issues, issues.Sublist ((deployment.run ext server db events).log.filter
          (stores deployment.keyPrefix challenge)) ∧
        List.Forall₂ (FreshIssue deployment challenge)
          ((deployment.run ext server db events).log.filter (passes deployment.keyPrefix challenge))
          issues) ∧
      (∀ runs : List ι, runs.Nodup →
        (∀ process ∈ runs, ∃ entry ∈ (deployment.run ext server db events).log,
          entry.process = process ∧ passes deployment.keyPrefix challenge entry = true) →
        runs.length ≤ ((deployment.run ext server db events).log.filter
          (stores deployment.keyPrefix challenge)).length) ∧
      (∀ runs : List ι, runs.Nodup →
        (∀ process ∈ runs, AnsweredFor ext deployment (deployment.run ext server db events) challenge
          process) →
        runs.length ≤ ((deployment.run ext server db events).log.filter
          (stores deployment.keyPrefix challenge)).length)) ∧
    (∀ process conf request claims jwt cookie body,
      deployment.jobs process = .verify conf request →
      (deployment.run ext server db events).programs process =
        .done (.verify (.minted claims jwt cookie body)) →
      ∃ parsed challenge entry, parseVerifyBody ext request.body = some parsed ∧
        Consumed ext server deployment (deployment.run ext server db events) process parsed challenge
          entry) := by
  refine ⟨fun challenge sized => ⟨?_, fun runs distinct passed => ?_, fun runs distinct answered => ?_⟩,
    fun process conf request claims jwt cookie body job ended => minted_consumed job ended⟩
  · exact passes_matched ext server events (unissued challenge)
  · exact runs_le_stores (unissued challenge) distinct passed
  · refine runs_le_stores (unissued challenge) distinct fun process member => ?_
    obtain ⟨conf, request, claims, jwt, cookie, body, parsed, root, job, ended, taken, read, named⟩ :=
      answered process member
    obtain ⟨again, own, entry, parsedAgain, consumed⟩ := minted_consumed job ended
    obtain rfl : parsed = again := Option.some.inj (taken.symm.trans parsedAgain)
    obtain ⟨sameRoot, readAgain, namedAgain⟩ := consumed.named
    obtain rfl : root = sameRoot := Option.some.inj (read.symm.trans readAgain)
    obtain rfl : challenge = own := Except.ok.inj (named.symm.trans namedAgain)
    exact ⟨entry, consumed.logged, consumed.own, consumed.passed⟩

theorem first_login_consumes_challenge :
    ∃ parsed challenge entry,
      parseVerifyBody Sample.ext Sample.first.request.body = some parsed ∧
      Consumed Sample.ext .inOrder Sample.whole
        (Sample.whole.run Sample.ext .inOrder Db.empty Sample.firstLogin) (.turn (.answer .first)) parsed
        challenge entry :=
  (challenge_consumed_at_most_once Sample.ext .inOrder Sample.whole Db.empty Sample.firstLogin
    fun _ => rfl).2 (.turn (.answer .first)) Sample.conf Sample.first.request _ _ _ _ rfl
    Sample.firstLogin_minted

end AuthWebauthn
