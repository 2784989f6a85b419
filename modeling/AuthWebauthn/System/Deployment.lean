import AuthWebauthn.ChallengeHandler
import AuthWebauthn.Process.History
import AuthWebauthn.Verify.Stages

namespace AuthWebauthn

open Process Redis

/-! Any number of challenge and verify requests, at any locations and on any worker
or node, and of `register` and `revoke` commands share one Redis and one key
prefix.  Their commands interleave freely.
-/

/-- The record that `register` has built when it stores it.  The attestation
gave a credential id and a key of a supported algorithm; the user id comes from
the command line. -/
structure Registration where
  cred : Credential
  named : cred.credentialId ≠ []
  keyed : cred.publicKey ≠ []
  supported : cred.alg = -7 ∨ cred.alg = -8 ∨ cred.alg = -257

inductive Job where
  | challenge (conf : LocConf) (request : ChallengeRequest)
  | verify (conf : LocConf) (request : VerifyRequest)
  | register (host keyPrefix : Bytes) (registration : Registration)
  | revoke (host keyPrefix credentialId : Bytes)

inductive Outcome where
  | challenge (outcome : ChallengeOutcome)
  | verify (outcome : VerifyOutcome)
  | admin (rc : Rc)
deriving DecidableEq

namespace Job

def keyPrefix : Job → Bytes
  | .challenge conf _ | .verify conf _ => conf.redisKeyPrefix
  | .register _ keyPrefix _ | .revoke _ keyPrefix _ => keyPrefix

/-- The store part of an admin command. -/
def admin (host : Bytes) (operation : RedisProg Rc) : RedisProg Rc := do
  if (← redisConnect host) ≠ .ok then return .error
  operation

def program (ext : Externals) : Job → RedisProg Outcome
  | .challenge conf request => (challengeContent ext conf request).map .challenge
  | .verify conf request => (verifyDone ext conf request).map .verify
  | .register host keyPrefix registration =>
      (admin host (credentialPut keyPrefix registration.cred)).map .admin
  | .revoke host keyPrefix credentialId =>
      (admin host (credentialDelete keyPrefix credentialId)).map .admin

/-- The commands a job may issue. -/
def May : Job → Cmd → Prop
  | .challenge conf request, command =>
      command = .connect ∨
      (conf.rateLimitMax ≠ 0 ∧
        command = .incrExpire (rateLimitKey conf.redisKeyPrefix request.addrText)
          conf.rateLimitWindow.toUInt64.toNat) ∨
      (∃ challenge, request.random = some challenge ∧ 0 < conf.challengeTtl.toInt.toNat ∧
        command = .setEx (challengeKey conf.redisKeyPrefix challenge.toList) (ascii "1")
          conf.challengeTtl.toInt.toNat) ∨
      ∃ userId, command = .smembers (credentialIndexKey conf.redisKeyPrefix userId)
  | .verify conf request, command =>
      command = .connect ∨
      (∃ challenge, challenge.length = challengeLength ∧
        command = .getdel (challengeKey conf.redisKeyPrefix challenge)) ∨
      (∃ id, command = .hgetall (credentialRecordKey conf.redisKeyPrefix id)) ∨
      ∃ id count, command =
        .hset (credentialRecordKey conf.redisKeyPrefix id) (counterPairs count request.now)
  | .register _ keyPrefix registration, command =>
      command = .connect ∨
      registration.cred.userId ≠ [] ∧
        (command = .hset (credentialRecordKey keyPrefix registration.cred.credentialId)
            (credentialPairs registration.cred) ∨
          command = .sadd (credentialIndexKey keyPrefix registration.cred.userId)
            registration.cred.credentialId)
  | .revoke _ keyPrefix credentialId, command =>
      command = .connect ∨
      command = .hgetall (credentialRecordKey keyPrefix credentialId) ∨
      command = .del (credentialRecordKey keyPrefix credentialId) ∨
      ∃ userId, command = .srem (credentialIndexKey keyPrefix userId) credentialId

end Job

section Footprint

variable {ext : Externals} {allowed : Cmd → Prop}

theorem redisConnect_issues {host : Bytes} (connects : allowed .connect) :
    (redisConnect host).Issues allowed := by
  unfold redisConnect
  split
  · trivial
  · exact ⟨connects, fun _ => trivial⟩

theorem admin_issues {host : Bytes} {operation : RedisProg Rc} (connects : allowed .connect)
    (issues : operation.Issues allowed) : (Job.admin host operation).Issues allowed := by
  refine (redisConnect_issues connects).bind fun rc => ?_
  split
  · trivial
  · exact issues

theorem credentialPut_issues {keyPrefix : Bytes} {cred : Credential}
    (stores : cred.userId ≠ [] → allowed
      (.hset (credentialRecordKey keyPrefix cred.credentialId) (credentialPairs cred)))
    (lists : cred.userId ≠ [] → allowed
      (.sadd (credentialIndexKey keyPrefix cred.userId) cred.credentialId)) :
    (credentialPut keyPrefix cred).Issues allowed := by
  by_cases incomplete : cred.credentialId = [] ∨ cred.userId = []
  · rw [credentialPut_refused incomplete]
    trivial
  · obtain ⟨named, owned⟩ := not_or.mp incomplete
    rw [credentialPut_eq named owned]
    simp [stores owned, lists owned]

theorem deleteRecord_issues {keyPrefix credentialId : Bytes} (record : Except Rc Credential)
    (removes : allowed (.del (credentialRecordKey keyPrefix credentialId)))
    (unlists : ∀ userId, allowed (.srem (credentialIndexKey keyPrefix userId) credentialId)) :
    (deleteRecord keyPrefix credentialId record).Issues allowed := by
  cases record with
  | error rc => trivial
  | ok cred => simp [deleteRecord, removes, unlists cred.userId]

theorem credentialDelete_issues {keyPrefix credentialId : Bytes}
    (reads : allowed (.hgetall (credentialRecordKey keyPrefix credentialId)))
    (removes : allowed (.del (credentialRecordKey keyPrefix credentialId)))
    (unlists : ∀ userId, allowed (.srem (credentialIndexKey keyPrefix userId) credentialId)) :
    (credentialDelete keyPrefix credentialId).Issues allowed := by
  rw [credentialDelete_eq]
  exact ⟨reads, fun reply => deleteRecord_issues _ removes unlists⟩

theorem rateLimit_issues {conf : LocConf} {addrText : Bytes}
    (counts : conf.rateLimitMax ≠ 0 → allowed
      (.incrExpire (rateLimitKey conf.redisKeyPrefix addrText) conf.rateLimitWindow.toUInt64.toNat)) :
    (rateLimit conf addrText).Issues allowed := by
  by_cases unlimited : conf.rateLimitMax = 0
  · simp [rateLimit, unlimited]
  · rw [rateLimit_eq unlimited]
    exact ⟨counts unlimited, fun _ => trivial⟩

theorem challengeIssue_issues {keyPrefix : Bytes} {ttl : Int64}
    {random : Option (Vector UInt8 challengeLength)}
    (stores : ∀ challenge, random = some challenge → 0 < ttl.toInt.toNat →
      allowed (.setEx (challengeKey keyPrefix challenge.toList) (ascii "1") ttl.toInt.toNat)) :
    (challengeIssue keyPrefix ttl random).Issues allowed := by
  by_cases outOfRange : ttl ≤ 0 ∨ ttl > 4294967295
  · unfold challengeIssue
    simp [outOfRange]
  · cases random with
    | none =>
        unfold challengeIssue
        simp [outOfRange]
    | some challenge =>
        have positive : 0 < ttl.toInt.toNat := by
          obtain ⟨lower, _⟩ := ttlAccepted_iff.mp outOfRange
          omega
        rw [challengeIssue_eq outOfRange]
        exact ⟨stores challenge rfl positive, fun stored =>
          (Prog.issues_ite ..).mpr ⟨fun _ => trivial, fun _ => trivial⟩⟩

theorem listedCredentials_issues {conf : LocConf} {userId : Option Bytes}
    (reads : ∀ user, allowed (.smembers (credentialIndexKey conf.redisKeyPrefix user))) :
    (listedCredentials ext conf userId).Issues allowed := by
  unfold listedCredentials
  split
  · trivial
  · trivial
  · exact ⟨reads _, fun _ => trivial⟩

theorem challengeContent_issues {conf : LocConf} {request : ChallengeRequest} :
    (challengeContent ext conf request).Issues (Job.challenge conf request).May := by
  unfold challengeContent
  split_ifs
  · trivial
  refine (redisConnect_issues (.inl rfl)).bind fun connected => ?_
  split_ifs
  · trivial
  refine (rateLimit_issues fun limited => .inr (.inl ⟨limited, rfl⟩)).bind fun passed => ?_
  split_ifs
  · trivial
  refine (challengeIssue_issues fun challenge drawn positive =>
    .inr (.inr (.inl ⟨challenge, drawn, positive, rfl⟩))).bind fun issued => ?_
  cases issued with
  | none => trivial
  | some challenge =>
      refine (listedCredentials_issues fun user => .inr (.inr (.inr ⟨user, rfl⟩))).bind fun listed => ?_
      cases listed <;> trivial

theorem afterRead_issues {conf : LocConf} {request : VerifyRequest} {origins : List Bytes}
    {parsed : ParsedRequest} (record : Except Rc Credential) :
    (afterRead ext conf request origins parsed record).Issues (Job.verify conf request).May := by
  unfold afterRead
  split
  · trivial
  · split
    · trivial
    · exact ⟨.inr (.inr (.inr ⟨_, _, rfl⟩)), fun _ => trivial⟩

theorem afterConnect_issues {conf : LocConf} {request : VerifyRequest} {origins : List Bytes}
    {parsed : ParsedRequest} :
    (afterConnect ext conf request origins parsed).Issues (Job.verify conf request).May := by
  unfold afterConnect
  split_ifs with wrong
  · trivial
  · exact ⟨.inr (.inl ⟨_, not_not.mp wrong, rfl⟩), fun consumed =>
      (Prog.issues_ite ..).mpr ⟨fun _ => ⟨.inr (.inr (.inl ⟨_, rfl⟩)), fun read => afterRead_issues _⟩,
        fun _ => trivial⟩⟩

theorem verifyDone_issues {conf : LocConf} {request : VerifyRequest} :
    (verifyDone ext conf request).Issues (Job.verify conf request).May := by
  rcases verifyDone_cases ext conf request with
    early | early | ⟨origins, parsed, _, _, staged⟩
  · rw [early]
    trivial
  · rw [early]
    trivial
  · rw [staged]
    exact ⟨.inl rfl, fun connected =>
      (Prog.issues_ite ..).mpr ⟨fun _ => trivial, fun _ => afterConnect_issues⟩⟩

theorem Job.issues (job : Job) : (job.program ext).Issues job.May := by
  cases job with
  | challenge conf request => exact challengeContent_issues.map _
  | verify conf request => exact verifyDone_issues.map _
  | register host keyPrefix registration =>
      exact (admin_issues (.inl rfl) (credentialPut_issues (fun owned => .inr ⟨owned, .inl rfl⟩)
        fun owned => .inr ⟨owned, .inr rfl⟩)).map _
  | revoke host keyPrefix credentialId =>
      exact (admin_issues (.inl rfl) (credentialDelete_issues (.inr (.inl rfl))
        (.inr (.inr (.inl rfl))) fun userId => .inr (.inr (.inr ⟨userId, rfl⟩)))).map _

end Footprint

/-- Jobs that share a key prefix. -/
structure Deployment (ι : Type) where
  jobs : ι → Job
  keyPrefix : Bytes
  shared : ∀ process, (jobs process).keyPrefix = keyPrefix

abbrev RedisPool (ι : Type) := Pool Db Cmd (Option Reply) Delivery ι Outcome

abbrev RedisServed (ι : Type) := Served Db Cmd (Option Reply) Delivery ι

abbrev RedisEvent (ι : Type) := Event ι Delivery Nat

/-- The event serves its command. -/
def ServedEvent {ι : Type} : RedisEvent ι → Prop
  | .environment _ => True
  | .step _ mode => mode = .served

section Runs

variable {ι : Type} [DecidableEq ι] (ext : Externals) (server : Server) (deployment : Deployment ι)

def Deployment.programs (process : ι) : RedisProg Outcome := (deployment.jobs process).program ext

def Deployment.run (db : Db) (events : List (RedisEvent ι)) : RedisPool ι :=
  (Pool.start db (deployment.programs ext)).run (machine server) events

variable {ext server deployment} {db : Db} {events : List (RedisEvent ι)} {served : RedisServed ι}

omit [DecidableEq ι] in
theorem Deployment.verify_shared {process : ι} {conf : LocConf} {request : VerifyRequest}
    (job : deployment.jobs process = .verify conf request) :
    conf.redisKeyPrefix = deployment.keyPrefix := by
  have shared := deployment.shared process
  rwa [job] at shared

theorem Deployment.run_concat (event : RedisEvent ι) :
    deployment.run ext server db (events ++ [event]) =
      (deployment.run ext server db events).step (machine server) event :=
  Pool.run_concat ..

theorem Deployment.log_may (member : served ∈ (deployment.run ext server db events).log) :
    (deployment.jobs served.process).May served.command :=
  Pool.log_allowed member (Job.issues _)

/-- The commands of a job, under the prefix that all jobs share. -/
inductive SharedCommand (deployment : Deployment ι) (process : ι) : Cmd → Prop where
  | connect : SharedCommand deployment process .connect
  | limit (conf : LocConf) (request : ChallengeRequest)
      (job : deployment.jobs process = .challenge conf request) (limited : conf.rateLimitMax ≠ 0) :
      SharedCommand deployment process (.incrExpire (rateLimitKey deployment.keyPrefix request.addrText)
        conf.rateLimitWindow.toUInt64.toNat)
  | issue (conf : LocConf) (request : ChallengeRequest) (challenge : Bytes)
      (job : deployment.jobs process = .challenge conf request)
      (positive : 0 < conf.challengeTtl.toInt.toNat) :
      SharedCommand deployment process (.setEx (challengeKey deployment.keyPrefix challenge) (ascii "1")
        conf.challengeTtl.toInt.toNat)
  | members (userId : Bytes) :
      SharedCommand deployment process (.smembers (credentialIndexKey deployment.keyPrefix userId))
  | consume (conf : LocConf) (request : VerifyRequest) (challenge : Bytes)
      (job : deployment.jobs process = .verify conf request) :
      SharedCommand deployment process (.getdel (challengeKey deployment.keyPrefix challenge))
  | read (id : Bytes) :
      SharedCommand deployment process (.hgetall (credentialRecordKey deployment.keyPrefix id))
  | count (conf : LocConf) (request : VerifyRequest) (id : Bytes) (count : UInt32)
      (job : deployment.jobs process = .verify conf request) :
      SharedCommand deployment process (.hset (credentialRecordKey deployment.keyPrefix id)
        (counterPairs count request.now))
  | put (host keyPrefix : Bytes) (registration : Registration)
      (job : deployment.jobs process = .register host keyPrefix registration)
      (owned : registration.cred.userId ≠ []) :
      SharedCommand deployment process
        (.hset (credentialRecordKey deployment.keyPrefix registration.cred.credentialId)
          (credentialPairs registration.cred))
  | list (userId id : Bytes) :
      SharedCommand deployment process (.sadd (credentialIndexKey deployment.keyPrefix userId) id)
  | remove (host keyPrefix id : Bytes) (job : deployment.jobs process = .revoke host keyPrefix id) :
      SharedCommand deployment process (.del (credentialRecordKey deployment.keyPrefix id))
  | unlist (userId id : Bytes) :
      SharedCommand deployment process (.srem (credentialIndexKey deployment.keyPrefix userId) id)

omit [DecidableEq ι] in
theorem Deployment.shared_command {process : ι} {command : Cmd}
    (may : (deployment.jobs process).May command) : SharedCommand deployment process command := by
  have shared := deployment.shared process
  cases job : deployment.jobs process with
  | challenge conf request =>
      rw [job] at may shared
      change conf.redisKeyPrefix = deployment.keyPrefix at shared
      simp only [Job.May, shared] at may
      rcases may with rfl | ⟨limited, rfl⟩ | ⟨drawn, _, positive, rfl⟩ | ⟨userId, rfl⟩
      · exact .connect
      · exact .limit conf request job limited
      · exact .issue conf request drawn.toList job positive
      · exact .members userId
  | verify conf request =>
      rw [job] at may shared
      change conf.redisKeyPrefix = deployment.keyPrefix at shared
      simp only [Job.May, shared] at may
      rcases may with rfl | ⟨raw, _, rfl⟩ | ⟨id, rfl⟩ | ⟨id, count, rfl⟩
      · exact .connect
      · exact .consume conf request raw job
      · exact .read id
      · exact .count conf request id count job
  | register host keyPrefix registration =>
      rw [job] at may shared
      change keyPrefix = deployment.keyPrefix at shared
      simp only [Job.May, shared] at may
      rcases may with rfl | ⟨owned, rfl | rfl⟩
      · exact .connect
      · exact .put host keyPrefix registration job owned
      · exact .list _ _
  | revoke host keyPrefix id =>
      rw [job] at may shared
      change keyPrefix = deployment.keyPrefix at shared
      simp only [Job.May, shared] at may
      rcases may with rfl | rfl | rfl | ⟨userId, rfl⟩
      · exact .connect
      · exact .read id
      · exact .remove host keyPrefix id job
      · exact .unlist userId id

/-- The commands that touch a record: reads, counter updates, registrations
and revocations. -/
inductive RecordCommand (deployment : Deployment ι) (credentialId : Bytes) (process : ι) : Cmd → Prop where
  | read : RecordCommand deployment credentialId process
      (.hgetall (credentialRecordKey deployment.keyPrefix credentialId))
  | count (conf : LocConf) (request : VerifyRequest) (count : UInt32)
      (job : deployment.jobs process = .verify conf request) :
      RecordCommand deployment credentialId process
        (.hset (credentialRecordKey deployment.keyPrefix credentialId) (counterPairs count request.now))
  | put (host keyPrefix : Bytes) (registration : Registration)
      (job : deployment.jobs process = .register host keyPrefix registration)
      (same : registration.cred.credentialId = credentialId) (owned : registration.cred.userId ≠ []) :
      RecordCommand deployment credentialId process
        (.hset (credentialRecordKey deployment.keyPrefix credentialId) (credentialPairs registration.cred))
  | remove (host keyPrefix : Bytes)
      (job : deployment.jobs process = .revoke host keyPrefix credentialId) :
      RecordCommand deployment credentialId process
        (.del (credentialRecordKey deployment.keyPrefix credentialId))

omit [DecidableEq ι] in
theorem Deployment.record_command {process : ι} {command : Cmd} {credentialId : Bytes}
    (may : (deployment.jobs process).May command)
    (touches : command.key = some (credentialRecordKey deployment.keyPrefix credentialId)) :
    RecordCommand deployment credentialId process command := by
  cases deployment.shared_command may with
  | read id =>
      obtain rfl := credentialRecordKey_inj.mp (Option.some.inj touches)
      exact .read
  | count conf request id count job =>
      obtain rfl := credentialRecordKey_inj.mp (Option.some.inj touches)
      exact .count conf request count job
  | put host keyPrefix registration job owned =>
      obtain rfl := credentialRecordKey_inj.mp (Option.some.inj touches)
      exact .put host keyPrefix registration job rfl owned
  | remove host keyPrefix id job =>
      obtain rfl := credentialRecordKey_inj.mp (Option.some.inj touches)
      exact .remove host keyPrefix job
  | connect | limit | issue | members | consume | list | unlist => simp [Cmd.key] at touches

/-- The commands that touch a user's index. -/
inductive IndexCommand (key : Bytes) : Cmd → Prop where
  | list (credentialId : Bytes) : IndexCommand key (.sadd key credentialId)
  | unlist (credentialId : Bytes) : IndexCommand key (.srem key credentialId)
  | read : IndexCommand key (.smembers key)

omit [DecidableEq ι] in
theorem Deployment.index_command {process : ι} {command : Cmd} {userId : Bytes}
    (may : (deployment.jobs process).May command)
    (touches : command.key = some (credentialIndexKey deployment.keyPrefix userId)) :
    IndexCommand (credentialIndexKey deployment.keyPrefix userId) command := by
  cases deployment.shared_command may with
  | members user =>
      obtain rfl := credentialIndexKey_inj.mp (Option.some.inj touches)
      exact .read
  | list user id =>
      obtain rfl := credentialIndexKey_inj.mp (Option.some.inj touches)
      exact .list id
  | unlist user id =>
      obtain rfl := credentialIndexKey_inj.mp (Option.some.inj touches)
      exact .unlist id
  | connect | limit | issue | consume | read | count | put | remove =>
      simp [Cmd.key, challengeKey_ne_index] at touches

/-- The commands that touch a challenge: issues and consumptions. -/
inductive ChallengeCommand (deployment : Deployment ι) (challenge : Bytes) (process : ι) : Cmd → Prop where
  | issue (conf : LocConf) (request : ChallengeRequest)
      (job : deployment.jobs process = .challenge conf request)
      (positive : 0 < conf.challengeTtl.toInt.toNat) :
      ChallengeCommand deployment challenge process
        (.setEx (challengeKey deployment.keyPrefix challenge) (ascii "1") conf.challengeTtl.toInt.toNat)
  | consume (conf : LocConf) (request : VerifyRequest)
      (job : deployment.jobs process = .verify conf request) :
      ChallengeCommand deployment challenge process
        (.getdel (challengeKey deployment.keyPrefix challenge))

omit [DecidableEq ι] in
theorem Deployment.challenge_command {process : ι} {command : Cmd} {challenge : Bytes}
    (may : (deployment.jobs process).May command)
    (touches : command.key = some (challengeKey deployment.keyPrefix challenge)) :
    ChallengeCommand deployment challenge process command := by
  cases deployment.shared_command may with
  | issue conf request drawn job positive =>
      obtain rfl := challengeKey_inj.mp (Option.some.inj touches)
      exact .issue conf request job positive
  | consume conf request raw job =>
      obtain rfl := challengeKey_inj.mp (Option.some.inj touches)
      exact .consume conf request job
  | connect | limit | members | read | count | put | list | remove | unlist => simp [Cmd.key] at touches

omit [DecidableEq ι] in
/-- Only challenge requests touch a rate limit counter. -/
theorem Deployment.rate_command {process : ι} {command : Cmd} {ip : Bytes}
    (may : (deployment.jobs process).May command)
    (touches : command.key = some (rateLimitKey deployment.keyPrefix ip)) :
    ∃ conf request, deployment.jobs process = .challenge conf request ∧ request.addrText = ip ∧
      conf.rateLimitMax ≠ 0 ∧
      command = .incrExpire (rateLimitKey deployment.keyPrefix ip) conf.rateLimitWindow.toUInt64.toNat := by
  cases deployment.shared_command may with
  | limit conf request job limited =>
      obtain rfl := rateLimitKey_inj.mp (Option.some.inj touches)
      exact ⟨conf, request, job, rfl, limited, rfl⟩
  | connect | issue | members | consume | read | count | put | list | remove | unlist =>
      simp [Cmd.key, index_ne_rateLimitKey, record_ne_rateLimitKey, challengeKey_ne_rateLimitKey] at touches

/-- A verify run within a run of the deployment. -/
theorem Deployment.verify_talks {process : ι} {conf : LocConf} {request : VerifyRequest}
    (job : deployment.jobs process = .verify conf request) :
    ∃ rest, (deployment.run ext server db events).programs process = rest.map .verify ∧
      Prog.Talks (verifyDone ext conf request) ((deployment.run ext server db events).exchanges process)
        rest := by
  have talks := Pool.run_talks (machine server) db (deployment.programs ext) events process
  rw [Deployment.programs, job] at talks
  exact talks.of_map

theorem Deployment.minted_talks {process : ι} {conf : LocConf} {request : VerifyRequest}
    {claims : SessionClaims} {jwt cookie body : Bytes}
    (job : deployment.jobs process = .verify conf request)
    (ended : (deployment.run ext server db events).programs process =
      .done (.verify (.minted claims jwt cookie body))) :
    Prog.Talks (verifyDone ext conf request) ((deployment.run ext server db events).exchanges process)
      (.done (.minted claims jwt cookie body)) := by
  obtain ⟨rest, same, talks⟩ := deployment.verify_talks job
  rw [ended] at same
  cases rest with
  | call command next => cases same
  | done outcome =>
      obtain rfl : VerifyOutcome.minted claims jwt cookie body = outcome := by
        simpa [Prog.map] using same
      exact talks

theorem Deployment.mem_exchanges {process : ι}
    (member : served ∈ (deployment.run ext server db events).log) (own : served.process = process) :
    (served.command, served.reply) ∈ (deployment.run ext server db events).exchanges process :=
  List.mem_map.mpr ⟨served, List.mem_filter.mpr ⟨member, by simpa using own⟩, rfl⟩

omit [DecidableEq ι] in
theorem exchange_mem {log : List (RedisServed ι)} {keep : RedisServed ι → Bool}
    {exchange : Cmd × Option Reply}
    (member : exchange ∈ (log.filter keep).map Served.exchange) :
    ∃ served ∈ log, keep served = true ∧ served.command = exchange.1 ∧ served.reply = exchange.2 := by
  obtain ⟨served, kept, rfl⟩ := List.mem_map.mp member
  obtain ⟨logged, own⟩ := List.mem_filter.mp kept
  exact ⟨served, logged, own, rfl, rfl⟩

end Runs

end AuthWebauthn
