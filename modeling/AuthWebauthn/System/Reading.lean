import AuthWebauthn.Process.Moves
import AuthWebauthn.System.CommandLines

namespace AuthWebauthn

open Process Redis

/-! Requests and other command lines go on while a command reads.  Each of its reads finds the record of
the registration in force at that moment, or that there is none.
-/

section InForce

variable {ι : Type} {ext : Externals} {server : Server} {deployment : Deployment ι} {db : Db}
  {events : List (RedisEvent ι)} {credentialId : Bytes}

open Classical in
/-- The registrations and revocations of a credential that took effect. -/
noncomputable def touches (deployment : Deployment ι) (credentialId : Bytes) (log : List (RedisServed ι)) :
    List (RedisServed ι) :=
  log.filter fun entry => Puts deployment credentialId entry ∨ Removes deployment credentialId entry

/-- The last of them is a registration, and this is its record. -/
def InForce (deployment : Deployment ι) (credentialId : Bytes) (log : List (RedisServed ι))
    (registration : Registration) : Prop :=
  ∃ put host keyPrefix, (touches deployment credentialId log).getLast? = some put ∧
    deployment.jobs put.process = .register host keyPrefix registration ∧
    registration.cred.credentialId = credentialId ∧
    put.command = .hset (credentialRecordKey deployment.keyPrefix credentialId) (credentialPairs registration.cred)

theorem touches_untouched {log : List (RedisServed ι)}
    (quiet : ∀ entry ∈ log, ¬ (Puts deployment credentialId entry ∨ Removes deployment credentialId entry)) :
    touches deployment credentialId log = [] := by
  rw [touches, List.filter_eq_nil_iff]
  intro entry member
  simpa using quiet entry member

theorem touches_last {front back : List (RedisServed ι)} {last : RedisServed ι}
    (touching : Puts deployment credentialId last ∨ Removes deployment credentialId last)
    (quiet : ∀ entry ∈ back, ¬ (Puts deployment credentialId entry ∨ Removes deployment credentialId entry)) :
    (touches deployment credentialId (front ++ last :: back)).getLast? = some last := by
  have split : touches deployment credentialId (front ++ last :: back) =
      touches deployment credentialId front ++ last :: touches deployment credentialId back := by
    simp [touches, List.filter_append, touching]
  rw [split, touches_untouched quiet]
  simp

/-- A typed record with an identity can be read. -/
theorem identified_record (typed : StoreTyped deployment.keyPrefix db) {registered : Credential}
    (identified : Identified (credentialRecordKey deployment.keyPrefix credentialId) (.of registered) db) :
    ∃ cred, recordAt server deployment.keyPrefix credentialId db = .ok cred ∧
      cred.userId = registered.userId ∧ cred.publicKey = registered.publicKey ∧ cred.alg = registered.alg := by
  have owner := congrArg Identity.userId identified.2
  rcases typed.record credentialId with absent | ⟨fields, found, complete | counterOnly⟩
  · rw [fieldsAt, absent] at owner
    cases owner
  · obtain ⟨cred, readable, _⟩ := complete.read server credentialId
    have record : recordAt server deployment.keyPrefix credentialId db = .ok cred := by
      rw [recordAt, fieldsAt, found, fieldsOf_hashEntry]
      exact readable
    exact ⟨cred, record, read_identity identified record⟩
  · rw [fieldsAt, found, fieldsOf_hashEntry, show identityOf fields = .none from counterOnly] at owner
    cases owner

variable [DecidableEq ι]

theorem Deployment.run_typed (typed : StoreTyped deployment.keyPrefix db) :
    StoreTyped deployment.keyPrefix (deployment.run ext server db events).state :=
  Pool.run_keeps (fun _ _ holds => ⟨holds.record, holds.index⟩) (List.nil_append _).symm typed
    fun _ member => storeTyped_kept (deployment.log_may member)

/-- What a state of a run holds under a credential id. -/
theorem Deployment.record_inForce (ext : Externals) (server : Server) (events : List (RedisEvent ι))
    (typed : StoreTyped deployment.keyPrefix db)
    (unregistered : db.entries (credentialRecordKey deployment.keyPrefix credentialId) = none) :
    (∃ registration cred,
      InForce deployment credentialId (deployment.run ext server db events).log registration ∧
      recordAt server deployment.keyPrefix credentialId (deployment.run ext server db events).state = .ok cred ∧
      cred.userId = registration.cred.userId ∧ cred.publicKey = registration.cred.publicKey ∧
      cred.alg = registration.cred.alg) ∨
    (∀ registration, ¬ InForce deployment credentialId (deployment.run ext server db events).log registration) ∧
      recordAt server deployment.keyPrefix credentialId (deployment.run ext server db events).state =
        .error .declined := by
  have unidentified : Identified (credentialRecordKey deployment.keyPrefix credentialId) .none
        (deployment.run ext server db events).state →
      recordAt server deployment.keyPrefix credentialId (deployment.run ext server db events).state =
        .error .declined :=
    fun identified => credentialGetPairs_keyless (congrArg Identity.publicKey identified.2)
  rcases exists_last_split (fun entry => Puts deployment credentialId entry ∨
      Removes deployment credentialId entry) (deployment.run ext server db events).log with
    untouched | ⟨front, last, later, split, puts | removes, quiet⟩
  · refine .inr ⟨?_, unidentified ?_⟩
    · intro registration inForce
      obtain ⟨put, _, _, last, _⟩ := inForce
      rw [touches_untouched untouched] at last
      cases last
    · refine Pool.run_keeps stable_identified (List.nil_append _).symm (identified_absent unregistered) ?_
      intro entry member
      exact identity_kept (deployment.log_may member) (fun puts => untouched entry member (.inl puts)) (.inr rfl)
  · obtain ⟨host, keyPrefix, registration, registers, named, stored⟩ :=
      put_registration (deployment.log_may (by rw [split]; simp)) puts
    have hash : IsHash last.before (credentialRecordKey deployment.keyPrefix credentialId) :=
      Pool.log_from_start (fun _ _ holds => holds) split (.inl unregistered) fun entry member =>
        isHash_kept entry (deployment.log_may (by rw [split]; simp [member]))
    have identified : Identified (credentialRecordKey deployment.keyPrefix credentialId)
        (.of registration.cred) (deployment.run ext server db events).state := by
      refine Pool.run_since stable_identified split ?_ fun entry member =>
        identity_kept (deployment.log_may (by rw [split]; simp [member]))
          (fun puts => quiet entry member (.inl puts)) (.inl fun removes => quiet entry member (.inr removes))
      rw [Served.after, stored, serve_run puts.1, (exec_hset server hash _).1]
      refine ⟨isHash_of_entry (Db.write_same ..), ?_⟩
      rw [fieldsAt, Db.write_same, fieldsOf_hashEntry, identityOf_credentialPairs]
    obtain ⟨cred, record, same⟩ := identified_record (deployment.run_typed typed) identified
    refine .inl ⟨registration, cred, ⟨last, host, keyPrefix, ?_, registers, named, stored⟩, record, same⟩
    rw [split]
    exact touches_last (.inl puts) quiet
  · refine .inr ⟨?_, unidentified ?_⟩
    · intro registration inForce
      obtain ⟨put, _, _, final, _, _, stored⟩ := inForce
      rw [split, touches_last (.inr removes) quiet] at final
      cases final
      rw [removes.2] at stored
      cases stored
    · refine Pool.run_since stable_identified split ?_ fun entry member =>
        identity_kept (deployment.log_may (by rw [split]; simp [member]))
          (fun puts => quiet entry member (.inl puts)) (.inr rfl)
      rw [Served.after, removes.2, serve_run removes.1]
      exact identified_absent exec_del

end InForce

section Reads

variable {ext : AdminExternals} {ι : Type} [DecidableEq ι] {site : Site ext ι} {server : Server} {db : Db}

/-- The deployment of a site, after the events of the site. -/
def Site.deployed (site : Site ext ι) (server : Server) (db : Db) (events : List (RedisEvent ι)) :
    RedisPool {process // site.Stores process} :=
  site.deployment.run ext.toExternals server db (events.filterMap (Event.onto site.Stores))

/-- What reading a record brings after `past`. -/
inductive Brings (site : Site ext ι) (server : Server) (db : Db) (past : List (RedisEvent ι))
    (credentialId : Bytes) : Delivery → Except Rc Credential → Prop where
  | record {registration : Registration} {cred : Credential}
      (inForce : InForce site.deployment credentialId (site.deployed server db past).log registration)
      (userId : cred.userId = registration.cred.userId) (publicKey : cred.publicKey = registration.cred.publicKey)
      (alg : cred.alg = registration.cred.alg) : Brings site server db past credentialId .served (.ok cred)
  | nothing (none : ∀ registration, ¬ InForce site.deployment credentialId (site.deployed server db past).log
      registration) : Brings site server db past credentialId .served (.error .declined)
  | lost {delivery : Delivery} (unserved : delivery ≠ .served) :
      Brings site server db past credentialId delivery (.error .error)

/-- A store of the right types that holds no records yet. -/
structure Unregistered (keyPrefix : Bytes) (db : Db) : Prop where
  record : ∀ credentialId, db.entries (credentialRecordKey keyPrefix credentialId) = none
  index : ∀ userId, IsSet db (credentialIndexKey keyPrefix userId)

theorem unregistered_empty (keyPrefix : Bytes) : Unregistered keyPrefix Db.empty :=
  ⟨fun _ => rfl, fun _ => rfl⟩

theorem Unregistered.typed {keyPrefix : Bytes} (unregistered : Unregistered keyPrefix db) :
    StoreTyped keyPrefix db := ⟨fun credentialId => .inl (unregistered.record credentialId), unregistered.index⟩

theorem Site.brings (unregistered : Unregistered site.keyPrefix db) (past : List (RedisEvent ι))
    (credentialId : Bytes) (delivery : Delivery) :
    Brings site server db past credentialId delivery (recordOfReply credentialId
      ((machine server).serve delivery (site.run server db past).state
        (.hgetall (credentialRecordKey site.keyPrefix credentialId))).2) := by
  cases delivery with
  | served =>
      have hash : IsHash (site.run server db past).state (credentialRecordKey site.keyPrefix credentialId) := by
        rw [(site.projects server db past).state]
        exact (site.deployment.run_typed unregistered.typed).isHash credentialId
      have found : recordOfReply credentialId (some (exec server (site.run server db past).state
          (.hgetall (credentialRecordKey site.keyPrefix credentialId))).2) =
            recordAt server site.keyPrefix credentialId (site.deployed server db past).state := by
        rw [recordOfReply, exec_hgetall_reply server hash, (site.projects server db past).state]
        rfl
      change Brings _ _ _ _ _ _ (recordOfReply credentialId (some (exec server _ _).2))
      rw [found]
      rcases site.deployment.record_inForce ext.toExternals server (past.filterMap (Event.onto site.Stores))
          unregistered.typed (unregistered.record credentialId) with
        ⟨registration, cred, inForce, record, userId, publicKey, alg⟩ | ⟨none, record⟩
      · exact record ▸ .record inForce userId publicKey alg
      · exact record ▸ .nothing none
  | refused => exact .lost (by decide)
  | dropped => exact .lost (by decide)
  | replyLost => exact .lost (by decide)

/-- The next step of the process will serve this command. -/
def Site.Asks (site : Site ext ι) (server : Server) (db : Db) (past : List (RedisEvent ι)) (process : ι)
    (command : Cmd) : Prop :=
  ∃ next, (site.run server db past).programs process = .call command next

/-- The reads of `list`, one member after the other, and the lines they give. -/
inductive Lists (site : Site ext ι) (server : Server) (db : Db) (process : ι) :
    List (RedisEvent ι) → List Bytes → List (RedisEvent ι) → Bytes → Prop where
  | nil (past : List (RedisEvent ι)) : Lists site server db process past [] [] []
  | cons {past between reading : List (RedisEvent ι)} {delivery : Delivery} {member text : Bytes}
      {members : List Bytes} {found : Except Rc Credential}
      (asks : site.Asks server db (past ++ between) process (.hgetall (credentialRecordKey site.keyPrefix member)))
      (brings : Brings site server db (past ++ between) member delivery found)
      (rest : Lists site server db process (past ++ (between ++ [.step process delivery])) members reading text) :
      Lists site server db process past (member :: members) (between ++ .step process delivery :: reading)
        (listLine member found ++ text)

theorem Site.run_append (past later : List (RedisEvent ι)) :
    site.run server db (past ++ later) = (site.run server db past).run (machine server) later :=
  Pool.run_append ..

/-- The next step of a process of the site that ends. -/
theorem Site.next {process : ι} {command : Cmd} {next : Option Reply → RedisProg PartyOutcome} {outcome : PartyOutcome}
    {past later : List (RedisEvent ι)} (pending : (site.run server db past).programs process = .call command next)
    (ended : (site.run server db (past ++ later)).programs process = .done outcome) :
    ∃ between delivery rest, later = between ++ .step process delivery :: rest ∧
      site.Asks server db (past ++ between) process command ∧
      (site.run server db (past ++ (between ++ [.step process delivery]))).programs process =
        next ((machine server).serve delivery (site.run server db (past ++ between)).state command).2 ∧
      (site.run server db (past ++ (between ++ [.step process delivery]) ++ rest)).programs process =
        .done outcome := by
  have reaches := ended
  rw [site.run_append] at reaches
  obtain ⟨between, delivery, rest, rfl, waits, reached⟩ := Pool.run_next pending reaches
  have regrouped : past ++ (between ++ .step process delivery :: rest) =
      past ++ (between ++ [.step process delivery]) ++ rest := by simp
  rw [regrouped] at ended
  exact ⟨between, delivery, rest, rfl, ⟨next, by rwa [site.run_append]⟩,
    by rwa [site.run_append, site.run_append], ended⟩

theorem listMembers_cons {α : Type} (keyPrefix member : Bytes) (members : List Bytes) (rest : Bytes → RedisProg α) :
    (listMembers keyPrefix (member :: members) >>= rest) =
      .call (.hgetall (credentialRecordKey keyPrefix member)) fun reply =>
        listMembers keyPrefix members >>= fun text => rest (listLine member (recordOfReply member reply) ++ text) := by
  rw [listMembers, credentialGet_eq]
  simp only [Prog.call_bind, Prog.done_bind, Prog.bind_assoc, Prog.pure_eq]
  rfl

theorem listMembers_lists (unregistered : Unregistered site.keyPrefix db) {process : ι} {members : List Bytes}
    {rest : Bytes → RedisProg PartyOutcome} {outcome : PartyOutcome} {past later : List (RedisEvent ι)}
    (pending : (site.run server db past).programs process = (listMembers site.keyPrefix members >>= rest))
    (ended : (site.run server db (past ++ later)).programs process = .done outcome) :
    ∃ text reading remaining, later = reading ++ remaining ∧ Lists site server db process past members reading text ∧
      (site.run server db (past ++ reading)).programs process = rest text := by
  induction members generalizing past later rest with
  | nil =>
      refine ⟨[], [], later, rfl, .nil past, ?_⟩
      rw [List.append_nil, pending]
      rfl
  | cons member members ih =>
      rw [listMembers_cons] at pending
      obtain ⟨between, delivery, after, rfl, asks, reached, ended⟩ := site.next pending ended
      obtain ⟨text, reading, remaining, rfl, lists, done⟩ := ih reached ended
      exact ⟨_, between ++ .step process delivery :: reading, remaining, by simp,
        .cons asks (site.brings unregistered (past ++ between) member delivery) lists, by simpa using done⟩

variable {ctx : AdminCtx}

theorem adminCmdList_eq (addressed : ¬ (ctx.redisHost = [] ∨ ctx.redisPort = 0)) (userId : Bytes) :
    adminCmdList ctx userId = .call .connect fun connected =>
      if rcOfReply connected ≠ .ok then .done (adminFailed (unreachable ctx.redisHost ctx.redisPort))
      else .call (.smembers (credentialIndexKey ctx.keyPrefix userId)) fun reply =>
        match smembersReply reply with
        | none => .done (adminFailed (ascii "error: failed to read credential index\n"))
        | some members => listMembers ctx.keyPrefix members >>= fun text => .done (adminPrinted (listHeader ++ text)) := by
  unfold adminCmdList
  rw [adminConnected_eq addressed]
  rfl

theorem adminCmdShow_eq (addressed : ¬ (ctx.redisHost = [] ∨ ctx.redisPort = 0)) (credentialId : Bytes) :
    adminCmdShow ctx credentialId = .call .connect fun connected =>
      if rcOfReply connected ≠ .ok then .done (adminFailed (unreachable ctx.redisHost ctx.redisPort))
      else .call (.hgetall (credentialRecordKey ctx.keyPrefix credentialId)) fun reply =>
        .done (showOutput credentialId (recordOfReply credentialId reply)) := by
  unfold adminCmdShow
  rw [adminConnected_eq addressed, credentialGet_eq]
  rfl

/-- What a command has ended with, it still has at the end. -/
theorem Site.output_eq {process : ι} {output final : AdminOutput} {past later : List (RedisEvent ι)}
    (reached : (site.run server db past).programs process = .done (.admin output))
    (ended : (site.run server db (past ++ later)).programs process = .done (.admin final)) : final = output := by
  rw [site.run_append, Pool.run_ended reached] at ended
  exact (PartyOutcome.admin.inj (Prog.done.inj ended)).symm

/-- A command either says that it cannot connect or goes on to its reads. -/
theorem Site.connected {process : ι} {message : Bytes} {rest : RedisProg AdminOutput} {output : AdminOutput}
    {events : List (RedisEvent ι)}
    (program : (site.parties process).program ext = (Prog.call .connect fun connected =>
      if rcOfReply connected ≠ .ok then .done (adminFailed message) else rest).map .admin)
    (ended : (site.run server db events).programs process = .done (.admin output)) :
    output = adminFailed message ∨ ∃ past later, events = past ++ later ∧
      (site.run server db past).programs process = rest.map .admin := by
  have pending : (site.run server db []).programs process = _ := program
  obtain ⟨between, delivery, later, rfl, _, reached, ended⟩ := site.next pending ended
  dsimp only at reached
  split_ifs at reached with failed
  · exact .inl (Site.output_eq reached ended)
  · exact .inr ⟨between ++ [.step process delivery], later, by simp, reached⟩

/-- SMEMBERS brings the index, if its reply arrives. -/
theorem Site.members (unregistered : Unregistered site.keyPrefix db) (past : List (RedisEvent ι)) (userId : Bytes) :
    smembersReply ((machine server).serve .served (site.run server db past).state
        (.smembers (credentialIndexKey site.keyPrefix userId))).2 =
      some (server.memberOrder (membersAt (site.deployed server db past).state
        (credentialIndexKey site.keyPrefix userId))) := by
  have index : IsSet (site.deployed server db past).state (credentialIndexKey site.keyPrefix userId) :=
    (site.deployment.run_typed unregistered.typed).index userId
  rw [(site.projects server db past).state]
  exact congrArg Prod.fst (redisSmembers_solo index)

theorem members_unserved {delivery : Delivery} (unserved : delivery ≠ .served) (key : Bytes) :
    smembersReply ((machine server).serve delivery db (.smembers key)).2 = none := by
  cases delivery with
  | served => exact absurd rfl unserved
  | refused => rfl
  | dropped => rfl
  | replyLost => rfl

variable {posix : Bool} {files : FileReads} {now : Int64} {argv : List Bytes} {process : ι} {output : AdminOutput}
  {events : List (RedisEvent ι)}

/-- Whatever else goes on, `show` prints the record of the registration in force when it reads. -/
theorem show_exact (site : Site ext ι) (server : Server) (unregistered : Unregistered site.keyPrefix db)
    (credentialId : Bytes) (party : site.parties process = .admin posix files now argv)
    (asked : adminParse posix files argv = .ok (ctx, .shows credentialId))
    (addressed : ¬ (ctx.redisHost = [] ∨ ctx.redisPort = 0)) (shared : ctx.keyPrefix = site.keyPrefix)
    (ended : (site.run server db events).programs process = .done (.admin output)) :
    output = adminFailed (unreachable ctx.redisHost ctx.redisPort) ∨
    ∃ past delivery later found, events = past ++ .step process delivery :: later ∧
      site.Asks server db past process (.hgetall (credentialRecordKey site.keyPrefix credentialId)) ∧
      Brings site server db past credentialId delivery found ∧ output = showOutput credentialId found := by
  have program : (site.parties process).program ext = (adminCmdShow ctx credentialId).map .admin := by
    rw [party]
    simp only [Party.program, adminMain, asked, AdminJob.run]
  rw [adminCmdShow_eq addressed] at program
  rcases site.connected program ended with unconnected | ⟨past, later, rfl, pending⟩
  · exact .inl unconnected
  · obtain ⟨between, delivery, rest, rfl, asks, reached, ended⟩ := site.next pending ended
    refine .inr ⟨past ++ between, delivery, rest, _, by simp, shared ▸ asks,
      site.brings unregistered (past ++ between) credentialId delivery, ?_⟩
    rw [site.output_eq reached ended, shared]

end Reads

namespace Sample

inductive Desk where
  | register
  | lister
  | shower
deriving DecidableEq

def Desk.argv : Desk → List Bytes
  | .register => [ascii "register", ascii "--user-id=alice", ascii "--response-file=response.json",
      ascii "--rp-id=example.com", ascii "--require-attestation=packed", ascii "--redis=127.0.0.1:6379"]
  | .lister => [ascii "list", ascii "--redis=127.0.0.1:6379", ascii "--user-id", ascii "alice"]
  | .shower => [ascii "show", ascii "--credential-id", ascii "AQ", ascii "--redis=127.0.0.1:6379"]

def Desk.job : Desk → AdminJob
  | .register => .registers enrolOptions 0
  | .lister => .lists (ascii "alice")
  | .shower => .shows (ascii "AQ")

theorem Desk.asks (process : Desk) :
    adminParse false (fun _ => enrolFiles) process.argv = .ok (Sample.adminCtx, process.job) := by
  cases process <;> decide +kernel

def desk : Site enrolExt Desk where
  parties process := .admin false (fun _ => enrolFiles) 1000 process.argv
  keyPrefix := defaultKeyPrefix
  shared := by
    intro process job stores
    simp only [Party.stores, process.asks] at stores
    exact AdminJob.stores_keyPrefix stores

/-- The credential is stored, read, listed in the index, and listed. -/
def deskEvents : List (RedisEvent Desk) :=
  served .register 2 ++ served .shower 2 ++ served .register 1 ++ served .lister 3

end Sample

theorem shown_is_registered :
    ∃ past registration, InForce Sample.desk.deployment (ascii "AQ")
      (Sample.desk.deployed .inOrder Db.empty past).log registration := by
  have printed : (Sample.desk.run .inOrder Db.empty Sample.deskEvents).programs .shower =
      .done (.admin (adminPrinted (showReport (ascii "AQ") Sample.enrolCred))) :=
    Prog.eq_done_of_result (by decide +kernel)
  rcases show_exact Sample.desk .inOrder (unregistered_empty _) (ascii "AQ") rfl (Sample.Desk.asks .shower)
      (by decide) rfl printed with unconnected | ⟨past, delivery, later, found, _, _, brings, shown⟩
  · exact absurd (congrArg AdminOutput.code unconnected) (by decide)
  · cases brings with
    | record inForce => exact ⟨past, _, inForce⟩
    | nothing none => exact absurd (congrArg AdminOutput.code shown) (by decide)
    | lost unserved => exact absurd (congrArg AdminOutput.code shown) (by decide)

section Lists

variable {ext : AdminExternals} {ι : Type} [DecidableEq ι] {db : Db} {ctx : AdminCtx} {posix : Bool}
  {files : FileReads} {now : Int64} {argv : List Bytes} {process : ι} {output : AdminOutput}
  {events : List (RedisEvent ι)}

/-- Whatever else goes on, `list` prints a line for each member that it found in the index, and each
shows the registration in force when it is read. -/
theorem list_exact (site : Site ext ι) (server : Server) (unregistered : Unregistered site.keyPrefix db)
    (userId : Bytes) (party : site.parties process = .admin posix files now argv)
    (asked : adminParse posix files argv = .ok (ctx, .lists userId))
    (addressed : ¬ (ctx.redisHost = [] ∨ ctx.redisPort = 0)) (shared : ctx.keyPrefix = site.keyPrefix)
    (ended : (site.run server db events).programs process = .done (.admin output)) :
    output = adminFailed (unreachable ctx.redisHost ctx.redisPort) ∨
    (output = adminFailed (ascii "error: failed to read credential index\n") ∧
      ∃ past delivery later, events = past ++ .step process delivery :: later ∧
        site.Asks server db past process (.smembers (credentialIndexKey site.keyPrefix userId)) ∧
        delivery ≠ .served) ∨
    ∃ past reading later text, events = past ++ .step process .served :: reading ++ later ∧
      site.Asks server db past process (.smembers (credentialIndexKey site.keyPrefix userId)) ∧
      Lists site server db process (past ++ [.step process .served]) (server.memberOrder
        (membersAt (site.deployed server db past).state (credentialIndexKey site.keyPrefix userId))) reading text ∧
      output = adminPrinted (listHeader ++ text) := by
  have program : (site.parties process).program ext = (adminCmdList ctx userId).map .admin := by
    rw [party]
    simp only [Party.program, adminMain, asked, AdminJob.run]
  rw [adminCmdList_eq addressed] at program
  rcases site.connected program ended with unconnected | ⟨past, later, rfl, pending⟩
  · exact .inl unconnected
  · obtain ⟨between, delivery, rest, rfl, asks, reached, ended⟩ := site.next pending ended
    dsimp only at reached
    rw [shared] at asks reached
    by_cases unserved : delivery ≠ .served
    · rw [members_unserved unserved] at reached
      exact .inr (.inl ⟨site.output_eq reached ended, past ++ between, delivery, rest, by simp, asks, unserved⟩)
    · obtain rfl := not_not.mp unserved
      rw [site.members unregistered] at reached
      dsimp only at reached
      rw [Prog.map_bind] at reached
      obtain ⟨text, reading, remaining, rfl, lists, printed⟩ := listMembers_lists unregistered reached ended
      rw [← List.append_assoc] at ended
      exact .inr (.inr ⟨past ++ between, reading, remaining, text, by simp, asks, by simpa using lists,
        site.output_eq printed ended⟩)

end Lists

theorem enrolled_listing :
    ∃ past members reading, Lists Sample.desk .inOrder Db.empty .lister past members reading
      (listLine (ascii "AQ") (.ok Sample.enrolCred)) := by
  have printed : (Sample.desk.run .inOrder Db.empty Sample.deskEvents).programs .lister =
      .done (.admin (adminPrinted (listHeader ++ listLine (ascii "AQ") (.ok Sample.enrolCred)))) :=
    Prog.eq_done_of_result (by decide +kernel)
  rcases list_exact Sample.desk .inOrder (unregistered_empty _) (ascii "alice") rfl (Sample.Desk.asks .lister)
      (by decide) rfl printed with unconnected | ⟨unread, _⟩ | ⟨past, reading, later, text, _, _, lists, shown⟩
  · exact absurd (congrArg AdminOutput.code unconnected) (by decide)
  · exact absurd (congrArg AdminOutput.code unread) (by decide)
  · have same := List.append_cancel_left (congrArg AdminOutput.stdout shown)
    exact ⟨_, _, reading, same ▸ lists⟩

end AuthWebauthn
