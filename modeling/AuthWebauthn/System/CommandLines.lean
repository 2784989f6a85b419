import AuthWebauthn.Admin.Ledger
import AuthWebauthn.Process.Projection

namespace AuthWebauthn

open Process Redis

/-! Requests share their Redis with runs of `auth-webauthn-admin`, from the words of the command line to
what it prints.  A run that neither registers nor revokes leaves no trace; what is left is a
deployment.
-/

inductive Party where
  | challenge (conf : LocConf) (request : ChallengeRequest)
  | verify (conf : LocConf) (request : VerifyRequest)
  | admin (posix : Bool) (files : FileReads) (now : Int64) (argv : List Bytes)

inductive PartyOutcome where
  | challenge (outcome : ChallengeOutcome)
  | verify (outcome : VerifyOutcome)
  | admin (output : AdminOutput)
deriving DecidableEq

def Party.program (ext : AdminExternals) : Party → RedisProg PartyOutcome
  | .challenge conf request => (challengeContent ext.toExternals conf request).map .challenge
  | .verify conf request => (verifyDone ext.toExternals conf request).map .verify
  | .admin posix files now argv => (adminMain ext posix files now argv).map .admin

section Job

variable (ext : AdminExternals) (files : FileReads) (now : Int64)

/-- What an admin command does to the store, if anything. -/
def AdminJob.stores (ctx : AdminCtx) (job : AdminJob) : Option Job :=
  if ctx.redisHost = [] ∨ ctx.redisPort = 0 then none
  else
    match job with
    | .registers args reads =>
        match accepted : registerRecord ext (files reads) (registerArgs ctx args) now with
        | .error _ => none
        | .ok _ => some (.register ctx.redisHost ctx.keyPrefix (registrationOf accepted))
    | .revokes credentialId => some (.revoke ctx.redisHost ctx.keyPrefix credentialId)
    | .lists _ | .shows _ => none

def Party.stores : Party → Option Job
  | .challenge conf request => some (.challenge conf request)
  | .verify conf request => some (.verify conf request)
  | .admin posix files now argv =>
      match adminParse posix files argv with
      | .error _ => none
      | .ok (ctx, job) => job.stores ext files now ctx

variable {ext files now}

theorem AdminJob.stores_keyPrefix {ctx : AdminCtx} {job : AdminJob} {stored : Job}
    (stores : job.stores ext files now ctx = some stored) : stored.keyPrefix = ctx.keyPrefix := by
  unfold AdminJob.stores at stores
  split_ifs at stores with unaddressed
  cases job with
  | lists userId => cases stores
  | shows credentialId => cases stores
  | revokes credentialId =>
      cases stores
      rfl
  | registers args reads =>
      simp only at stores
      split at stores
      · cases stores
      · cases stores
        rfl

end Job

def unreachable (host : Bytes) (port : Int32) : Bytes :=
  ascii "error: cannot connect to Redis " ++ shown host ++ 58 :: Decimal.ofInt port.toInt ++ [10]

/-- What a party ends with, beside the outcome of its job. -/
inductive Reports : Job → PartyOutcome → Outcome → Prop where
  | challenge (conf : LocConf) (request : ChallengeRequest) (outcome : ChallengeOutcome) :
      Reports (.challenge conf request) (.challenge outcome) (.challenge outcome)
  | verify (conf : LocConf) (request : VerifyRequest) (outcome : VerifyOutcome) :
      Reports (.verify conf request) (.verify outcome) (.verify outcome)
  | registered (host keyPrefix : Bytes) (registration : Registration) (rc : Rc) :
      Reports (.register host keyPrefix registration) (.admin (registerOutput registration.cred rc)) (.admin rc)
  | unregistered (host keyPrefix : Bytes) (registration : Registration) (port : Int32) :
      Reports (.register host keyPrefix registration) (.admin (adminFailed (unreachable host port)))
        (.admin .error)
  | revoked (host keyPrefix credentialId : Bytes) (rc : Rc) :
      Reports (.revoke host keyPrefix credentialId) (.admin (revokeOutput credentialId rc)) (.admin rc)
  | unrevoked (host keyPrefix credentialId : Bytes) (port : Int32) :
      Reports (.revoke host keyPrefix credentialId) (.admin (adminFailed (unreachable host port)))
        (.admin .error)

/-- Parties whose jobs share a key prefix. -/
structure Site (ext : AdminExternals) (ι : Type) where
  parties : ι → Party
  keyPrefix : Bytes
  shared : ∀ process job, (parties process).stores ext = some job → job.keyPrefix = keyPrefix

abbrev SitePool (ι : Type) := Pool Db Cmd (Option Reply) Delivery ι PartyOutcome

namespace Site

variable {ext : AdminExternals} {ι : Type} (site : Site ext ι)

def Stores (process : ι) : Prop := ((site.parties process).stores ext).isSome = true

instance : DecidablePred site.Stores := fun process =>
  inferInstanceAs (Decidable (((site.parties process).stores ext).isSome = true))

/-- The site as a deployment of the parties that store. -/
def deployment : Deployment {process // site.Stores process} where
  jobs process := ((site.parties process).stores ext).get process.2
  keyPrefix := site.keyPrefix
  shared process := site.shared process _ (Option.some_get process.2).symm

def run [DecidableEq ι] (server : Server) (db : Db) (events : List (RedisEvent ι)) : SitePool ι :=
  (Pool.start db fun process => (site.parties process).program ext).run (machine server) events

end Site

section Lockstep

variable {ext : AdminExternals} {ctx : AdminCtx}

theorem adminConnected_eq (addressed : ¬ (ctx.redisHost = [] ∨ ctx.redisPort = 0)) (command : RedisProg AdminOutput) :
    adminConnected ctx command = .call .connect fun reply =>
      if rcOfReply reply ≠ .ok then .done (adminFailed (unreachable ctx.redisHost ctx.redisPort)) else command := by
  obtain ⟨hosted, _⟩ := not_or.mp addressed
  unfold adminConnected adminConnect adminConf redisConnect
  rw [if_neg addressed, if_neg hosted]
  simp only [Prog.issue_bind, Prog.call_bind, Prog.done_bind, Prog.pure_eq]
  congr
  funext reply
  split_ifs <;> rfl

theorem Job.admin_eq {host : Bytes} (hosted : host ≠ []) (operation : RedisProg Rc) :
    Job.admin host operation = .call .connect fun reply =>
      if rcOfReply reply ≠ .ok then .done .error else operation := by
  unfold Job.admin redisConnect
  rw [if_neg hosted]
  rfl

/-- Up to the text of a failed connection, a command does what its job does. -/
theorem adminConnected_lockstep (addressed : ¬ (ctx.redisHost = [] ∨ ctx.redisPort = 0))
    (report : Rc → AdminOutput) (operation : RedisProg Rc) :
    Prog.Lockstep (fun output rc => output = report rc ∨
        output = adminFailed (unreachable ctx.redisHost ctx.redisPort) ∧ rc = .error)
      (adminConnected ctx do return report (← operation)) (Job.admin ctx.redisHost operation) := by
  rw [adminConnected_eq addressed, Job.admin_eq (not_or.mp addressed).1]
  refine .call fun reply => ?_
  split_ifs with failed
  · exact .done (.inr ⟨rfl, rfl⟩)
  · exact .ending (fun _ => .inl rfl) operation

variable {posix : Bool} {files : FileReads} {now : Int64}

theorem AdminJob.run_lockstep {job : AdminJob} {stored : Job} (stores : job.stores ext files now ctx = some stored) :
    Prog.Lockstep (Reports stored) ((job.run ext files now ctx).map .admin) (stored.program ext.toExternals) := by
  unfold AdminJob.stores at stores
  split_ifs at stores with unaddressed
  cases job with
  | lists userId => cases stores
  | shows credentialId => cases stores
  | revokes credentialId =>
      cases stores
      refine (adminConnected_lockstep unaddressed (revokeOutput credentialId) _).map ?_
      intro output rc reported
      rcases reported with rfl | ⟨rfl, rfl⟩
      · exact .revoked ..
      · exact .unrevoked ..
  | registers args reads =>
      simp only at stores
      split at stores
      · cases stores
      · rename_i cred accepted
        cases stores
        have runs : AdminJob.run ext files now ctx (.registers args reads) =
            adminConnected ctx do return registerOutput cred (← credentialPut ctx.keyPrefix cred) := by
          simp only [AdminJob.run, adminCmdRegister, accepted]
        rw [runs]
        refine (adminConnected_lockstep unaddressed (registerOutput cred) _).map ?_
        intro output rc reported
        rcases reported with rfl | ⟨rfl, rfl⟩
        · exact .registered _ _ (registrationOf accepted) rc
        · exact .unregistered ..

theorem Party.program_lockstep {party : Party} {stored : Job} (stores : party.stores ext = some stored) :
    Prog.Lockstep (Reports stored) (party.program ext) (stored.program ext.toExternals) := by
  cases party with
  | challenge conf request =>
      cases stores
      refine (Prog.Lockstep.refl _).map ?_
      intro value result same
      subst same
      exact .challenge ..
  | verify conf request =>
      cases stores
      refine (Prog.Lockstep.refl _).map ?_
      intro value result same
      subst same
      exact .verify ..
  | admin posix files now argv =>
      simp only [Party.stores] at stores
      simp only [Party.program, adminMain]
      cases parsed : adminParse posix files argv with
      | error output => simp [parsed] at stores
      | ok asked =>
          simp only [parsed] at stores
          exact AdminJob.run_lockstep stores

end Lockstep

section Reads

variable {ext : AdminExternals} {server : Server} {ctx : AdminCtx}

theorem reads_connect : (machine server).Reads .connect := by
  intro delivery db
  exact serve_keeps (· = db) rfl fun _ => rfl

theorem reads_hgetall (key : Bytes) : (machine server).Reads (.hgetall key) := by
  intro delivery db
  exact serve_keeps (· = db) rfl fun _ => exec_hgetall

theorem reads_smembers (key : Bytes) : (machine server).Reads (.smembers key) := by
  intro delivery db
  exact serve_keeps (· = db) rfl fun _ => exec_smembers server db key

theorem adminConnected_reads {command : RedisProg AdminOutput}
    (reads : ¬ (ctx.redisHost = [] ∨ ctx.redisPort = 0) → command.Issues (machine server).Reads) :
    (adminConnected ctx command).Issues (machine server).Reads := by
  by_cases unaddressed : ctx.redisHost = [] ∨ ctx.redisPort = 0
  · unfold adminConnected adminConnect
    rw [if_pos unaddressed]
    trivial
  · rw [adminConnected_eq unaddressed]
    exact ⟨reads_connect, fun reply => (Prog.issues_ite ..).mpr ⟨fun _ => trivial, fun _ => reads unaddressed⟩⟩

theorem credentialGet_reads (keyPrefix credentialId : Bytes) :
    (credentialGet keyPrefix credentialId).Issues (machine server).Reads := by
  rw [credentialGet_eq]
  exact ⟨reads_hgetall _, fun reply => trivial⟩

theorem listMembers_reads (keyPrefix : Bytes) (members : List Bytes) :
    (listMembers keyPrefix members).Issues (machine server).Reads := by
  induction members with
  | nil => trivial
  | cons member members ih =>
      exact (credentialGet_reads keyPrefix member).bind fun record => ih.bind fun lines => trivial

theorem AdminJob.run_reads {files : FileReads} {now : Int64} {job : AdminJob}
    (stores : job.stores ext files now ctx = none) :
    (job.run ext files now ctx).Issues (machine server).Reads := by
  cases job with
  | lists userId =>
      have indexed (key : Bytes) : (redisSmembers key).Issues (machine server).Reads :=
        ⟨reads_smembers key, fun reply => trivial⟩
      refine adminConnected_reads fun _ => (indexed _).bind fun index => ?_
      cases index with
      | none => trivial
      | some members => exact (listMembers_reads _ members).bind fun lines => trivial
  | shows credentialId =>
      exact adminConnected_reads fun _ => (credentialGet_reads _ credentialId).bind fun record => trivial
  | revokes credentialId =>
      refine adminConnected_reads fun addressed => ?_
      simp [AdminJob.stores, addressed] at stores
  | registers args reads =>
      simp only [AdminJob.run, adminCmdRegister]
      split
      · trivial
      · rename_i cred accepted
        refine adminConnected_reads fun addressed => ?_
        unfold AdminJob.stores at stores
        rw [if_neg addressed] at stores
        simp only at stores
        split at stores
        · rename_i refused
          rw [accepted] at refused
          cases refused
        · cases stores

theorem Party.program_reads {party : Party} (stores : party.stores ext = none) :
    (party.program ext).Issues (machine server).Reads := by
  cases party with
  | challenge conf request => cases stores
  | verify conf request => cases stores
  | admin posix files now argv =>
      simp only [Party.stores] at stores
      simp only [Party.program, adminMain]
      cases parsed : adminParse posix files argv with
      | error output => trivial
      | ok asked =>
          simp only [parsed] at stores
          exact (AdminJob.run_reads stores).map _

end Reads

variable {ext : AdminExternals} {ι : Type} [DecidableEq ι]

/-- What a run of the site and the run of its deployment have in common. -/
theorem Site.projects (site : Site ext ι) (server : Server) (db : Db) (events : List (RedisEvent ι)) :
    Pool.Projects (machine server) (fun process => Reports (site.deployment.jobs process))
      (site.run server db events)
      (site.deployment.run ext.toExternals server db (events.filterMap (Event.onto site.Stores))) := by
  refine Pool.Projects.run ⟨rfl, ?_, ?_⟩ events
  · intro process
    exact Party.program_lockstep (Option.some_get process.2).symm
  · intro process reads
    exact Party.program_reads (Option.not_isSome_iff_eq_none.mp reads)

/-- Whole command lines act on the store as the jobs of a deployment do, and say how these ended;
command lines that only read, or fail before they connect, are not there. -/
theorem command_lines_refine (ext : AdminExternals) (site : Site ext ι) (server : Server) (db : Db)
    (events : List (RedisEvent ι)) :
    (site.run server db events).state =
      (site.deployment.run ext.toExternals server db (events.filterMap (Event.onto site.Stores))).state ∧
    ∀ process : {process // site.Stores process},
      Option.Rel (Reports (site.deployment.jobs process)) ((site.run server db events).programs process).result
        ((site.deployment.run ext.toExternals server db
          (events.filterMap (Event.onto site.Stores))).programs process).result := by
  have projects := site.projects server db events
  exact ⟨projects.state, fun process => (projects.lockstep process).result⟩

end AuthWebauthn
