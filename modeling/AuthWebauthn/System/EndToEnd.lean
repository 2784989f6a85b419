import AuthWebauthn.Gate.Session
import AuthWebauthn.System.Challenges
import AuthWebauthn.System.Reading

namespace AuthWebauthn

open Process Redis

/-! Whoever passes the gate carries a token that a login has minted; the login has answered a challenge
that was issued to it, with a key that a `register` command has enrolled.
-/

section Deployment

variable {ι : Type} [DecidableEq ι] {ext : Externals} {server : Server} {deployment : Deployment ι} {db : Db}
  {events : List (RedisEvent ι)} {process : ι} {conf : LocConf} {request : VerifyRequest} {claims : SessionClaims}
  {jwt cookie body : Bytes}

end Deployment

section Site

variable {ext : AdminExternals} {ι : Type} [DecidableEq ι] {site : Site ext ι} {server : Server} {db : Db}
  {events : List (RedisEvent ι)}

/-- The process is a `register` command that accepted this record. -/
def Site.Enrols (site : Site ext ι) (process : ι) (cred : Credential) : Prop :=
  ∃ posix files now argv ctx args reads, site.parties process = .admin posix files now argv ∧
    adminParse posix files argv = .ok (ctx, .registers args reads) ∧
    registerRecord ext (files reads) (registerArgs ctx args) now = .ok cred

omit [DecidableEq ι] in
theorem AdminJob.stores_register {files : FileReads} {now : Int64} {ctx : AdminCtx} {job : AdminJob}
    {host keyPrefix : Bytes} {registration : Registration}
    (stores : job.stores ext files now ctx = some (.register host keyPrefix registration)) :
    ∃ args reads, job = .registers args reads ∧
      registerRecord ext (files reads) (registerArgs ctx args) now = .ok registration.cred := by
  unfold AdminJob.stores at stores
  split_ifs at stores with unaddressed
  cases job with
  | lists userId => cases stores
  | shows credentialId => cases stores
  | revokes credentialId => cases stores
  | registers args reads =>
      simp only at stores
      split at stores
      · cases stores
      · rename_i cred accepted
        cases stores
        exact ⟨args, reads, rfl, accepted⟩

omit [DecidableEq ι] in
theorem Site.enrols {process : {process // site.Stores process}} {host keyPrefix : Bytes}
    {registration : Registration} (job : site.deployment.jobs process = .register host keyPrefix registration) :
    site.Enrols process registration.cred := by
  have stores : (site.parties process).stores ext = some (.register host keyPrefix registration) := by
    rw [← job]
    exact (Option.some_get process.2).symm
  cases party : site.parties process with
  | challenge conf request => simp [party, Party.stores] at stores
  | verify conf request => simp [party, Party.stores] at stores
  | admin posix files now argv =>
      rw [party] at stores
      cases parsed : adminParse posix files argv with
      | error output => simp [Party.stores, parsed] at stores
      | ok asked =>
          obtain ⟨ctx, admin⟩ := asked
          simp only [Party.stores, parsed] at stores
          obtain ⟨args, reads, rfl, accepted⟩ := AdminJob.stores_register stores
          exact ⟨posix, files, now, argv, ctx, args, reads, party, parsed, accepted⟩

omit [DecidableEq ι] in
/-- An id that `register` stores is base64url text. -/
theorem Site.Enrols.urlSafe {process : ι} {cred : Credential} (enrols : site.Enrols process cred) :
    ∀ byte ∈ cred.credentialId, Base64url.urlSafe byte = true := by
  obtain ⟨_, _, _, _, _, _, _, _, _, accepted⟩ := enrols
  obtain ⟨response, pkey, checked⟩ := registerRecord_ok accepted
  rw [checked.named]
  exact Base64url.encode_urlSafe _

end Site

namespace Sample

/-- The credential has the id 01 and the key of the logins. -/
def portalAuthData : Bytes :=
  rpIdHash ++ [0x41, 0, 0, 0, 0] ++ List.replicate 16 0 ++ [0, 1, 1] ++ okpCose rawKey

def portalObject : Bytes :=
  0xa3 :: 0x63 :: ascii "fmt" ++ 0x64 :: ascii "none" ++ 0x67 :: ascii "attStmt" ++ 0xa0 ::
    0x68 :: ascii "authData" ++ 0x58 :: 0x62 :: portalAuthData

def portalBody : Bytes :=
  ascii "\x7b\"response\":\x7b\"clientDataJSON\":\"" ++ Base64url.encode enrolClientData ++
    ascii "\",\"attestationObject\":\"" ++ Base64url.encode portalObject ++ ascii "\"\x7d\x7d"

def portalFiles : FileReads := fun _ _ => .ok portalBody

def portalArgv : List Bytes :=
  [ascii "register", ascii "--user-id=alice", ascii "--response-file=-", ascii "--rp-id=example.com",
    ascii "--redis=127.0.0.1:6379"]

inductive Visitor where
  | register
  | ask
  | answer
deriving DecidableEq

def Visitor.party : Visitor → Party
  | .register => .admin false portalFiles 900 portalArgv
  | .ask => .challenge conf
      { addrText := ascii "192.0.2.1", userId := none, random := some (Vector.replicate 32 first.challenge) }
  | .answer => .verify conf first.request

end Sample

end AuthWebauthn
