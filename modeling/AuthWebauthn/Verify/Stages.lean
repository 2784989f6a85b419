import AuthWebauthn.Verify.Handler

namespace AuthWebauthn

open Process Redis

/-! A verify run connects, consumes the challenge, reads the record and writes the
counter, in this order; each stage may end the run early.
-/

section Stages

variable (ext : Externals) (conf : LocConf) (request : VerifyRequest) (origins : List Bytes)
  (parsed : ParsedRequest)

/-- What `credential_get` makes of a reply. -/
def recordOfReply (credentialId : Bytes) (reply : Option Reply) : Except Rc Credential :=
  match hgetallReply reply with
  | none => .error .error
  | some pairs => credentialGetPairs credentialId pairs

def afterRead : Except Rc Credential → RedisProg VerifyOutcome
  | .error _ => .done .rejected
  | .ok cred =>
      match assertionVerify ext parsed.assertion (assertionCredOf cred)
          (policyOf conf parsed.challenge origins) with
      | .error _ => .done .rejected
      | .ok authSignCount =>
          .call (.hset (credentialRecordKey conf.redisKeyPrefix parsed.id)
            (counterPairs authSignCount request.now)) fun _ =>
              .done (mintSession ext conf cred.userId parsed.id request.now request.jti)

def afterConsume : RedisProg VerifyOutcome :=
  .call (.hgetall (credentialRecordKey conf.redisKeyPrefix parsed.id)) fun reply =>
    afterRead ext conf request origins parsed (recordOfReply parsed.id reply)

def afterConnect : RedisProg VerifyOutcome :=
  if parsed.challenge.length ≠ challengeLength then .done .rejected
  else .call (.getdel (challengeKey conf.redisKeyPrefix parsed.challenge)) fun reply =>
    if getdelReply reply = some true then afterConsume ext conf request origins parsed
    else .done .rejected

def afterParse : RedisProg VerifyOutcome :=
  .call .connect fun reply =>
    if rcOfReply reply ≠ .ok then .done .internalError
    else afterConnect ext conf request origins parsed

end Stages

variable {ext : Externals} {conf : LocConf} {request : VerifyRequest}

theorem afterConnect_eq {origins : List Bytes} {parsed : ParsedRequest} :
    (do
      if (← challengeConsume conf.redisKeyPrefix parsed.challenge) ≠ .ok then return .rejected
      match ← credentialGet conf.redisKeyPrefix parsed.id with
      | .error _ => return .rejected
      | .ok cred =>
          match assertionVerify ext parsed.assertion (assertionCredOf cred)
              (policyOf conf parsed.challenge origins) with
          | .error _ => return .rejected
          | .ok authSignCount =>
              let _ ← credentialUpdateCounter conf.redisKeyPrefix parsed.id authSignCount request.now
              return mintSession ext conf cred.userId parsed.id request.now request.jti) =
    afterConnect ext conf request origins parsed := by
  unfold afterConnect
  split_ifs with wrong
  · simp only [challengeConsume, if_pos wrong, Prog.pure_eq, Prog.done_bind]
    rfl
  · rw [challengeConsume_eq (not_not.mp wrong), Prog.call_bind]
    congr
    funext reply
    rw [Prog.done_bind]
    rcases getdelReply reply with _ | _ | _
    · rfl
    · rfl
    · simp only [ne_eq, not_true_eq_false, if_false, if_true, credentialGet_eq, Prog.call_bind,
        Prog.done_bind]
      rfl

/-- Every directive that verifying needs is set. -/
structure Configured (conf : LocConf) (origins : List Bytes) : Prop where
  origins : conf.origins = some origins
  rpId : conf.rpId ≠ []
  redisHost : conf.redisHost ≠ []
  jwtSecret : conf.jwtSecret ≠ []

theorem Configured.complete {origins : List Bytes} (configured : Configured conf origins) :
    ¬ (conf.rpId = [] ∨ conf.redisHost = [] ∨ conf.jwtSecret = []) := by
  simp [configured.rpId, configured.redisHost, configured.jwtSecret]

theorem verifyDone_staged {origins : List Bytes} {parsed : ParsedRequest}
    (configured : Configured conf origins) (taken : parseVerifyBody ext request.body = some parsed) :
    verifyDone ext conf request = afterParse ext conf request origins parsed := by
  unfold verifyDone afterParse
  simp only [configured.origins, if_neg configured.complete, taken, redisConnect,
    if_neg configured.redisHost, Prog.issue_bind, Prog.call_bind, Prog.done_bind, Prog.pure_eq]
  congr
  funext reply
  split_ifs
  · rfl
  · exact afterConnect_eq

theorem verifyDone_unparsed {origins : List Bytes} (configured : Configured conf origins)
    (untaken : parseVerifyBody ext request.body = none) :
    verifyDone ext conf request = .done .rejected := by
  unfold verifyDone
  simp only [configured.origins, if_neg configured.complete, untaken]
  rfl

/-- A verify run ends before its first command, without a token, or goes through
the stages. -/
theorem verifyDone_cases (ext : Externals) (conf : LocConf) (request : VerifyRequest) :
    verifyDone ext conf request = .done .internalError ∨
    verifyDone ext conf request = .done .rejected ∨
    ∃ origins parsed, conf.origins = some origins ∧
      parseVerifyBody ext request.body = some parsed ∧
      verifyDone ext conf request = afterParse ext conf request origins parsed := by
  cases listed : conf.origins with
  | none =>
      unfold verifyDone
      rw [listed]
      exact .inl rfl
  | some origins =>
      by_cases missing : conf.rpId = [] ∨ conf.redisHost = [] ∨ conf.jwtSecret = []
      · unfold verifyDone
        simp only [listed, if_pos missing]
        exact .inl rfl
      · simp only [not_or] at missing
        have configured : Configured conf origins := ⟨listed, missing.1, missing.2.1, missing.2.2⟩
        cases taken : parseVerifyBody ext request.body with
        | none => exact .inr (.inl (verifyDone_unparsed configured taken))
        | some parsed => exact .inr (.inr ⟨origins, parsed, rfl, rfl, verifyDone_staged configured taken⟩)

/-- The assertion of the request was accepted: these replies brought the run to
its counter update. -/
structure Accepted (ext : Externals) (conf : LocConf) (request : VerifyRequest)
    (origins : List Bytes) (parsed : ParsedRequest) (consumed read : Option Reply)
    (cred : Credential) (authSignCount : UInt32) : Prop where
  configured : conf.origins = some origins
  taken : parseVerifyBody ext request.body = some parsed
  sized : parsed.challenge.length = challengeLength
  found : getdelReply consumed = some true
  record : recordOfReply parsed.id read = .ok cred
  verified : assertionVerify ext parsed.assertion (assertionCredOf cred)
    (policyOf conf parsed.challenge origins) = .ok authSignCount

/-- The exchanges of an accepted run up to its counter update. -/
def acceptedExchanges (conf : LocConf) (parsed : ParsedRequest)
    (connected consumed read : Option Reply) : List (Cmd × Option Reply) :=
  [(.connect, connected), (.getdel (challengeKey conf.redisKeyPrefix parsed.challenge), consumed),
    (.hgetall (credentialRecordKey conf.redisKeyPrefix parsed.id), read)]

/-- A run that has not been accepted (yet). -/
def Unaccepted : RedisProg VerifyOutcome → Prop
  | .done (.minted _ _ _ _) => False
  | .call (.hset _ _) _ => False
  | _ => True

/-- The counter update of an accepted run. -/
def counterUpdate (conf : LocConf) (request : VerifyRequest) (parsed : ParsedRequest)
    (authSignCount : UInt32) : Cmd :=
  .hset (credentialRecordKey conf.redisKeyPrefix parsed.id) (counterPairs authSignCount request.now)

/-- Where an accepted run stands: about to write the counter, or done. -/
inductive AcceptedAt (ext : Externals) (conf : LocConf) (request : VerifyRequest)
    (exchanges : List (Cmd × Option Reply)) (rest : RedisProg VerifyOutcome) : Prop where
  | pending {origins : List Bytes} {parsed : ParsedRequest} {connected consumed read : Option Reply}
      {cred : Credential} {count : UInt32}
      (accepted : Accepted ext conf request origins parsed consumed read cred count)
      (past : exchanges = acceptedExchanges conf parsed connected consumed read)
      (next : rest = .call (counterUpdate conf request parsed count) fun _ =>
        .done (mintSession ext conf cred.userId parsed.id request.now request.jti))
  | finished {origins : List Bytes} {parsed : ParsedRequest}
      {connected consumed read written : Option Reply} {cred : Credential} {count : UInt32}
      (accepted : Accepted ext conf request origins parsed consumed read cred count)
      (past : exchanges = acceptedExchanges conf parsed connected consumed read ++
        [(counterUpdate conf request parsed count, written)])
      (ended : rest = .done (mintSession ext conf cred.userId parsed.id request.now request.jti))

variable {exchanges : List (Cmd × Option Reply)} {rest : RedisProg VerifyOutcome}

private theorem unaccepted_of_done {outcome : VerifyOutcome}
    (talks : Prog.Talks (.done outcome) exchanges rest)
    (failed : Unaccepted (.done outcome)) : Unaccepted rest := by
  rw [talks.done_nil.2]
  exact failed

/-- Every point of a verify run, stage by stage. -/
theorem verifyDone_talks (talks : Prog.Talks (verifyDone ext conf request) exchanges rest) :
    Unaccepted rest ∨ AcceptedAt ext conf request exchanges rest := by
  rcases verifyDone_cases ext conf request with
    early | early | ⟨origins, parsed, configured, taken, staged⟩
  · rw [early] at talks
    exact .inl (unaccepted_of_done talks trivial)
  · rw [early] at talks
    exact .inl (unaccepted_of_done talks trivial)
  rw [staged, afterParse] at talks
  rcases talks.call_cases with ⟨_, rfl⟩ | ⟨connected, _, rfl, online⟩
  · exact .inl trivial
  split_ifs at online
  · exact .inl (unaccepted_of_done online trivial)
  rw [afterConnect] at online
  split_ifs at online with sized
  · exact .inl (unaccepted_of_done online trivial)
  rcases online.call_cases with ⟨_, rfl⟩ | ⟨consumed, _, rfl, past⟩
  · exact .inl trivial
  split_ifs at past with found
  swap
  · exact .inl (unaccepted_of_done past trivial)
  rw [afterConsume] at past
  rcases past.call_cases with ⟨_, rfl⟩ | ⟨read, _, rfl, loaded⟩
  · exact .inl trivial
  cases record : recordOfReply parsed.id read with
  | error rc =>
      rw [record] at loaded
      exact .inl (unaccepted_of_done loaded trivial)
  | ok cred =>
      rw [record, afterRead] at loaded
      cases verified : assertionVerify ext parsed.assertion (assertionCredOf cred)
          (policyOf conf parsed.challenge origins) with
      | error rc =>
          rw [verified] at loaded
          exact .inl (unaccepted_of_done loaded trivial)
      | ok count =>
          rw [verified] at loaded
          have accepted : Accepted ext conf request origins parsed consumed read cred count :=
            ⟨configured, taken, not_not.mp sized, found, record, verified⟩
          rcases loaded.call_cases with ⟨rfl, rfl⟩ | ⟨written, _, rfl, ended⟩
          · exact .inr (.pending accepted rfl rfl)
          · obtain ⟨rfl, rfl⟩ := ended.done_nil
            exact .inr (.finished accepted rfl rfl)

/-- A run that ended in 200 was accepted, and its exchanges are all known. -/
theorem verifyDone_minted {claims : SessionClaims} {jwt cookie body : Bytes}
    (minted : Prog.Talks (verifyDone ext conf request) exchanges (.done (.minted claims jwt cookie body))) :
    ∃ origins parsed connected consumed read written cred count,
      Accepted ext conf request origins parsed consumed read cred count ∧
      exchanges = acceptedExchanges conf parsed connected consumed read ++
        [(counterUpdate conf request parsed count, written)] ∧
      mintSession ext conf cred.userId parsed.id request.now request.jti =
        .minted claims jwt cookie body := by
  rcases verifyDone_talks minted with unaccepted | accepted
  · exact unaccepted.elim
  · cases accepted with
    | pending accepted past next => cases next
    | finished accepted past ended =>
        exact ⟨_, _, _, _, _, _, _, _, accepted, past, (Prog.done.inj ended).symm⟩

theorem verifyDone_keyed {claims : SessionClaims} {jwt cookie body : Bytes}
    (minted : Prog.Talks (verifyDone ext conf request) exchanges (.done (.minted claims jwt cookie body))) :
    conf.jwtSecret ≠ [] := by
  intro unkeyed
  have early : verifyDone ext conf request = .done .internalError := by
    unfold verifyDone
    cases conf.origins with
    | none => rfl
    | some origins =>
        simp only
        rw [if_pos (.inr (.inr unkeyed))]
        rfl
  rw [early] at minted
  cases minted.done_nil.2

end AuthWebauthn
