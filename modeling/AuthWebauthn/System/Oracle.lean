import AuthWebauthn.System.Sample

namespace AuthWebauthn

open Process Redis

/-! Two verify runs on one body see the same stored challenges and may find
anything else in Redis.  Unless an assertion is accepted they cannot be told
apart.
-/

/-- A verify run by itself, each command going as `deliveries` says. -/
def verifyRun (ext : Externals) (server : Server) (conf : LocConf) (request : VerifyRequest)
    (deliveries : List Delivery) (db : Db) : VerifyOutcome × Db :=
  (verifyDone ext conf request).exec (machine server) .served deliveries db

def verifyTranscript (ext : Externals) (server : Server) (conf : LocConf) (request : VerifyRequest)
    (deliveries : List Delivery) (db : Db) : List (Cmd × Option Reply) :=
  (verifyDone ext conf request).transcript (machine server) .served deliveries db

/-- `assertion_verify` returns `NGX_OK` on the record in this reply. -/
def acceptsReply (ext : Externals) (conf : LocConf) (origins : List Bytes) (parsed : ParsedRequest)
    (read : Option Reply) : Bool :=
  match recordOfReply parsed.id read with
  | .error _ => false
  | .ok cred => (assertionVerify ext parsed.assertion (assertionCredOf cred)
      (policyOf conf parsed.challenge origins)).isOk

def acceptsExchange (ext : Externals) (conf : LocConf) (origins : List Bytes) (parsed : ParsedRequest) :
    Cmd × Option Reply → Bool
  | (.hgetall _, read) => acceptsReply ext conf origins parsed read
  | _ => false

/-- `assertion_verify` returns `NGX_OK` somewhere in the run. -/
def acceptsIn (ext : Externals) (conf : LocConf) (request : VerifyRequest)
    (transcript : List (Cmd × Option Reply)) : Bool :=
  match conf.origins, parseVerifyBody ext request.body with
  | some origins, some parsed => transcript.any (acceptsExchange ext conf origins parsed)
  | _, _ => false

/-- The same challenges are stored. -/
def SameChallenges (keyPrefix : Bytes) (left right : Db) : Prop :=
  ∀ challenge, left.get (challengeKey keyPrefix challenge) = right.get (challengeKey keyPrefix challenge)

variable {ext : Externals} {server : Server} {conf : LocConf} {request : VerifyRequest}
  {origins : List Bytes} {parsed : ParsedRequest} {db : Db}

theorem SameChallenges.trans {keyPrefix : Bytes} {first second third : Db}
    (left : SameChallenges keyPrefix first second) (right : SameChallenges keyPrefix second third) :
    SameChallenges keyPrefix first third :=
  fun challenge => (left challenge).trans (right challenge)

theorem SameChallenges.symm {keyPrefix : Bytes} {first second : Db}
    (same : SameChallenges keyPrefix first second) : SameChallenges keyPrefix second first :=
  fun challenge => (same challenge).symm

/-- A command on a record leaves the challenges alone. -/
theorem sameChallenges_record {keyPrefix id : Bytes} {delivery : Delivery} {command : Cmd}
    (record : command.key = some (credentialRecordKey keyPrefix id)) :
    SameChallenges keyPrefix ((machine server).serve delivery db command).1 db :=
  fun challenge => serve_other_get (by simp [record])

/-- What GETDEL leaves of what a key held. -/
def getdelLeaves : Option Entry → Option Entry
  | some ⟨.str _, _⟩ => none
  | held => held

theorem exec_getdel_get {key other : Bytes} :
    (exec server db (.getdel key)).1.get other =
      if other = key then getdelLeaves (db.get key) else db.get other := by
  by_cases same : other = key
  · subst same
    rw [if_pos rfl]
    cases found : db.get other with
    | none =>
        simp only [exec, found]
        rfl
    | some entry =>
        obtain ⟨value, expiresAt⟩ := entry
        cases value with
        | str bytes =>
            simp only [exec, found]
            exact Db.get_of_absent (Function.update_self ..)
        | hash fields =>
            simp only [exec, found]
            rfl
        | set members =>
            simp only [exec, found]
            rfl
  · rw [if_neg same, exec_other_get (by simpa [Cmd.key] using Ne.symm same)]

theorem SameChallenges.consume {left right : Db} {leftServer rightServer : Server} {keyPrefix : Bytes}
    (same : SameChallenges keyPrefix left right) (delivery : Delivery) (challenge : Bytes) :
    SameChallenges keyPrefix
      ((machine leftServer).serve delivery left (.getdel (challengeKey keyPrefix challenge))).1
      ((machine rightServer).serve delivery right (.getdel (challengeKey keyPrefix challenge))).1 := by
  intro other
  cases runs : delivery.runs with
  | false => rw [serve_not_run runs, serve_not_run runs, same other]
  | true =>
      rw [serve_run runs, serve_run runs, exec_getdel_get, exec_getdel_get, same challenge, same other]

theorem afterRead_rejected {read : Option Reply}
    (unaccepted : acceptsReply ext conf origins parsed read = false) :
    afterRead ext conf request origins parsed (recordOfReply parsed.id read) = .done .rejected := by
  unfold acceptsReply at unaccepted
  cases record : recordOfReply parsed.id read with
  | error rc => rfl
  | ok cred =>
      simp only [record] at unaccepted
      simp only [afterRead]
      cases verified : assertionVerify ext parsed.assertion (assertionCredOf cred)
          (policyOf conf parsed.challenge origins) with
      | error rc => rfl
      | ok count =>
          rw [verified] at unaccepted
          cases unaccepted

/-- Once the challenge is consumed, a run that accepts no assertion is rejected
and touches no challenge. -/
theorem afterConsume_rejected {later : List Delivery}
    (unaccepted : ((afterConsume ext conf request origins parsed).transcript (machine server) .served
      later db).any (acceptsExchange ext conf origins parsed) = false) :
    ∃ after, (afterConsume ext conf request origins parsed).exec (machine server) .served later db =
        (.rejected, after) ∧ SameChallenges conf.redisKeyPrefix after db := by
  rw [afterConsume, Prog.transcript, List.any_cons, Bool.or_eq_false_iff] at unaccepted
  refine ⟨((machine server).serve (later.headD .served) db
    (.hgetall (credentialRecordKey conf.redisKeyPrefix parsed.id))).1, ?_, sameChallenges_record rfl⟩
  rw [afterConsume, Prog.exec_call, afterRead_rejected unaccepted.1]
  rfl

/-- What is left of the challenges after GETDEL, if the run gets there. -/
def consumed (server : Server) (conf : LocConf) (parsed : ParsedRequest) (delivery : Delivery) (db : Db) :
    Db :=
  if parsed.challenge.length ≠ challengeLength then db
  else ((machine server).serve delivery db
    (.getdel (challengeKey conf.redisKeyPrefix parsed.challenge))).1

theorem afterConnect_rejected {consume : Delivery} {later : List Delivery}
    (unaccepted : ((afterConnect ext conf request origins parsed).transcript (machine server) .served
      (consume :: later) db).any (acceptsExchange ext conf origins parsed) = false) :
    ∃ after, (afterConnect ext conf request origins parsed).exec (machine server) .served
        (consume :: later) db = (.rejected, after) ∧
      SameChallenges conf.redisKeyPrefix after (consumed server conf parsed consume db) := by
  unfold afterConnect consumed at *
  by_cases wrong : parsed.challenge.length ≠ challengeLength
  · rw [if_pos wrong, if_pos wrong]
    exact ⟨db, rfl, fun _ => rfl⟩
  · rw [if_neg wrong] at unaccepted ⊢
    rw [if_neg wrong, Prog.exec_call]
    rw [Prog.transcript, List.any_cons, Bool.or_eq_false_iff] at unaccepted
    replace unaccepted := unaccepted.2
    simp only [List.headD_cons, List.tail_cons] at unaccepted ⊢
    by_cases found : getdelReply ((machine server).serve consume db
        (.getdel (challengeKey conf.redisKeyPrefix parsed.challenge))).2 = some true
    · simp only [found, if_true] at unaccepted ⊢
      exact afterConsume_rejected unaccepted
    · simp only [found, if_false]
      exact ⟨_, rfl, fun _ => rfl⟩

theorem SameChallenges.consumed {left right : Db} {leftServer rightServer : Server}
    (same : SameChallenges conf.redisKeyPrefix left right) (delivery : Delivery) :
    SameChallenges conf.redisKeyPrefix (consumed leftServer conf parsed delivery left)
      (consumed rightServer conf parsed delivery right) := by
  unfold AuthWebauthn.consumed
  split_ifs
  · exact same
  · exact same.consume delivery parsed.challenge

theorem serve_connect {delivery : Delivery} : ((machine server).serve delivery db .connect).1 = db := by
  cases delivery <;> rfl

/-- A run that accepts no assertion, from its connection on. -/
theorem verifyRun_unaccepted {connect consume : Delivery} {later : List Delivery}
    (configured : Configured conf origins) (taken : parseVerifyBody ext request.body = some parsed)
    (unaccepted : acceptsIn ext conf request
      (verifyTranscript ext server conf request (connect :: consume :: later) db) = false) :
    if rcOfReply ((machine server).serve connect db .connect).2 ≠ .ok then
      verifyRun ext server conf request (connect :: consume :: later) db = (.internalError, db)
    else ∃ after, verifyRun ext server conf request (connect :: consume :: later) db = (.rejected, after) ∧
      SameChallenges conf.redisKeyPrefix after (consumed server conf parsed consume db) := by
  unfold acceptsIn verifyTranscript at unaccepted
  rw [verifyDone_staged configured taken] at unaccepted
  simp only [configured.origins, taken, afterParse, Prog.transcript, List.any_cons,
    Bool.or_eq_false_iff, List.headD_cons, List.tail_cons, serve_connect] at unaccepted
  unfold verifyRun
  rw [verifyDone_staged configured taken, afterParse, Prog.exec_call]
  simp only [List.headD_cons, List.tail_cons, serve_connect]
  by_cases online : rcOfReply ((machine server).serve connect db .connect).2 = .ok
  · simp only [online, ne_eq, not_true_eq_false, if_false] at unaccepted ⊢
    exact afterConnect_rejected unaccepted.2
  · simp only [online, ne_eq, not_false_eq_true, if_true]
    rfl

/-- Two runs on one body that accept no assertion answer the same and leave the
same challenges, whatever they find in the credential records. -/
theorem no_credential_oracle (ext : Externals) (conf : LocConf) (origins : List Bytes)
    (configured : Configured conf origins) (request : VerifyRequest) (leftServer rightServer : Server)
    (left right : Db) (same : SameChallenges conf.redisKeyPrefix left right)
    (connectLeft connectRight consume : Delivery) (laterLeft laterRight : List Delivery)
    (sameConnect : rcOfReply ((machine leftServer).serve connectLeft left .connect).2 =
      rcOfReply ((machine rightServer).serve connectRight right .connect).2)
    (unacceptedLeft : acceptsIn ext conf request (verifyTranscript ext leftServer conf request
      (connectLeft :: consume :: laterLeft) left) = false)
    (unacceptedRight : acceptsIn ext conf request (verifyTranscript ext rightServer conf request
      (connectRight :: consume :: laterRight) right) = false) :
    (verifyRun ext leftServer conf request (connectLeft :: consume :: laterLeft) left).1.response =
        (verifyRun ext rightServer conf request (connectRight :: consume :: laterRight) right).1.response ∧
      SameChallenges conf.redisKeyPrefix
        (verifyRun ext leftServer conf request (connectLeft :: consume :: laterLeft) left).2
        (verifyRun ext rightServer conf request (connectRight :: consume :: laterRight) right).2 := by
  cases taken : parseVerifyBody ext request.body with
  | none =>
      unfold verifyRun
      rw [verifyDone_unparsed configured taken]
      exact ⟨rfl, same⟩
  | some parsed =>
      have onLeft := verifyRun_unaccepted configured taken unacceptedLeft
      have onRight := verifyRun_unaccepted configured taken unacceptedRight
      rw [sameConnect] at onLeft
      split_ifs at onLeft onRight
      · rw [onLeft, onRight]
        exact ⟨rfl, same⟩
      · obtain ⟨afterLeft, ranLeft, keptLeft⟩ := onLeft
        obtain ⟨afterRight, ranRight, keptRight⟩ := onRight
        rw [ranLeft, ranRight]
        exact ⟨rfl, (keptLeft.trans (same.consumed consume)).trans keptRight.symm⟩

/-- The credential of the sample with a counter that no login of it reaches. -/
def Sample.aheadRecord : Credential := { Sample.registration.cred with signCount := 200 }

/-- The challenge of the first login is stored, and a record or none. -/
def Sample.challenged (record : Option Credential) : Db :=
  (Db.empty.write (challengeKey defaultKeyPrefix (List.replicate 32 1)) (some ⟨.str (ascii "1"), none⟩)).write
    (credentialRecordKey defaultKeyPrefix (ascii "AQ"))
    (record.bind fun cred => hashEntry (Hash.setFields ∅ (credentialPairs cred)))

/-- A read that fails and a replayed counter look the same. -/
theorem absent_and_cloned_look_alike :
    (verifyRun Sample.ext .inOrder Sample.conf Sample.first.request [.served, .served, .refused]
        (Sample.challenged none)).1.response =
      (verifyRun Sample.ext .inOrder Sample.conf Sample.first.request [.served, .served]
        (Sample.challenged (some Sample.aheadRecord))).1.response ∧
    SameChallenges defaultKeyPrefix
      (verifyRun Sample.ext .inOrder Sample.conf Sample.first.request [.served, .served, .refused]
        (Sample.challenged none)).2
      (verifyRun Sample.ext .inOrder Sample.conf Sample.first.request [.served, .served]
        (Sample.challenged (some Sample.aheadRecord))).2 := by
  refine no_credential_oracle Sample.ext Sample.conf [ascii "https://example.com"]
    Sample.configured Sample.first.request .inOrder .inOrder (Sample.challenged none)
    (Sample.challenged (some Sample.aheadRecord)) (fun challenge => ?_) .served .served .served [.refused] []
    rfl (by decide +kernel) (by decide +kernel)
  have apart : challengeKey Sample.conf.redisKeyPrefix challenge ≠
      credentialRecordKey defaultKeyPrefix (ascii "AQ") := challengeKey_ne_record _ _
  simp only [Db.get, Sample.challenged, Db.write_other _ _ apart]
  rfl

end AuthWebauthn
