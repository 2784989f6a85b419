import AuthWebauthn.ChallengeHandler
import AuthWebauthn.Gate.Session

namespace AuthWebauthn

open Process Redis

section

variable {ext : Externals} {conf : LocConf} {request : ChallengeRequest}
variable {exchanges : List (Cmd × Option Reply)}

/-- The exchanges in which the ids of a user were read, and the ids. -/
inductive Listed (ext : Externals) (conf : LocConf) :
    Option Bytes → List (Cmd × Option Reply) → List Bytes → Prop where
  | absent : Listed ext conf none [] []
  | empty : Listed ext conf (some []) [] []
  | user {userId : Bytes} {reply : Option Reply} {ids : List Bytes} (named : userId ≠ [])
      (read : smembersReply reply = some ids) :
      Listed ext conf (some userId)
        [(.smembers (credentialIndexKey conf.redisKeyPrefix (ext.unescapeUri userId)), reply)] ids

theorem listedCredentials_talks {userId : Option Bytes} {ids : List Bytes}
    (listed : Prog.Talks (listedCredentials ext conf userId) exchanges (.done (some ids))) :
    Listed ext conf userId exchanges ids := by
  unfold listedCredentials at listed
  split at listed
  · obtain ⟨rfl, same⟩ := listed.done_nil
    cases same
    exact .absent
  · obtain ⟨rfl, same⟩ := listed.done_nil
    cases same
    exact .empty
  · rename_i userId named
    rcases listed.call_cases with ⟨_, stuck⟩ | ⟨reply, later, rfl, tail⟩
    · cases stuck
    · obtain ⟨rfl, same⟩ := tail.done_nil
      exact .user named (Prog.done.inj same).symm

theorem Listed.talks {userId : Option Bytes} {ids : List Bytes}
    (listed : Listed ext conf userId exchanges ids) :
    Prog.Talks (listedCredentials ext conf userId) exchanges (.done (some ids)) := by
  cases listed with
  | absent => exact .nil _
  | empty => exact .nil _
  | user named read =>
      rename_i userId reply
      cases userId with
      | nil => exact (named rfl).elim
      | cons byte rest =>
          rw [← read]
          exact .cons (.nil _)

/-- The handler multiplies without a check of its own; the guard of the issue is
enough for it. -/
theorem TtlAccepted.timeout {ttl : Int64} (accepted : TtlAccepted ttl) :
    (ttl * 1000).toInt = 1000 * ttl.toInt := by
  obtain ⟨lower, upper⟩ := ttlAccepted_iff.mp accepted
  have factor : (1000 : Int64).toInt = 1000 := by decide
  rw [Int64.toInt_mul, factor, Int.mul_comm]
  exact Int.bmod_eq_of_le (by omega) (by omega)

theorem challengeIssue_talks {ttl : Int64} {random : Option (Vector UInt8 challengeLength)}
    {challenge : Vector UInt8 challengeLength} {keyPrefix : Bytes}
    (issued : Prog.Talks (challengeIssue keyPrefix ttl random) exchanges (.done (some challenge))) :
    random = some challenge ∧ TtlAccepted ttl ∧ ∃ stored, rcOfReply stored = .ok ∧
      exchanges = [(.setEx (challengeKey keyPrefix challenge.toList) (ascii "1") ttl.toInt.toNat, stored)] := by
  by_cases accepted : TtlAccepted ttl
  · cases random with
    | none =>
        simp only [challengeIssue, if_neg accepted] at issued
        cases issued.done_nil.2
    | some drawn =>
        rw [challengeIssue_eq accepted] at issued
        rcases issued.call_cases with ⟨_, stuck⟩ | ⟨stored, later, rfl, tail⟩
        · cases stuck
        · split_ifs at tail with failed
          · cases tail.done_nil.2
          · obtain ⟨rfl, same⟩ := tail.done_nil
            cases same
            exact ⟨rfl, accepted, stored, not_not.mp failed, rfl⟩
  · simp only [challengeIssue, if_pos (not_not.mp accepted)] at issued
    cases issued.done_nil.2

/-- What a run of the challenge handler that ended in 200 has done: the challenge it drew
was stored for the configured TTL, and the body lists what was read last. -/
structure Issued (ext : Externals) (conf : LocConf) (request : ChallengeRequest)
    (exchanges : List (Cmd × Option Reply)) (challenge : Vector UInt8 challengeLength)
    (ids : List Bytes) (body : Bytes) : Prop where
  drawn : request.random = some challenge
  accepted : TtlAccepted conf.challengeTtl
  exchanged : ∃ before stored listed, rcOfReply stored = .ok ∧ Listed ext conf request.userId listed ids ∧
    exchanges = before ++ (.setEx (challengeKey conf.redisKeyPrefix challenge.toList) (ascii "1")
      conf.challengeTtl.toInt.toNat, stored) :: listed
  written : body = challengeBody conf challenge.toList ids

theorem challengeContent_issued {challenge : Vector UInt8 challengeLength} {body : Bytes}
    (issued : Prog.Talks (challengeContent ext conf request) exchanges (.done (.issued challenge body))) :
    ∃ ids, Issued ext conf request exchanges challenge ids body := by
  unfold challengeContent at issued
  split_ifs at issued with unset
  · cases issued.done_nil.2
  obtain ⟨connecting, _, connected, rfl, _, limitStage⟩ := issued.of_bind
  split_ifs at limitStage with refused
  · cases limitStage.done_nil.2
  obtain ⟨limiting, _, passed, rfl, _, issueStage⟩ := limitStage.of_bind
  split_ifs at issueStage with limited
  · cases issueStage.done_nil.2
  obtain ⟨storing, _, drawn, rfl, stored, listStage⟩ := issueStage.of_bind
  cases drawn with
  | none => cases listStage.done_nil.2
  | some drawn =>
      obtain ⟨random, accepted, reply, kept, rfl⟩ := challengeIssue_talks stored
      obtain ⟨listing, rest, found, rfl, listed, answerStage⟩ := listStage.of_bind
      cases found with
      | none => cases answerStage.done_nil.2
      | some ids =>
          obtain ⟨rfl, same⟩ := answerStage.done_nil
          cases same
          refine ⟨ids, random, accepted, ⟨connecting ++ limiting, reply, listing, kept,
            listedCredentials_talks listed, ?_⟩, rfl⟩
          simp only [List.append_assoc, List.append_nil, List.cons_append, List.nil_append]

theorem rateLimit_passes (conf : LocConf) (addrText : Bytes) :
    ∃ limiting, Prog.Talks (rateLimit conf addrText) limiting (.done true) := by
  by_cases unlimited : conf.rateLimitMax = 0
  · refine ⟨[], ?_⟩
    unfold rateLimit
    rw [if_pos unlimited]
    exact .nil _
  · rw [rateLimit_eq unlimited]
    exact ⟨[(_, none)], .cons (.nil _)⟩

/-- Any listing can be answered: Redis takes the challenge, and the limit does not
stop the request. -/
theorem challengeContent_answers (named : conf.rpId ≠ []) (hosted : conf.redisHost ≠ [])
    (accepted : TtlAccepted conf.challengeTtl) {challenge : Vector UInt8 challengeLength}
    (drawn : request.random = some challenge) {listed : List (Cmd × Option Reply)} {ids : List Bytes}
    (listing : Listed ext conf request.userId listed ids) :
    ∃ exchanges, Prog.Talks (challengeContent ext conf request) exchanges
      (.done (.issued challenge (challengeBody conf challenge.toList ids))) := by
  have connecting : Prog.Talks (redisConnect conf.redisHost) [(.connect, some .status)] (.done .ok) := by
    unfold redisConnect
    rw [if_neg hosted]
    exact .cons (.nil _)
  obtain ⟨limiting, limited⟩ := rateLimit_passes conf request.addrText
  have storing : Prog.Talks (challengeIssue conf.redisKeyPrefix conf.challengeTtl request.random)
      [(.setEx (challengeKey conf.redisKeyPrefix challenge.toList) (ascii "1")
        conf.challengeTtl.toInt.toNat, some .status)] (.done (some challenge)) := by
    rw [drawn, challengeIssue_eq accepted]
    exact .cons (.nil _)
  unfold challengeContent
  rw [if_neg (by simp [named, hosted])]
  exact ⟨_, connecting.bind (limited.bind (storing.bind (listing.talks.bind (.nil _))))⟩

end

def allowedCredential (id : Bytes) : Json.Value :=
  .object [(ascii "type", .string (ascii "public-key")), (ascii "id", .string id)]

/-- The body is one JSON object that carries the challenge, the timeout and exactly
these ids. -/
def ListsIndex (conf : LocConf) (challenge : Bytes) (ids : List Bytes) (body : Bytes) : Prop :=
  ∃ text, Base64url.decode text = some challenge ∧
    Json.parse body = some (.object [(ascii "challenge", .string text), (ascii "rpId", .string conf.rpId),
      (ascii "timeout", .integer (1000 * conf.challengeTtl.toInt)),
      (ascii "userVerification", .string (uvName conf.userVerification)),
      (ascii "allowCredentials", .array (ids.map allowedCredential))])

theorem allowCredential_spells {id : Bytes} (safe : ∀ byte ∈ id, Base64url.urlSafe byte = true) :
    Json.ValueSpells (allowCredential id) (allowedCredential id) := by
  have plain : Json.StringSpells id id :=
    Json.stringSpells_plain fun byte member => plain_of_urlSafe (safe byte member)
  have members := Json.membersSpell_cons (stringSpells_literal (ascii "type") (by decide))
    (Json.valueSpells_string (stringSpells_literal (ascii "public-key") (by decide))) <|
    Json.membersSpell_one (stringSpells_literal (ascii "id") (by decide)) (Json.valueSpells_string plain)
  have spelled := Json.valueSpells_object members rfl
  have opening : ascii "\x7b\"type\":\"public-key\",\"id\":\"" = 123 :: 34 :: (ascii "type" ++
      34 :: 58 :: 34 :: (ascii "public-key" ++ 34 :: 44 :: 34 :: (ascii "id" ++ [34, 58, 34]))) := by
    decide
  have closing : ascii "\"\x7d" = [34, 125] := by decide
  rw [allowCredential, opening, closing]
  simpa only [allowedCredential, Json.member, List.append_assoc, List.cons_append, List.nil_append]
    using spelled

theorem allowCredentials_cons (id next : Bytes) (rest : List Bytes) :
    allowCredentials (id :: next :: rest) =
      allowCredential id ++ 44 :: allowCredentials (next :: rest) := by
  have comma : ascii "," = [44] := by decide
  simp only [allowCredentials, comma, List.flatMap_cons, List.cons_append, List.nil_append]

theorem allowCredentials_spell {id : Bytes} {rest : List Bytes}
    (safe : ∀ listed ∈ id :: rest, ∀ byte ∈ listed, Base64url.urlSafe byte = true) :
    Json.ItemsSpell (allowCredentials (id :: rest)) ((id :: rest).map allowedCredential) := by
  have first := allowCredential_spells (safe id (List.mem_cons_self ..))
  induction rest generalizing id with
  | nil =>
      have one := Json.itemsSpell_one first
      simpa only [allowCredentials, List.flatMap_nil, List.append_nil, List.map_cons, List.map_nil] using one
  | cons next rest ih =>
      have later : ∀ listed ∈ next :: rest, ∀ byte ∈ listed, Base64url.urlSafe byte = true :=
        fun listed member => safe listed (List.mem_cons_of_mem _ member)
      rw [allowCredentials_cons]
      exact Json.itemsSpell_cons first (ih later (allowCredential_spells (later next (List.mem_cons_self ..))))

theorem allowCredentials_array {ids : List Bytes}
    (safe : ∀ listed ∈ ids, ∀ byte ∈ listed, Base64url.urlSafe byte = true) :
    Json.ValueSpells (91 :: allowCredentials ids ++ [93]) (.array (ids.map allowedCredential)) := by
  cases ids with
  | nil => exact Json.valueSpells_nil
  | cons id rest => exact Json.valueSpells_array (allowCredentials_spell safe) rfl (by decide : (123 : UInt8) ≠ 93)

theorem challengeBody_spells {conf : LocConf} (domain : DomainName conf.rpId)
    (accepted : TtlAccepted conf.challengeTtl) (challenge : Bytes) {ids : List Bytes}
    (safe : ∀ listed ∈ ids, ∀ byte ∈ listed, Base64url.urlSafe byte = true) :
    ListsIndex conf challenge ids (challengeBody conf challenge ids) := by
  refine ⟨Base64url.encode challenge, Base64url.decode_encode challenge, ?_⟩
  have policy : Json.StringSpells (uvName conf.userVerification) (uvName conf.userVerification) := by
    cases conf.userVerification <;> exact stringSpells_literal _ (by decide)
  have members := Json.membersSpell_cons (stringSpells_literal (ascii "challenge") (by decide))
    (Json.valueSpells_string (stringSpells_encode challenge)) <|
    Json.membersSpell_cons (stringSpells_literal (ascii "rpId") (by decide))
    (Json.valueSpells_string domain.spells) <|
    Json.membersSpell_cons (stringSpells_literal (ascii "timeout") (by decide))
    (Json.valueSpells_integer (1000 * conf.challengeTtl.toInt)) <|
    Json.membersSpell_cons (stringSpells_literal (ascii "userVerification") (by decide))
    (Json.valueSpells_string policy) <|
    Json.membersSpell_one (stringSpells_literal (ascii "allowCredentials") (by decide))
    (allowCredentials_array safe)
  have parsed := Json.parse_of_spells (Json.valueSpells_object members rfl)
  have opening : ascii "\x7b\"challenge\":\"" = 123 :: 34 :: (ascii "challenge" ++ [34, 58, 34]) := by
    decide
  have beforeRpId : ascii "\",\"rpId\":\"" = 34 :: 44 :: 34 :: (ascii "rpId" ++ [34, 58, 34]) := by decide
  have beforeTimeout : ascii "\",\"timeout\":" = 34 :: 44 :: 34 :: (ascii "timeout" ++ [34, 58]) := by
    decide
  have beforePolicy : ascii ",\"userVerification\":\"" =
      44 :: 34 :: (ascii "userVerification" ++ [34, 58, 34]) := by decide
  have beforeIds : ascii "\",\"allowCredentials\":[" =
      34 :: 44 :: 34 :: (ascii "allowCredentials" ++ [34, 58, 91]) := by decide
  have closing : ascii "]\x7d" = [93, 125] := by decide
  rw [challengeBody, accepted.timeout, opening, beforeRpId, beforeTimeout, beforePolicy, beforeIds, closing]
  simpa only [Json.member, List.append_assoc, List.cons_append, List.nil_append] using parsed

/-- Every response lists exactly the ids that Redis returned for the user, and every
list of ids can be returned. -/
theorem response_lists_index {ext : Externals} {conf : LocConf} (domain : DomainName conf.rpId)
    (named : conf.rpId ≠ []) (hosted : conf.redisHost ≠ []) (accepted : TtlAccepted conf.challengeTtl) :
    (∀ request exchanges challenge body,
      Prog.Talks (challengeContent ext conf request) exchanges (.done (.issued challenge body)) →
      ∃ ids, Issued ext conf request exchanges challenge ids body ∧
        ((∀ id ∈ ids, ∀ byte ∈ id, Base64url.urlSafe byte = true) →
          ListsIndex conf challenge.toList ids body)) ∧
    ∀ (request : ChallengeRequest) challenge listed ids, request.random = some challenge →
      Listed ext conf request.userId listed ids →
      (∀ id ∈ ids, ∀ byte ∈ id, Base64url.urlSafe byte = true) →
      ∃ exchanges body,
        Prog.Talks (challengeContent ext conf request) exchanges (.done (.issued challenge body)) ∧
        ListsIndex conf challenge.toList ids body := by
  constructor
  · intro request exchanges challenge body issued
    obtain ⟨ids, run⟩ := challengeContent_issued issued
    refine ⟨ids, run, fun safe => ?_⟩
    rw [run.written]
    exact challengeBody_spells domain accepted challenge.toList safe
  · intro request challenge listed ids drawn listing safe
    obtain ⟨exchanges, issued⟩ := challengeContent_answers named hosted accepted drawn listing
    exact ⟨exchanges, _, issued, challengeBody_spells domain accepted challenge.toList safe⟩

namespace Sample

/-- A request for the challenge of a named user. -/
def asking : ChallengeRequest where
  addrText := ascii "192.0.2.1"
  userId := some (ascii "alice")
  random := some (Vector.replicate 32 1)

/-- Two ids are listed with a comma between them. -/
theorem two_ids_listed :
    ∃ exchanges body,
      Prog.Talks (challengeContent ext conf asking) exchanges
        (.done (.issued (Vector.replicate 32 1) body)) ∧
      ListsIndex conf (List.replicate 32 1) [ascii "AQ", ascii "Ag"] body := by
  have all : ([ascii "AQ", ascii "Ag"].all fun id => id.all Base64url.urlSafe) = true := by decide
  exact (@response_lists_index ext conf (by decide) (by decide) (by decide) (by decide)).2
    asking (Vector.replicate 32 1)
    [(.smembers (credentialIndexKey defaultKeyPrefix (ascii "alice")),
      some (.array [.str (ascii "AQ"), .str (ascii "Ag")]))]
    [ascii "AQ", ascii "Ag"] rfl (.user (by decide) rfl)
    (fun id member => List.all_eq_true.mp (List.all_eq_true.mp all id member))

end Sample

end AuthWebauthn
