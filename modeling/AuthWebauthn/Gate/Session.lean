import AuthWebauthn.Gate.Headers
import AuthWebauthn.Verify.Escaping

namespace AuthWebauthn

open Process Redis

/-! The claims are put together as text at one location and read back claim by claim
at another.
-/

theorem stringSpells_jsonEscape {text : Bytes} (clean : Json.Clean text) :
    Json.StringSpells (jsonEscape text) text :=
  Json.stringSpells_flatMap jsonEscapeByte clean fun byte _ => (jsonEscapeByte_spelling byte).spells

theorem stringSpells_encode (data : Bytes) :
    Json.StringSpells (Base64url.encode data) (Base64url.encode data) :=
  Json.stringSpells_plain fun byte member => plain_of_urlSafe (Base64url.encode_urlSafe data byte member)

/-- Letters, digits, hyphens and dots. -/
def DomainName (text : Bytes) : Prop :=
  ∀ byte ∈ text, (Base64url.urlSafe byte = true ∧ byte ≠ 95) ∨ byte = 46

instance (text : Bytes) : Decidable (DomainName text) := List.decidableBAll _ text

theorem DomainName.spells {text : Bytes} (domain : DomainName text) : Json.StringSpells text text := by
  refine Json.stringSpells_plain fun byte member => ?_
  rcases domain byte member with ⟨safe, _⟩ | rfl
  · exact plain_of_urlSafe safe
  · decide

/-- A literal of the source in which nothing needs an escape. -/
theorem stringSpells_literal (text : Bytes) (all : text.all Json.plain = true) :
    Json.StringSpells text text :=
  Json.stringSpells_plain (List.all_eq_true.mp all)

def claimsMembers (claims : SessionClaims) : List (Bytes × Json.Value) :=
  [(ascii "iss", .string issuer), (ascii "aud", .string claims.aud), (ascii "sub", .string claims.sub),
    (ascii "cid", .string claims.cid), (ascii "iat", .integer claims.iat.toInt),
    (ascii "exp", .integer claims.exp.toInt), (ascii "jti", .string claims.jti)]

theorem claims_text_spells {claims : SessionClaims} (aud : Json.StringSpells claims.aud claims.aud)
    (sub : Json.Clean claims.sub) (cid : Json.StringSpells claims.cid claims.cid)
    (jti : Json.StringSpells claims.jti claims.jti) :
    Json.parse claims.text = some (.object (claimsMembers claims)) := by
  have members := Json.membersSpell_cons (stringSpells_literal (ascii "iss") (by decide))
    (Json.valueSpells_string (stringSpells_literal issuer (by decide))) <|
    Json.membersSpell_cons (stringSpells_literal (ascii "aud") (by decide))
    (Json.valueSpells_string aud) <|
    Json.membersSpell_cons (stringSpells_literal (ascii "sub") (by decide))
    (Json.valueSpells_string (stringSpells_jsonEscape sub)) <|
    Json.membersSpell_cons (stringSpells_literal (ascii "cid") (by decide))
    (Json.valueSpells_string cid) <|
    Json.membersSpell_cons (stringSpells_literal (ascii "iat") (by decide))
    (Json.valueSpells_integer claims.iat.toInt) <|
    Json.membersSpell_cons (stringSpells_literal (ascii "exp") (by decide))
    (Json.valueSpells_integer claims.exp.toInt) <|
    Json.membersSpell_one (stringSpells_literal (ascii "jti") (by decide))
    (Json.valueSpells_string jti)
  have parsed := Json.parse_of_spells (Json.valueSpells_object members rfl)
  have opening : ascii "\x7b\"iss\":\"nginx-webauthn\",\"aud\":\"" = 123 :: 34 :: (ascii "iss" ++
      34 :: 58 :: 34 :: (issuer ++ 34 :: 44 :: 34 :: (ascii "aud" ++ [34, 58, 34]))) := by decide
  have beforeSub : ascii "\",\"sub\":\"" = 34 :: 44 :: 34 :: (ascii "sub" ++ [34, 58, 34]) := by decide
  have beforeCid : ascii "\",\"cid\":\"" = 34 :: 44 :: 34 :: (ascii "cid" ++ [34, 58, 34]) := by decide
  have beforeIat : ascii "\",\"iat\":" = 34 :: 44 :: 34 :: (ascii "iat" ++ [34, 58]) := by decide
  have beforeExp : ascii ",\"exp\":" = 44 :: 34 :: (ascii "exp" ++ [34, 58]) := by decide
  have beforeJti : ascii ",\"jti\":\"" = 44 :: 34 :: (ascii "jti" ++ [34, 58, 34]) := by decide
  have closing : ascii "\"\x7d" = [34, 125] := by decide
  rw [SessionClaims.text, opening, beforeSub, beforeCid, beforeIat, beforeExp, beforeJti, closing]
  simpa only [claimsMembers, Json.member, List.append_assoc, List.cons_append, List.nil_append]
    using parsed

/-- A JWKS with one HMAC key. -/
def hmacJwks (alg secret : Bytes) : Json.Value :=
  .object [(ascii "keys", .array [.object [(ascii "kty", .string (ascii "oct")),
    (ascii "k", .string (Base64url.encode secret)), (ascii "alg", .string alg)]])]

theorem hmacJwksDoc_spells (conf : LocConf) :
    Json.parse (hmacJwksDoc conf) = some (hmacJwks conf.jwtAlg.name conf.jwtSecret) := by
  have name : Json.StringSpells conf.jwtAlg.name conf.jwtAlg.name := by
    cases conf.jwtAlg <;> exact stringSpells_literal _ (by decide)
  have key := Json.membersSpell_cons (stringSpells_literal (ascii "kty") (by decide))
    (Json.valueSpells_string (stringSpells_literal (ascii "oct") (by decide))) <|
    Json.membersSpell_cons (stringSpells_literal (ascii "k") (by decide))
    (Json.valueSpells_string (stringSpells_encode conf.jwtSecret)) <|
    Json.membersSpell_one (stringSpells_literal (ascii "alg") (by decide))
    (Json.valueSpells_string name)
  have keys := Json.membersSpell_one (stringSpells_literal (ascii "keys") (by decide))
    (Json.valueSpells_array (Json.itemsSpell_one (Json.valueSpells_object key rfl)) rfl
      (by decide : (123 : UInt8) ≠ 93))
  have parsed := Json.parse_of_spells (Json.valueSpells_object keys rfl)
  have opening : ascii "\x7b\"keys\":[\x7b\"kty\":\"oct\",\"k\":\"" = 123 :: 34 :: (ascii "keys" ++
      34 :: 58 :: 91 :: 123 :: 34 :: (ascii "kty" ++ 34 :: 58 :: 34 :: (ascii "oct" ++
        34 :: 44 :: 34 :: (ascii "k" ++ [34, 58, 34])))) := by decide
  have beforeAlg : ascii "\",\"alg\":\"" = 34 :: 44 :: 34 :: (ascii "alg" ++ [34, 58, 34]) := by decide
  have closing : ascii "\"\x7d]\x7d" = [34, 125, 93, 125] := by decide
  rw [hmacJwksDoc, opening, beforeAlg, closing]
  simpa only [hmacJwks, Json.member, List.append_assoc, List.cons_append, List.nil_append] using parsed

/-- A keyval document with one PEM key. -/
def keyvalKeys (pubPem : Bytes) : Json.Value := .object [(ascii "webauthn", .string pubPem)]

theorem keyvalDoc_spells {conf : LocConf} (clean : Json.Clean conf.jwtPubPem) :
    Json.parse (keyvalDoc conf) = some (keyvalKeys conf.jwtPubPem) := by
  have keys := Json.membersSpell_one (stringSpells_literal (ascii "webauthn") (by decide))
    (Json.valueSpells_string (stringSpells_jsonEscape clean))
  have parsed := Json.parse_of_spells (Json.valueSpells_object keys rfl)
  have opening : ascii "\x7b\"webauthn\":\"" = 123 :: 34 :: (ascii "webauthn" ++ [34, 58, 34]) := by
    decide
  have closing : ascii "\"\x7d" = [34, 125] := by decide
  rw [keyvalDoc, opening, closing]
  simpa only [keyvalKeys, Json.member, List.append_assoc, List.cons_append, List.nil_append]
    using parsed

def FitsInt64 (value : Int) : Prop := -9223372036854775808 ≤ value ∧ value ≤ 9223372036854775807

instance (value : Int) : Decidable (FitsInt64 value) := inferInstanceAs (Decidable (_ ∧ _))

theorem int64_add_iff {left right : Int64} :
    (left + right).toInt = left.toInt + right.toInt ↔ FitsInt64 (left.toInt + right.toInt) := by
  constructor
  · intro same
    rw [← same]
    exact ⟨Int64.le_toInt _, Int64.toInt_le _⟩
  · intro fits
    obtain ⟨lower, upper⟩ := fits
    rw [Int64.toInt_add]
    exact Int.bmod_eq_of_le (by omega) (by omega)

/-- What the module relies on: decoding undoes encoding, claims are read as JSON,
and a token verifies under the key it was signed with.  A public key is ASCII
text. -/
structure JwxConforms (ext : Externals) (derivePubPem : Bytes → Option Bytes) : Prop where
  decode : ∀ alg claims key jwt members, ext.jwxEncode alg claims key = some jwt →
    Json.parse claims = some (.object members) → (members.map Prod.fst).Nodup →
    ∃ token payload, ext.jwxDecode jwt = some token ∧ ext.tokenPayload token = some payload ∧
      (∀ name text, (name, .string text) ∈ members → ext.claimsGetString payload name = some text) ∧
      ∀ name value, (name, .integer value) ∈ members → FitsInt64 value →
        ext.claimsGetInteger payload name = some (Int64.ofInt value)
  hmac : ∀ (alg : JwtAlg) claims key jwt token doc, alg.family = .hmac →
    ext.jwxEncode alg.name claims key = some jwt → ext.jwxDecode jwt = some token →
    Json.parse doc = some (hmacJwks alg.name key) →
    ∃ jwks, ext.jwksParse doc = some jwks ∧ ext.jwsVerify token jwks = true
  asym : ∀ (alg : JwtAlg) claims key pubPem jwt token doc, alg.family = .asym →
    derivePubPem key = some pubPem →
    ext.jwxEncode alg.name claims key = some jwt → ext.jwxDecode jwt = some token →
    Json.parse doc = some (keyvalKeys pubPem) →
    ∃ jwks, ext.jwksParseKeyval doc = some jwks ∧ ext.jwsVerify token jwks = true
  pem : ∀ key pubPem, derivePubPem key = some pubPem → Json.Clean pubPem

variable {ext : Externals} {derivePubPem : Bytes → Option Bytes}

/-- The gate builds the key that the token was signed with. -/
theorem JwxConforms.jwks (conforms : JwxConforms ext derivePubPem) {gate : LocConf}
    (derived : gate.jwtAlg.family = .asym → derivePubPem gate.jwtSecret = some gate.jwtPubPem)
    {claims jwt : Bytes} {token : ext.Token}
    (signed : ext.jwxEncode gate.jwtAlg.name claims gate.jwtSecret = some jwt)
    (decoded : ext.jwxDecode jwt = some token) :
    ∃ jwks, buildJwks ext gate = some jwks ∧ ext.jwsVerify token jwks = true := by
  unfold buildJwks
  cases family : gate.jwtAlg.family with
  | hmac => exact conforms.hmac _ _ _ _ _ _ family signed decoded (hmacJwksDoc_spells gate)
  | asym =>
      have clean := conforms.pem _ _ (derived family)
      exact conforms.asym _ _ _ _ _ _ _ family (derived family) signed decoded (keyvalDoc_spells clean)

/-- What the gate gets back from a token: its own claims. -/
structure ReadsBack (ext : Externals) (claims : SessionClaims) (payload : ext.Json) : Prop where
  iss : ext.claimsGetString payload (ascii "iss") = some issuer
  aud : ext.claimsGetString payload (ascii "aud") = some claims.aud
  sub : ext.claimsGetString payload (ascii "sub") = some claims.sub
  cid : ext.claimsGetString payload (ascii "cid") = some claims.cid
  exp : ext.claimsGetInteger payload (ascii "exp") = some claims.exp

theorem JwxConforms.readsBack (conforms : JwxConforms ext derivePubPem) {claims : SessionClaims}
    {alg key jwt : Bytes} (signed : ext.jwxEncode alg claims.text key = some jwt)
    (parsed : Json.parse claims.text = some (.object (claimsMembers claims))) :
    ∃ token payload, ext.jwxDecode jwt = some token ∧ ext.tokenPayload token = some payload ∧
      ReadsBack ext claims payload := by
  have distinct : ((claimsMembers claims).map Prod.fst).Nodup := by
    simp only [claimsMembers, List.map_cons, List.map_nil]
    decide
  obtain ⟨token, payload, decoded, carries, strings, integers⟩ :=
    conforms.decode _ _ _ _ _ signed parsed distinct
  have fits : FitsInt64 claims.exp.toInt := ⟨Int64.le_toInt _, Int64.toInt_le _⟩
  have expires := integers (ascii "exp") claims.exp.toInt (by simp [claimsMembers]) fits
  rw [Int64.ofInt_toInt] at expires
  exact ⟨token, payload, decoded, carries, strings _ _ (by simp [claimsMembers]),
    strings _ _ (by simp [claimsMembers]), strings _ _ (by simp [claimsMembers]),
    strings _ _ (by simp [claimsMembers]), expires⟩

/-- An empty value is not found, and a value that is not found expands to nothing. -/
theorem webauthnVariable_userId (ctx : Ctx) :
    (webauthnVariable (some ctx) .userId).getD [] = ctx.userId := by
  cases empty : ctx.userId <;> simp [webauthnVariable, Option.filter, empty]

theorem webauthnVariable_credentialId (ctx : Ctx) :
    (webauthnVariable (some ctx) .credentialId).getD [] = ctx.credentialId := by
  cases empty : ctx.credentialId <;> simp [webauthnVariable, Option.filter, empty]

/-- The gate passes what it decodes on three conditions, of which a token minted
by the module always meets the issuer's. -/
theorem accessHandler_ok_iff {gate : LocConf} {visit : GateRequest} {claims : SessionClaims}
    {jwt : Bytes} {token : ext.Token} {payload : ext.Json} (enabled : gate.auth = true)
    (keyed : gate.jwtSecret ≠ []) (carried : visit.cookie gate.cookieName = some jwt)
    (decoded : ext.jwxDecode jwt = some token)
    (signed : ∃ jwks, buildJwks ext gate = some jwks ∧ ext.jwsVerify token jwks = true)
    (carries : ext.tokenPayload token = some payload) (back : ReadsBack ext claims payload) :
    ((accessHandler ext gate visit).1 = .ok ↔ claims.aud = gate.rpId ∧ visit.now < claims.exp) ∧
      ((accessHandler ext gate visit).1 = .ok →
        (accessHandler ext gate visit).2.ctx = some (ctxOf ext payload claims.exp)) := by
  have passes (same : claims.aud = gate.rpId) (fresh : visit.now < claims.exp) :
      Authenticated ext gate visit token payload claims.exp :=
    ⟨enabled, keyed, ⟨jwt, carried, decoded⟩, signed, carries, same ▸ back.aud, back.iss, back.exp, fresh⟩
  have stops (ok : (accessHandler ext gate visit).1 = .ok) :
      claims.aud = gate.rpId ∧ visit.now < claims.exp := by
    obtain ⟨token', payload', exp', passed⟩ := authenticated_of_ok ok
    obtain ⟨cookie, found, decoded'⟩ := passed.cookie
    obtain rfl := Option.some.inj (carried.symm.trans found)
    obtain rfl := Option.some.inj (decoded.symm.trans decoded')
    obtain rfl := Option.some.inj (carries.symm.trans passed.carries)
    obtain rfl := Option.some.inj (back.exp.symm.trans passed.expires)
    exact ⟨Option.some.inj (back.aud.symm.trans passed.audience), passed.fresh⟩
  refine ⟨⟨stops, fun ⟨same, fresh⟩ => ?_⟩, fun ok => ?_⟩
  · rw [(passes same fresh).accessHandler]
  · obtain ⟨same, fresh⟩ := stops ok
    rw [(passes same fresh).accessHandler]

/-- Two locations that share a key: the token of a login passes the gate exactly
for the same relying party and until it expires, and then names the user of the
record and the credential of the request. -/
theorem minted_token_accepted_iff (conforms : JwxConforms ext derivePubPem) {minting gate : LocConf}
    {request : VerifyRequest} {exchanges : List (Cmd × Option Reply)} {claims : SessionClaims}
    {jwt cookie body : Bytes}
    (minted : Prog.Talks (verifyDone ext minting request) exchanges (.done (.minted claims jwt cookie body)))
    {parsed : ParsedRequest} (taken : parseVerifyBody ext request.body = some parsed)
    {read : Option Reply} {cred : Credential}
    (loaded : (.hgetall (credentialRecordKey minting.redisKeyPrefix parsed.id), read) ∈ exchanges)
    (record : recordOfReply parsed.id read = .ok cred)
    (key : gate.jwtSecret = minting.jwtSecret) (alg : gate.jwtAlg = minting.jwtAlg)
    (derived : gate.jwtAlg.family = .asym → derivePubPem gate.jwtSecret = some gate.jwtPubPem)
    (enabled : gate.auth = true) (domain : DomainName minting.rpId)
    (user : Json.Clean cred.userId) (id : ∀ byte ∈ parsed.id, Base64url.urlSafe byte = true)
    (representable : FitsInt64 (request.now.toInt + minting.jwtTtl.toInt))
    {visit : GateRequest} (carried : visit.cookie gate.cookieName = some jwt) :
    ((accessHandler ext gate visit).1 = .ok ↔
        minting.rpId = gate.rpId ∧ visit.now.toInt < request.now.toInt + minting.jwtTtl.toInt) ∧
      ((accessHandler ext gate visit).1 = .ok →
        (webauthnVariable (accessHandler ext gate visit).2.ctx .userId).getD [] = cred.userId ∧
        (webauthnVariable (accessHandler ext gate visit).2.ctx .credentialId).getD [] = parsed.id) := by
  have keyed := verifyDone_keyed minted
  obtain ⟨origins, parsed', connected, consumed, read', written, cred', count, accepted, past,
    session⟩ := verifyDone_minted minted
  obtain rfl := Option.some.inj (taken.symm.trans accepted.taken)
  have same : read = read' := by
    subst past
    simpa [acceptedExchanges, counterUpdate] using loaded
  subst same
  obtain rfl := Except.ok.inj (record.symm.trans accepted.record)
  obtain ⟨drawn, _, rfl, signed, _, _⟩ := mintSession_minted session
  have cid : Json.StringSpells parsed.id parsed.id :=
    Json.stringSpells_plain fun byte member => plain_of_urlSafe (id byte member)
  obtain ⟨token, payload, decoded, carries, back⟩ := conforms.readsBack signed
    (claims_text_spells domain.spells user cid (stringSpells_encode drawn.toList))
  rw [← key, ← alg] at signed
  have verifies := conforms.jwks derived signed decoded
  obtain ⟨passes, context⟩ :=
    accessHandler_ok_iff enabled (key ▸ keyed) carried decoded verifies carries back
  have expiry := int64_add_iff.mpr representable
  refine ⟨?_, fun ok => ?_⟩
  · rw [passes, Int64.lt_iff_toInt_lt, ← expiry]
    rfl
  · rw [context ok, webauthnVariable_userId, webauthnVariable_credentialId]
    simp [ctxOf, back.sub, back.cid, sessionClaims]

/-- Distinct keys leave a lookup no choice. -/
theorem lookup_of_mem {name : Bytes} {value : Json.Value} {members : List (Bytes × Json.Value)}
    (distinct : (members.map Prod.fst).Nodup) (member : (name, value) ∈ members) :
    members.lookup name = some value := by
  obtain ⟨before, after, rfl⟩ := List.append_of_mem member
  refine List.lookup_eq_some_iff.mpr ⟨before, after, rfl, fun entry earlier => ?_⟩
  rw [List.map_append, List.map_cons] at distinct
  have apart := List.disjoint_of_nodup_append distinct (List.mem_map_of_mem earlier)
  rw [bne_iff_ne]
  intro same
  subst same
  exact apart List.mem_cons_self

theorem hmacKeyOf_hmacJwks (alg secret : Bytes) :
    hmacKeyOf (hmacJwks alg secret) = some (alg, Base64url.encode secret) := rfl

theorem Tables.conforms (tables : Tables) (distinct : (tables.tokens.map Prod.snd).Nodup) :
    JwxConforms tables.externals fun _ => none where
  decode alg claims key jwt members signed parsed keys := by
    simp only [Tables.externals] at signed
    split_ifs at signed
    obtain ⟨before, after, tokens, _⟩ := List.lookup_eq_some_iff.mp signed
    have found : tables.tokens.find? (fun token => token.2 = jwt) = some (claims, jwt) := by
      rw [List.find?_eq_some_iff_append]
      refine ⟨by simp, before, after, tokens, fun token earlier => ?_⟩
      rw [tokens, List.map_append, List.map_cons] at distinct
      have apart := List.disjoint_of_nodup_append distinct (List.mem_map_of_mem earlier)
      simpa using fun same : token.2 = jwt => apart (same ▸ List.mem_cons_self)
    refine ⟨claims, .object members, by simp [Tables.externals, found], parsed, ?_, ?_⟩
    · intro name text member
      simp [Tables.externals, jsonMember, lookup_of_mem keys member, jsonText]
    · intro name value member fits
      simp only [Tables.externals, jsonMember, lookup_of_mem keys member]
      exact if_pos fits
  hmac alg claims key jwt token doc _ signed _ parsed := by
    simp only [Tables.externals] at signed
    split_ifs at signed with own
    obtain ⟨sameAlg, sameKey⟩ := own
    refine ⟨(alg.name, Base64url.encode key), ?_, ?_⟩
    · simp only [Tables.externals, parsed, Option.bind_some]
      exact hmacKeyOf_hmacJwks alg.name key
    · simp [Tables.externals, sameAlg, sameKey]
  asym _ _ _ _ _ _ _ _ derived := by cases derived
  pem _ _ derived := by cases derived

theorem first_login_passes_gate :
    ((accessHandler Sample.ext Sample.conf (Sample.gateRequest [])).1 = .ok ↔
        Sample.conf.rpId = Sample.conf.rpId ∧
          (Sample.gateRequest []).now.toInt < Sample.first.request.now.toInt + Sample.conf.jwtTtl.toInt) ∧
      ((accessHandler Sample.ext Sample.conf (Sample.gateRequest [])).1 = .ok →
        (webauthnVariable (accessHandler Sample.ext Sample.conf (Sample.gateRequest [])).2.ctx
            .userId).getD [] = ascii "alice" ∧
        (webauthnVariable (accessHandler Sample.ext Sample.conf (Sample.gateRequest [])).2.ctx
            .credentialId).getD [] = ascii "AQ") := by
  have job : Sample.whole.jobs (.turn (.answer .first)) = .verify Sample.conf Sample.first.request := rfl
  have minted := Sample.whole.minted_talks job Sample.firstLogin_minted
  obtain ⟨origins, parsed, connected, consumed, read, written, cred, count, accepted, past, session⟩ :=
    verifyDone_minted minted
  obtain ⟨drawn, _, same, _⟩ := mintSession_minted session
  have user : cred.userId = ascii "alice" := congrArg SessionClaims.sub same.symm
  have id : parsed.id = ascii "AQ" := congrArg SessionClaims.cid same.symm
  have loaded : (.hgetall (credentialRecordKey Sample.conf.redisKeyPrefix parsed.id), read) ∈
      (Sample.whole.run Sample.ext .inOrder Db.empty Sample.firstLogin).exchanges (.turn (.answer .first)) := by
    rw [past]
    simp [acceptedExchanges]
  have carried : (Sample.gateRequest []).cookie Sample.conf.cookieName = some Sample.jwt := by
    simp [Sample.gateRequest, Sample.conf]
  have conforms : JwxConforms Sample.ext fun _ => none := Sample.tables.conforms (List.nodup_singleton _)
  have passes := minted_token_accepted_iff conforms minted accepted.taken loaded accepted.record
    rfl rfl nofun rfl (by decide) (by rw [user]; decide)
    (id ▸ List.all_eq_true.mp (by decide : (ascii "AQ").all Base64url.urlSafe = true)) (by decide) carried
  rw [user, id] at passes
  exact passes

end AuthWebauthn
