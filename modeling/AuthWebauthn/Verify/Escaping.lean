import AuthWebauthn.Data.JsonTokens
import AuthWebauthn.Verify.Handler

namespace AuthWebauthn

open Json (Token Scan scan tokens tokensFrom)

theorem jsonEscapeByte_spelling (byte : UInt8) : Json.Spelling byte (jsonEscapeByte byte) := by
  unfold jsonEscapeByte
  split_ifs with quote backslash newline return_ tab control
  · exact .short (by rw [quote]; decide)
  · exact .short (by rw [backslash]; decide)
  · exact .short (by rw [newline]; decide)
  · exact .short (by rw [return_]; decide)
  · exact .short (by rw [tab]; decide)
  · have codes : ∀ code : Fin 32, Json.unicodeEscape 48 48
        (hexDigit ((UInt8.ofNat code >>> 4) &&& 0xf)) (hexDigit (UInt8.ofNat code &&& 0xf)) =
          some (UInt8.ofNat code) := by decide
    have small : byte.toNat < 32 := UInt8.lt_iff_toNat_lt.mp control
    have escape := codes ⟨byte.toNat, small⟩
    rw [UInt8.ofNat_toNat] at escape
    exact .unicode escape
  · exact .self quote backslash (UInt8.not_lt.mp control)

theorem scan_jsonEscape (text : Bytes) :
    scan (.string []) (jsonEscape text) = some (.string text, []) :=
  Json.scan_flatMap jsonEscapeByte (fun byte _ => jsonEscapeByte_spelling byte) []

theorem successBody_pieces (claims : SessionClaims) :
    successBody claims = ascii "\x7b\"ok\":true,\"user_id\":" ++ 34 :: (jsonEscape claims.sub ++ 34 ::
      (ascii ",\"exp\":" ++ (Decimal.ofInt claims.exp.toInt ++ [125]))) := by
  have opened : ascii "\x7b\"ok\":true,\"user_id\":\"" = ascii "\x7b\"ok\":true,\"user_id\":" ++ [34] := by decide
  have closed : ascii "\",\"exp\":" = 34 :: ascii ",\"exp\":" := by decide
  have brace : ascii "\x7d" = [125] := by decide
  rw [successBody, opened, closed, brace]
  simp only [List.append_assoc, List.cons_append, List.nil_append]

def successTokens (claims : SessionClaims) : List Token :=
  [.mark .braceOpen, .string (ascii "ok"), .mark .colon, .word (ascii "true"), .mark .comma,
    .string (ascii "user_id"), .mark .colon, .string claims.sub, .mark .comma,
    .string (ascii "exp"), .mark .colon, .word (Decimal.ofInt claims.exp.toInt), .mark .braceClose]

theorem tokens_successBody (claims : SessionClaims) : tokens (successBody claims) = some (successTokens claims) := by
  have opened : scan .between (ascii "\x7b\"ok\":true,\"user_id\":") = some (.between,
      [.mark .braceOpen, .string (ascii "ok"), .mark .colon, .word (ascii "true"), .mark .comma,
        .string (ascii "user_id"), .mark .colon]) := by decide
  have named : scan .between (ascii ",\"exp\":") = some (.between,
      [.mark .comma, .string (ascii "exp"), .mark .colon]) := by decide
  rw [successBody_pieces, tokens, Json.tokensFrom_append opened,
    Json.tokensFrom_string (scan_jsonEscape claims.sub), Json.tokensFrom_append named,
    Json.tokensFrom_ofInt _ (by decide)]
  rfl

def SessionClaims.beforeSub (claims : SessionClaims) : Bytes :=
  ascii "\x7b\"iss\":\"nginx-webauthn\",\"aud\":\"" ++ claims.aud

/-- What follows the quote that closes `sub`. -/
def SessionClaims.afterSub (claims : SessionClaims) : Bytes :=
  ascii ",\"cid\":" ++ 34 :: (claims.cid ++ 34 :: (ascii ",\"iat\":" ++ (Decimal.ofInt claims.iat.toInt ++
    44 :: (ascii "\"exp\":" ++ (Decimal.ofInt claims.exp.toInt ++ 44 :: (ascii "\"jti\":" ++
      34 :: (claims.jti ++ 34 :: [125])))))))

theorem SessionClaims.text_pieces (claims : SessionClaims) :
    claims.text = claims.beforeSub ++ (ascii "\",\"sub\":\"" ++ (jsonEscape claims.sub ++
      34 :: claims.afterSub)) := by
  have beforeCid : ascii "\",\"cid\":\"" = 34 :: (ascii ",\"cid\":" ++ [34]) := by decide
  have beforeIat : ascii "\",\"iat\":" = 34 :: ascii ",\"iat\":" := by decide
  have beforeExp : ascii ",\"exp\":" = 44 :: ascii "\"exp\":" := by decide
  have beforeJti : ascii ",\"jti\":\"" = 44 :: (ascii "\"jti\":" ++ [34]) := by decide
  have closing : ascii "\"\x7d" = [34, 125] := by decide
  rw [SessionClaims.text, beforeCid, beforeIat, beforeExp, beforeJti, closing]
  simp only [SessionClaims.beforeSub, SessionClaims.afterSub, List.append_assoc, List.cons_append,
    List.nil_append]

theorem subLiteral : ascii "\",\"sub\":\"" = [34, 44, 34, 115, 117, 98, 34, 58, 34] := by decide

/-- The text between `aud` and `sub` closes a string, or it cannot be read at all: `sub` is
no word. -/
theorem scan_subLiteral (state : Scan) :
    scan state (ascii "\",\"sub\":\"") = none ∨
      ∃ read, scan state (ascii "\",\"sub\":\"") = some (.string [],
        [.string read, .mark .comma, .string (ascii "sub"), .mark .colon]) := by
  have bare : scan .between [115, 117, 98, 34, 58, 34] = none := by decide
  have comma : ∀ read, scan (.string read) [44, 34, 115, 117, 98, 34, 58, 34] = none := by
    intro read
    rw [Json.scan_cons rfl, Json.scan_cons rfl, bare]
    rfl
  rw [subLiteral]
  cases state with
  | between =>
      left
      have opened : Json.step .between 34 = some (.string [], []) := by decide
      rw [Json.scan_cons opened, comma]
      rfl
  | word read =>
      left
      cases whole : Json.isWord read with
      | false =>
          have stuck : Json.step (.word read) 34 = none := by
            rw [Json.step, whole]
            rfl
          rw [scan, stuck]
          rfl
      | true =>
          have opened : Json.step (.word read) 34 = some (.string [], [.word read]) := by
            rw [Json.step, whole]
            rfl
          rw [Json.scan_cons opened, comma]
          rfl
  | string read =>
      right
      have named : scan .between [44, 34, 115, 117, 98, 34, 58, 34] = some (.string [],
          [.mark .comma, .string (ascii "sub"), .mark .colon]) := by decide
      refine ⟨read, ?_⟩
      rw [Json.scan_cons rfl, named]
      rfl
  | escape read =>
      left
      rw [Json.scan_cons rfl, comma]
      rfl
  | unicode read high digits code => exact .inl rfl
  | surrogate read high => exact .inl rfl
  | surrogateEscape read high => exact .inl rfl

/-- The tokens around the value of `sub` do not depend on it. -/
theorem tokens_text_around (claims : SessionClaims) :
    ∃ around : Option (List Token × List Token), ∀ userId : Bytes,
      tokens { claims with sub := userId }.text = around.map fun parts =>
        parts.1 ++ .string (ascii "sub") :: .mark .colon :: .string userId :: parts.2 := by
  have pieces : ∀ userId : Bytes, { claims with sub := userId }.text = claims.beforeSub ++
      (ascii "\",\"sub\":\"" ++ (jsonEscape userId ++ 34 :: claims.afterSub)) :=
    fun userId => SessionClaims.text_pieces { claims with sub := userId }
  cases front : scan .between claims.beforeSub with
  | none =>
      refine ⟨none, fun userId => ?_⟩
      rw [pieces, tokens, Json.tokensFrom_append_none front, Option.map_none]
  | some reached =>
      rcases scan_subLiteral reached.1 with unread | ⟨aud, named⟩
      · refine ⟨none, fun userId => ?_⟩
        rw [pieces, tokens, Json.tokensFrom_append front, Json.tokensFrom_append_none unread,
          Option.map_none, Option.map_none]
      · refine ⟨(tokensFrom .between claims.afterSub).map fun later =>
          (reached.2 ++ [.string aud, .mark .comma], later), fun userId => ?_⟩
        rw [pieces, tokens, Json.tokensFrom_append front, Json.tokensFrom_append named,
          Json.tokensFrom_append (scan_jsonEscape userId), Json.tokensFrom_close]
        simp [Function.comp_def]

def claimsTokens (claims : SessionClaims) : List Token :=
  [.mark .braceOpen, .string (ascii "iss"), .mark .colon, .string (ascii "nginx-webauthn"), .mark .comma,
    .string (ascii "aud"), .mark .colon, .string claims.aud, .mark .comma,
    .string (ascii "sub"), .mark .colon, .string claims.sub, .mark .comma,
    .string (ascii "cid"), .mark .colon, .string claims.cid, .mark .comma,
    .string (ascii "iat"), .mark .colon, .word (Decimal.ofInt claims.iat.toInt), .mark .comma,
    .string (ascii "exp"), .mark .colon, .word (Decimal.ofInt claims.exp.toInt), .mark .comma,
    .string (ascii "jti"), .mark .colon, .string claims.jti, .mark .braceClose]

theorem tokens_afterSub {claims : SessionClaims} (cid : ∀ byte ∈ claims.cid, Json.verbatim byte = true)
    (jti : ∀ byte ∈ claims.jti, Json.verbatim byte = true) :
    tokensFrom .between claims.afterSub = some ((claimsTokens claims).drop 12) := by
  have cidNamed : scan .between (ascii ",\"cid\":") =
      some (.between, [.mark .comma, .string (ascii "cid"), .mark .colon]) := by decide
  have iatNamed : scan .between (ascii ",\"iat\":") =
      some (.between, [.mark .comma, .string (ascii "iat"), .mark .colon]) := by decide
  have expNamed : scan .between (44 :: ascii "\"exp\":") =
      some (.between, [.mark .comma, .string (ascii "exp"), .mark .colon]) := by decide
  have jtiNamed : scan .between (44 :: ascii "\"jti\":") =
      some (.between, [.mark .comma, .string (ascii "jti"), .mark .colon]) := by decide
  rw [SessionClaims.afterSub, Json.tokensFrom_append cidNamed, Json.tokensFrom_string (Json.scan_verbatim cid []),
    Json.tokensFrom_append iatNamed, Json.tokensFrom_ofInt _ (by decide), ← List.cons_append,
    Json.tokensFrom_append expNamed, Json.tokensFrom_ofInt _ (by decide), ← List.cons_append,
    Json.tokensFrom_append jtiNamed, Json.tokensFrom_string (Json.scan_verbatim jti [])]
  rfl

theorem tokens_text {claims : SessionClaims} (aud : ∀ byte ∈ claims.aud, Json.verbatim byte = true)
    (cid : ∀ byte ∈ claims.cid, Json.verbatim byte = true)
    (jti : ∀ byte ∈ claims.jti, Json.verbatim byte = true) :
    tokens claims.text = some (claimsTokens claims) := by
  have opened : scan .between (ascii "\x7b\"iss\":\"nginx-webauthn\",\"aud\":") = some (.between,
      [.mark .braceOpen, .string (ascii "iss"), .mark .colon, .string (ascii "nginx-webauthn"), .mark .comma,
        .string (ascii "aud"), .mark .colon]) := by decide
  have subNamed : scan .between (ascii ",\"sub\":") =
      some (.between, [.mark .comma, .string (ascii "sub"), .mark .colon]) := by decide
  have whole : claims.text = ascii "\x7b\"iss\":\"nginx-webauthn\",\"aud\":" ++ 34 :: (claims.aud ++ 34 ::
      (ascii ",\"sub\":" ++ 34 :: (jsonEscape claims.sub ++ 34 :: claims.afterSub))) := by
    have opening : ascii "\x7b\"iss\":\"nginx-webauthn\",\"aud\":\"" =
      ascii "\x7b\"iss\":\"nginx-webauthn\",\"aud\":" ++ [34] := by decide
    have beforeSub : ascii "\",\"sub\":\"" = 34 :: (ascii ",\"sub\":" ++ [34]) := by decide
    rw [SessionClaims.text_pieces, SessionClaims.beforeSub, opening, beforeSub]
    simp only [List.append_assoc, List.cons_append, List.nil_append]
  rw [whole, tokens, Json.tokensFrom_append opened, Json.tokensFrom_string (Json.scan_verbatim aud []),
    Json.tokensFrom_append subNamed, Json.tokensFrom_string (scan_jsonEscape claims.sub),
    tokens_afterSub cid jti]
  rfl

def claimsObject (claims : SessionClaims) : List (Bytes × Token) :=
  [(ascii "iss", .string (ascii "nginx-webauthn")), (ascii "aud", .string claims.aud),
    (ascii "sub", .string claims.sub), (ascii "cid", .string claims.cid),
    (ascii "iat", .word (Decimal.ofInt claims.iat.toInt)),
    (ascii "exp", .word (Decimal.ofInt claims.exp.toInt)), (ascii "jti", .string claims.jti)]

theorem plain_of_urlSafe {byte : UInt8} (safe : Base64url.urlSafe byte = true) :
    Json.plain byte = true := by
  have all : ∀ byte, Base64url.urlSafe byte = true → Json.plain byte = true :=
    Base64url.forall_byte (by decide +kernel)
  exact all byte safe

theorem verbatim_encode (data : Bytes) :
    ∀ byte ∈ Base64url.encode data, Json.verbatim byte = true := by
  intro byte member
  exact Json.verbatim_of_plain (plain_of_urlSafe (Base64url.encode_urlSafe data byte member))

/-- An escaped string is read as what it was, up to the quote behind it, and that quote is
the first unescaped one.  So the success body has its three members for every user id; in
the claims, the user id is the value of `sub` among tokens that do not depend on it; and
these are the seven members if the relying party id and the credential id need no escapes. -/
theorem jsonEscape_roundTrip :
    (∀ text rest : Bytes, Json.readString (jsonEscape text ++ 34 :: rest) = some (text, rest) ∧
      Json.untilQuote (jsonEscape text ++ 34 :: rest) = some (jsonEscape text, rest)) ∧
    (∀ claims : SessionClaims, Json.object (successBody claims) =
      some [(ascii "ok", .word (ascii "true")), (ascii "user_id", .string claims.sub),
        (ascii "exp", .word (Decimal.ofInt claims.exp.toInt))]) ∧
    (∀ claims : SessionClaims, ∃ around : Option (List Token × List Token), ∀ userId : Bytes,
      tokens { claims with sub := userId }.text = around.map fun parts =>
        parts.1 ++ .string (ascii "sub") :: .mark .colon :: .string userId :: parts.2) ∧
    (∀ (conf : LocConf) (userId id : Bytes) (now : Int64) (jti : Vector UInt8 jtiLength),
      (∀ byte ∈ conf.rpId, Json.verbatim byte = true) → (∀ byte ∈ id, Json.verbatim byte = true) →
      Json.object (sessionClaims conf userId id now jti).text =
        some (claimsObject (sessionClaims conf userId id now jti))) := by
  refine ⟨fun text rest => ⟨?_, ?_⟩, fun claims => ?_, tokens_text_around, ?_⟩
  · exact Json.readString_flatMap jsonEscapeByte (fun byte _ => jsonEscapeByte_spelling byte) rest
  · exact Json.untilQuote_flatMap jsonEscapeByte (fun byte _ => jsonEscapeByte_spelling byte) rest
  · rw [Json.object, tokens_successBody]
    rfl
  · intro conf userId id now jti aud cid
    have read := @tokens_text (sessionClaims conf userId id now jti) aud cid (verbatim_encode jti.toList)
    rw [Json.object, read]
    rfl

end AuthWebauthn
