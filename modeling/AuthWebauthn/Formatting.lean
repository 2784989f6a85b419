import AuthWebauthn.ChallengeHandler
import AuthWebauthn.Data.Buffer
import AuthWebauthn.Gate.Handler

namespace AuthWebauthn

open Memory

/-! Each builder of an output with the buffer that it allocates: a write past the end faults.
The texts are those of the other modules.
-/

/-- One piece of a format of `ngx_sprintf`. -/
inductive Piece where
  | text (literal : String)
  /-- `%V`, and `%s` with a constant. -/
  | string (bytes : Bytes)
  /-- `%T`. -/
  | time (value : Int64)

def Piece.bytes : Piece → Bytes
  | .text literal => ascii literal
  | .string bytes => bytes
  | .time value => Decimal.ofInt value.toInt

def sprintf (buffer : Buffer UInt8) (format : List Piece) : Option (Buffer UInt8) :=
  buffer.writes (format.map Piece.bytes)

def jsonEscapeBuilt (text : Bytes) : Option Bytes :=
  if text.length = 0 then some []
  else ((Buffer.alloc (text.length * 6)).writes (text.map jsonEscapeByte)).map Buffer.written

/-- `NGX_AUTH_WEBAUTHN_ALLOWCRED_OVERHEAD`. -/
abbrev allowCredOverhead : Nat := 32

/-- One turn of the loop over the ids. -/
def allowCredentialFormat (entry : Bytes × Nat) : List Piece :=
  [.text (if entry.2 = 0 then "" else ","), .text "\x7b\"type\":\"public-key\",\"id\":\"",
    .string entry.1, .text "\"\x7d"]

def challengeBodyBuilt (conf : LocConf) (challenge : Bytes) (ids : List Bytes) : Option Bytes := do
  let b64 := Base64url.encode challenge
  let sum := (ids.map List.length).sum
  let uv := uvName conf.userVerification
  let body := Buffer.alloc
    (160 + b64.length + conf.rpId.length + uv.length + ids.length * allowCredOverhead + sum)
  let body ← sprintf body [.text "\x7b\"challenge\":\"", .string b64, .text "\",\"rpId\":\"",
    .string conf.rpId, .text "\",\"timeout\":", .time (conf.challengeTtl * 1000),
    .text ",\"userVerification\":\"", .string uv, .text "\",\"allowCredentials\":["]
  let body ← ids.zipIdx.foldlM (fun body entry => sprintf body (allowCredentialFormat entry)) body
  let body ← body.write (ascii "]")
  let body ← body.write (ascii "\x7d")
  return body.written

def claimsBuilt (conf : LocConf) (userId id : Bytes) (now : Int64) (jti : Vector UInt8 jtiLength) :
    Option Bytes := do
  let jti := Base64url.encode jti.toList
  let sub ← jsonEscapeBuilt userId
  let claims := Buffer.alloc (256 + sub.length + id.length + conf.rpId.length + jti.length)
  let claims ← sprintf claims [.text "\x7b\"iss\":\"nginx-webauthn\",\"aud\":\"", .string conf.rpId,
    .text "\",\"sub\":\"", .string sub, .text "\",\"cid\":\"", .string id, .text "\",\"iat\":", .time now,
    .text ",\"exp\":", .time (now + conf.jwtTtl), .text ",\"jti\":\"", .string jti, .text "\"\x7d"]
  return claims.written

def cookieBuilt (conf : LocConf) (jwt : Bytes) : Option Bytes := do
  let cookie := Buffer.alloc
    (conf.cookieName.length + jwt.length + conf.cookiePath.length + conf.cookieDomain.length + 128)
  let cookie ← sprintf cookie [.string conf.cookieName, .text "=", .string jwt,
    .text "; HttpOnly; SameSite=", .string (samesiteName conf.cookieSamesite), .text "; Path=",
    .string conf.cookiePath]
  let cookie ← if conf.cookieSecure then cookie.write (ascii "; Secure") else some cookie
  let cookie ← if conf.cookieDomain.length ≠ 0 then
      sprintf cookie [.text "; Domain=", .string conf.cookieDomain]
    else some cookie
  let cookie ← sprintf cookie [.text "; Max-Age=", .time conf.jwtTtl]
  return cookie.written

def successBuilt (conf : LocConf) (userId : Bytes) (now : Int64) : Option Bytes := do
  let sub ← jsonEscapeBuilt userId
  let out := Buffer.alloc (64 + sub.length)
  let out ← sprintf out [.text "\x7b\"ok\":true,\"user_id\":\"", .string sub, .text "\",\"exp\":",
    .time (now + conf.jwtTtl), .text "\x7d"]
  return out.written

def hmacJwksBuilt (alg secret : Bytes) : Option Bytes := do
  let k := Base64url.encode secret
  let doc := Buffer.alloc (64 + k.length + alg.length)
  let doc ← sprintf doc [.text "\x7b\"keys\":[\x7b\"kty\":\"oct\",\"k\":\"", .string k,
    .text "\",\"alg\":\"", .string alg, .text "\"\x7d]\x7d"]
  return doc.written

def keyvalBuilt (pubPem : Bytes) : Option Bytes := do
  let pem ← jsonEscapeBuilt pubPem
  let doc := Buffer.alloc (24 + pem.length)
  let doc ← sprintf doc [.text "\x7b\"webauthn\":\"", .string pem, .text "\"\x7d"]
  return doc.written

/-- The room that a piece takes at most. -/
def Piece.room : Piece → Nat
  | .text literal => (ascii literal).length
  | .string bytes => bytes.length
  | .time _ => 20

theorem int64_length_le (value : Int64) : (Decimal.ofInt value.toInt).length ≤ 20 := by
  have lower := value.le_toInt
  have upper := value.toInt_lt
  exact Decimal.ofInt_length_le (by decide) (by omega) (by omega)

theorem Piece.bytes_length_le (piece : Piece) : piece.bytes.length ≤ piece.room := by
  cases piece with
  | text literal => exact Nat.le_refl _
  | string bytes => exact Nat.le_refl _
  | time value => exact int64_length_le value

def room (format : List Piece) : Nat := (format.map Piece.room).sum

theorem format_length_le (format : List Piece) :
    (format.map Piece.bytes).flatten.length ≤ room format := by
  induction format with
  | nil => exact Nat.le_refl _
  | cons piece rest ih =>
      rw [List.map_cons, List.flatten_cons, List.length_append, room, List.map_cons, List.sum_cons]
      exact Nat.add_le_add piece.bytes_length_le ih

/-- A builder with one format gets its text if there is room for the format. -/
theorem sprintf_alloc {capacity : Nat} {format : List Piece} (enough : room format ≤ capacity) :
    ((sprintf (.alloc capacity) format).bind fun buffer => some buffer.written) =
      some (format.map Piece.bytes).flatten := by
  have filled := Buffer.alloc_writes (Nat.le_trans (format_length_le format) enough)
  rw [Option.map_eq_bind] at filled
  exact filled

theorem sprintf_append (buffer : Buffer UInt8) (front back : List Piece) :
    sprintf buffer (front ++ back) = (sprintf buffer front).bind fun next => sprintf next back := by
  rw [sprintf, List.map_append, Buffer.writes_append]
  rfl

theorem write_eq_sprintf (buffer : Buffer UInt8) (literal : String) :
    buffer.write (ascii literal) = sprintf buffer [.text literal] := by
  rw [Buffer.write_eq_writes]
  rfl

/-- An optional part of a format. -/
theorem sprintf_ite {β : Type} (buffer : Buffer UInt8) (condition : Prop) [Decidable condition]
    (format : List Piece) (next : Buffer UInt8 → Option β) :
    (if condition then (sprintf buffer format).bind next else (some buffer).bind next) =
      (sprintf buffer (if condition then format else [])).bind next := by
  split_ifs
  · rfl
  · rfl

theorem room_append (front back : List Piece) : room (front ++ back) = room front + room back := by
  rw [room, List.map_append, List.sum_append]
  rfl

theorem jsonEscapeByte_length_le (byte : UInt8) : (jsonEscapeByte byte).length ≤ 6 := by
  unfold jsonEscapeByte
  split_ifs <;> simp

theorem jsonEscape_length_le (text : Bytes) : (text.map jsonEscapeByte).flatten.length ≤ text.length * 6 := by
  induction text with
  | nil => exact Nat.le_refl _
  | cons byte rest ih =>
      have first := jsonEscapeByte_length_le byte
      rw [List.map_cons, List.flatten_cons, List.length_append, List.length_cons]
      omega

theorem jsonEscapeBuilt_eq (text : Bytes) : jsonEscapeBuilt text = some (jsonEscape text) := by
  unfold jsonEscapeBuilt
  split_ifs with empty
  · rw [List.length_eq_zero_iff.mp empty]
    rfl
  · rw [Buffer.alloc_writes (jsonEscape_length_le text), jsonEscape, List.flatMap]

theorem claimsBuilt_eq (conf : LocConf) (userId id : Bytes) (now : Int64)
    (jti : Vector UInt8 jtiLength) :
    claimsBuilt conf userId id now jti = some (sessionClaims conf userId id now jti).text := by
  unfold claimsBuilt
  rw [jsonEscapeBuilt_eq]
  refine (sprintf_alloc ?_).trans ?_
  · change 31 + (conf.rpId.length + (9 + ((jsonEscape userId).length + (9 + (id.length + (8 + (20 +
      (7 + (20 + (8 + ((Base64url.encode jti.toList).length + 2))))))))))) ≤ _
    omega
  · simp [Piece.bytes, SessionClaims.text, sessionClaims]

theorem successBuilt_eq (conf : LocConf) (userId id : Bytes) (now : Int64)
    (jti : Vector UInt8 jtiLength) :
    successBuilt conf userId now = some (successBody (sessionClaims conf userId id now jti)) := by
  unfold successBuilt
  rw [jsonEscapeBuilt_eq]
  refine (sprintf_alloc ?_).trans ?_
  · change 22 + ((jsonEscape userId).length + (8 + (20 + 1))) ≤ _
    omega
  · simp [Piece.bytes, successBody, sessionClaims]

theorem hmacJwksBuilt_eq (alg secret : Bytes) :
    hmacJwksBuilt alg secret = some (ascii "\x7b\"keys\":[\x7b\"kty\":\"oct\",\"k\":\"" ++
      Base64url.encode secret ++ ascii "\",\"alg\":\"" ++ alg ++ ascii "\"\x7d]\x7d") := by
  unfold hmacJwksBuilt
  refine (sprintf_alloc ?_).trans ?_
  · change 27 + ((Base64url.encode secret).length + (9 + (alg.length + 4))) ≤ _
    omega
  · simp [Piece.bytes]

theorem keyvalBuilt_eq (conf : LocConf) : keyvalBuilt conf.jwtPubPem = some (keyvalDoc conf) := by
  unfold keyvalBuilt
  rw [jsonEscapeBuilt_eq]
  refine (sprintf_alloc ?_).trans ?_
  · change 13 + ((jsonEscape conf.jwtPubPem).length + 2) ≤ _
    omega
  · simp [Piece.bytes, keyvalDoc]

/-- The whole format of the cookie. -/
def cookieFormat (conf : LocConf) (jwt : Bytes) : List Piece :=
  [.string conf.cookieName, .text "=", .string jwt, .text "; HttpOnly; SameSite=",
    .string (samesiteName conf.cookieSamesite), .text "; Path=", .string conf.cookiePath] ++
  ((if conf.cookieSecure then [.text "; Secure"] else []) ++
    ((if conf.cookieDomain.length ≠ 0 then [.text "; Domain=", .string conf.cookieDomain] else []) ++
      [.text "; Max-Age=", .time conf.jwtTtl]))

theorem samesiteName_length_le (samesite : SameSite) : (samesiteName samesite).length ≤ 6 := by
  cases samesite <;> decide

theorem cookieFormat_room (conf : LocConf) (jwt : Bytes) :
    room (cookieFormat conf jwt) ≤ conf.cookieName.length + jwt.length + conf.cookiePath.length +
      conf.cookieDomain.length + 128 := by
  have name := samesiteName_length_le conf.cookieSamesite
  have secure : room (if conf.cookieSecure then [.text "; Secure"] else []) ≤ 8 := by
    split_ifs
    · exact Nat.le_refl 8
    · exact Nat.zero_le 8
  have domain : room (if conf.cookieDomain.length ≠ 0 then
      [.text "; Domain=", .string conf.cookieDomain] else []) ≤ 9 + conf.cookieDomain.length := by
    split_ifs
    · exact Nat.le_refl (9 + conf.cookieDomain.length)
    · exact Nat.zero_le _
  have first : room [.string conf.cookieName, .text "=", .string jwt, .text "; HttpOnly; SameSite=",
      .string (samesiteName conf.cookieSamesite), .text "; Path=", .string conf.cookiePath] =
      conf.cookieName.length + (1 + (jwt.length + (21 + ((samesiteName conf.cookieSamesite).length +
        (7 + conf.cookiePath.length))))) := rfl
  have last : room [.text "; Max-Age=", .time conf.jwtTtl] = 30 := rfl
  rw [cookieFormat, room_append, room_append, room_append, first, last]
  omega

theorem cookieBuilt_format (conf : LocConf) (jwt : Bytes) :
    cookieBuilt conf jwt =
      (sprintf (.alloc (conf.cookieName.length + jwt.length + conf.cookiePath.length +
          conf.cookieDomain.length + 128)) (cookieFormat conf jwt)).bind
        fun buffer => some buffer.written := by
  simp only [cookieBuilt, cookieFormat, write_eq_sprintf, sprintf_ite, sprintf_append, Option.bind_assoc,
    Option.bind_eq_bind, Option.pure_def]

theorem cookieBuilt_eq (conf : LocConf) (jwt : Bytes) :
    cookieBuilt conf jwt = some (sessionCookie conf jwt) := by
  rw [cookieBuilt_format, sprintf_alloc (cookieFormat_room conf jwt), cookieFormat, sessionCookie]
  by_cases domain : conf.cookieDomain = []
  · cases conf.cookieSecure <;> simp [Piece.bytes, domain]
  · cases conf.cookieSecure <;> simp [Piece.bytes, domain]

/-- Past the first id, each turn writes its separator. -/
theorem laterCredentials_format (ids : List Bytes) (start : Nat) :
    (((ids.zipIdx (start + 1)).flatMap allowCredentialFormat).map Piece.bytes).flatten =
      ids.flatMap fun later => ascii "," ++ allowCredential later := by
  induction ids generalizing start with
  | nil => rfl
  | cons id rest ih =>
      rw [List.zipIdx_cons, List.flatMap_cons, List.map_append, List.flatten_append, ih, List.flatMap_cons]
      simp [allowCredentialFormat, Piece.bytes, allowCredential]

theorem allowCredentials_format (ids : List Bytes) :
    ((ids.zipIdx.flatMap allowCredentialFormat).map Piece.bytes).flatten = allowCredentials ids := by
  cases ids with
  | nil => rfl
  | cons id rest =>
      have empty : ascii "" = [] := rfl
      rw [List.zipIdx_cons, List.flatMap_cons, List.map_append, List.flatten_append,
        laterCredentials_format rest 0, allowCredentials]
      simp [allowCredentialFormat, Piece.bytes, allowCredential, empty]

theorem allowCredentialFormat_room (entry : Bytes × Nat) :
    room (allowCredentialFormat entry) ≤ allowCredOverhead + entry.1.length := by
  unfold allowCredentialFormat
  split_ifs
  · change 0 + (27 + (entry.1.length + 2)) ≤ 32 + _
    omega
  · change 1 + (27 + (entry.1.length + 2)) ≤ 32 + _
    omega

theorem allowCredentials_room (ids : List Bytes) (start : Nat) :
    room ((ids.zipIdx start).flatMap allowCredentialFormat) ≤
      ids.length * allowCredOverhead + (ids.map List.length).sum := by
  induction ids generalizing start with
  | nil => exact Nat.le_refl _
  | cons id rest ih =>
      have first := allowCredentialFormat_room (id, start)
      have later := ih (start + 1)
      rw [List.zipIdx_cons, List.flatMap_cons, room_append, List.length_cons, List.map_cons, List.sum_cons,
        Nat.add_mul, Nat.one_mul]
      simp only at first
      omega

/-- The part of the body before the ids. -/
def challengeFormat (conf : LocConf) (challenge : Bytes) : List Piece :=
  [.text "\x7b\"challenge\":\"", .string (Base64url.encode challenge), .text "\",\"rpId\":\"",
    .string conf.rpId, .text "\",\"timeout\":", .time (conf.challengeTtl * 1000),
    .text ",\"userVerification\":\"", .string (uvName conf.userVerification),
    .text "\",\"allowCredentials\":["]

def challengeSize (conf : LocConf) (challenge : Bytes) (ids : List Bytes) : Nat :=
  160 + (Base64url.encode challenge).length + conf.rpId.length + (uvName conf.userVerification).length +
    ids.length * allowCredOverhead + (ids.map List.length).sum

theorem foldlM_sprintf (buffer : Buffer UInt8) (entries : List (Bytes × Nat)) :
    entries.foldlM (fun body entry => sprintf body (allowCredentialFormat entry)) buffer =
      sprintf buffer (entries.flatMap allowCredentialFormat) := by
  have looped := @Buffer.foldlM_writes UInt8 buffer _
    (fun entry => (allowCredentialFormat entry).map Piece.bytes) entries
  rw [sprintf, List.map_flatMap, ← looped]
  rfl

theorem challengeBodyBuilt_format (conf : LocConf) (challenge : Bytes) (ids : List Bytes) :
    challengeBodyBuilt conf challenge ids =
      (sprintf (.alloc (challengeSize conf challenge ids)) (challengeFormat conf challenge ++
          (ids.zipIdx.flatMap allowCredentialFormat ++ ([.text "]"] ++ [.text "\x7d"])))).bind
        fun buffer => some buffer.written := by
  simp only [challengeBodyBuilt, challengeFormat, challengeSize, foldlM_sprintf, write_eq_sprintf,
    sprintf_append, Option.bind_assoc, Option.bind_eq_bind, Option.pure_def]

theorem challengeBodyBuilt_eq (conf : LocConf) (challenge : Bytes) (ids : List Bytes) :
    challengeBodyBuilt conf challenge ids = some (challengeBody conf challenge ids) := by
  have listed := allowCredentials_room ids 0
  have opening : room (challengeFormat conf challenge) =
      14 + ((Base64url.encode challenge).length + (10 + (conf.rpId.length + (12 + (20 + (21 +
        ((uvName conf.userVerification).length + 22))))))) := rfl
  have closing : room ([.text "]"] ++ [.text "\x7d"]) = 2 := rfl
  rw [challengeBodyBuilt_format, sprintf_alloc]
  · rw [List.map_append, List.map_append, List.flatten_append, List.flatten_append, allowCredentials_format]
    simp [challengeFormat, challengeBody, Piece.bytes]
    rfl
  · rw [room_append, room_append, opening, closing, challengeSize]
    omega

/-- No builder writes past the end of what it allocated, and what it writes is the text
of the other modules.  The algorithm of the JWKS may be any name. -/
theorem outputs_fit (conf : LocConf) (challenge : Bytes) (ids : List Bytes) (userId id : Bytes)
    (now : Int64) (jti : Vector UInt8 jtiLength) (jwt alg secret text : Bytes) :
    challengeBodyBuilt conf challenge ids = some (challengeBody conf challenge ids) ∧
    claimsBuilt conf userId id now jti = some (sessionClaims conf userId id now jti).text ∧
    cookieBuilt conf jwt = some (sessionCookie conf jwt) ∧
    successBuilt conf userId now = some (successBody (sessionClaims conf userId id now jti)) ∧
    (∃ doc, hmacJwksBuilt alg secret = some doc) ∧
    hmacJwksBuilt conf.jwtAlg.name conf.jwtSecret = some (hmacJwksDoc conf) ∧
    keyvalBuilt conf.jwtPubPem = some (keyvalDoc conf) ∧
    jsonEscapeBuilt text = some (jsonEscape text) :=
  ⟨challengeBodyBuilt_eq conf challenge ids, claimsBuilt_eq conf userId id now jti,
    cookieBuilt_eq conf jwt, successBuilt_eq conf userId id now jti, ⟨_, hmacJwksBuilt_eq alg secret⟩,
    hmacJwksBuilt_eq _ _, keyvalBuilt_eq conf, jsonEscapeBuilt_eq text⟩

end AuthWebauthn
