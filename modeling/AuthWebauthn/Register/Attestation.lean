import AuthWebauthn.Register.Cose

namespace AuthWebauthn

open Cbor Slots

/-! `ngx_auth_webauthn_attestation.c`.  A text that the decoder holds in chunks is
equal to no literal.
-/

def attestationInt (item : Item) : Option Int64 := coseInt (some item)

def attestationStrEq (item : Item) (literal : Bytes) : Bool := item.text? = some literal

/-- What `attestation_verify` needs of an attestation object.  The last three fields
are those of a packed statement. -/
structure Attestation where
  fmt : Bytes
  authData : Bytes
  /-- 0 when absent. -/
  attAlg : Int32
  attSig : Bytes
  hasX5c : Bool

/-- One turn of the loop of `attestation_parse_stmt`. -/
def attestationStmtEntry (out : Attestation) (pair : Item × Item) : Except Rc Attestation :=
  if attestationStrEq pair.1 (ascii "alg") then
    match attestationInt pair.2 with
    | some alg => .ok { out with attAlg := alg.toInt32 }
    | none => .ok out
  else if attestationStrEq pair.1 (ascii "sig") then
    match pair.2.bytes? with
    | none => .error .declined
    | some sig => .ok { out with attSig := sig }
  else if attestationStrEq pair.1 (ascii "x5c") then
    match pair.2 with
    | .array (_ :: _) => .ok { out with hasX5c := true }
    | _ => .ok out
  else .ok out

def attestationParseStmt (stmt : Item) (out : Attestation) : Except Rc Attestation :=
  match stmt with
  | .map pairs => pairs.foldlM attestationStmtEntry out
  | _ => .error .declined

structure AttestationSlots where
  fmt : Option Item
  authData : Option Item
  attStmt : Option Item

def AttestationSlots.empty : AttestationSlots := ⟨none, none, none⟩

def AttestationSlots.collect (slots : AttestationSlots) (pair : Item × Item) : AttestationSlots :=
  if attestationStrEq pair.1 (ascii "fmt") then { slots with fmt := some pair.2 }
  else if attestationStrEq pair.1 (ascii "authData") then { slots with authData := some pair.2 }
  else if attestationStrEq pair.1 (ascii "attStmt") then { slots with attStmt := some pair.2 }
  else slots

variable (ext : AdminExternals)

def attestationParse (data : Bytes) : Except Rc Attestation :=
  match ext.cborLoad data with
  | some (.map pairs, read) =>
      if read ≠ data.length then .error .declined
      else
        let slots := pairs.foldl AttestationSlots.collect AttestationSlots.empty
        match slots.fmt.bind Item.text?, slots.authData.bind Item.bytes? with
        | some fmt, some authData =>
            let out : Attestation := ⟨fmt, authData, 0, [], false⟩
            match slots.attStmt with
            | none => .ok out
            | some stmt => attestationParseStmt stmt out
        | _, _ => .error .declined
  | _ => .error .declined

/-- Whether the data is hashed before the signature check. -/
def packedDigest : Int32 → Option Bool
  | -7 => some true
  | -257 => some true
  | -8 => some false
  | _ => none

def attestationVerifyPacked (att : Attestation) (ad : Authdata) (clientDataHash : Bytes) : Rc :=
  if att.attSig = [] then .declined
  else if ad.flags &&& Authdata.flagAt = 0 ∨ ad.cosePublicKey = [] then .declined
  else
    match coseToPkey ext ad.cosePublicKey with
    | .error rc => rc
    | .ok (pkey, keyAlg) =>
        if att.attAlg ≠ keyAlg then .declined
        else
          match packedDigest keyAlg with
          | none => .declined
          | some hashed =>
              if ext.digestVerifyInit hashed pkey = false then .error
              else
                match ext.digestVerify hashed pkey att.attSig (att.authData ++ clientDataHash) with
                | 1 => .ok
                | 0 => .declined
                | _ => .error

/-- `NGX_AUTH_WEBAUTHN_ATT_NONE` and `_PACKED`. -/
inductive AttestationLevel where
  | none
  | packed
deriving DecidableEq

def attestationVerify (att : Attestation) (expectedRpId clientDataHash : Bytes)
    (require : AttestationLevel) : Rc :=
  match authdataParse att.authData with
  | .error rc => rc
  | .ok ad =>
      match hashSha256 ext.toExternals expectedRpId with
      | none => .error
      | some rpIdHash =>
          if ad.rpIdHash ≠ rpIdHash then .declined
          else if att.fmt = ascii "none" then .ok
          else if require = .none then .declined
          else if att.fmt ≠ ascii "packed" then .declined
          else if att.hasX5c then .declined
          else attestationVerifyPacked ext att ad clientDataHash

section Loops

variable {pairs : List (Item × Item)} {name : Bytes}

def textNamed (name : Bytes) (pair : Item × Item) : Option Item :=
  if attestationStrEq pair.1 name then some pair.2 else none

theorem textNamed_eq_some {pair : Item × Item} {item : Item} :
    textNamed name pair = some item ↔ pair = (.text name, item) := by
  obtain ⟨key, value⟩ := pair
  rw [textNamed, Option.ite_none_right_eq_some, attestationStrEq, decide_eq_true_iff, Option.some.injEq,
    Prod.mk.injEq]
  exact and_congr_left fun _ => Item.text?_eq_some

theorem textNamed_self {pair : Item × Item} (named : attestationStrEq pair.1 name = true) :
    textNamed name pair = some pair.2 := by
  rw [textNamed, if_pos named]

theorem textNamed_none {pair : Item × Item} (unnamed : ¬ attestationStrEq pair.1 name = true) :
    textNamed name pair = none := by
  rw [textNamed, if_neg unnamed]

/-- Two literals that differ name different entries. -/
theorem textNamed_of_ne {other : Bytes} (differ : other ≠ name) {pair : Item × Item}
    (named : attestationStrEq pair.1 name = true) : textNamed other pair = none := by
  rw [textNamed, if_neg]
  simp only [attestationStrEq, decide_eq_true_iff] at named ⊢
  rw [named]
  simpa using differ.symm

def textLookup (pairs : List (Item × Item)) (name : Bytes) : Option Item := lastOf (textNamed name) pairs

/-- With distinct keys there is at most one entry to read. -/
theorem textRead_last (distinct : DistinctKeys pairs) {γ : Type} {reader : Item → Option γ} {found : γ} :
    lastOf (fun pair => (textNamed name pair).bind reader) pairs = some found ↔
      ∃ item, (.text name, item) ∈ pairs ∧ reader item = some found := by
  rw [lastOf_eq_some_iff]
  · simp only [Option.bind_eq_some_iff, textNamed_eq_some]
    constructor
    · intro found
      obtain ⟨pair, member, item, rfl, read⟩ := found
      exact ⟨item, member, read⟩
    · intro found
      obtain ⟨item, member, read⟩ := found
      exact ⟨_, member, item, rfl, read⟩
  · intro first firstMember second secondMember left right foundLeft foundRight
    obtain ⟨item, named, readLeft⟩ := Option.bind_eq_some_iff.mp foundLeft
    obtain ⟨other, otherNamed, readRight⟩ := Option.bind_eq_some_iff.mp foundRight
    rw [textNamed_eq_some] at named otherNamed
    subst named otherNamed
    rw [distinct.value_eq firstMember secondMember] at readLeft
    exact Option.some.inj (readLeft.symm.trans readRight)

theorem textLookup_iff (distinct : DistinctKeys pairs) {item : Item} :
    textLookup pairs name = some item ↔ (.text name, item) ∈ pairs := by
  have whole : textLookup pairs name = lastOf (fun pair => (textNamed name pair).bind some) pairs := by
    simp only [textLookup, Option.bind_fun_some]
  rw [whole, textRead_last distinct]
  simp only [Option.some.injEq, exists_eq_right]

theorem attestation_collected (pairs : List (Item × Item)) :
    pairs.foldl AttestationSlots.collect AttestationSlots.empty =
      ⟨textLookup pairs (ascii "fmt"), textLookup pairs (ascii "authData"),
        textLookup pairs (ascii "attStmt")⟩ := by
  have turn (slots : AttestationSlots) (pair : Item × Item) : slots.collect pair =
      ⟨(textNamed (ascii "fmt") pair).or slots.fmt, (textNamed (ascii "authData") pair).or slots.authData,
        (textNamed (ascii "attStmt") pair).or slots.attStmt⟩ := by
    unfold AttestationSlots.collect
    split_ifs with fmt authData attStmt
    · rw [textNamed_self fmt, textNamed_of_ne (by decide : ascii "authData" ≠ ascii "fmt") fmt,
        textNamed_of_ne (by decide : ascii "attStmt" ≠ ascii "fmt") fmt]
      rfl
    · rw [textNamed_none fmt, textNamed_self authData,
        textNamed_of_ne (by decide : ascii "attStmt" ≠ ascii "authData") authData]
      rfl
    · rw [textNamed_none fmt, textNamed_none authData, textNamed_self attStmt]
      rfl
    · rw [textNamed_none fmt, textNamed_none authData, textNamed_none attStmt]
      rfl
  have fmt : (pairs.foldl AttestationSlots.collect AttestationSlots.empty).fmt =
      textLookup pairs (ascii "fmt") :=
    foldl_empty_slot AttestationSlots.fmt (fun slots pair => by rw [turn]) rfl
  have authData : (pairs.foldl AttestationSlots.collect AttestationSlots.empty).authData =
      textLookup pairs (ascii "authData") :=
    foldl_empty_slot AttestationSlots.authData (fun slots pair => by rw [turn]) rfl
  have attStmt : (pairs.foldl AttestationSlots.collect AttestationSlots.empty).attStmt =
      textLookup pairs (ascii "attStmt") :=
    foldl_empty_slot AttestationSlots.attStmt (fun slots pair => by rw [turn]) rfl
  rw [← fmt, ← authData, ← attStmt]

def stmtAlg (pair : Item × Item) : Option Int32 :=
  (textNamed (ascii "alg") pair).bind fun item => (attestationInt item).map Int64.toInt32

def stmtSig (pair : Item × Item) : Option Bytes := (textNamed (ascii "sig") pair).bind Item.bytes?

def stmtX5c (pair : Item × Item) : Bool :=
  match textNamed (ascii "x5c") pair with
  | some (.array (_ :: _)) => true
  | _ => false

def stmtFields (pairs : List (Item × Item)) (out : Attestation) : Attestation :=
  { out with
    attAlg := (lastOf stmtAlg pairs).getD out.attAlg
    attSig := (lastOf stmtSig pairs).getD out.attSig
    hasX5c := out.hasX5c || pairs.any stmtX5c }

/-- The entry is not a signature, or a byte string of definite length. -/
def SigReadable (pair : Item × Item) : Prop := textNamed (ascii "sig") pair ≠ none → stmtSig pair ≠ none

theorem attestationStmtEntry_ok {out att : Attestation} {pair : Item × Item} :
    attestationStmtEntry out pair = .ok att ↔ SigReadable pair ∧ att = stmtFields [pair] out := by
  have single {γ : Type} (picks : Item × Item → Option γ) : lastOf picks [pair] = picks pair := by
    rw [lastOf_cons]
    rfl
  simp only [stmtFields, single, List.any_cons, List.any_nil, Bool.or_false, SigReadable, stmtAlg, stmtSig,
    stmtX5c]
  unfold attestationStmtEntry
  split_ifs with alg sig x5c
  · rw [textNamed_self alg, textNamed_of_ne (by decide : ascii "sig" ≠ ascii "alg") alg,
      textNamed_of_ne (by decide : ascii "x5c" ≠ ascii "alg") alg]
    cases read : attestationInt pair.2 with
    | none =>
        simp only [Option.bind_some, read, Except.ok.injEq, ne_eq, not_true_eq_false, false_implies,
          true_and, Bool.or_false]
        exact eq_comm
    | some value => simp [read, eq_comm]
  · rw [textNamed_none alg, textNamed_self sig, textNamed_of_ne (by decide : ascii "x5c" ≠ ascii "sig") sig]
    cases read : pair.2.bytes? with
    | none => simp [read]
    | some content => simp [read, eq_comm]
  · rw [textNamed_none alg, textNamed_none sig, textNamed_self x5c]
    cases pair.2 with
    | array items =>
        cases items with
        | nil =>
            simp only [Except.ok.injEq, ne_eq, not_true_eq_false, false_implies, true_and, Bool.or_false]
            exact eq_comm
        | cons item rest => simp [eq_comm]
    | _ =>
        simp only [Except.ok.injEq, ne_eq, not_true_eq_false, false_implies, true_and, Bool.or_false]
        exact eq_comm
  · rw [textNamed_none alg, textNamed_none sig, textNamed_none x5c]
    simp only [Except.ok.injEq, ne_eq, not_true_eq_false, false_implies, true_and, Bool.or_false]
    exact eq_comm

theorem stmtFields_cons (pair : Item × Item) (rest : List (Item × Item)) (out : Attestation) :
    stmtFields (pair :: rest) out = stmtFields rest (stmtFields [pair] out) := by
  have joins {γ : Type} (picks : Item × Item → Option γ) (held : γ) :
      (lastOf picks (pair :: rest)).getD held = (lastOf picks rest).getD ((lastOf picks [pair]).getD held) := by
    rw [lastOf_cons, lastOf_cons, Option.getD_or, Option.getD_or]
    rfl
  simp only [stmtFields, joins, List.any_cons, List.any_nil, Bool.or_false, Bool.or_assoc]

theorem attestationStmt_ok {out att : Attestation} :
    pairs.foldlM attestationStmtEntry out = .ok att ↔
      (∀ pair ∈ pairs, SigReadable pair) ∧ att = stmtFields pairs out := by
  induction pairs generalizing out with
  | nil =>
      simp only [List.foldlM_nil, pure, Except.pure, Except.ok.injEq, List.not_mem_nil, false_implies,
        implies_true, true_and]
      simp [stmtFields, lastOf, eq_comm]
  | cons pair rest ih =>
      rw [List.foldlM_cons, stmtFields_cons, List.forall_mem_cons]
      cases entry : attestationStmtEntry out pair with
      | error rc =>
          simp only [bind, Except.bind, reduceCtorEq, false_iff]
          intro both
          obtain ⟨⟨readable, _⟩, _⟩ := both
          rw [attestationStmtEntry_ok.mpr ⟨readable, rfl⟩] at entry
          cases entry
      | ok next =>
          obtain ⟨readable, rfl⟩ := attestationStmtEntry_ok.mp entry
          simp only [bind, Except.bind]
          rw [ih, and_iff_right readable]

end Loops

variable {ext} {att : Attestation} {clientDataHash : Bytes}

theorem attestationParse_ok {data : Bytes} {pairs : List (Item × Item)} {read : Nat}
    (loaded : ext.cborLoad data = some (.map pairs, read)) :
    attestationParse ext data = .ok att ↔ read = data.length ∧ ∃ fmt authData,
      textLookup pairs (ascii "fmt") = some (.text fmt) ∧
      textLookup pairs (ascii "authData") = some (.bytes authData) ∧
      ((textLookup pairs (ascii "attStmt") = none ∧ att = ⟨fmt, authData, 0, [], false⟩) ∨
        ∃ inner, textLookup pairs (ascii "attStmt") = some (.map inner) ∧
          (∀ pair ∈ inner, SigReadable pair) ∧ att = stmtFields inner ⟨fmt, authData, 0, [], false⟩) := by
  have texts {item : Option Item} {content : Bytes} :
      item.bind Item.text? = some content ↔ item = some (.text content) := by
    simp only [Option.bind_eq_some_iff, Item.text?_eq_some, exists_eq_right]
  have strings {item : Option Item} {content : Bytes} :
      item.bind Item.bytes? = some content ↔ item = some (.bytes content) := by
    simp only [Option.bind_eq_some_iff, Item.bytes?_eq_some, exists_eq_right]
  simp only [attestationParse, loaded, attestation_collected, ← texts, ← strings]
  by_cases consumed : read = data.length
  · simp only [consumed, ne_eq, not_true_eq_false, if_false, true_and]
    cases fmt : (textLookup pairs (ascii "fmt")).bind Item.text? with
    | none => simp
    | some format =>
        cases authData : (textLookup pairs (ascii "authData")).bind Item.bytes? with
        | none => simp
        | some auth =>
            cases stmt : textLookup pairs (ascii "attStmt") with
            | none => simp [eq_comm]
            | some item =>
                cases item with
                | map inner => simp [attestationParseStmt, attestationStmt_ok]
                | _ => simp [attestationParseStmt]
  · simp [consumed]

/-- The signature is valid for the key and the algorithm. -/
def PackedVerified (ext : AdminExternals) (pkey : ext.Pkey) (alg : Int32) (signature data : Bytes) : Prop :=
  ∃ hashed, packedDigest alg = some hashed ∧ ext.digestVerifyInit hashed pkey = true ∧
    ext.digestVerify hashed pkey signature data = 1

theorem attestationVerifyPacked_ok {ad : Authdata} :
    attestationVerifyPacked ext att ad clientDataHash = .ok ↔
      att.attSig ≠ [] ∧ ad.flags &&& Authdata.flagAt ≠ 0 ∧ ad.cosePublicKey ≠ [] ∧
      ∃ pkey, coseToPkey ext ad.cosePublicKey = .ok (pkey, att.attAlg) ∧
        PackedVerified ext pkey att.attAlg att.attSig (att.authData ++ clientDataHash) := by
  unfold attestationVerifyPacked
  split_ifs with unsigned keyless
  · simp [unsigned]
  · rcases keyless with flag | empty
    · simp [flag]
    · simp [empty]
  · obtain ⟨flag, key⟩ := not_or.mp keyless
    simp only [ne_eq, unsigned, flag, key, not_false_eq_true, true_and]
    cases decoded : coseToPkey ext ad.cosePublicKey with
    | error rc =>
        simp only [reduceCtorEq, false_and, exists_false, iff_false]
        intro same
        obtain rfl := same
        exact honest_cose _ decoded
    | ok pair =>
        obtain ⟨pkey, keyAlg⟩ := pair
        by_cases same : att.attAlg = keyAlg
        · subst same
          simp only [not_true_eq_false, if_false, Except.ok.injEq, Prod.mk.injEq, and_true,
            exists_eq_left', PackedVerified]
          cases digest : packedDigest att.attAlg with
          | none => simp
          | some hashed =>
              simp only [Option.some.injEq, exists_eq_left']
              by_cases started : ext.digestVerifyInit hashed pkey = true
              · simp only [started, reduceCtorEq, if_false, true_and]
                split
                · rename_i valid
                  simp [valid]
                · rename_i invalid
                  simp [invalid]
                · rename_i invalid _
                  simpa using invalid
              · simp [started]
        · simp [same, Ne.symm same]

theorem attestationVerify_ok {expectedRpId : Bytes} {require : AttestationLevel} :
    attestationVerify ext att expectedRpId clientDataHash require = .ok ↔ ∃ ad,
      authdataParse att.authData = .ok ad ∧ hashSha256 ext.toExternals expectedRpId = some ad.rpIdHash ∧
      (att.fmt = ascii "none" ∨ require = .packed ∧ att.fmt = ascii "packed" ∧ att.hasX5c = false ∧
        attestationVerifyPacked ext att ad clientDataHash = .ok) := by
  unfold attestationVerify
  cases parsed : authdataParse att.authData with
  | error rc =>
      simp only [reduceCtorEq, false_and, exists_false, iff_false]
      intro same
      obtain rfl := same
      exact honest_authdata _ parsed
  | ok ad =>
      cases hashed : hashSha256 ext.toExternals expectedRpId with
      | none => simp
      | some rpIdHash =>
          by_cases same : ad.rpIdHash = rpIdHash
          · simp only [same, ne_eq, not_true_eq_false, if_false, Except.ok.injEq, exists_eq_left', true_and]
            split_ifs with none level packed x5c
            · simp [none]
            · simp [none, level]
            · simp [none, x5c]
            · have required : require = .packed := by
                cases require with
                | none => exact absurd rfl level
                | packed => rfl
              rw [or_iff_right none, and_iff_right required, and_iff_right packed,
                and_iff_right (eq_false_of_ne_true x5c)]
            · simp [none, packed]
          · simp [same, Ne.symm same]

end AuthWebauthn
