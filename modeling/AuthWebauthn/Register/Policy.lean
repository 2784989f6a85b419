import AuthWebauthn.Register.Attestation
import AuthWebauthn.Register.KeyForm

namespace AuthWebauthn

open Cbor Slots

section

variable {ext : AdminExternals} {pairs inner : List (Item × Item)} {rpId clientDataHash : Bytes}
variable {fmt authData : Bytes} {ad : Authdata}

/-- `attestation_parse`, and `attestation_verify` on what it returns. -/
def AttestationAccepted (ext : AdminExternals) (data rpId clientDataHash : Bytes)
    (require : AttestationLevel) : Prop :=
  ∃ att, attestationParse ext data = .ok att ∧
    attestationVerify ext att rpId clientDataHash require = .ok

/-- The conditions on every attestation object, whatever its format. -/
structure ObjectFormed (ext : AdminExternals) (pairs : List (Item × Item)) (rpId fmt authData : Bytes)
    (ad : Authdata) : Prop where
  format : (.text (ascii "fmt"), .text fmt) ∈ pairs
  data : (.text (ascii "authData"), .bytes authData) ∈ pairs
  parsed : authdataParse authData = .ok ad
  relying : hashSha256 ext.toExternals rpId = some ad.rpIdHash
  stmt : ∀ item, (.text (ascii "attStmt"), item) ∈ pairs → ∃ inner, item = .map inner ∧
    ∀ sig, (.text (ascii "sig"), sig) ∈ inner → ∃ content, sig = .bytes content

/-- A signature by the credential's own key; `value` is the algorithm that the
statement names, `alg` that of the key. -/
structure SelfAttested (ext : AdminExternals) (inner : List (Item × Item)) (authData : Bytes)
    (ad : Authdata) (clientDataHash : Bytes) (value : Int) (alg : Int32) : Prop where
  uncertified : ∀ items, (.text (ascii "x5c"), .array items) ∈ inner → items = []
  named : ∃ item, (.text (ascii "alg"), item) ∈ inner ∧ item.int? = some value
  attested : ad.flags &&& Authdata.flagAt ≠ 0
  signed : ∃ signature pkey, (.text (ascii "sig"), .bytes signature) ∈ inner ∧ signature ≠ [] ∧
    coseToPkey ext ad.cosePublicKey = .ok (pkey, alg) ∧
    PackedVerified ext pkey alg signature (authData ++ clientDataHash)

/-- The policy, given how the two algorithms are compared. -/
def AttestationMeets (ext : AdminExternals) (sameAlg : Int → Int32 → Prop) (pairs : List (Item × Item))
    (rpId clientDataHash : Bytes) (require : AttestationLevel) : Prop :=
  ∃ fmt authData ad, ObjectFormed ext pairs rpId fmt authData ad ∧
    (fmt = ascii "none" ∨ require = .packed ∧ fmt = ascii "packed" ∧
      ∃ inner value alg, (.text (ascii "attStmt"), .map inner) ∈ pairs ∧
        SelfAttested ext inner authData ad clientDataHash value alg ∧ sameAlg value alg)

theorem AttestationMeets.imp {first second : Int → Int32 → Prop} {require : AttestationLevel}
    (convert : ∀ authData ad inner value alg, ObjectFormed ext pairs rpId (ascii "packed") authData ad →
      (.text (ascii "attStmt"), .map inner) ∈ pairs →
      SelfAttested ext inner authData ad clientDataHash value alg → first value alg → second value alg)
    (meets : AttestationMeets ext first pairs rpId clientDataHash require) :
    AttestationMeets ext second pairs rpId clientDataHash require := by
  obtain ⟨fmt, authData, ad, formed, policy⟩ := meets
  refine ⟨fmt, authData, ad, formed, policy.imp_right ?_⟩
  intro required
  obtain ⟨level, rfl, inner, value, alg, present, self, same⟩ := required
  exact ⟨level, rfl, inner, value, alg, present, self,
    convert authData ad inner value alg formed present self same⟩

theorem sigReadable_iff :
    (∀ pair ∈ inner, SigReadable pair) ↔
      ∀ sig, (.text (ascii "sig"), sig) ∈ inner → ∃ content, sig = .bytes content := by
  constructor
  · intro readable sig member
    have named : textNamed (ascii "sig") (.text (ascii "sig"), sig) = some sig := textNamed_eq_some.mpr rfl
    have present := readable _ member (by rw [named]; exact Option.some_ne_none _)
    obtain ⟨content, read⟩ := Option.ne_none_iff_exists'.mp present
    rw [stmtSig, named, Option.bind_some] at read
    exact ⟨content, Item.bytes?_eq_some.mp read⟩
  · intro readable pair member named
    obtain ⟨sig, found⟩ := Option.ne_none_iff_exists'.mp named
    obtain rfl := textNamed_eq_some.mp found
    obtain ⟨content, rfl⟩ := readable sig member
    rw [stmtSig, found]
    exact Option.some_ne_none _

theorem stmtSig_last (distinct : DistinctKeys inner) {signature : Bytes} :
    lastOf stmtSig inner = some signature ↔ (.text (ascii "sig"), .bytes signature) ∈ inner := by
  refine (textRead_last distinct).trans ⟨?_, fun member => ⟨_, member, rfl⟩⟩
  intro found
  obtain ⟨item, member, read⟩ := found
  rwa [Item.bytes?_eq_some.mp read] at member

theorem stmtAlg_last (distinct : DistinctKeys inner) {alg : Int32} :
    lastOf stmtAlg inner = some alg ↔ ∃ value,
      (∃ item, (.text (ascii "alg"), item) ∈ inner ∧ item.int? = some value) ∧ Int32.ofInt value = alg := by
  refine (textRead_last distinct).trans ?_
  simp only [attestationInt, coseInt_some, Option.map_map, Option.map_eq_some_iff, Function.comp,
    Int64.toInt32_ofInt]
  constructor
  · intro found
    obtain ⟨item, member, value, read, same⟩ := found
    exact ⟨value, ⟨item, member, read⟩, same⟩
  · intro found
    obtain ⟨value, ⟨item, member, read⟩, same⟩ := found
    exact ⟨item, member, value, read, same⟩

theorem stmtX5c_none :
    inner.any stmtX5c = false ↔ ∀ items, (.text (ascii "x5c"), .array items) ∈ inner → items = [] := by
  rw [List.any_eq_false]
  constructor
  · intro absent items member
    have named : textNamed (ascii "x5c") (.text (ascii "x5c"), .array items) = some (.array items) :=
      textNamed_eq_some.mpr rfl
    cases items with
    | nil => rfl
    | cons item rest => exact absurd (by rw [stmtX5c, named]) (absent _ member)
  · intro empty pair member found
    unfold stmtX5c at found
    split at found
    · rename_i item rest named
      obtain rfl := textNamed_eq_some.mp named
      cases empty _ member
    · cases found

/-- The code compares the low 32 bits. -/
def LowBits (value : Int) (alg : Int32) : Prop := Int32.ofInt value = alg

theorem selfAttested_iff (unloadable : ext.cborLoad [] = none) (distinct : DistinctKeys inner) :
    (stmtFields inner ⟨fmt, authData, 0, [], false⟩).hasX5c = false ∧
        attestationVerifyPacked ext (stmtFields inner ⟨fmt, authData, 0, [], false⟩) ad clientDataHash = .ok ↔
      ∃ value alg, SelfAttested ext inner authData ad clientDataHash value alg ∧ LowBits value alg := by
  rw [attestationVerifyPacked_ok]
  simp only [stmtFields, Bool.false_or, stmtX5c_none]
  constructor
  · intro checked
    obtain ⟨uncertified, signed, attested, _, pkey, decoded, verified⟩ := checked
    cases signature : lastOf stmtSig inner with
    | none =>
        rw [signature] at signed
        exact absurd rfl signed
    | some content =>
        rw [signature, Option.getD_some] at signed verified
        cases named : lastOf stmtAlg inner with
        | none =>
            rw [named, Option.getD_none] at decoded
            exact absurd (coseToPkey_supported decoded) (by decide)
        | some alg =>
            rw [named, Option.getD_some] at decoded verified
            obtain ⟨value, present, same⟩ := (stmtAlg_last distinct).mp named
            exact ⟨value, alg, ⟨uncertified, present, attested, content, pkey,
              (stmtSig_last distinct).mp signature, signed, decoded, verified⟩, same⟩
  · intro attested
    obtain ⟨value, alg, self, same⟩ := attested
    obtain ⟨signature, pkey, member, signed, decoded, verified⟩ := self.signed
    have named := (stmtAlg_last distinct).mpr ⟨value, self.named, same⟩
    have keyed : ad.cosePublicKey ≠ [] := by
      intro empty
      rw [empty, coseToPkey, unloadable] at decoded
      cases decoded
    rw [(stmtSig_last distinct).mpr member, named, Option.getD_some, Option.getD_some]
    exact ⟨self.uncertified, signed, self.attested, keyed, pkey, decoded, verified⟩

theorem attestationAccepted_iff {data : Bytes} {read : Nat} {require : AttestationLevel}
    (loaded : ext.cborLoad data = some (.map pairs, read)) (unloadable : ext.cborLoad [] = none)
    (distinct : DistinctKeys pairs)
    (distinctInner : ∀ inner, (.text (ascii "attStmt"), .map inner) ∈ pairs → DistinctKeys inner) :
    AttestationAccepted ext data rpId clientDataHash require ↔
      read = data.length ∧ AttestationMeets ext LowBits pairs rpId clientDataHash require := by
  simp only [AttestationAccepted, attestationParse_ok loaded, attestationVerify_ok,
    textLookup_iff distinct]
  constructor
  · intro accepted
    obtain ⟨att, ⟨consumed, fmt, authData, format, data, stmt⟩, ad, parsed, relying, policy⟩ := accepted
    refine ⟨consumed, ?_⟩
    rcases stmt with ⟨absent, rfl⟩ | ⟨inner, present, readable, rfl⟩
    · have unstated : ∀ item, (Item.text (ascii "attStmt"), item) ∉ pairs := by
        intro item member
        rw [(textLookup_iff distinct).mpr member] at absent
        cases absent
      refine ⟨fmt, authData, ad, ⟨format, data, parsed, relying, fun item member =>
        absurd member (unstated item)⟩, policy.imp_right ?_⟩
      intro required
      obtain ⟨_, _, _, packed⟩ := required
      exact absurd rfl (attestationVerifyPacked_ok.mp packed).1
    · refine ⟨fmt, authData, ad, ⟨format, data, parsed, relying, ?_⟩, policy.imp_right ?_⟩
      · intro item member
        obtain rfl := distinct.value_eq member present
        exact ⟨inner, rfl, sigReadable_iff.mp readable⟩
      · intro required
        obtain ⟨required, packed, self⟩ := required
        obtain ⟨value, alg, self, same⟩ :=
          (selfAttested_iff unloadable (distinctInner inner present)).mp self
        exact ⟨required, packed, inner, value, alg, present, self, same⟩
  · intro meets
    obtain ⟨consumed, fmt, authData, ad, formed, policy⟩ := meets
    cases stmt : textLookup pairs (ascii "attStmt") with
    | none =>
        refine ⟨⟨fmt, authData, 0, [], false⟩, ⟨consumed, fmt, authData, formed.format, formed.data,
          .inl ⟨rfl, rfl⟩⟩, ad, formed.parsed, formed.relying, policy.imp_right ?_⟩
        intro required
        obtain ⟨_, _, inner, _, _, present, _⟩ := required
        rw [(textLookup_iff distinct).mpr present] at stmt
        cases stmt
    | some item =>
        have member := (textLookup_iff distinct).mp stmt
        obtain ⟨inner, rfl, readable⟩ := formed.stmt item member
        refine ⟨stmtFields inner ⟨fmt, authData, 0, [], false⟩, ⟨consumed, fmt, authData, formed.format,
          formed.data, .inr ⟨inner, member, sigReadable_iff.mpr readable, rfl⟩⟩, ad, formed.parsed,
          formed.relying, policy.imp_right ?_⟩
        intro required
        obtain ⟨required, packed, other, value, alg, present, self, same⟩ := required
        obtain rfl : inner = other := Item.map.inj (distinct.value_eq member present)
        exact ⟨required, packed, (selfAttested_iff unloadable (distinctInner inner member)).mpr
          ⟨value, alg, self, same⟩⟩

def SameInteger (value : Int) (alg : Int32) : Prop := value = alg.toInt

/-- The integers differ by a multiple of 2^32 other than 0. -/
def Wraps (value : Int) (alg : Int32) : Prop := value ≠ alg.toInt ∧ 2 ^ 32 ∣ value - alg.toInt

theorem lowBits_iff {value : Int} {alg : Int32} :
    LowBits value alg ↔ SameInteger value alg ∨ Wraps value alg := by
  have divides : LowBits value alg ↔ (2 ^ 32 : Int) ∣ value - alg.toInt := by
    conv_lhs => rw [LowBits, ← Int32.ofInt_toInt alg, ← Int32.toInt_inj, Int32.toInt_ofInt, Int32.toInt_ofInt]
    exact Int.bmod_eq_bmod_iff_bmod_sub_eq_zero.trans Int.dvd_iff_bmod_eq_zero.symm
  rw [divides, SameInteger, Wraps]
  omega

/-- A packed self-attestation that meets every condition except that the statement
names another integer with the same low 32 bits as the algorithm of the key. -/
def WrappedAttestation (ext : AdminExternals) (pairs : List (Item × Item)) (rpId clientDataHash : Bytes) :
    Prop :=
  ∃ authData ad inner value alg, ObjectFormed ext pairs rpId (ascii "packed") authData ad ∧
    (.text (ascii "attStmt"), .map inner) ∈ pairs ∧
    SelfAttested ext inner authData ad clientDataHash value alg ∧ Wraps value alg

structure AttestationExact (ext : AdminExternals) (data : Bytes) (pairs : List (Item × Item)) (read : Nat)
    (rpId clientDataHash : Bytes) : Prop where
  accepts : ∀ require, AttestationAccepted ext data rpId clientDataHash require ↔
    read = data.length ∧ AttestationMeets ext SameInteger pairs rpId clientDataHash require
  monotone : AttestationAccepted ext data rpId clientDataHash .none →
    AttestationAccepted ext data rpId clientDataHash .packed

/-- An object has one statement, and a statement one algorithm. -/
theorem SelfAttested.unique (distinct : DistinctKeys inner) {value other : Int} {alg otherAlg : Int32}
    (first : SelfAttested ext inner authData ad clientDataHash value alg)
    (second : SelfAttested ext inner authData ad clientDataHash other otherAlg) :
    value = other ∧ alg = otherAlg := by
  obtain ⟨item, member, read⟩ := first.named
  obtain ⟨item', member', read'⟩ := second.named
  obtain rfl := distinct.value_eq member member'
  obtain ⟨_, _, _, _, decoded, _⟩ := first.signed
  obtain ⟨_, _, _, _, decoded', _⟩ := second.signed
  rw [decoded] at decoded'
  exact ⟨Option.some.inj (read.symm.trans read'), (Prod.mk.inj (Except.ok.inj decoded')).2⟩

theorem attestation_policy_exact_iff {data : Bytes} {read : Nat}
    (loaded : ext.cborLoad data = some (.map pairs, read)) (unloadable : ext.cborLoad [] = none)
    (distinct : DistinctKeys pairs)
    (distinctInner : ∀ inner, (.text (ascii "attStmt"), .map inner) ∈ pairs → DistinctKeys inner) :
    AttestationExact ext data pairs read rpId clientDataHash ↔
      ¬ (read = data.length ∧ WrappedAttestation ext pairs rpId clientDataHash) := by
  have accepted (require : AttestationLevel) :
      AttestationAccepted ext data rpId clientDataHash require ↔
        read = data.length ∧ AttestationMeets ext LowBits pairs rpId clientDataHash require :=
    attestationAccepted_iff loaded unloadable distinct distinctInner
  constructor
  · intro faithful wrapped
    obtain ⟨consumed, authData, ad, inner, value, alg, formed, present, self, wraps⟩ := wrapped
    have passes := (accepted .packed).mpr ⟨consumed, _, authData, ad, formed,
      .inr ⟨rfl, rfl, inner, value, alg, present, self, lowBits_iff.mpr (.inr wraps)⟩⟩
    obtain ⟨_, fmt, authData', ad', formed', policy⟩ := (faithful.accepts .packed).mp passes
    obtain rfl : authData' = authData := Item.bytes.inj (distinct.value_eq formed'.data formed.data)
    obtain rfl : ad' = ad := Except.ok.inj (formed'.parsed.symm.trans formed.parsed)
    obtain rfl : fmt = ascii "packed" := Item.text.inj (distinct.value_eq formed'.format formed.format)
    rcases policy with none | ⟨_, _, inner', value', alg', present', self', same⟩
    · exact absurd none (by decide)
    · obtain rfl : inner' = inner := Item.map.inj (distinct.value_eq present' present)
      obtain ⟨rfl, rfl⟩ := self'.unique (distinctInner _ present) self
      exact wraps.1 same
  · intro unwrapped
    constructor
    · intro require
      rw [accepted require]
      refine and_congr_right fun consumed => ⟨AttestationMeets.imp ?_, AttestationMeets.imp ?_⟩
      · intro authData ad inner value alg formed present self same
        refine (lowBits_iff.mp same).resolve_right ?_
        exact fun wraps => unwrapped ⟨consumed, authData, ad, inner, value, alg, formed, present, self, wraps⟩
      · intro authData ad inner value alg _ _ _ same
        exact lowBits_iff.mpr (.inl same)
    · intro passes
      obtain ⟨consumed, fmt, authData, ad, formed, policy⟩ := (accepted .none).mp passes
      refine (accepted .packed).mpr ⟨consumed, fmt, authData, ad, formed, .inl ?_⟩
      rcases policy with none | ⟨required, _⟩
      · exact none
      · cases required

end

namespace Sample

def enrolKey : Bytes := bytesOf 44 0x302a300506032b657003210027c02d07c0aea134a5f41143f1b371420a4eddfb8e20e22db4c8d59e64b71698

def enrolClientData : Bytes :=
  ascii "\x7b\"type\":\"webauthn.create\",\"challenge\":\"" ++ Base64url.encode (List.replicate 32 4) ++
    ascii "\",\"origin\":\"https://example.com\"\x7d"

def enrolHash : Bytes := bytesOf 32 0xb514abb1cee1403a24f28512e8aff94f5698fea3bb537379d063119c648a191a

/-- The credential has the id 01. -/
def enrolAuthData : Bytes :=
  rpIdHash ++ [0x41, 0, 0, 0, 0] ++ List.replicate 16 0 ++ [0, 1, 1] ++ okpCose (enrolKey.drop 12)

def enrolSignature : Bytes :=
  bytesOf 32 0x353bd9646350f6864281d33b2533246d28d5d3b3fbdcaaaf19813ca321ad31d5 ++
    bytesOf 32 0xad05d159b13f5c154c8115bf74ff6cd88187ee2b2e1027e0c5aeec7d1b32b70c

def enrolTables : Tables where
  digests := [(ascii "example.com", rpIdHash), (enrolClientData, enrolHash)]
  publicKey := enrolKey
  signatures := [(enrolSignature, enrolAuthData ++ enrolHash)]
  jwtAlg := tables.jwtAlg
  jwtSecret := tables.jwtSecret
  tokens := []

/-- The statement, with a given algorithm. -/
def packedStmt (alg : Item) : List (Item × Item) :=
  [(.text (ascii "alg"), alg), (.text (ascii "sig"), .bytes enrolSignature)]

def packedPairs (alg : Item) : List (Item × Item) :=
  [(.text (ascii "fmt"), .text (ascii "packed")), (.text (ascii "attStmt"), .map (packedStmt alg)),
    (.text (ascii "authData"), .bytes enrolAuthData)]

/-- The encoded object; a byte before a text is its length, with the major type. -/
def packedObject (alg : Bytes) : Bytes :=
  0xa3 :: 0x63 :: ascii "fmt" ++ 0x66 :: ascii "packed" ++ 0x67 :: ascii "attStmt" ++
    0xa2 :: 0x63 :: ascii "alg" ++ alg ++ 0x63 :: ascii "sig" ++ 0x58 :: 0x40 :: enrolSignature ++
    0x68 :: ascii "authData" ++ 0x58 :: 0x62 :: enrolAuthData

/-- The algorithm of the key, -8. -/
def plainObject : Bytes := packedObject [0x27]

/-- The algorithm 2^32 - 8. -/
def wrappedObject : Bytes := packedObject [0x1a, 0xff, 0xff, 0xff, 0xf8]

def enrolExt : AdminExternals := enrolTables.admin
  [(okpCose (enrolKey.drop 12), .map (okpPairs (enrolKey.drop 12))),
    (plainObject, .map (packedPairs (.negint 7))), (wrappedObject, .map (packedPairs (.uint 4294967288)))]

theorem plain_loads :
    enrolExt.cborLoad plainObject = some (.map (packedPairs (.negint 7)), plainObject.length) := by
  have other : (okpCose (enrolKey.drop 12)).isPrefixOf plainObject = false := by decide +kernel
  simp [enrolExt, Tables.admin, other]

theorem wrapped_loads :
    enrolExt.cborLoad wrappedObject = some (.map (packedPairs (.uint 4294967288)), wrappedObject.length) := by
  have key : (okpCose (enrolKey.drop 12)).isPrefixOf wrappedObject = false := by decide +kernel
  have plain : plainObject.isPrefixOf wrappedObject = false := by decide +kernel
  simp [enrolExt, Tables.admin, key, plain]

theorem packedPairs_distinct (alg : Item) : DistinctKeys (packedPairs alg) := by
  have names : [ascii "fmt", ascii "attStmt", ascii "authData"].Nodup := by decide
  have keys : ([ascii "fmt", ascii "attStmt", ascii "authData"].map Item.text).Nodup :=
    names.map fun _ _ => Item.text.inj
  exact keys

theorem packedStmt_distinct (alg : Item) : DistinctKeys (packedStmt alg) := by
  have names : [ascii "alg", ascii "sig"].Nodup := by decide
  have keys : ([ascii "alg", ascii "sig"].map Item.text).Nodup := names.map fun _ _ => Item.text.inj
  exact keys

theorem stmt_of_packedPairs {alg : Item} {inner : List (Item × Item)}
    (present : (.text (ascii "attStmt"), .map inner) ∈ packedPairs alg) : inner = packedStmt alg :=
  Item.map.inj ((packedPairs_distinct alg).value_eq present (by simp [packedPairs]))

theorem packed_parsed {data : Bytes} {alg : Item}
    (loaded : enrolExt.cborLoad data = some (.map (packedPairs alg), data.length)) :
    attestationParse enrolExt data =
      .ok (stmtFields (packedStmt alg) ⟨ascii "packed", enrolAuthData, 0, [], false⟩) := by
  have found {name : Bytes} {item : Item} (member : (.text name, item) ∈ packedPairs alg) :=
    (textLookup_iff (packedPairs_distinct alg)).mpr member
  refine (attestationParse_ok loaded).mpr ⟨rfl, ascii "packed", enrolAuthData, found (by simp [packedPairs]),
    found (by simp [packedPairs]), .inr ⟨packedStmt alg, found (by simp [packedPairs]), ?_, rfl⟩⟩
  rw [sigReadable_iff]
  intro sig member
  exact ⟨enrolSignature, (packedStmt_distinct alg).value_eq member (by simp [packedStmt])⟩

/-- The algorithm that the statement of a self-attestation names. -/
theorem named_of_packedPairs {alg : Item} {inner : List (Item × Item)} {authData clientDataHash : Bytes}
    {ad : Authdata} {value : Int} {keyAlg : Int32} (present : (.text (ascii "attStmt"), .map inner) ∈ packedPairs alg)
    (self : SelfAttested enrolExt inner authData ad clientDataHash value keyAlg) : alg.int? = some value := by
  obtain rfl := stmt_of_packedPairs present
  obtain ⟨item, member, read⟩ := self.named
  obtain rfl : item = alg := (packedStmt_distinct alg).value_eq member (by simp [packedStmt])
  exact read

end Sample

theorem plain_attestation_exact :
    AttestationExact Sample.enrolExt Sample.plainObject (Sample.packedPairs (.negint 7))
      Sample.plainObject.length (ascii "example.com") Sample.enrolHash := by
  refine (attestation_policy_exact_iff Sample.plain_loads (by decide +kernel) (Sample.packedPairs_distinct _)
    fun inner present => Sample.stmt_of_packedPairs present ▸ Sample.packedStmt_distinct _).mpr ?_
  intro wrapped
  obtain ⟨_, authData, ad, inner, value, alg, _, present, self, differs, divides⟩ := wrapped
  obtain rfl : -8 = value := Option.some.inj (Sample.named_of_packedPairs present self)
  obtain ⟨_, _, _, _, decoded, _⟩ := self.signed
  rcases coseToPkey_supported decoded with rfl | rfl | rfl
  · exact absurd divides (by decide)
  · exact differs rfl
  · exact absurd divides (by decide)

/-- The algorithm 2^32 - 8 is taken for -8. -/
theorem wrapped_attestation_accepted :
    Sample.enrolExt.cborLoad Sample.wrappedObject =
        some (.map (Sample.packedPairs (.uint 4294967288)), Sample.wrappedObject.length) ∧
      DistinctKeys (Sample.packedPairs (.uint 4294967288)) ∧
      DistinctKeys (Sample.packedStmt (.uint 4294967288)) ∧
      AttestationAccepted Sample.enrolExt Sample.wrappedObject (ascii "example.com") Sample.enrolHash .packed ∧
      ¬ AttestationMeets Sample.enrolExt SameInteger (Sample.packedPairs (.uint 4294967288))
        (ascii "example.com") Sample.enrolHash .packed := by
  refine ⟨Sample.wrapped_loads, Sample.packedPairs_distinct _, Sample.packedStmt_distinct _, ?_, ?_⟩
  · exact ⟨_, Sample.packed_parsed Sample.wrapped_loads, by decide +kernel⟩
  · intro meets
    obtain ⟨fmt, authData, ad, formed, policy⟩ := meets
    have packed : fmt = ascii "packed" :=
      Item.text.inj ((Sample.packedPairs_distinct _).value_eq formed.format (by simp [Sample.packedPairs]))
    rcases policy with none | ⟨_, _, inner, value, alg, present, self, same⟩
    · exact absurd (packed.symm.trans none) (by decide)
    · obtain rfl : 4294967288 = value := Option.some.inj (Sample.named_of_packedPairs present self)
      have bound := alg.toInt_lt
      rw [SameInteger] at same
      omega

end AuthWebauthn
