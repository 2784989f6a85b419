import AuthWebauthn.Register.Cose
import AuthWebauthn.System.Sample

namespace AuthWebauthn

open Cbor Slots

/-! The forms of a key over any way to look up labels, and the key that `cose_to_pkey`
ends up with.  A later entry replaces an earlier one, and integers are compared modulo 2^64.
-/

section

variable {ext : AdminExternals}

/-- The three supported keys, given which integers and byte strings are found under
which labels. -/
inductive KeyForm (ext : AdminExternals) (int : Int → Int → Prop) (bytes : Int → Bytes → Prop) :
    ext.Pkey → Int32 → Prop
  | ec2 {x y : Bytes} {pkey : ext.Pkey} (kty : int 1 2) (alg : int 3 (-7)) (crv : int (-1) 1)
      (first : bytes (-2) x) (second : bytes (-3) y) (width : x.length = 32) (height : y.length = 32)
      (built : ext.ecPkey (0x04 :: x ++ y) = some pkey) : KeyForm ext int bytes pkey (-7)
  | okp {x : Bytes} {pkey : ext.Pkey} (kty : int 1 1) (alg : int 3 (-8)) (crv : int (-1) 6)
      (key : bytes (-2) x) (width : x.length = 32) (built : ext.ed25519Pkey x = some pkey) :
      KeyForm ext int bytes pkey (-8)
  | rsa {n e : Bytes} {pkey : ext.Pkey} (kty : int 1 3) (alg : int 3 (-257)) (modulus : bytes (-1) n)
      (exponent : bytes (-2) e) (built : ext.rsaPkey n e = some pkey) :
      KeyForm ext int bytes pkey (-257)

theorem KeyForm.ed25519_curve {int : Int → Int → Prop} {bytes : Int → Bytes → Prop} {pkey : ext.Pkey}
    {alg : Int32} (form : KeyForm ext int bytes pkey alg) (named : alg = -8) : int (-1) 6 := by
  cases form with
  | ec2 kty alg crv first second width height built => exact absurd named (by decide)
  | okp kty alg crv key width built => exact crv
  | rsa kty alg modulus exponent built => exact absurd named (by decide)

/-- The labels that `cose_to_pkey` looks for. -/
def coseLabels : List Int := [1, 3, -1, -2, -3]

/-- The labels with the integers that `cose_to_pkey` compares their values with. -/
def coseValues : List (Int × Int) :=
  [(1, 1), (1, 2), (1, 3), (3, -7), (3, -8), (3, -257), (-1, 1), (-1, 6)]

/-- What a field of a key holds. -/
inductive CoseField where
  | int (value : Int)
  | bytes (content : Bytes)

namespace CoseField

def Read : CoseField → Item → Prop
  | .int value, item => item.int? = some value
  | .bytes content, item => item.bytes? = some content

/-- Read with the integers modulo 2^64. -/
def Wrapped : CoseField → Item → Prop
  | .int value, item => item.int? = some value ∨ item.int? = some (twin value)
  | .bytes content, item => item.bytes? = some content

theorem Read.wrapped {field : CoseField} {item : Item} (read : field.Read item) : field.Wrapped item := by
  cases field with
  | int value => exact .inl read
  | bytes content => exact read

end CoseField

/-- What a key says, before a library makes a public key of it. -/
inductive KeyContent where
  | ec2 (x y : Bytes)
  | okp (x : Bytes)
  | rsa (n e : Bytes)

namespace KeyContent

/-- The labels that such a key needs, with what they hold. -/
def fields : KeyContent → List (Int × CoseField)
  | .ec2 x y => [(1, .int 2), (3, .int (-7)), (-1, .int 1), (-2, .bytes x), (-3, .bytes y)]
  | .okp x => [(1, .int 1), (3, .int (-8)), (-1, .int 6), (-2, .bytes x)]
  | .rsa n e => [(1, .int 3), (3, .int (-257)), (-1, .bytes n), (-2, .bytes e)]

def Sized : KeyContent → Prop
  | .ec2 x y => x.length = 32 ∧ y.length = 32
  | .okp x => x.length = 32
  | .rsa _ _ => True

def alg : KeyContent → Int32
  | .ec2 _ _ => -7
  | .okp _ => -8
  | .rsa _ _ => -257

def pkey (ext : AdminExternals) : KeyContent → Option ext.Pkey
  | .ec2 x y => ext.ecPkey (0x04 :: x ++ y)
  | .okp x => ext.ed25519Pkey x
  | .rsa n e => ext.rsaPkey n e

theorem fields_known : ∀ content : KeyContent, ∀ entry ∈ content.fields, entry.1 ∈ coseLabels := by
  intro content
  cases content with
  | ec2 x y => simp [fields, coseLabels]
  | okp x => simp [fields, coseLabels]
  | rsa n e => simp [fields, coseLabels]

theorem fields_once (content : KeyContent) : (content.fields.map Prod.fst).Nodup := by
  cases content with
  | ec2 x y => simp [fields]
  | okp x => simp [fields]
  | rsa n e => simp [fields]

/-- What `cose_to_pkey` returns for a key. -/
def result (ext : AdminExternals) (content : KeyContent) : Except Rc (ext.Pkey × Int32) :=
  match content.pkey ext with
  | none => .error .error
  | some pkey => .ok (pkey, content.alg)

theorem alg_supported (content : KeyContent) : content.alg = -7 ∨ content.alg = -8 ∨ content.alg = -257 := by
  cases content with
  | ec2 x y => exact .inl rfl
  | okp x => exact .inr (.inl rfl)
  | rsa n e => exact .inr (.inr rfl)

/-- The loop ends with what the key needs, the integers modulo 2^64. -/
def Picked (pick : Int → Option Item) (content : KeyContent) : Prop :=
  ∀ entry ∈ content.fields, ∃ item, pick entry.1 = some item ∧ entry.2.Wrapped item

/-- A key with that content is made. -/
def Makes (ext : AdminExternals) (holds : KeyContent → Prop) (pkey : ext.Pkey) (alg : Int32) : Prop :=
  ∃ content, content.Sized ∧ holds content ∧ content.pkey ext = some pkey ∧ content.alg = alg

end KeyContent

def CoseField.Found (int : Int → Int → Prop) (bytes : Int → Bytes → Prop) (label : Int) : CoseField → Prop
  | .int value => int label value
  | .bytes content => bytes label content

theorem keyForm_iff {int : Int → Int → Prop} {bytes : Int → Bytes → Prop} {pkey : ext.Pkey} {alg : Int32} :
    KeyForm ext int bytes pkey alg ↔ KeyContent.Makes ext
      (fun content => ∀ entry ∈ content.fields, entry.2.Found int bytes entry.1) pkey alg := by
  constructor
  · intro form
    cases form with
    | @ec2 x y _ kty alg crv first second width height built =>
        refine ⟨.ec2 x y, ⟨width, height⟩, ?_, built, rfl⟩
        simp [KeyContent.fields, CoseField.Found, kty, alg, crv, first, second]
    | @okp x _ kty alg crv key width built =>
        refine ⟨.okp x, width, ?_, built, rfl⟩
        simp [KeyContent.fields, CoseField.Found, kty, alg, crv, key]
    | @rsa n e _ kty alg modulus exponent built =>
        refine ⟨.rsa n e, trivial, ?_, built, rfl⟩
        simp [KeyContent.fields, CoseField.Found, kty, alg, modulus, exponent]
  · intro spelt
    obtain ⟨content, sized, found, built, rfl⟩ := spelt
    cases content with
    | ec2 x y =>
        simp only [KeyContent.fields, List.forall_mem_cons] at found
        obtain ⟨kty, alg, crv, first, second, _⟩ := found
        exact .ec2 kty alg crv first second sized.1 sized.2 built
    | okp x =>
        simp only [KeyContent.fields, List.forall_mem_cons] at found
        obtain ⟨kty, alg, crv, key, _⟩ := found
        exact .okp kty alg crv key sized built
    | rsa n e =>
        simp only [KeyContent.fields, List.forall_mem_cons] at found
        obtain ⟨kty, alg, modulus, exponent, _⟩ := found
        exact .rsa kty alg modulus exponent built

def coseNamed (label : Int) (pair : Item × Item) : Option Item :=
  if coseInt (some pair.1) = some (Int64.ofInt label) then some pair.2 else none

/-- The value that the loop ends with for a label: a later entry replaces an earlier one. -/
def coseLookup (pairs : List (Item × Item)) (label : Int) : Option Item :=
  lastOf (coseNamed label) pairs

/-- Each label has a slot of its own. -/
theorem collect_turn (slots : CoseSlots) (pair : Item × Item) :
    slots.collect pair =
      ⟨(coseNamed 1 pair).or slots.kty, (coseNamed 3 pair).or slots.alg, (coseNamed (-1) pair).or slots.m1,
        (coseNamed (-2) pair).or slots.m2, (coseNamed (-3) pair).or slots.m3⟩ := by
  have one : Int64.ofInt 1 = 1 := by decide
  have three : Int64.ofInt 3 = 3 := by decide
  have minusOne : Int64.ofInt (-1) = -1 := by decide
  have minusTwo : Int64.ofInt (-2) = -2 := by decide
  have minusThree : Int64.ofInt (-3) = -3 := by decide
  simp only [CoseSlots.collect, coseNamed, one, three, minusOne, minusTwo, minusThree]
  split_ifs with kty alg m1 m2 m3
  all_goals simp_all

theorem collected (pairs : List (Item × Item)) :
    pairs.foldl CoseSlots.collect CoseSlots.empty =
      ⟨coseLookup pairs 1, coseLookup pairs 3, coseLookup pairs (-1), coseLookup pairs (-2),
        coseLookup pairs (-3)⟩ := by
  have kty : (pairs.foldl CoseSlots.collect CoseSlots.empty).kty = coseLookup pairs 1 :=
    foldl_empty_slot CoseSlots.kty (fun slots pair => by rw [collect_turn]) rfl
  have alg : (pairs.foldl CoseSlots.collect CoseSlots.empty).alg = coseLookup pairs 3 :=
    foldl_empty_slot CoseSlots.alg (fun slots pair => by rw [collect_turn]) rfl
  have m1 : (pairs.foldl CoseSlots.collect CoseSlots.empty).m1 = coseLookup pairs (-1) :=
    foldl_empty_slot CoseSlots.m1 (fun slots pair => by rw [collect_turn]) rfl
  have m2 : (pairs.foldl CoseSlots.collect CoseSlots.empty).m2 = coseLookup pairs (-2) :=
    foldl_empty_slot CoseSlots.m2 (fun slots pair => by rw [collect_turn]) rfl
  have m3 : (pairs.foldl CoseSlots.collect CoseSlots.empty).m3 = coseLookup pairs (-3) :=
    foldl_empty_slot CoseSlots.m3 (fun slots pair => by rw [collect_turn]) rfl
  rw [← kty, ← alg, ← m1, ← m2, ← m3]

theorem toInt64_eq (value : UInt64) : value.toInt64 = Int64.ofInt value.toNat := by
  rw [Int64.ofInt_eq_ofNat, ← UInt64.toInt64_ofNat', UInt64.ofNat_toNat]

theorem coseInt_some (item : Item) : coseInt (some item) = item.int?.map Int64.ofInt := by
  cases item with
  | uint value => simp only [coseInt, Item.int?, Option.map_some, toInt64_eq]
  | negint value =>
      simp only [coseInt, Item.int?, Option.map_some, toInt64_eq, Int64.ofInt_sub, Int64.ofInt_neg]
      rfl
  | _ => rfl

/-- The code takes an integer for the target exactly if their difference is a multiple
of 2^64. -/
theorem coseInt_eq_iff (item : Item) {target : Int} (least : -2 ^ 63 ≤ target) (most : target < 2 ^ 63) :
    coseInt (some item) = some (Int64.ofInt target) ↔
      item.int? = some target ∨ item.int? = some (twin target) := by
  rw [coseInt_some]
  cases read : item.int? with
  | none => simp
  | some value =>
      obtain ⟨low, high⟩ := Item.int?_range read
      simp only [Option.map_some, Option.some.injEq, ofInt_eq_iff low high least most]

theorem coseValues_fit : ∀ entry ∈ coseValues, -2 ^ 63 ≤ entry.2 ∧ entry.2 < 2 ^ 63 := by decide

section Result

variable {pairs : List (Item × Item)} {cose : Bytes} {read : Nat}

theorem wrapped_int {label value : Int} (known : (label, value) ∈ coseValues) :
    (∃ item, coseLookup pairs label = some item ∧ (CoseField.int value).Wrapped item) ↔
      coseInt (coseLookup pairs label) = some (Int64.ofInt value) := by
  obtain ⟨least, most⟩ := coseValues_fit _ known
  cases coseLookup pairs label with
  | none => simp [coseInt]
  | some item => simp [coseInt_eq_iff item least most, CoseField.Wrapped]

theorem wrapped_bytes {label : Int} {content : Bytes} :
    (∃ item, coseLookup pairs label = some item ∧ (CoseField.bytes content).Wrapped item) ↔
      coseBytes (coseLookup pairs label) = some content :=
  Option.bind_eq_some_iff.symm

/-- What the loop ends with decides the result. -/
theorem coseToPkey_picked (loaded : ext.cborLoad cose = some (.map pairs, read))
    {content : KeyContent} (sized : content.Sized) (picked : content.Picked (coseLookup pairs)) :
    coseToPkey ext cose = content.result ext := by
  cases content with
  | ec2 x y =>
      obtain ⟨width, height⟩ := sized
      simp only [KeyContent.Picked, KeyContent.fields, List.forall_mem_cons] at picked
      obtain ⟨kty, alg, crv, first, second, _⟩ := picked
      have kty : coseInt (coseLookup pairs 1) = some 2 := (wrapped_int (by decide)).mp kty
      have alg : coseInt (coseLookup pairs 3) = some (-7) := (wrapped_int (by decide)).mp alg
      have crv : coseInt (coseLookup pairs (-1)) = some 1 := (wrapped_int (by decide)).mp crv
      rw [wrapped_bytes] at first second
      simp only [coseToPkey, loaded, collected, kty, alg, coseSlotsPkey, coseEc2Pkey, crv, first, second, width, height,
        KeyContent.result, KeyContent.pkey]
      cases ext.ecPkey (4 :: x ++ y) with
      | none => rfl
      | some pkey => rfl
  | okp x =>
      simp only [KeyContent.Picked, KeyContent.fields, List.forall_mem_cons] at picked
      obtain ⟨kty, alg, crv, key, _⟩ := picked
      have kty : coseInt (coseLookup pairs 1) = some 1 := (wrapped_int (by decide)).mp kty
      have alg : coseInt (coseLookup pairs 3) = some (-8) := (wrapped_int (by decide)).mp alg
      have crv : coseInt (coseLookup pairs (-1)) = some 6 := (wrapped_int (by decide)).mp crv
      have width : x.length = 32 := sized
      rw [wrapped_bytes] at key
      simp only [coseToPkey, loaded, collected, kty, alg, coseSlotsPkey, coseOkpPkey, crv, key, width,
        KeyContent.result, KeyContent.pkey]
      cases ext.ed25519Pkey x with
      | none => rfl
      | some pkey => rfl
  | rsa n e =>
      simp only [KeyContent.Picked, KeyContent.fields, List.forall_mem_cons] at picked
      obtain ⟨kty, alg, modulus, exponent, _⟩ := picked
      have kty : coseInt (coseLookup pairs 1) = some 3 := (wrapped_int (by decide)).mp kty
      have alg : coseInt (coseLookup pairs 3) = some (-257) := (wrapped_int (by decide)).mp alg
      rw [wrapped_bytes] at modulus exponent
      simp only [coseToPkey, loaded, collected, kty, alg, coseSlotsPkey, coseRsaPkey, modulus, exponent,
        KeyContent.result, KeyContent.pkey]
      cases ext.rsaPkey n e with
      | none => rfl
      | some pkey => rfl

/-- A result other than NGX_DECLINED comes from a key that the loop has ended with. -/
theorem coseToPkey_cases (loaded : ext.cborLoad cose = some (.map pairs, read)) :
    coseToPkey ext cose = .error .declined ∨
      ∃ content : KeyContent, content.Sized ∧ content.Picked (coseLookup pairs) := by
  rw [or_iff_not_imp_left]
  intro undeclined
  simp only [coseToPkey, loaded, collected] at undeclined
  have int {label value : Int} (known : (label, value) ∈ coseValues)
      (read : coseInt (coseLookup pairs label) = some (Int64.ofInt value)) :
      ∃ item, coseLookup pairs label = some item ∧ (CoseField.int value).Wrapped item :=
    (wrapped_int known).mpr read
  cases kty : coseInt (coseLookup pairs 1) with
  | none => simp [kty] at undeclined
  | some keyType =>
      cases alg : coseInt (coseLookup pairs 3) with
      | none => simp [kty, alg] at undeclined
      | some algId =>
          simp only [kty, alg] at undeclined
          rcases coseSlotsPkey_read fun declined => undeclined (by rw [declined]) with
            ⟨rfl, rfl, ec2⟩ | ⟨rfl, rfl, okp⟩ | ⟨rfl, rfl, rsa⟩
          · obtain ⟨crv, x, y, first, second, sizes⟩ := coseEc2Pkey_read ec2
            refine ⟨.ec2 x y, sizes, ?_⟩
            simp only [KeyContent.Picked, KeyContent.fields, List.forall_mem_cons]
            exact ⟨int (by decide) kty, int (by decide) alg, int (by decide) crv, wrapped_bytes.mpr first,
              wrapped_bytes.mpr second, List.forall_mem_nil _⟩
          · obtain ⟨crv, x, key, size⟩ := coseOkpPkey_read okp
            refine ⟨.okp x, size, ?_⟩
            simp only [KeyContent.Picked, KeyContent.fields, List.forall_mem_cons]
            exact ⟨int (by decide) kty, int (by decide) alg, int (by decide) crv, wrapped_bytes.mpr key,
              List.forall_mem_nil _⟩
          · obtain ⟨n, e, modulus, exponent⟩ := coseRsaPkey_read rsa
            refine ⟨.rsa n e, trivial, ?_⟩
            simp only [KeyContent.Picked, KeyContent.fields, List.forall_mem_cons]
            exact ⟨int (by decide) kty, int (by decide) alg, wrapped_bytes.mpr modulus, wrapped_bytes.mpr exponent,
              List.forall_mem_nil _⟩

theorem coseToPkey_ok_iff (loaded : ext.cborLoad cose = some (.map pairs, read)) {pkey : ext.Pkey} {alg : Int32} :
    coseToPkey ext cose = .ok (pkey, alg) ↔ KeyContent.Makes ext (KeyContent.Picked (coseLookup pairs)) pkey alg := by
  constructor
  · intro accepted
    rcases coseToPkey_cases loaded with declined | ⟨content, sized, picked⟩
    · rw [declined] at accepted
      cases accepted
    · rw [coseToPkey_picked loaded sized picked, KeyContent.result] at accepted
      cases built : content.pkey ext with
      | none => simp [built] at accepted
      | some made =>
          simp only [built, Except.ok.injEq, Prod.mk.injEq] at accepted
          exact ⟨content, sized, picked, accepted.1 ▸ built, accepted.2⟩
  · intro made
    obtain ⟨content, sized, picked, built, rfl⟩ := made
    rw [coseToPkey_picked loaded sized picked, KeyContent.result, built]

end Result

theorem coseToPkey_built {cose : Bytes} {pkey : ext.Pkey} {alg : Int32}
    (decoded : coseToPkey ext cose = .ok (pkey, alg)) :
    ∃ content : KeyContent, content.pkey ext = some pkey ∧ content.alg = alg := by
  have loaded : ∃ pairs read, ext.cborLoad cose = some (.map pairs, read) := by
    unfold coseToPkey at decoded
    split at decoded
    · rename_i pairs read loaded
      exact ⟨pairs, read, loaded⟩
    · cases decoded
  obtain ⟨pairs, read, loaded⟩ := loaded
  obtain ⟨content, _, _, built, named⟩ := (coseToPkey_ok_iff loaded).mp decoded
  exact ⟨content, built, named⟩

/-- The algorithm of a decoded key is one of three. -/
theorem coseToPkey_supported {cose : Bytes} {pkey : ext.Pkey} {alg : Int32}
    (decoded : coseToPkey ext cose = .ok (pkey, alg)) : alg = -7 ∨ alg = -8 ∨ alg = -257 := by
  obtain ⟨content, _, rfl⟩ := coseToPkey_built decoded
  exact content.alg_supported

end

/-- The libraries of the admin command, for the given encoded items. -/
def Tables.admin (tables : Tables) (items : List (Bytes × Item)) : AdminExternals where
  toExternals := tables.externals
  cborLoad data :=
    (items.find? fun entry => entry.1.isPrefixOf data).map fun entry => (entry.2, entry.1.length)
  ecPkey _ := none
  ed25519Pkey key := some (tables.publicKey.take 12 ++ key)
  rsaPkey _ _ := none
  i2dPubkey (pkey : Bytes) := if pkey = tables.publicKey then some pkey else none

theorem admin_load (tables : Tables) (data : Bytes) (item : Item) (rest : List (Bytes × Item)) :
    (tables.admin ((data, item) :: rest)).cborLoad data = some (item, data.length) := by
  simp [Tables.admin]

namespace Sample

/-- The raw Ed25519 key in the public key. -/
def rawKey : Bytes := publicKey.drop 12

/-- An Ed25519 key, given its 32 bytes. -/
def okpPairs (key : Bytes) : List (Item × Item) :=
  [(.uint 1, .uint 1), (.uint 3, .negint 7), (.negint 0, .uint 6), (.negint 1, .bytes key)]

def okpCose (key : Bytes) : Bytes := bytesOf 10 0xa4010103272006215820 ++ key

end Sample

end AuthWebauthn
