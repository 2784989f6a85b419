import AuthWebauthn.Register.KeyForm

namespace AuthWebauthn

open Cbor Slots

/-! Which maps are accepted exactly for the keys that they hold.  Where a label and the
other integer with its low 64 bits both occur, the order of the entries picks one of the two.
-/

theorem coseLabels_fit : ∀ label ∈ coseLabels, -2 ^ 63 ≤ label ∧ label < 2 ^ 63 := by decide

theorem coseLabels_apart : ∀ label ∈ coseLabels, ∀ other ∈ coseLabels,
    Int64.ofInt label = Int64.ofInt other → label = other := by decide

/-- The map has `item` under the label or under its alias. -/
def Near (pairs : List (Item × Item)) (label : Int) (item : Item) : Prop :=
  At pairs label item ∨ At pairs (twin label) item

theorem near_iff {pairs : List (Item × Item)} {label : Int} (known : label ∈ coseLabels) {item : Item} :
    Near pairs label item ↔ ∃ pair ∈ pairs, coseNamed label pair = some item := by
  obtain ⟨least, most⟩ := coseLabels_fit label known
  simp only [coseNamed, Option.ite_none_right_eq_some, Option.some.injEq, coseInt_eq_iff _ least most]
  constructor
  · intro near
    rcases near with ⟨key, member, read⟩ | ⟨key, member, read⟩
    · exact ⟨(key, item), member, .inl read, rfl⟩
    · exact ⟨(key, item), member, .inr read, rfl⟩
  · intro named
    obtain ⟨⟨key, value⟩, member, read, rfl⟩ := named
    rcases read with read | read
    · exact .inl ⟨key, member, read⟩
    · exact .inr ⟨key, member, read⟩

/-- For each label one entry under it or under its alias, where there is any. -/
structure Picks (pairs : List (Item × Item)) (pick : Int → Option Item) : Prop where
  near : ∀ label ∈ coseLabels, ∀ item, pick label = some item → Near pairs label item
  total : ∀ label ∈ coseLabels, ∀ item, Near pairs label item → pick label ≠ none

theorem picks_lookup {pairs others : List (Item × Item)} (same : pairs.Perm others) :
    Picks pairs (coseLookup others) := by
  constructor
  · intro label known item found
    obtain ⟨pair, member, named⟩ := exists_of_lastOf found
    exact (near_iff known).mpr ⟨pair, same.mem_iff.mpr member, named⟩
  · intro label known item near absent
    obtain ⟨pair, member, named⟩ := (near_iff known).mp near
    have present := lastOf_isSome (same.mem_iff.mp member) named
    rw [coseLookup] at absent
    rw [absent] at present
    cases present

/-- Every choice is what the loop ends with in some order of the entries. -/
theorem exists_lookup {pairs : List (Item × Item)} {pick : Int → Option Item} (picks : Picks pairs pick) :
    ∃ others, pairs.Perm others ∧ ∀ label ∈ coseLabels, coseLookup others label = pick label := by
  have ordered : ∃ others, pairs.Perm others ∧ ∀ label : { label // label ∈ coseLabels },
      lastOf (coseNamed label) others = pick label := by
    refine exists_perm_lastOf ?_ ?_ ?_
    · intro pair _ label other left right named named'
      simp only [coseNamed, Option.ite_none_right_eq_some] at named named'
      refine Subtype.ext (coseLabels_apart label label.2 other other.2 ?_)
      exact Option.some.inj (named.1.symm.trans named'.1)
    · intro label item chosen
      exact (near_iff label.2).mp (picks.near label label.2 item chosen)
    · intro label pair member item named
      exact picks.total label label.2 item ((near_iff label.2).mpr ⟨pair, member, named⟩)
  obtain ⟨others, same, last⟩ := ordered
  exact ⟨others, same, fun label known => last ⟨label, known⟩⟩

namespace KeyContent

/-- The map holds the key under its labels. -/
def Stated (pairs : List (Item × Item)) (content : KeyContent) : Prop :=
  ∀ entry ∈ content.fields, ∃ item, At pairs entry.1 item ∧ entry.2.Read item

/-- The map seems to hold the key if labels and integers are read modulo 2^64. -/
def Apparent (pairs : List (Item × Item)) (content : KeyContent) : Prop :=
  ∀ entry ∈ content.fields, ∃ item, Near pairs entry.1 item ∧ entry.2.Wrapped item

/-- Nothing else seems to stand under the labels of the key. -/
def Undisputed (pairs : List (Item × Item)) (content : KeyContent) : Prop :=
  ∀ entry ∈ content.fields, ∀ item, Near pairs entry.1 item → entry.2.Wrapped item

variable {pairs : List (Item × Item)} {pick : Int → Option Item} {content : KeyContent}

theorem Stated.apparent (stated : content.Stated pairs) : content.Apparent pairs := by
  intro entry listed
  obtain ⟨item, held, read⟩ := stated entry listed
  exact ⟨item, .inl held, read.wrapped⟩

theorem Picked.apparent (picks : Picks pairs pick) (picked : content.Picked pick) : content.Apparent pairs := by
  intro entry listed
  obtain ⟨item, chosen, wrapped⟩ := picked entry listed
  exact ⟨item, picks.near _ (content.fields_known entry listed) item chosen, wrapped⟩

/-- What nothing disputes is picked in any case. -/
theorem Undisputed.picked (undisputed : content.Undisputed pairs) (apparent : content.Apparent pairs)
    (picks : Picks pairs pick) : content.Picked pick := by
  intro entry listed
  have known := content.fields_known entry listed
  obtain ⟨item, near, _⟩ := apparent entry listed
  obtain ⟨chosen, found⟩ := Option.ne_none_iff_exists'.mp (picks.total entry.1 known item near)
  exact ⟨chosen, found, undisputed entry listed chosen (picks.near entry.1 known chosen found)⟩

/-- An apparent key can be picked. -/
theorem Apparent.exists_picks (apparent : content.Apparent pairs) :
    ∃ pick, Picks pairs pick ∧ content.Picked pick := by
  have choice : ∀ label, ∃ chosen : Option Item,
      (∀ item, chosen = some item → Near pairs label item) ∧ (∀ item, Near pairs label item → chosen ≠ none) ∧
        ∀ field, (label, field) ∈ content.fields → ∃ item, chosen = some item ∧ field.Wrapped item := by
    intro label
    by_cases needed : ∃ field, (label, field) ∈ content.fields
    · obtain ⟨field, listed⟩ := needed
      obtain ⟨item, near, wrapped⟩ := apparent _ listed
      refine ⟨some item, fun _ same => Option.some.inj same ▸ near, nofun, ?_⟩
      intro other also
      obtain rfl := (Prod.mk.inj (List.inj_on_of_nodup_map content.fields_once listed also rfl)).2
      exact ⟨item, rfl, wrapped⟩
    · by_cases present : ∃ item, Near pairs label item
      · obtain ⟨item, near⟩ := present
        exact ⟨some item, fun _ same => Option.some.inj same ▸ near, nofun,
          fun field listed => absurd ⟨field, listed⟩ needed⟩
      · exact ⟨none, nofun, fun item near => absurd ⟨item, near⟩ present,
          fun field listed => absurd ⟨field, listed⟩ needed⟩
  choose pick near total picked using choice
  exact ⟨pick, ⟨fun label _ => near label, fun label _ => total label⟩,
    fun entry listed => picked entry.1 entry.2 listed⟩

end KeyContent

/-- Another entry may be picked under a label. -/
theorem Picks.update {pairs : List (Item × Item)} {pick : Int → Option Item} (picks : Picks pairs pick)
    {label : Int} {item : Item} (near : Near pairs label item) :
    Picks pairs (Function.update pick label (some item)) := by
  constructor
  · intro other known chosen found
    by_cases same : other = label
    · subst same
      rw [Function.update_self, Option.some.injEq] at found
      exact found ▸ near
    · rw [Function.update_of_ne same] at found
      exact picks.near other known chosen found
  · intro other known chosen held
    by_cases same : other = label
    · subst same
      rw [Function.update_self]
      nofun
    · rw [Function.update_of_ne same]
      exact picks.total other known chosen held

/-- The map is accepted for the key that it holds, and every order of its entries gives the
same result. -/
structure CoseExact (ext : AdminExternals) (pairs : List (Item × Item)) : Prop where
  accepted : ∀ load cose others read, load cose = some (.map others, read) → pairs.Perm others →
    ∀ pkey alg, coseToPkey { ext with cborLoad := load } cose = .ok (pkey, alg) ↔
      KeyForm ext (IntAt pairs) (BytesAt pairs) pkey alg
  ordered : ∀ load cose other others others' read read', load cose = some (.map others, read) →
    load other = some (.map others', read') → pairs.Perm others → pairs.Perm others' →
    coseToPkey { ext with cborLoad := load } cose = coseToPkey { ext with cborLoad := load } other

/-- Whenever the map seems to hold a key, it holds just that key, and nothing else seems to
stand under the labels of the key. -/
def Unmistaken (pairs : List (Item × Item)) : Prop :=
  ∀ content : KeyContent, content.Sized → content.Apparent pairs →
    content.Stated pairs ∧ content.Undisputed pairs

/-- The same for the keys that the libraries make: whichever entries are picked, they make the
key that the map holds, and if some of them make up a key, all do. -/
structure Unmisread (ext : AdminExternals) (pairs : List (Item × Item)) : Prop where
  added : ∀ pick, Picks pairs pick → ∀ pkey alg,
    KeyContent.Makes ext (KeyContent.Picked pick) pkey alg → KeyContent.Makes ext (KeyContent.Stated pairs) pkey alg
  hidden : ∀ pick, Picks pairs pick → ∀ pkey alg,
    KeyContent.Makes ext (KeyContent.Stated pairs) pkey alg → KeyContent.Makes ext (KeyContent.Picked pick) pkey alg
  steady : ∀ pick other, Picks pairs pick → Picks pairs other → ∀ content : KeyContent,
    content.Sized → content.Picked pick → ∃ content : KeyContent, content.Sized ∧ content.Picked other

section Exact

variable {ext : AdminExternals} {pairs : List (Item × Item)} {pick : Int → Option Item}

theorem keyForm_stated {pkey : ext.Pkey} {alg : Int32} :
    KeyForm ext (IntAt pairs) (BytesAt pairs) pkey alg ↔
      KeyContent.Makes ext (KeyContent.Stated pairs) pkey alg := by
  have stated (label : Int) (field : CoseField) : field.Found (IntAt pairs) (BytesAt pairs) label ↔
      ∃ item, At pairs label item ∧ field.Read item := by
    cases field with
    | int value => rfl
    | bytes content => rfl
  simp only [keyForm_iff, stated]
  rfl

/-- The key does not depend on how the items are loaded. -/
theorem coseToPkey_loaded {load : Bytes → Option (Item × Nat)} {cose : Bytes} {others : List (Item × Item)}
    {read : Nat} (loaded : load cose = some (.map others, read)) {pkey : ext.Pkey} {alg : Int32} :
    coseToPkey { ext with cborLoad := load } cose = .ok (pkey, alg) ↔
      KeyContent.Makes ext (KeyContent.Picked (coseLookup others)) pkey alg := by
  refine (coseToPkey_ok_iff loaded).trans ?_
  have same (content : KeyContent) : content.pkey { ext with cborLoad := load } = content.pkey ext := by
    cases content <;> rfl
  simp only [KeyContent.Makes, same]

theorem picked_lookup {others : List (Item × Item)}
    (last : ∀ label ∈ coseLabels, coseLookup others label = pick label) (content : KeyContent) :
    content.Picked (coseLookup others) ↔ content.Picked pick := by
  have looked : ∀ entry ∈ content.fields, coseLookup others entry.1 = pick entry.1 :=
    fun entry listed => last entry.1 (content.fields_known entry listed)
  constructor
  · intro picked entry listed
    rw [← looked entry listed]
    exact picked entry listed
  · intro picked entry listed
    rw [looked entry listed]
    exact picked entry listed

/-- The result for a key is not that it is declined. -/
theorem KeyContent.result_ne (content : KeyContent) : content.result ext ≠ .error .declined := by
  unfold KeyContent.result
  cases content.pkey ext with
  | none => simp
  | some pkey => simp

/-- Two keys have the same result if they are accepted alike. -/
theorem KeyContent.result_ext {content other : KeyContent}
    (alike : ∀ made, content.result ext = .ok made ↔ other.result ext = .ok made) :
    content.result ext = other.result ext := by
  have settled (content : KeyContent) : (∃ made, content.result ext = .ok made) ∨ content.result ext = .error .error := by
    unfold KeyContent.result
    cases content.pkey ext with
    | none => exact .inr rfl
    | some pkey => exact .inl ⟨_, rfl⟩
  rcases settled content with ⟨made, first⟩ | first
  · rw [first, (alike made).mp first]
  · rcases settled other with ⟨made, second⟩ | second
    · rw [second, (alike made).mpr second]
    · rw [first, second]

theorem CoseExact.unmisread (exact : CoseExact ext pairs) : Unmisread ext pairs := by
  have same : ∀ pick, Picks pairs pick → ∀ pkey alg, (KeyContent.Makes ext (KeyContent.Picked pick) pkey alg ↔
      KeyContent.Makes ext (KeyContent.Stated pairs) pkey alg) := by
    intro pick picks pkey alg
    obtain ⟨others, perm, last⟩ := exists_lookup picks
    have accepted := exact.accepted (fun _ => some (.map others, 0)) [] others 0 rfl perm pkey alg
    rw [coseToPkey_loaded rfl, keyForm_stated] at accepted
    simpa only [KeyContent.Makes, picked_lookup last] using accepted
  refine ⟨fun pick picks pkey alg => (same pick picks pkey alg).mp,
    fun pick picks pkey alg => (same pick picks pkey alg).mpr, ?_⟩
  intro pick other picks otherPicks content sized picked
  obtain ⟨others, perm, last⟩ := exists_lookup picks
  obtain ⟨others', perm', last'⟩ := exists_lookup otherPicks
  have loads : ∃ load : Bytes → Option (Item × Nat),
      load [] = some (.map others, 0) ∧ load [0] = some (.map others', 0) :=
    ⟨fun cose => some (.map (if cose = [] then others else others'), 0), rfl, rfl⟩
  obtain ⟨load, loaded, loaded'⟩ := loads
  have results := exact.ordered load [] [0] others others' 0 0 loaded loaded' perm perm'
  rw [coseToPkey_picked loaded sized ((picked_lookup last content).mpr picked)] at results
  have outcome : coseToPkey { ext with cborLoad := load } [0] = .error .declined ∨ _ := coseToPkey_cases loaded'
  rcases outcome with declined | ⟨content', sized', picked'⟩
  · rw [declined] at results
    exact absurd results content.result_ne
  · exact ⟨content', sized', (picked_lookup last' content').mp picked'⟩

theorem Unmisread.exact (plain : Unmisread ext pairs) : CoseExact ext pairs := by
  have accepted : ∀ load cose others read, load cose = some (.map others, read) → pairs.Perm others →
      ∀ pkey alg, coseToPkey { ext with cborLoad := load } cose = .ok (pkey, alg) ↔
        KeyForm ext (IntAt pairs) (BytesAt pairs) pkey alg := by
    intro load cose others read loaded same pkey alg
    rw [coseToPkey_loaded loaded, keyForm_stated]
    exact ⟨plain.added _ (picks_lookup same) pkey alg, plain.hidden _ (picks_lookup same) pkey alg⟩
  refine ⟨accepted, ?_⟩
  intro load cose other others others' read read' loaded loaded' same same'
  have outcome : coseToPkey { ext with cborLoad := load } cose = .error .declined ∨ _ := coseToPkey_cases loaded
  have outcome' : coseToPkey { ext with cborLoad := load } other = .error .declined ∨ _ := coseToPkey_cases loaded'
  rcases outcome with declined | ⟨content, sized, picked⟩
  · rcases outcome' with declined' | ⟨content', sized', picked'⟩
    · rw [declined, declined']
    · obtain ⟨content, sized, picked⟩ :=
        plain.steady _ _ (picks_lookup same') (picks_lookup same) content' sized' picked'
      rw [coseToPkey_picked loaded sized picked] at declined
      exact absurd declined content.result_ne
  · obtain ⟨content', sized', picked'⟩ :=
      plain.steady _ _ (picks_lookup same) (picks_lookup same') content sized picked
    have first : coseToPkey { ext with cborLoad := load } cose = content.result _ :=
      coseToPkey_picked loaded sized picked
    have second : coseToPkey { ext with cborLoad := load } other = content'.result _ :=
      coseToPkey_picked loaded' sized' picked'
    rw [first, second]
    refine KeyContent.result_ext fun made => ?_
    rw [← first, ← second, accepted load cose others read loaded same made.1 made.2,
      accepted load other others' read' loaded' same' made.1 made.2]

theorem Unmistaken.unmisread (plain : Unmistaken pairs) : Unmisread ext pairs where
  added := by
    intro pick picks pkey alg made
    obtain ⟨content, sized, picked, built, named⟩ := made
    exact ⟨content, sized, (plain content sized (picked.apparent picks)).1, built, named⟩
  hidden := by
    intro pick picks pkey alg made
    obtain ⟨content, sized, stated, built, named⟩ := made
    have undisputed := (plain content sized stated.apparent).2
    exact ⟨content, sized, undisputed.picked stated.apparent picks, built, named⟩
  steady := by
    intro pick other picks otherPicks content sized picked
    have apparent := picked.apparent picks
    exact ⟨content, sized, (plain content sized apparent).2.picked apparent otherPicks⟩

/-- Libraries that take every key and tell all keys apart. -/
def takingAll (base : Externals) : AdminExternals where
  toExternals := { base with
    Pkey := KeyContent
    d2iPubkey := fun _ => none
    pkeyBaseId := fun _ => .other
    digestVerifyInit := fun _ _ => false
    digestVerify := fun _ _ _ _ => 0 }
  cborLoad _ := none
  ecPkey point := some (.ec2 (point.tail.take 32) (point.tail.drop 32))
  ed25519Pkey x := some (.okp x)
  rsaPkey n e := some (.rsa n e)
  i2dPubkey _ := none

theorem takingAll_pkey (base : Externals) {content : KeyContent} (sized : content.Sized) :
    content.pkey (takingAll base) = some content := by
  cases content with
  | ec2 x y =>
      simp only [KeyContent.pkey, takingAll, List.cons_append, List.tail_cons, ← sized.1, List.take_left,
        List.drop_left]
  | okp x => rfl
  | rsa n e => rfl

theorem makes_takingAll {base : Externals} {holds : KeyContent → Prop} {content : KeyContent} (sized : content.Sized) :
    KeyContent.Makes (takingAll base) holds content content.alg ↔ holds content := by
  constructor
  · intro made
    obtain ⟨other, otherSized, held, built, _⟩ := made
    obtain rfl : other = content := Option.some.inj ((takingAll_pkey base otherSized).symm.trans built)
    exact held
  · intro held
    exact ⟨content, sized, held, takingAll_pkey base sized, rfl⟩

/-- With such libraries, a key that is misread is accepted or refused wrongly. -/
theorem Unmisread.unmistaken {base : Externals} (plain : Unmisread (takingAll base) pairs) : Unmistaken pairs := by
  intro content sized apparent
  obtain ⟨pick, picks, picked⟩ := apparent.exists_picks
  have stated := plain.added pick picks content content.alg ((makes_takingAll sized).mpr picked)
  refine ⟨(makes_takingAll sized).mp stated, ?_⟩
  intro entry listed item near
  have repicked := plain.hidden _ (picks.update near) content content.alg stated
  obtain ⟨chosen, found, wrapped⟩ := (makes_takingAll sized).mp repicked entry listed
  rw [Function.update_self, Option.some.injEq] at found
  exact found ▸ wrapped

end Exact

/-- A map is read exactly, whatever keys the libraries make, if whenever it seems to hold a key
it holds just that; for given libraries this need be so of the keys that they make. -/
theorem cose_key_exact_iff (pairs : List (Item × Item)) :
    ((∀ ext, CoseExact ext pairs) ↔ Unmistaken pairs) ∧ ∀ ext, CoseExact ext pairs ↔ Unmisread ext pairs := by
  refine ⟨?_, fun ext => ⟨CoseExact.unmisread, Unmisread.exact⟩⟩
  constructor
  · intro exact
    exact (exact (takingAll Sample.ext)).unmisread.unmistaken
  · intro plain ext
    exact plain.unmisread.exact

/-- No integer that `cose_to_pkey` gets to compare differs by 2^64 from what it is
compared with. -/
structure Unaliased (pairs : List (Item × Item)) : Prop where
  labels : ∀ label ∈ coseLabels, ∀ pair ∈ pairs, pair.1.int? ≠ some (twin label)
  kty : ∀ value ∈ ([1, 2, 3] : List Int), ¬ IntAt pairs 1 (twin value)
  alg : ∀ value ∈ ([-7, -8, -257] : List Int), ¬ IntAt pairs 3 (twin value)
  ec2Curve : IntAt pairs 1 2 → IntAt pairs 3 (-7) → ¬ IntAt pairs (-1) (twin 1)
  okpCurve : IntAt pairs 1 1 → IntAt pairs 3 (-8) → ¬ IntAt pairs (-1) (twin 6)

namespace Unaliased

variable {pairs : List (Item × Item)} {label value : Int} {item : Item} {content : KeyContent}

theorem near_iff (plain : Unaliased pairs) (known : label ∈ coseLabels) :
    Near pairs label item ↔ At pairs label item := by
  refine or_iff_left fun other => ?_
  obtain ⟨key, member, read⟩ := other
  exact plain.labels label known (key, item) member read

theorem int (plain : Unaliased pairs) (known : label ∈ coseLabels)
    (held : ∃ item, Near pairs label item ∧ (CoseField.int value).Wrapped item)
    (unaliased : ¬ IntAt pairs label (twin value)) : IntAt pairs label value := by
  obtain ⟨item, found, read | read⟩ := held
  · exact ⟨item, (plain.near_iff known).mp found, read⟩
  · exact absurd ⟨item, (plain.near_iff known).mp found, read⟩ unaliased

theorem bytes (plain : Unaliased pairs) {string : Bytes} (known : label ∈ coseLabels)
    (held : ∃ item, Near pairs label item ∧ (CoseField.bytes string).Wrapped item) :
    BytesAt pairs label string := by
  obtain ⟨item, found, read⟩ := held
  exact ⟨item, (plain.near_iff known).mp found, read⟩

/-- What the map seems to hold, it holds.  The curve is only compared once key type and algorithm
agree. -/
theorem stated (plain : Unaliased pairs) (apparent : content.Apparent pairs) : content.Stated pairs := by
  unfold KeyContent.Apparent at apparent
  unfold KeyContent.Stated
  cases content with
  | ec2 x y =>
      simp only [KeyContent.fields, List.forall_mem_cons] at apparent ⊢
      obtain ⟨kty, alg, crv, first, second, _⟩ := apparent
      have kty := plain.int (by decide) kty (plain.kty 2 (by decide))
      have alg := plain.int (by decide) alg (plain.alg (-7) (by decide))
      have crv := plain.int (by decide) crv (plain.ec2Curve kty alg)
      exact ⟨kty, alg, crv, plain.bytes (by decide) first, plain.bytes (by decide) second, List.forall_mem_nil _⟩
  | okp x =>
      simp only [KeyContent.fields, List.forall_mem_cons] at apparent ⊢
      obtain ⟨kty, alg, crv, key, _⟩ := apparent
      have kty := plain.int (by decide) kty (plain.kty 1 (by decide))
      have alg := plain.int (by decide) alg (plain.alg (-8) (by decide))
      have crv := plain.int (by decide) crv (plain.okpCurve kty alg)
      exact ⟨kty, alg, crv, plain.bytes (by decide) key, List.forall_mem_nil _⟩
  | rsa n e =>
      simp only [KeyContent.fields, List.forall_mem_cons] at apparent ⊢
      obtain ⟨kty, alg, modulus, exponent, _⟩ := apparent
      have kty := plain.int (by decide) kty (plain.kty 3 (by decide))
      have alg := plain.int (by decide) alg (plain.alg (-257) (by decide))
      exact ⟨kty, alg, plain.bytes (by decide) modulus, plain.bytes (by decide) exponent, List.forall_mem_nil _⟩

/-- Where no alias is compared, the map is read for what it holds. -/
theorem unmistaken (plain : Unaliased pairs) (distinct : DistinctKeys pairs) : Unmistaken pairs := by
  intro content sized apparent
  have stated := plain.stated apparent
  refine ⟨stated, ?_⟩
  intro entry listed item found
  obtain ⟨held, own, read⟩ := stated entry listed
  rw [((plain.near_iff (content.fields_known entry listed)).mp found).unique distinct own]
  exact read.wrapped

end Unaliased

namespace Sample

/-- The same key, but with the curve under the label 2^64 - 1. -/
def aliasPairs (key : Bytes) : List (Item × Item) :=
  [(.uint 1, .uint 1), (.uint 3, .negint 7), (.uint 18446744073709551615, .uint 6), (.negint 1, .bytes key)]

def aliasCose (key : Bytes) : Bytes := bytesOf 18 0xa4010103271bffffffffffffffff06215820 ++ key

def okpExt : AdminExternals := tables.admin [(okpCose rawKey, .map (okpPairs rawKey))]

def aliasExt : AdminExternals := tables.admin [(aliasCose rawKey, .map (aliasPairs rawKey))]

end Sample

theorem okp_key_exact :
    Unaliased (Sample.okpPairs Sample.rawKey) ∧ CoseExact Sample.okpExt (Sample.okpPairs Sample.rawKey) := by
  have plain : Unaliased (Sample.okpPairs Sample.rawKey) := by
    constructor <;> decide
  refine ⟨plain, (cose_key_exact_iff _).1.mpr (plain.unmistaken ?_) _⟩
  simp [DistinctKeys, Sample.okpPairs]

/-- An alias of a curve under the label of an RSA modulus is not compared with a curve. -/
example : Unmistaken [(.uint 1, .uint 3), (.uint 3, .negint 256), (.negint 0, .negint 18446744073709551614),
    (.negint 1, .bytes [1, 0, 1])] := by
  refine Unaliased.unmistaken ?_ (by simp [DistinctKeys])
  constructor <;> decide

/-- The label 2^64 - 1 is taken for -1. -/
theorem alias_key_accepted :
    DistinctKeys (Sample.aliasPairs Sample.rawKey) ∧
      Sample.aliasExt.cborLoad (Sample.aliasCose Sample.rawKey) =
        some (.map (Sample.aliasPairs Sample.rawKey), (Sample.aliasCose Sample.rawKey).length) ∧
      coseToPkey Sample.aliasExt (Sample.aliasCose Sample.rawKey) = .ok (Sample.publicKey, -8) ∧
      ¬ KeyForm Sample.aliasExt (IntAt (Sample.aliasPairs Sample.rawKey))
        (BytesAt (Sample.aliasPairs Sample.rawKey)) Sample.publicKey (-8) := by
  refine ⟨by simp [DistinctKeys, Sample.aliasPairs], admin_load _ _ _ _, rfl, ?_⟩
  intro form
  obtain ⟨item, ⟨label, member, read⟩, _⟩ := form.ed25519_curve rfl
  simp only [Sample.aliasPairs, List.mem_cons, Prod.mk.injEq, List.not_mem_nil, or_false] at member
  rcases member with ⟨rfl, _⟩ | ⟨rfl, _⟩ | ⟨rfl, _⟩ | ⟨rfl, _⟩
  all_goals simp [Item.int?] at read

end AuthWebauthn
