import AuthWebauthn.Data.Buffer
import AuthWebauthn.System.Sample
import AuthWebauthn.Verify.Acceptance

namespace AuthWebauthn

open Memory

/-- `authdata_parse` with every access to its input checked.  The two slices at the end
are views, which are not read here. -/
def authdataParseAt (data : Bytes) : Option (Except Rc Authdata) :=
  if data.length < 37 then some (.error .declined)
  else do
    let rpIdHash ← slice data 0 32
    let flags ← cell data 32
    let signCount := bigEndian32 (← cell data 33) (← cell data 34) (← cell data 35) (← cell data 36)
    let fixed : Authdata :=
      { rpIdHash
        flags
        signCount
        aaguid := List.replicate 16 0
        credentialId := []
        cosePublicKey := [] }
    if flags &&& Authdata.flagAt = 0 then return .ok fixed
    else if data.length < 37 + 16 + 2 then return .error .declined
    else
      let aaguid ← slice data 37 16
      let credIdLen := (← cell data 53).toNat * 256 + (← cell data 54).toNat
      if credIdLen > (← sizeSub data.length 55) then return .error .declined
      else
        let credentialId ← slice data 55 credIdLen
        let cosePublicKey ← slice data (55 + credIdLen) (← sizeSub data.length (55 + credIdLen))
        return .ok { fixed with aaguid, credentialId, cosePublicKey }

/-- No access is out of bounds and no size wraps around. -/
theorem authdataParseAt_eq (data : Bytes) : authdataParseAt data = some (authdataParse data) := by
  by_cases short : data.length < 37
  · simp only [authdataParseAt, authdataParse, if_pos short]
  have read {offset : Nat} (inside : offset < data.length) : cell data offset = some (data.getD offset 0) :=
    cell_eq inside 0
  simp only [authdataParseAt, authdataParse, if_neg short, slice_eq (show 0 + 32 ≤ data.length by omega),
    read (show 32 < data.length by omega), read (show 33 < data.length by omega),
    read (show 34 < data.length by omega), read (show 35 < data.length by omega),
    read (show 36 < data.length by omega), Option.bind_eq_bind, Option.bind_some, List.drop_zero]
  by_cases unattested : data.getD 32 0 &&& Authdata.flagAt = 0
  · simp only [if_pos unattested]
    rfl
  by_cases truncated : data.length < 37 + 16 + 2
  · simp only [if_neg unattested, if_pos truncated]
    rfl
  simp only [if_neg unattested, if_neg truncated, slice_eq (show 37 + 16 ≤ data.length by omega),
    read (show 53 < data.length by omega), read (show 54 < data.length by omega),
    sizeSub_eq (show 55 ≤ data.length by omega), Option.bind_some]
  generalize (data.getD 53 0).toNat * 256 + (data.getD 54 0).toNat = credIdLen
  by_cases long : credIdLen > data.length - 55
  · simp only [if_pos long]
    rfl
  · simp only [if_neg long, slice_eq (show 55 + credIdLen ≤ data.length by omega),
      sizeSub_eq (show 55 + credIdLen ≤ data.length by omega), Option.bind_some,
      slice_eq (show 55 + credIdLen + (data.length - (55 + credIdLen)) ≤ data.length by omega)]
    rw [← List.length_drop, List.take_length]
    rfl

def counterBytes (count : UInt32) : Bytes :=
  [UInt8.ofNat (count.toNat / 16777216), UInt8.ofNat (count.toNat / 65536), UInt8.ofNat (count.toNat / 256),
    UInt8.ofNat count.toNat]

def lengthBytes (length : Nat) : Bytes := [UInt8.ofNat (length / 256), UInt8.ofNat length]

/-- The 37 bytes that all authenticator data starts with. -/
def Authdata.prefixBytes (authdata : Authdata) : Bytes :=
  authdata.rpIdHash ++ authdata.flags :: counterBytes authdata.signCount

def Authdata.attestedBytes (authdata : Authdata) : Bytes :=
  authdata.prefixBytes ++ (authdata.aaguid ++ (lengthBytes authdata.credentialId.length ++
    (authdata.credentialId ++ authdata.cosePublicKey)))

/-- Authenticator data with attested credential data. -/
structure AttestedAuthdata extends Authdata where
  hashed : rpIdHash.length = 32
  attested : flags &&& Authdata.flagAt ≠ 0
  aaguidLength : aaguid.length = 16
  idLength : credentialId.length ≤ 65535

theorem bigEndian32_counterBytes (count : UInt32) :
    bigEndian32 (UInt8.ofNat (count.toNat / 16777216)) (UInt8.ofNat (count.toNat / 65536))
      (UInt8.ofNat (count.toNat / 256)) (UInt8.ofNat count.toNat) = count := by
  have bound := count.toNat_lt
  apply UInt32.toNat_inj.mp
  rw [bigEndian32_toNat, UInt8.toNat_ofNat', UInt8.toNat_ofNat', UInt8.toNat_ofNat', UInt8.toNat_ofNat']
  omega

theorem ofNat_of_mod {byte : UInt8} {number : Nat} (same : number % 256 = byte.toNat) :
    UInt8.ofNat number = byte := by
  apply UInt8.toNat_inj.mp
  rw [UInt8.toNat_ofNat']
  exact same

theorem counterBytes_bigEndian32 (first second third fourth : UInt8) :
    counterBytes (bigEndian32 first second third fourth) = [first, second, third, fourth] := by
  have firstBound := first.toNat_lt
  have secondBound := second.toNat_lt
  have thirdBound := third.toNat_lt
  have fourthBound := fourth.toNat_lt
  rw [counterBytes, bigEndian32_toNat, @ofNat_of_mod first _ (by omega),
    @ofNat_of_mod second _ (by omega), @ofNat_of_mod third _ (by omega), @ofNat_of_mod fourth _ (by omega)]

theorem lengthBytes_of (high low : UInt8) : lengthBytes (high.toNat * 256 + low.toNat) = [high, low] := by
  have highBound := high.toNat_lt
  have lowBound := low.toNat_lt
  rw [lengthBytes, @ofNat_of_mod high _ (by omega), @ofNat_of_mod low _ (by omega)]

theorem getD_behind {front : Bytes} {length : Nat} (sized : front.length = length) (back : Bytes) (offset : Nat) :
    (front ++ back).getD (length + offset) 0 = back.getD offset 0 := by
  subst sized
  simp [List.getElem?_append_right]

theorem drop_behind {front : Bytes} {length : Nat} (sized : front.length = length) (back : Bytes) (offset : Nat) :
    (front ++ back).drop (length + offset) = back.drop offset := by
  subst sized
  rw [List.drop_append, List.drop_of_length_le (Nat.le_add_right _ _), Nat.add_sub_cancel_left,
    List.nil_append]

theorem getD_of_front {front whole : Bytes} (cut : front <+: whole) {offset : Nat}
    (inside : offset < front.length) : front.getD offset 0 = whole.getD offset 0 := by
  obtain ⟨back, rfl⟩ := cut
  simp [List.getElem?_append_left inside]

namespace AttestedAuthdata

variable (attested : AttestedAuthdata)

theorem prefix_length : attested.prefixBytes.length = 37 := by
  simp [Authdata.prefixBytes, attested.hashed, counterBytes]

theorem attestedBytes_length : attested.attestedBytes.length =
    55 + attested.credentialId.length + attested.cosePublicKey.length := by
  simp only [Authdata.attestedBytes, List.length_append, attested.prefix_length, attested.aaguidLength,
    lengthBytes, List.length_cons, List.length_nil]
  omega

/-- The bytes after the hash. -/
theorem getD_tail (offset : Nat) : attested.attestedBytes.getD (32 + offset) 0 =
    (attested.flags :: counterBytes attested.signCount ++ (attested.aaguid ++
      (lengthBytes attested.credentialId.length ++
        (attested.credentialId ++ attested.cosePublicKey)))).getD offset 0 := by
  rw [Authdata.attestedBytes, Authdata.prefixBytes, List.append_assoc]
  exact getD_behind attested.hashed _ offset

/-- The bytes after the AAGUID. -/
theorem getD_length (offset : Nat) : attested.attestedBytes.getD (53 + offset) 0 =
    (lengthBytes attested.credentialId.length ++
      (attested.credentialId ++ attested.cosePublicKey)).getD offset 0 := by
  have sized : (attested.prefixBytes ++ attested.aaguid).length = 53 := by
    rw [List.length_append, attested.prefix_length, attested.aaguidLength]
  rw [Authdata.attestedBytes, ← List.append_assoc]
  exact getD_behind sized _ offset

theorem flags_read : attested.attestedBytes.getD 32 0 = attested.flags := attested.getD_tail 0

theorem signCount_read : bigEndian32 (attested.attestedBytes.getD 33 0) (attested.attestedBytes.getD 34 0)
    (attested.attestedBytes.getD 35 0) (attested.attestedBytes.getD 36 0) = attested.signCount := by
  rw [attested.getD_tail 1, attested.getD_tail 2, attested.getD_tail 3, attested.getD_tail 4]
  exact bigEndian32_counterBytes attested.signCount

theorem idLength_read : (attested.attestedBytes.getD 53 0).toNat * 256 +
    (attested.attestedBytes.getD 54 0).toNat = attested.credentialId.length := by
  have bound := attested.idLength
  rw [attested.getD_length 0, attested.getD_length 1]
  change (UInt8.ofNat (attested.credentialId.length / 256)).toNat * 256 +
    (UInt8.ofNat attested.credentialId.length).toNat = _
  rw [UInt8.toNat_ofNat', UInt8.toNat_ofNat']
  omega

theorem drop_read (offset : Nat) : attested.attestedBytes.drop (55 + offset) =
    (attested.credentialId ++ attested.cosePublicKey).drop offset := by
  have sized : (attested.prefixBytes ++ attested.aaguid ++
      lengthBytes attested.credentialId.length).length = 55 := by
    rw [List.length_append, List.length_append, attested.prefix_length, attested.aaguidLength]
    rfl
  rw [Authdata.attestedBytes, ← List.append_assoc, ← List.append_assoc]
  exact drop_behind sized _ offset

theorem parse : authdataParse attested.attestedBytes = .ok attested.toAuthdata := by
  have length := attested.attestedBytes_length
  have hash : attested.attestedBytes.take 32 = attested.rpIdHash := by
    rw [Authdata.attestedBytes, Authdata.prefixBytes, List.append_assoc]
    exact List.take_left' attested.hashed
  have aaguid : (attested.attestedBytes.drop 37).take 16 = attested.aaguid := by
    rw [Authdata.attestedBytes, List.drop_left' attested.prefix_length]
    exact List.take_left' attested.aaguidLength
  have id : (attested.attestedBytes.drop 55).take attested.credentialId.length = attested.credentialId := by
    rw [attested.drop_read 0]
    exact List.take_left' rfl
  have key : attested.attestedBytes.drop (55 + attested.credentialId.length) = attested.cosePublicKey := by
    rw [attested.drop_read]
    exact List.drop_left' rfl
  simp only [authdataParse, attested.flags_read, attested.signCount_read, attested.idLength_read, hash, aaguid,
    id, key]
  rw [if_neg (by omega), if_neg attested.attested, if_neg (by omega), if_neg (by omega)]

theorem parse_truncated {front : Bytes} (cut : front <+: attested.attestedBytes)
    (short : front.length < 55 + attested.credentialId.length) :
    authdataParse front = .error .declined := by
  by_cases fixed : front.length < 37
  · simp only [authdataParse, if_pos fixed]
  have flags : front.getD 32 0 &&& Authdata.flagAt ≠ 0 := by
    rw [getD_of_front cut (by omega), attested.flags_read]
    exact attested.attested
  by_cases header : front.length < 37 + 16 + 2
  · simp only [authdataParse, if_neg fixed, if_neg flags, if_pos header]
  have idLength := attested.idLength_read
  rw [← getD_of_front cut (show 53 < front.length by omega),
    ← getD_of_front cut (show 54 < front.length by omega)] at idLength
  simp only [authdataParse, if_neg fixed, if_neg flags, if_neg header, idLength]
  rw [if_pos (by omega)]

end AttestedAuthdata

theorem drop_eq_getD_cons {data : Bytes} {offset : Nat} (inside : offset < data.length) :
    data.drop offset = data.getD offset 0 :: data.drop (offset + 1) := by
  rw [List.drop_eq_getElem_cons inside]
  simp [inside]

theorem prefix_split {data : Bytes} (long : 37 ≤ data.length) :
    data = data.take 32 ++ data.getD 32 0 ::
      [data.getD 33 0, data.getD 34 0, data.getD 35 0, data.getD 36 0] ++ data.drop 37 := by
  calc
    data = data.take 32 ++ data.drop 32 := (List.take_append_drop 32 data).symm
    _ = _ := by
      rw [drop_eq_getD_cons (show 32 < data.length by omega), drop_eq_getD_cons (show 33 < data.length by omega),
        drop_eq_getD_cons (show 34 < data.length by omega), drop_eq_getD_cons (show 35 < data.length by omega),
        drop_eq_getD_cons (show 36 < data.length by omega)]
      simp

/-- Data that is accepted with the AT flag is one of the layouts, and no other bytes
are left over. -/
theorem attested_of_parse {data : Bytes} {authdata : Authdata} (parsed : authdataParse data = .ok authdata)
    (flagged : authdata.flags &&& Authdata.flagAt ≠ 0) :
    ∃ attested : AttestedAuthdata, attested.toAuthdata = authdata ∧ attested.attestedBytes = data := by
  simp only [authdataParse] at parsed
  split_ifs at parsed with short unattested truncated long
  · cases parsed
    exact absurd unattested flagged
  · cases parsed
    have highBound := (data.getD 53 0).toNat_lt
    have lowBound := (data.getD 54 0).toNat_lt
    have idLength : ((data.drop 55).take ((data.getD 53 0).toNat * 256 + (data.getD 54 0).toNat)).length =
        (data.getD 53 0).toNat * 256 + (data.getD 54 0).toNat := by
      rw [List.length_take, List.length_drop]
      omega
    refine ⟨⟨_, ?_, flagged, ?_, ?_⟩, rfl, ?_⟩
    · rw [List.length_take]
      omega
    · rw [List.length_take, List.length_drop]
      omega
    · rw [idLength]
      omega
    · have key : data.drop (55 + ((data.getD 53 0).toNat * 256 + (data.getD 54 0).toNat)) =
          (data.drop 55).drop ((data.getD 53 0).toNat * 256 + (data.getD 54 0).toNat) := by
        rw [List.drop_drop]
      have middle : data.drop 37 = (data.drop 37).take 16 ++ data.drop 53 := by
        conv_lhs => rw [← List.take_append_drop 16 (data.drop 37), List.drop_drop]
      have header : data.drop 53 = data.getD 53 0 :: data.getD 54 0 :: data.drop 55 := by
        rw [drop_eq_getD_cons (show 53 < data.length by omega),
          drop_eq_getD_cons (show 54 < data.length by omega)]
      simp only [Authdata.attestedBytes, Authdata.prefixBytes, counterBytes_bigEndian32, idLength, lengthBytes_of,
        key, List.take_append_drop]
      conv_rhs => rw [prefix_split (show 37 ≤ data.length by omega), middle, header]
      rfl

/-- Attested authenticator data is read back from its bytes, every truncation before the
end of the credential id is declined, accepted data is the bytes of what was read, and
no access leaves the input. -/
theorem authdata_layout (attested : AttestedAuthdata) (data : Bytes) :
    authdataParse attested.attestedBytes = .ok attested.toAuthdata ∧
      slice attested.attestedBytes 55 attested.credentialId.length = some attested.credentialId ∧
      slice attested.attestedBytes (55 + attested.credentialId.length) attested.cosePublicKey.length =
        some attested.cosePublicKey ∧
      (∀ front, front <+: attested.attestedBytes → front.length < 55 + attested.credentialId.length →
        authdataParse front = .error .declined) ∧
      (∀ authdata, authdataParse data = .ok authdata → authdata.flags &&& Authdata.flagAt ≠ 0 →
        authdata.attestedBytes = data) ∧
      authdataParseAt data = some (authdataParse data) := by
  have length := attested.attestedBytes_length
  refine ⟨attested.parse, ?_, ?_, fun front cut short => attested.parse_truncated cut short, ?_,
    authdataParseAt_eq data⟩
  · rw [slice_eq (by omega), attested.drop_read 0, List.drop_zero, List.take_left' rfl]
  · rw [slice_eq (by omega), attested.drop_read, List.drop_left' rfl, List.take_length]
  · intro authdata parsed flagged
    obtain ⟨read, rfl, bytes⟩ := attested_of_parse parsed flagged
    exact bytes

/-- Whatever is accepted consists of the parsed prefix alone. -/
def PrefixOnly (ext : Externals) (assertion : Assertion) (cred : AssertionCred) (policy : AssertionPolicy) :
    Prop :=
  ∀ authSignCount, assertionVerify ext assertion cred policy = .ok authSignCount →
    ∃ authdata, authdataParse assertion.authenticatorData = .ok authdata ∧
      assertion.authenticatorData.length = 37 ∧ assertion.authenticatorData = authdata.prefixBytes

/-- Only the length of acceptable data decides. -/
theorem prefix_only_iff (ext : Externals) (assertion : Assertion) (cred : AssertionCred)
    (policy : AssertionPolicy) :
    PrefixOnly ext assertion cred policy ↔
      assertion.authenticatorData.length ≤ 37 ∨ ¬ Acceptable ext assertion cred policy := by
  constructor
  · intro bare
    by_cases acceptable : Acceptable ext assertion cred policy
    · obtain ⟨_, _, length, _⟩ := bare _ acceptable.checked.verify
      exact .inl (Nat.le_of_eq length)
    · exact .inr acceptable
  · intro condition authSignCount accepted
    obtain ⟨authdata, checked, rfl⟩ := assertionVerify_ok accepted
    obtain ⟨long, rpIdHash, flags, signCount⟩ := authdataParse_ok checked.parsed
    have length : assertion.authenticatorData.length = 37 := by
      rcases condition with short | unacceptable
      · exact Nat.le_antisymm short long
      · exact absurd (acceptable_of_checked checked) unacceptable
    refine ⟨authdata, checked.parsed, length, ?_⟩
    rw [Authdata.prefixBytes, rpIdHash, flags, signCount, counterBytes_bigEndian32]
    have split := prefix_split long
    rwa [List.drop_of_length_le (Nat.le_of_eq length), List.append_nil] at split

namespace Sample

def longKey : Bytes := bytesOf 44 0x302a300506032b657003210003a107bff3ce10be1d70dd18e74bc09967e4d6309ba50d5f1ddc8664125531b8

/-- An assertion with one byte behind the counter, signed with the key. -/
def longAssertion : Assertion where
  authenticatorData := rpIdHash ++ [1, 0, 0, 0, 7, 255]
  clientDataJson := first.clientData
  signature := bytesOf 32
      0x119e473c6007bd6674a6b62e071f403d6285a3c3f707a5416f93601c48747787 ++
    bytesOf 32 0xe6bb289549a62fff2bfce649b077768cc52f7e22af55c6db9f97874b8ecac80e

def longExt : Externals :=
  { tables with
    publicKey := longKey
    signatures := [(longAssertion.signature, longAssertion.authenticatorData ++ first.clientDataHash)]
    : Tables }.externals

def longPolicy : AssertionPolicy := policyOf conf (List.replicate 32 1) [ascii "https://example.com"]

end Sample

theorem trailing_byte_accepted :
    assertionVerify Sample.longExt Sample.longAssertion ⟨Sample.longKey, -8, 5⟩ Sample.longPolicy = .ok 7 ∧
      Sample.longAssertion.authenticatorData.length = 38 ∧
      ¬ PrefixOnly Sample.longExt Sample.longAssertion ⟨Sample.longKey, -8, 5⟩ Sample.longPolicy := by
  have accepted : assertionVerify Sample.longExt Sample.longAssertion ⟨Sample.longKey, -8, 5⟩
      Sample.longPolicy = .ok 7 := by decide +kernel
  refine ⟨accepted, by decide, fun bare => ?_⟩
  obtain ⟨_, _, length, _⟩ := bare 7 accepted
  exact absurd length (by decide)

end AuthWebauthn
