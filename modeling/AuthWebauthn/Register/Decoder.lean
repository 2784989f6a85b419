import AuthWebauthn.Data.Base64url
import AuthWebauthn.Data.Buffer
import AuthWebauthn.Register.Compat
import Mathlib.Data.List.TakeWhile

namespace AuthWebauthn

open Memory

/-! The decoder shifts every value it reads into one word and never masks the word.
What it writes depends only on the low bits, those that are not yet part of a byte;
so it reads the bits of all characters as one sequence.
-/

def base64EncodedLength (length : Nat) : Nat := (length + 2) / 3 * 4

def base64DecodedLength (length : Nat) : Nat := (length + 3) / 4 * 3

/-- `ngx_encode_base64url`, a port of the encoder of the nginx core. -/
def compatEncodeBase64url (src : Bytes) : Bytes := Base64url.encode src

/-- `ngx_decode_base64url` of the nginx core: only what comes before the first `=`
counts. -/
def coreDecodeBase64url (src : Bytes) : Option Bytes := Base64url.decode (src.takeWhile (· ≠ 61))

/-- The loop of the decoder with the memory it writes to. -/
def compatDecodeInto (buf bits : Int32) (out : Buffer UInt8) : Bytes → Option (Rc × Buffer UInt8)
  | [] => some (.ok, out)
  | char :: rest =>
      if char = 61 then compatDecodeInto buf bits out rest
      else
        match compatB64urlChar char with
        | none => some (.error, out)
        | some value =>
            let next := (buf <<< 6) ||| value
            if bits + 6 ≥ 8 then
              (out.write [((next >>> (bits + 6 - 8)) &&& 0xff).toUInt32.toUInt8]).bind fun out =>
                compatDecodeInto next (bits + 6 - 8) out rest
            else compatDecodeInto next (bits + 6) out rest

def wordOf (word : Int32) : Nat := word.toBitVec.toNat

theorem compatB64urlChar_value (char : UInt8) :
    (compatB64urlChar char).map wordOf = (Base64url.value char).map UInt8.toNat := by
  revert char
  exact Base64url.forall_byte (by decide +kernel)

theorem wordOf_push (buf : Int32) {sextet : Int32} (small : wordOf sextet < 64) :
    wordOf ((buf <<< 6) ||| sextet) = (wordOf buf * 64 + wordOf sextet) % 2 ^ 32 := by
  have shifted : wordOf (buf <<< 6) = wordOf buf * 64 % 2 ^ 32 := by
    change (buf.toBitVec <<< 6).toNat = _
    rw [BitVec.toNat_shiftLeft, Nat.shiftLeft_eq]
    rfl
  have aligned : wordOf buf * 64 % 2 ^ 32 = (wordOf buf % 2 ^ 26) <<< 6 := by
    rw [Nat.shiftLeft_eq]
    omega
  have joined := Nat.shiftLeft_add_eq_or_of_lt (show wordOf sextet < 2 ^ 6 by omega) (wordOf buf % 2 ^ 26)
  change wordOf (buf <<< 6) ||| wordOf sextet = _
  rw [shifted, aligned, ← joined, ← aligned]
  omega

/-- The byte that is cut out of the word; the sign bits that the shift brings in are
masked away. -/
theorem byte_of_word (word : Int32) {amount : Nat} (few : amount ≤ 4) :
    ((word >>> Int32.ofNat amount) &&& 0xff).toUInt32.toUInt8 =
      UInt8.ofNat (wordOf word / 2 ^ amount) := by
  have count : ((Int32.ofNat amount).toBitVec.smod 32).toNat = amount := by
    interval_cases amount <;> rfl
  have masked : ((word >>> Int32.ofNat amount) &&& 0xff).toUInt32.toUInt8.toBitVec.toNat =
      (word.toBitVec.sshiftRight' ((Int32.ofNat amount).toBitVec.smod 32)).toNat % 256 := by
    change (word.toBitVec.sshiftRight' ((Int32.ofNat amount).toBitVec.smod 32) &&& 255#32).toNat % 256 = _
    rw [BitVec.toNat_and]
    change (_ &&& (2 ^ 8 - 1)) % 256 = _
    rw [Nat.and_two_pow_sub_one_eq_mod]
    omega
  apply UInt8.toBitVec_inj.mp
  apply BitVec.eq_of_toNat_eq
  rw [masked]
  change _ = wordOf word / 2 ^ amount % 256
  have bound := word.toBitVec.isLt
  rw [BitVec.toNat_sshiftRight', count]
  unfold wordOf
  split_ifs with negative
  · rw [Nat.shiftRight_eq_div_pow]
    interval_cases amount <;> omega
  · rw [Nat.shiftRight_eq_div_pow]

/-- The low `count` bits of the word are the ones not yet written. -/
structure Pending (buf bits : Int32) (pending count : Nat) : Prop where
  few : count = 0 ∨ count = 2 ∨ count = 4 ∨ count = 6
  bits : bits = Int32.ofNat count
  low : wordOf buf % 2 ^ count = pending

variable {buf bits sextet : Int32} {pending count : Nat}

theorem pending_start : Pending 0 0 0 0 := ⟨.inl rfl, rfl, rfl⟩

theorem Pending.short (held : Pending buf bits pending 0) (small : wordOf sextet < 64) :
    ¬ bits + 6 ≥ 8 ∧ Pending ((buf <<< 6) ||| sextet) (bits + 6) (pending * 64 + wordOf sextet) 6 := by
  obtain ⟨_, rfl, low⟩ := held
  rw [Nat.pow_zero, Nat.mod_one] at low
  refine ⟨by decide, .inr (.inr (.inr rfl)), rfl, ?_⟩
  rw [wordOf_push buf small, ← low]
  omega

theorem Pending.full (held : Pending buf bits pending count) (some : count ≠ 0)
    (small : wordOf sextet < 64) :
    bits + 6 ≥ 8 ∧
      (((((buf <<< 6) ||| sextet) >>> (bits + 6 - 8)) &&& 0xff).toUInt32.toUInt8 =
        UInt8.ofNat ((pending * 64 + wordOf sextet) / 2 ^ (count + 6 - 8))) ∧
      Pending ((buf <<< 6) ||| sextet) (bits + 6 - 8)
        ((pending * 64 + wordOf sextet) % 2 ^ (count + 6 - 8)) (count + 6 - 8) := by
  obtain ⟨few, rfl, rfl⟩ := held
  have left : Int32.ofNat count + 6 - 8 = Int32.ofNat (count + 6 - 8) := by
    rcases few with rfl | rfl | rfl | rfl
    · exact absurd rfl some
    · rfl
    · rfl
    · rfl
  have same (left right : Nat) (mod : left % 256 = right % 256) : UInt8.ofNat left = UInt8.ofNat right := by
    apply UInt8.toNat_inj.mp
    rw [UInt8.toNat_ofNat', UInt8.toNat_ofNat']
    exact mod
  rw [left, byte_of_word _ (by omega), wordOf_push buf small]
  rcases few with rfl | rfl | rfl | rfl
  · exact absurd rfl some
  · refine ⟨by decide, same _ _ (by omega), .inl rfl, rfl, ?_⟩
    rw [wordOf_push buf small]
    omega
  · refine ⟨by decide, same _ _ (by omega), .inr (.inl rfl), rfl, ?_⟩
    rw [wordOf_push buf small]
    omega
  · refine ⟨by decide, same _ _ (by omega), .inr (.inr (.inl rfl)), rfl, ?_⟩
    rw [wordOf_push buf small]
    omega

theorem compatB64urlChar_some {char : UInt8} {value : Int32} (found : compatB64urlChar char = some value) :
    ∃ digit, Base64url.value char = some digit ∧ wordOf value = digit.toNat ∧ wordOf value < 64 := by
  have same := compatB64urlChar_value char
  rw [found, Option.map_some] at same
  obtain ⟨digit, read, equal⟩ := Option.map_eq_some_iff.mp same.symm
  exact ⟨digit, read, equal.symm, equal ▸ Base64url.value_lt read⟩

theorem compatB64urlChar_none {char : UInt8} (missing : compatB64urlChar char = none) :
    Base64url.value char = none := by
  have same := compatB64urlChar_value char
  rw [missing, Option.map_none] at same
  exact Option.map_eq_none_iff.mp same.symm

theorem compatDecodeLoop_eq (held : Pending buf bits pending count) (src : Bytes) :
    compatDecodeLoop buf bits src =
      (Base64url.values (src.filter (· ≠ 61))).map (Base64url.unpack pending count) := by
  induction src generalizing buf bits pending count with
  | nil => rfl
  | cons char rest ih =>
      by_cases padding : char = 61
      · simp only [compatDecodeLoop, padding, if_true, ih held]
        simp
      · have kept : (char :: rest).filter (· ≠ 61) = char :: rest.filter (· ≠ 61) := by simp [padding]
        rw [kept]
        cases found : compatB64urlChar char with
        | none =>
            simp only [compatDecodeLoop, if_neg padding, found, Base64url.values,
              compatB64urlChar_none found]
            rfl
        | some value =>
            obtain ⟨digit, read, equal, small⟩ := compatB64urlChar_some found
            simp only [compatDecodeLoop, if_neg padding, found, Base64url.values, read, Option.bind_some,
              Option.map_map]
            by_cases start : count = 0
            · subst start
              obtain ⟨few, next⟩ := held.short small
              rw [if_neg few, ih next, equal]
              rfl
            · obtain ⟨enough, byte, next⟩ := held.full start small
              have many : count + 6 ≥ 8 := by
                have few := held.few
                omega
              rw [if_pos enough, ih next, byte, equal, Option.map_map]
              congr 1
              funext later
              simp [Base64url.unpack, many]

theorem compatDecodeBase64url_eq (src : Bytes) :
    compatDecodeBase64url src =
      (Base64url.values (src.filter (· ≠ 61))).map (Base64url.unpack 0 0) :=
  compatDecodeLoop_eq pending_start src

/-- How the loop ends, and what it has written by then. -/
theorem compatDecodeInto_spec (held : Pending buf bits pending count) {out : Buffer UInt8} {src : Bytes}
    (room : out.written.length + (count + 6 * src.length) / 8 ≤ out.capacity) :
    ∃ rc filled, compatDecodeInto buf bits out src = some (rc, filled) ∧
      ((∃ bytes, rc = .ok ∧ compatDecodeLoop buf bits src = some bytes ∧
          filled.written = out.written ++ bytes) ∨
        rc = .error ∧ compatDecodeLoop buf bits src = none) := by
  induction src generalizing buf bits pending count out with
  | nil => exact ⟨.ok, out, rfl, .inl ⟨[], rfl, rfl, by simp⟩⟩
  | cons char rest ih =>
      rw [List.length_cons] at room
      by_cases padding : char = 61
      · simp only [compatDecodeInto, compatDecodeLoop, padding, if_true]
        exact ih held (by omega)
      · cases found : compatB64urlChar char with
        | none =>
            simp only [compatDecodeInto, compatDecodeLoop, if_neg padding, found]
            exact ⟨.error, out, rfl, .inr ⟨rfl, trivial⟩⟩
        | some value =>
            obtain ⟨digit, read, equal, small⟩ := compatB64urlChar_some found
            simp only [compatDecodeInto, compatDecodeLoop, if_neg padding, found]
            by_cases start : count = 0
            · subst start
              obtain ⟨few, next⟩ := held.short small
              simp only [if_neg few]
              exact ih next (by omega)
            · obtain ⟨enough, byte, next⟩ := held.full start small
              have few := held.few
              simp only [if_pos enough, byte]
              obtain ⟨stored, wrote, capacity, written⟩ := Buffer.write_fits (show out.written.length +
                  [UInt8.ofNat ((pending * 64 + wordOf value) / 2 ^ (count + 6 - 8))].length ≤
                    out.capacity by
                rw [List.length_singleton]
                omega)
              have left : stored.written.length + (count + 6 - 8 + 6 * rest.length) / 8 ≤
                  stored.capacity := by
                rw [written, capacity, List.length_append, List.length_singleton]
                omega
              obtain ⟨rc, filled, ran, ending⟩ := ih next left
              refine ⟨rc, filled, by rw [wrote, Option.bind_some, ran], ?_⟩
              rcases ending with ⟨bytes, ok, read, whole⟩ | ⟨failed, unread⟩
              · exact .inl ⟨_, ok, by rw [read, Option.map_some], by rw [whole, written, List.append_assoc]; rfl⟩
              · exact .inr ⟨failed, by rw [unread, Option.map_none]⟩

/-- Encoding is undone by decoding, both stay within what their callers allocate, and
decoding does so also on texts that it rejects. -/
theorem base64url_round_trip (src : Bytes) :
    compatDecodeBase64url (compatEncodeBase64url src) = some src ∧
      (∀ char ∈ compatEncodeBase64url src, Base64url.urlSafe char = true) ∧
      (∀ other, compatEncodeBase64url other = compatEncodeBase64url src → other = src) ∧
      (compatEncodeBase64url src).length ≤ base64EncodedLength src.length ∧
      ∃ rc filled, compatDecodeInto 0 0 (Buffer.alloc (base64DecodedLength src.length)) src = some (rc, filled) ∧
        compatDecodeBase64url src = if rc = .ok then some filled.written else none := by
  have safe := Base64url.encode_urlSafe src
  have unpadded : (Base64url.encode src).filter (· ≠ 61) = Base64url.encode src := by
    refine List.filter_eq_self.mpr fun char member => ?_
    have found := safe char member
    by_cases padding : char = 61
    · subst padding
      cases found
    · simpa using padding
  refine ⟨?_, safe, fun other same => Base64url.encode_injective same, ?_, ?_⟩
  · rw [compatDecodeBase64url_eq, compatEncodeBase64url, unpadded, Base64url.values_encode, Option.map_some,
      Base64url.unpack_sextets]
  · rw [compatEncodeBase64url, Base64url.encode_length, base64EncodedLength]
    omega
  · have room : (Buffer.alloc (base64DecodedLength src.length) : Buffer UInt8).written.length +
        (0 + 6 * src.length) / 8 ≤ (Buffer.alloc (base64DecodedLength src.length) : Buffer UInt8).capacity := by
      change 0 + (0 + 6 * src.length) / 8 ≤ base64DecodedLength src.length
      unfold base64DecodedLength
      omega
    obtain ⟨rc, filled, ran, ending⟩ := compatDecodeInto_spec pending_start room
    refine ⟨rc, filled, ran, ?_⟩
    rcases ending with ⟨bytes, rfl, read, whole⟩ | ⟨rfl, unread⟩
    · rw [whole]
      exact read
    · exact unread

/-- The characters that the core looks at. -/
def beforePadding (src : Bytes) : Bytes := src.takeWhile (· ≠ 61)

/-- The characters besides `=` that the core does not look at. -/
def afterPadding (src : Bytes) : Bytes := (src.dropWhile (· ≠ 61)).filter (· ≠ 61)

def UrlSafe (text : Bytes) : Prop := ∀ char ∈ text, Base64url.urlSafe char = true

/-- The texts on which skipping `=` and dropping spare bits makes no difference. -/
def ReadsLikeCore (src : Bytes) : Prop :=
  ¬ UrlSafe (beforePadding src) ∨
  (beforePadding src).length % 4 = 1 ∧ ¬ UrlSafe (afterPadding src) ∨
  (beforePadding src).length % 4 ≠ 1 ∧ UrlSafe (afterPadding src) ∧
    (afterPadding src = [] ∨ (afterPadding src).length = 1 ∧ (beforePadding src).length % 4 = 0)

theorem filter_padding (src : Bytes) : src.filter (· ≠ 61) = beforePadding src ++ afterPadding src := by
  have split := List.takeWhile_append_dropWhile (p := fun char : UInt8 => decide (char ≠ 61)) (l := src)
  have front : (beforePadding src).filter (· ≠ 61) = beforePadding src := by
    refine List.filter_eq_self.mpr fun char member => ?_
    exact List.mem_takeWhile_imp (p := fun char : UInt8 => decide (char ≠ 61)) member
  calc
    src.filter (· ≠ 61) = (beforePadding src ++ src.dropWhile (· ≠ 61)).filter (· ≠ 61) := by
      rw [beforePadding, split]
    _ = beforePadding src ++ afterPadding src := by rw [List.filter_append, front, afterPadding]

theorem values_none_iff {text : Bytes} : Base64url.values text = none ↔ ¬ UrlSafe text := by
  rw [UrlSafe, ← Base64url.values_isSome_iff]
  cases Base64url.values text <;> simp

theorem urlSafe_of_values {text : Bytes} {sextets : List Nat} (read : Base64url.values text = some sextets) :
    UrlSafe text := by
  rw [UrlSafe, ← Base64url.values_isSome_iff, read]
  rfl

/-- Further values leave the bytes as they are only if they do not fill one. -/
theorem unpack_append_eq_iff {front : List Nat} (whole : front.length % 4 ≠ 1) (back : List Nat) :
    Base64url.unpack 0 0 (front ++ back) = Base64url.unpack 0 0 front ↔
      back = [] ∨ back.length = 1 ∧ front.length % 4 = 0 := by
  have lengths : (6 * (front.length + back.length)) / 8 = (6 * front.length) / 8 ↔
      back.length = 0 ∨ back.length = 1 ∧ front.length % 4 = 0 := by
    have remainder : front.length % 4 = 0 ∨ front.length % 4 = 2 ∨ front.length % 4 = 3 := by omega
    rcases remainder with zero | two | three <;> omega
  rw [← List.length_eq_zero_iff, ← lengths]
  constructor
  · intro same
    have equal := congrArg List.length same
    rwa [Base64url.unpack_length 0 (by decide), Base64url.unpack_length 0 (by decide), Nat.zero_add,
      Nat.zero_add, List.length_append] at equal
  · intro equal
    refine ((Base64url.unpack_prefix 0 0 front back).eq_of_length ?_).symm
    rw [Base64url.unpack_length 0 (by decide), Base64url.unpack_length 0 (by decide), Nat.zero_add,
      Nat.zero_add, List.length_append, equal]

/-- Exactly which texts the two decoders treat alike. -/
theorem decoders_agree_iff (src : Bytes) :
    compatDecodeBase64url src = coreDecodeBase64url src ↔ ReadsLikeCore src := by
  rw [compatDecodeBase64url_eq, filter_padding, Base64url.values_append, coreDecodeBase64url,
    Base64url.decode_eq]
  change _ = (if (beforePadding src).length % 4 = 1 then none else
    (Base64url.values (beforePadding src)).map (Base64url.unpack 0 0)) ↔ _
  unfold ReadsLikeCore
  cases front : Base64url.values (beforePadding src) with
  | none => simp [values_none_iff.mp front]
  | some first =>
      have safe := urlSafe_of_values front
      have counted := Base64url.values_length front
      cases back : Base64url.values (afterPadding src) with
      | none => simp [safe, values_none_iff.mp back]
      | some later =>
          have laterSafe := urlSafe_of_values back
          have laterCounted := Base64url.values_length back
          by_cases dangling : (beforePadding src).length % 4 = 1
          · simp [dangling, safe, laterSafe]
          · have iff := unpack_append_eq_iff (show first.length % 4 ≠ 1 by rwa [counted]) later
            rw [← List.length_eq_zero_iff, counted, laterCounted, List.length_eq_zero_iff] at iff
            simp [dangling, safe, laterSafe, iff]

/-- A single character is accepted, with no bytes; the core rejects it. -/
theorem dangling_char_accepted :
    compatDecodeBase64url (ascii "A") = some [] ∧ coreDecodeBase64url (ascii "A") = none ∧
      compatDecodeBase64url (ascii "A") ≠ coreDecodeBase64url (ascii "A") := by
  decide

end AuthWebauthn
