import AuthWebauthn.Data.Checked
import AuthWebauthn.Register.Decoder
import Mathlib.Data.Nat.Digits.Defs

namespace AuthWebauthn

/-! The word of the decoder is never masked: with each character it grows by six bits,
and only the lowest ones are read again.  Here the shift is checked.
-/

/-- The loop of the decoder; the outer `none` is a shift that leaves the range of an `int`. -/
def compatDecodeChecked (buf bits : Int32) : Bytes → Option (Option Bytes)
  | [] => some (some [])
  | char :: rest =>
      if char = 61 then compatDecodeChecked buf bits rest
      else
        match compatB64urlChar char with
        | none => some none
        | some value => do
            let shifted ← Checked.shlInt32 buf 6
            let next := shifted ||| value
            if bits + 6 ≥ 8 then
              let later ← compatDecodeChecked next (bits + 6 - 8) rest
              return later.map (((next >>> (bits + 6 - 8)) &&& 0xff).toUInt32.toUInt8 :: ·)
            else compatDecodeChecked next (bits + 6) rest

/-- The characters that are shifted into the word: padding is skipped, and the first
character outside of the alphabet ends the loop. -/
def shiftedChars (src : Bytes) : Bytes :=
  (src.filter (· ≠ 61)).takeWhile fun char => (compatB64urlChar char).isSome

/-- Without the leading `A`s, which leave the word zero. -/
def significantChars (src : Bytes) : Bytes := (shiftedChars src).dropWhile (· = 65)

/-- At most five characters count, or six of which the first is `B`. -/
def FewSignificant (src : Bytes) : Prop :=
  (significantChars src).length ≤ 5 ∨
    ((significantChars src).length = 6 ∧ (significantChars src).head? = some 66)

instance (src : Bytes) : Decidable (FewSignificant src) := inferInstanceAs (Decidable (_ ∨ _))

def sextetOf (char : UInt8) : Nat := wordOf ((compatB64urlChar char).getD 0)

theorem sextetOf_eq {char : UInt8} {value : Int32} (found : compatB64urlChar char = some value) :
    sextetOf char = wordOf value := by
  rw [sextetOf, found, Option.getD_some]

theorem sextetOf_table : ∀ char : UInt8, sextetOf char < 64 ∧
    ((compatB64urlChar char).isSome → (sextetOf char = 0 ↔ char = 65) ∧ (sextetOf char = 1 ↔ char = 66)) :=
  Base64url.forall_byte (by decide +kernel)

theorem toInt_eq_wordOf {word : Int32} (small : wordOf word < 2 ^ 31) : word.toInt = wordOf word :=
  BitVec.toInt_eq_toNat_of_lt (by unfold wordOf at small; omega)

theorem shlInt32_fits {buf : Int32} (small : wordOf buf < 2 ^ 31) (fits : wordOf buf * 64 < 2 ^ 31) :
    Checked.shlInt32 buf 6 = some (buf <<< 6) := by
  rw [Checked.shlInt32, toInt_eq_wordOf small, if_pos ⟨by omega, by omega⟩]
  rfl

theorem shlInt32_overflows {buf : Int32} (small : wordOf buf < 2 ^ 31) (exceeded : ¬ wordOf buf * 64 < 2 ^ 31) :
    Checked.shlInt32 buf 6 = none := by
  rw [Checked.shlInt32, toInt_eq_wordOf small, if_neg]
  intro fits
  have shifted := fits.2
  omega

theorem shiftedChars_padding (rest : Bytes) : shiftedChars (61 :: rest) = shiftedChars rest := by
  simp [shiftedChars]

theorem shiftedChars_stop {char : UInt8} (padding : char ≠ 61) (missing : compatB64urlChar char = none)
    (rest : Bytes) : shiftedChars (char :: rest) = [] := by
  simp [shiftedChars, padding, missing]

theorem shiftedChars_next {char : UInt8} {value : Int32} (padding : char ≠ 61)
    (found : compatB64urlChar char = some value) (rest : Bytes) :
    shiftedChars (char :: rest) = char :: shiftedChars rest := by
  simp [shiftedChars, padding, found]

/-- The number that the characters denote, behind those in `done`. -/
def numberOf (chars : Bytes) (done : List Nat) : Nat :=
  Nat.ofDigits 64 ((chars.map sextetOf).reverse ++ done)

theorem numberOf_cons (char : UInt8) (chars : Bytes) (done : List Nat) :
    numberOf (char :: chars) done = numberOf chars (sextetOf char :: done) := by
  rw [numberOf, numberOf, List.map_cons, List.reverse_cons, List.append_assoc, List.singleton_append]

theorem numberOf_ge (chars : Bytes) (done : List Nat) : Nat.ofDigits 64 done ≤ numberOf chars done := by
  rw [numberOf, Nat.ofDigits_append]
  exact Nat.le_add_left_of_le (Nat.le_mul_of_pos_left _ (Nat.pow_pos (by decide)))

/-- The shifts stay in range exactly if the number of all characters does. -/
theorem compatDecodeChecked_eq {buf bits : Int32} {done : List Nat}
    (held : wordOf buf = Nat.ofDigits 64 done) (small : wordOf buf < 2 ^ 31) (src : Bytes) :
    compatDecodeChecked buf bits src =
      if numberOf (shiftedChars src) done < 2 ^ 31 then some (compatDecodeLoop buf bits src) else none := by
  induction src generalizing buf bits done with
  | nil =>
      rw [held] at small
      exact (if_pos small).symm
  | cons char rest ih =>
      by_cases padding : char = 61
      · subst padding
        rw [compatDecodeChecked, compatDecodeLoop, if_pos rfl, if_pos rfl, shiftedChars_padding]
        exact ih held small
      · cases found : compatB64urlChar char with
        | none =>
            rw [held] at small
            rw [shiftedChars_stop padding found]
            simp only [compatDecodeChecked, compatDecodeLoop, if_neg padding, found]
            exact (if_pos small).symm
        | some value =>
            obtain ⟨_, _, _, sextet⟩ := compatB64urlChar_some found
            have digits : Nat.ofDigits 64 (sextetOf char :: done) = wordOf buf * 64 + wordOf value := by
              rw [Nat.ofDigits_cons, sextetOf_eq found, held]
              omega
            rw [shiftedChars_next padding found, numberOf_cons]
            simp only [compatDecodeChecked, compatDecodeLoop, if_neg padding, found]
            by_cases fits : wordOf buf * 64 < 2 ^ 31
            · have next : wordOf ((buf <<< 6) ||| value) = wordOf buf * 64 + wordOf value := by
                rw [wordOf_push buf sextet]
                omega
              have inRange : wordOf ((buf <<< 6) ||| value) < 2 ^ 31 := by
                rw [next]
                omega
              simp only [shlInt32_fits small fits, Option.bind_eq_bind, Option.bind_some,
                ih (next.trans digits.symm) inRange]
              split_ifs <;> rfl
            · have exceeded := numberOf_ge (shiftedChars rest) (sextetOf char :: done)
              rw [shlInt32_overflows small fits, if_neg (by omega)]
              rfl

theorem sextets_small (chars : Bytes) : ∀ digit ∈ (chars.map sextetOf).reverse, digit < 64 := by
  intro digit member
  obtain ⟨char, _, rfl⟩ := List.mem_map.mp (List.mem_reverse.mp member)
  exact (sextetOf_table char).1

/-- The first character decides the size, up to what the others can add. -/
theorem numberOf_first (char : UInt8) (chars : Bytes) :
    64 ^ chars.length * sextetOf char ≤ numberOf (char :: chars) [] ∧
      numberOf (char :: chars) [] < 64 ^ chars.length * (sextetOf char + 1) := by
  have others := Nat.ofDigits_lt_base_pow_length (by decide : 1 < 64) (sextets_small chars)
  rw [List.length_reverse, List.length_map] at others
  have split : numberOf (char :: chars) [] =
      Nat.ofDigits 64 (chars.map sextetOf).reverse + 64 ^ chars.length * sextetOf char := by
    rw [numberOf_cons, numberOf, Nat.ofDigits_append, Nat.ofDigits_singleton, List.length_reverse,
      List.length_map]
  rw [split, Nat.mul_add, Nat.mul_one]
  omega

theorem numberOf_dropWhile (chars : Bytes) :
    numberOf (chars.dropWhile (· = 65)) [] = numberOf chars [] := by
  induction chars with
  | nil => rfl
  | cons char rest ih =>
      by_cases zero : char = 65
      · subst zero
        have dropped : (65 :: rest).dropWhile (· = 65) = rest.dropWhile (· = 65) := by simp
        have nothing : sextetOf 65 = 0 := by decide
        rw [dropped, ih, numberOf_cons, nothing, numberOf, numberOf, List.append_nil, Nat.ofDigits_append]
        rfl
      · have kept : (char :: rest).dropWhile (· = 65) = char :: rest := by simp [zero]
        rw [kept]

theorem shiftedChars_found {src : Bytes} {char : UInt8} (member : char ∈ shiftedChars src) :
    (compatB64urlChar char).isSome = true := by
  have kept := List.mem_takeWhile_imp (p := fun char => (compatB64urlChar char).isSome) member
  exact kept

theorem significantChars_first {src : Bytes} {char : UInt8} {chars : Bytes}
    (significant : significantChars src = char :: chars) :
    1 ≤ sextetOf char ∧ sextetOf char < 64 ∧ (sextetOf char = 1 ↔ char = 66) := by
  have member : char ∈ shiftedChars src := by
    apply (List.dropWhile_suffix (· = 65)).subset
    rw [← significantChars, significant]
    exact List.mem_cons_self
  have other : char ≠ 65 := by
    have first := List.head?_dropWhile_not (fun char : UInt8 => decide (char = 65)) (shiftedChars src)
    rw [← significantChars, significant] at first
    simpa using first
  obtain ⟨small, table⟩ := sextetOf_table char
  obtain ⟨zero, one⟩ := table (shiftedChars_found member)
  refine ⟨?_, small, one⟩
  have nonzero : sextetOf char ≠ 0 := fun none => other (zero.mp none)
  omega

theorem numberOf_small_iff (src : Bytes) :
    numberOf (shiftedChars src) [] < 2 ^ 31 ↔ FewSignificant src := by
  rw [← numberOf_dropWhile, ← significantChars, FewSignificant]
  cases significant : significantChars src with
  | nil => exact ⟨fun _ => .inl (by decide), fun _ => by decide⟩
  | cons char chars =>
      obtain ⟨positive, small, one⟩ := significantChars_first significant
      obtain ⟨lower, upper⟩ := numberOf_first char chars
      rw [List.length_cons, List.head?_cons, Option.some.injEq, ← one]
      rcases Nat.lt_trichotomy chars.length 5 with short | six | long
      · have power : 64 ^ chars.length ≤ 64 ^ 4 := Nat.pow_le_pow_right (by decide) (by omega)
        have bound : 64 ^ chars.length * (sextetOf char + 1) ≤ 64 ^ 4 * 64 :=
          Nat.mul_le_mul power (by omega)
        omega
      · rw [six] at lower upper
        omega
      · have power : 64 ^ 6 ≤ 64 ^ chars.length := Nat.pow_le_pow_right (by decide) (by omega)
        have bound : 64 ^ 6 * 1 ≤ 64 ^ chars.length * sextetOf char := Nat.mul_le_mul power positive
        omega

/-- No shift of the decoder leaves the range of an `int`, for one source string. -/
def AccumulatorInRange (src : Bytes) : Prop :=
  compatDecodeChecked 0 0 src = some (compatDecodeBase64url src)

/-- The word stays in range exactly if few characters count. -/
theorem accumulator_inRange_iff (src : Bytes) : AccumulatorInRange src ↔ FewSignificant src := by
  have start : wordOf 0 = Nat.ofDigits 64 [] := rfl
  have small : wordOf 0 < 2 ^ 31 := by decide
  rw [AccumulatorInRange, compatDecodeBase64url, compatDecodeChecked_eq start small, ← numberOf_small_iff]
  split_ifs with inRange
  · exact iff_of_true rfl inRange
  · exact iff_of_false (by simp) inRange

/-- The encoding of the bytes 8, 0, 0, 0: the last shift reaches 2^31. -/
theorem accumulator_overflows : ¬ AccumulatorInRange (ascii "CAAAAA") := by
  unfold AccumulatorInRange
  decide

end AuthWebauthn
