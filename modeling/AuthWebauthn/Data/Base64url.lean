import Mathlib.Data.List.Basic
import Mathlib.Tactic.IntervalCases

namespace Base64url

/-- The character of a 6-bit value. -/
def basis (value : UInt8) : UInt8 :=
  if value < 26 then 65 + value
  else if value < 52 then 97 + (value - 26)
  else if value < 62 then 48 + (value - 52)
  else if value = 62 then 45
  else 95

def encode : List UInt8 → List UInt8
  | first :: second :: third :: rest =>
      basis ((first >>> 2) &&& 0x3f) :: basis (((first &&& 3) <<< 4) ||| (second >>> 4)) ::
        basis (((second &&& 0x0f) <<< 2) ||| (third >>> 6)) :: basis (third &&& 0x3f) :: encode rest
  | [first, second] =>
      [basis ((first >>> 2) &&& 0x3f), basis (((first &&& 3) <<< 4) ||| (second >>> 4)),
        basis ((second &&& 0x0f) <<< 2)]
  | [first] => [basis ((first >>> 2) &&& 0x3f), basis ((first &&& 3) <<< 4)]
  | [] => []

/-- The 6-bit value of a character. -/
def value (char : UInt8) : Option UInt8 :=
  if 65 ≤ char ∧ char ≤ 90 then some (char - 65)
  else if 97 ≤ char ∧ char ≤ 122 then some (char - 71)
  else if 48 ≤ char ∧ char ≤ 57 then some (char + 4)
  else if char = 45 then some 62
  else if char = 95 then some 63
  else none

def decode : List UInt8 → Option (List UInt8)
  | a :: b :: c :: d :: rest => do
      let first := (← value a) <<< 2 ||| (← value b) >>> 4
      let second := (← value b) <<< 4 ||| (← value c) >>> 2
      let third := (← value c) <<< 6 ||| (← value d)
      return first :: second :: third :: (← decode rest)
  | [a, b, c] => do
      return [(← value a) <<< 2 ||| (← value b) >>> 4, (← value b) <<< 4 ||| (← value c) >>> 2]
  | [a, b] => do return [(← value a) <<< 2 ||| (← value b) >>> 4]
  | [_] => none
  | [] => some []

/-- The bytes of the alphabet. -/
def urlSafe (byte : UInt8) : Bool :=
  (65 ≤ byte && byte ≤ 90) || (97 ≤ byte && byte ≤ 122) || (48 ≤ byte && byte ≤ 57) || byte = 45 ||
    byte = 95

/-- A fact about bytes is checked on each of them. -/
theorem forall_byte {holds : UInt8 → Prop} (all : ∀ code : Fin 256, holds (UInt8.ofFin code)) :
    ∀ byte, holds byte :=
  fun byte => all byte.toFin

/-- The two tables against each other and against the alphabet. -/
private theorem tables : ∀ byte : UInt8, urlSafe (basis byte) = true ∧
    (∀ sextet ∈ value byte, sextet.toNat < 64) ∧ (value byte).isSome = urlSafe byte ∧
    (byte.toNat < 64 → value (basis byte) = some byte) :=
  forall_byte (by decide +kernel)

theorem basis_urlSafe (value : UInt8) : urlSafe (basis value) = true := (tables value).1

theorem encode_urlSafe (data : List UInt8) : ∀ byte ∈ encode data, urlSafe byte = true := by
  induction data using encode.induct with
  | case1 first second third rest ih =>
      intro byte member
      simp only [encode, List.mem_cons] at member
      rcases member with rfl | rfl | rfl | rfl | later
      · exact basis_urlSafe _
      · exact basis_urlSafe _
      · exact basis_urlSafe _
      · exact basis_urlSafe _
      · exact ih byte later
  | case2 first second =>
      intro byte member
      simp only [encode, List.mem_cons, List.not_mem_nil, or_false] at member
      rcases member with rfl | rfl | rfl <;> exact basis_urlSafe _
  | case3 first =>
      intro byte member
      simp only [encode, List.mem_cons, List.not_mem_nil, or_false] at member
      rcases member with rfl | rfl <;> exact basis_urlSafe _
  | case4 =>
      intro byte member
      cases member

example : encode [102, 111, 111, 98] = [90, 109, 57, 118, 89, 103] := by decide

example : decode [90, 109, 57, 118, 89, 103] = some [102, 111, 111, 98] := by decide

theorem encode_ne_nil {data : List UInt8} (nonempty : data ≠ []) : encode data ≠ [] := by
  cases data using encode.induct with
  | case1 first second third rest ih => simp [encode]
  | case2 first second => simp [encode]
  | case3 first => simp [encode]
  | case4 => exact absurd rfl nonempty

theorem value_lt {char sextet : UInt8} (found : value char = some sextet) : sextet.toNat < 64 :=
  (tables char).2.1 sextet found

theorem value_isSome (char : UInt8) : (value char).isSome = urlSafe char := (tables char).2.2.1

theorem value_basis {sextet : UInt8} (small : sextet.toNat < 64) : value (basis sextet) = some sextet :=
  (tables sextet).2.2.2 small

def values : List UInt8 → Option (List Nat)
  | [] => some []
  | char :: rest => (value char).bind fun sextet => (values rest).map (sextet.toNat :: ·)

theorem values_isSome_iff (text : List UInt8) :
    (values text).isSome = true ↔ ∀ char ∈ text, urlSafe char = true := by
  induction text with
  | nil => simp [values]
  | cons char rest ih =>
      rw [List.forall_mem_cons, ← ih, ← value_isSome]
      cases found : value char with
      | none => simp [values, found]
      | some sextet => simp [values, found]

theorem values_length {text : List UInt8} {sextets : List Nat} (read : values text = some sextets) :
    sextets.length = text.length := by
  induction text generalizing sextets with
  | nil =>
      cases read
      rfl
  | cons char rest ih =>
      simp only [values, Option.bind_eq_some_iff, Option.map_eq_some_iff] at read
      obtain ⟨sextet, _, later, laterRead, rfl⟩ := read
      rw [List.length_cons, List.length_cons, ih laterRead]

theorem values_append (front back : List UInt8) :
    values (front ++ back) = (values front).bind fun first => (values back).map (first ++ ·) := by
  induction front with
  | nil => cases read : values back <;> simp [values, read]
  | cons char rest ih =>
      rw [List.cons_append, values, values, ih]
      cases value char with
      | none => rfl
      | some sextet =>
          cases values rest with
          | none => rfl
          | some first => cases values back <;> rfl

/-- The bytes that a sequence of 6-bit values holds; `pending` are the last `bits` bits
before it.  Bits that do not fill a byte are dropped. -/
def unpack (pending bits : Nat) : List Nat → List UInt8
  | [] => []
  | sextet :: rest =>
      let next := pending * 64 + sextet
      if bits + 6 ≥ 8 then
        UInt8.ofNat (next / 2 ^ (bits + 6 - 8)) :: unpack (next % 2 ^ (bits + 6 - 8)) (bits + 6 - 8) rest
      else unpack next (bits + 6) rest

theorem unpack_length (pending : Nat) {bits : Nat} (few : bits < 8) (sextets : List Nat) :
    (unpack pending bits sextets).length = (bits + 6 * sextets.length) / 8 := by
  induction sextets generalizing pending bits with
  | nil =>
      simp only [unpack, List.length_nil]
      omega
  | cons sextet rest ih =>
      simp only [unpack]
      split_ifs with full
      · rw [List.length_cons, ih _ (by omega), List.length_cons]
        omega
      · rw [ih _ (by omega), List.length_cons]
        omega

theorem unpack_prefix (pending bits : Nat) (front back : List Nat) :
    unpack pending bits front <+: unpack pending bits (front ++ back) := by
  induction front generalizing pending bits with
  | nil => exact List.nil_prefix
  | cons sextet rest ih =>
      simp only [List.cons_append, unpack]
      split_ifs
      · exact List.cons_prefix_cons.mpr ⟨rfl, ih _ _⟩
      · exact ih _ _

theorem unpack_four (a b c d : Nat) (rest : List Nat) :
    unpack 0 0 (a :: b :: c :: d :: rest) =
      UInt8.ofNat ((a * 64 + b) / 16) :: UInt8.ofNat ((b % 16 * 64 + c) / 4) ::
        UInt8.ofNat (c % 4 * 64 + d) :: unpack 0 0 rest := by
  have second : (a * 64 + b) % 16 = b % 16 := by omega
  have third : (b % 16 * 64 + c) % 4 = c % 4 := by omega
  simp [unpack, second, third, Nat.mod_one]

/-- Two parts of a byte that do not overlap. -/
private theorem toNat_join {high low shift : UInt8} {width : Nat} (amount : shift.toNat = width)
    (inside : width < 8) (below : low.toNat < 2 ^ width) :
    (high <<< shift ||| low).toNat = high.toNat % 2 ^ (8 - width) * 2 ^ width + low.toNat := by
  have split : 2 ^ 8 = 2 ^ (8 - width) * 2 ^ width := by
    rw [← Nat.pow_add, Nat.sub_add_cancel (Nat.le_of_lt inside)]
  have joined := Nat.shiftLeft_add_eq_or_of_lt below (high.toNat % 2 ^ (8 - width))
  rw [Nat.shiftLeft_eq] at joined
  rw [UInt8.toNat_or, UInt8.toNat_shiftLeft, amount, Nat.mod_eq_of_lt inside, Nat.shiftLeft_eq, split,
    Nat.mul_mod_mul_right]
  exact joined.symm

private theorem high_two (byte : UInt8) : (byte >>> 6).toNat = byte.toNat / 64 := by
  rw [UInt8.toNat_shiftRight]
  exact Nat.shiftRight_eq_div_pow byte.toNat 6

private theorem high_four (byte : UInt8) : (byte >>> 4).toNat = byte.toNat / 16 := by
  rw [UInt8.toNat_shiftRight]
  exact Nat.shiftRight_eq_div_pow byte.toNat 4

private theorem high_six (byte : UInt8) : (byte >>> 2).toNat = byte.toNat / 4 := by
  rw [UInt8.toNat_shiftRight]
  exact Nat.shiftRight_eq_div_pow byte.toNat 2

private theorem join_first {a b c d : UInt8} (first : value c = some a) (second : value d = some b) :
    a <<< 2 ||| b >>> 4 = UInt8.ofNat ((a.toNat * 64 + b.toNat) / 16) := by
  have high := value_lt first
  have low := value_lt second
  have joined : (a <<< 2 ||| b >>> 4).toNat = _ :=
    @toNat_join _ _ _ 2 rfl (by decide) (by rw [high_four]; omega)
  rw [← UInt8.toNat_inj, joined, high_four, UInt8.toNat_ofNat']
  omega

private theorem join_second {a b c d : UInt8} (first : value c = some a) (second : value d = some b) :
    a <<< 4 ||| b >>> 2 = UInt8.ofNat ((a.toNat % 16 * 64 + b.toNat) / 4) := by
  have high := value_lt first
  have low := value_lt second
  have joined : (a <<< 4 ||| b >>> 2).toNat = _ :=
    @toNat_join _ _ _ 4 rfl (by decide) (by rw [high_six]; omega)
  rw [← UInt8.toNat_inj, joined, high_six, UInt8.toNat_ofNat']
  omega

private theorem join_third {a b c d : UInt8} (first : value c = some a) (second : value d = some b) :
    a <<< 6 ||| b = UInt8.ofNat (a.toNat % 4 * 64 + b.toNat) := by
  have high := value_lt first
  have low := value_lt second
  have joined : (a <<< 6 ||| b).toNat = _ := @toNat_join _ _ _ 6 rfl (by decide) (by omega)
  rw [← UInt8.toNat_inj, joined, UInt8.toNat_ofNat']
  omega

/-- Groups of four characters give the bytes of the whole sequence of bits. -/
theorem decode_eq (text : List UInt8) :
    decode text = if text.length % 4 = 1 then none else (values text).map (unpack 0 0) := by
  induction text using decode.induct with
  | case1 a b c d rest ih =>
      have count : (a :: b :: c :: d :: rest).length % 4 = rest.length % 4 := by
        simp only [List.length_cons]
        omega
      rw [decode, ih, count]
      cases first : value a with
      | none => simp [values, first]
      | some p =>
          cases second : value b with
          | none => simp [values, first, second]
          | some q =>
              cases third : value c with
              | none => simp [values, first, second, third]
              | some r =>
                  cases fourth : value d with
                  | none => simp [values, first, second, third, fourth]
                  | some s =>
                      rw [values, values, values, values, first, second, third, fourth]
                      simp only [Option.bind_eq_bind, Option.bind_some, Option.map_map]
                      rw [join_first first second, join_second second third, join_third third fourth]
                      split_ifs
                      · rfl
                      · cases values rest with
                        | none => rfl
                        | some later => simp [unpack_four]
  | case2 a b c =>
      cases first : value a with
      | none => simp [decode, values, first]
      | some p =>
          cases second : value b with
          | none => simp [decode, values, first, second]
          | some q =>
              cases third : value c with
              | none => simp [decode, values, first, second, third]
              | some r =>
                  have low : (p.toNat * 64 + q.toNat) % 16 = q.toNat % 16 := by omega
                  simp [decode, values, first, second, third, unpack, low, join_first first second,
                    join_second second third]
  | case3 a b =>
      cases first : value a with
      | none => simp [decode, values, first]
      | some p =>
          cases second : value b with
          | none => simp [decode, values, first, second]
          | some q => simp [decode, values, first, second, unpack, join_first first second]
  | case4 a => simp [decode]
  | case5 => rfl

/-- The 6-bit values of an encoding. -/
def sextets : List UInt8 → List Nat
  | first :: second :: third :: rest =>
      first.toNat / 4 :: (first.toNat % 4 * 16 + second.toNat / 16) ::
        (second.toNat % 16 * 4 + third.toNat / 64) :: third.toNat % 64 :: sextets rest
  | [first, second] =>
      [first.toNat / 4, first.toNat % 4 * 16 + second.toNat / 16, second.toNat % 16 * 4]
  | [first] => [first.toNat / 4, first.toNat % 4 * 16]
  | [] => []

private theorem low_bits {mask byte : UInt8} {width : Nat} (ones : mask.toNat = 2 ^ width - 1) :
    (byte &&& mask).toNat = byte.toNat % 2 ^ width := by
  rw [UInt8.toNat_and, ones, Nat.and_two_pow_sub_one_eq_mod]

private theorem first_six (byte : UInt8) : ((byte >>> 2) &&& 0x3f).toNat = byte.toNat / 4 := by
  have bound := byte.toNat_lt
  have masked : ((byte >>> 2) &&& 0x3f).toNat = _ := @low_bits _ _ 6 rfl
  rw [masked, high_six]
  omega

private theorem last_six (byte : UInt8) : (byte &&& 0x3f).toNat = byte.toNat % 64 :=
  @low_bits _ _ 6 rfl

private theorem two_and_four (first second : UInt8) :
    (((first &&& 3) <<< 4) ||| (second >>> 4)).toNat = first.toNat % 4 * 16 + second.toNat / 16 := by
  have bound := second.toNat_lt
  have masked : (first &&& 3).toNat = first.toNat % 4 := @low_bits _ _ 2 rfl
  have joined : (((first &&& 3) <<< 4) ||| (second >>> 4)).toNat = _ :=
    @toNat_join _ _ _ 4 rfl (by decide) (by rw [high_four]; omega)
  rw [joined, masked, high_four]
  omega

private theorem four_and_two (second third : UInt8) :
    (((second &&& 0x0f) <<< 2) ||| (third >>> 6)).toNat = second.toNat % 16 * 4 + third.toNat / 64 := by
  have bound := third.toNat_lt
  have masked : (second &&& 0x0f).toNat = second.toNat % 16 := @low_bits _ _ 4 rfl
  have joined : (((second &&& 0x0f) <<< 2) ||| (third >>> 6)).toNat = _ :=
    @toNat_join _ _ _ 2 rfl (by decide) (by rw [high_two]; omega)
  rw [joined, masked, high_two]
  omega

private theorem low_two (byte : UInt8) : ((byte &&& 3) <<< 4).toNat = byte.toNat % 4 * 16 := by
  have padded := two_and_four byte 0
  simpa using padded

private theorem low_four (byte : UInt8) : ((byte &&& 0x0f) <<< 2).toNat = byte.toNat % 16 * 4 := by
  have padded := four_and_two byte 0
  simpa using padded

private theorem values_basis {sextet : UInt8} {number : Nat} (same : sextet.toNat = number)
    (small : number < 64) (rest : List UInt8) :
    values (basis sextet :: rest) = (values rest).map (number :: ·) := by
  rw [values, value_basis (same ▸ small), Option.bind_some, same]

theorem values_encode (data : List UInt8) : values (encode data) = some (sextets data) := by
  induction data using encode.induct with
  | case1 first second third rest ih =>
      have firstBound := first.toNat_lt
      have secondBound := second.toNat_lt
      have thirdBound := third.toNat_lt
      rw [encode, values_basis (first_six first) (by omega),
        values_basis (two_and_four first second) (by omega),
        values_basis (four_and_two second third) (by omega), values_basis (last_six third) (by omega), ih]
      rfl
  | case2 first second =>
      have firstBound := first.toNat_lt
      have secondBound := second.toNat_lt
      rw [encode, values_basis (first_six first) (by omega),
        values_basis (two_and_four first second) (by omega), values_basis (low_four second) (by omega)]
      rfl
  | case3 first =>
      have firstBound := first.toNat_lt
      rw [encode, values_basis (first_six first) (by omega), values_basis (low_two first) (by omega)]
      rfl
  | case4 => rfl

theorem unpack_sextets (data : List UInt8) : unpack 0 0 (sextets data) = data := by
  have whole (byte : UInt8) {number : Nat} (same : number = byte.toNat) : UInt8.ofNat number = byte := by
    rw [same, UInt8.ofNat_toNat]
  induction data using sextets.induct with
  | case1 first second third rest ih =>
      have secondBound := second.toNat_lt
      have thirdBound := third.toNat_lt
      rw [sextets, unpack_four, ih, whole first (by omega), whole second (by omega), whole third (by omega)]
  | case2 first second =>
      have secondBound := second.toNat_lt
      have firstWhole := whole first (show
        (first.toNat / 4 * 64 + (first.toNat % 4 * 16 + second.toNat / 16)) / 16 = first.toNat by omega)
      have secondWhole := whole second (show
        ((first.toNat / 4 * 64 + (first.toNat % 4 * 16 + second.toNat / 16)) % 16 * 64 +
          second.toNat % 16 * 4) / 4 = second.toNat by omega)
      simp [sextets, unpack, firstWhole, secondWhole]
  | case3 first =>
      have firstWhole := whole first (show
        (first.toNat / 4 * 64 + first.toNat % 4 * 16) / 16 = first.toNat by omega)
      simp [sextets, unpack, firstWhole]
  | case4 => rfl

theorem encode_length (data : List UInt8) : (encode data).length = (data.length * 4 + 2) / 3 := by
  induction data using encode.induct with
  | case1 first second third rest ih =>
      simp only [encode, List.length_cons, ih]
      omega
  | case2 first second => simp [encode]
  | case3 first => simp [encode]
  | case4 => rfl

theorem decode_encode (data : List UInt8) : decode (encode data) = some data := by
  have whole : ¬ (encode data).length % 4 = 1 := by
    rw [encode_length]
    omega
  rw [decode_eq, if_neg whole, values_encode, Option.map_some, unpack_sextets]

theorem encode_injective : Function.Injective encode := by
  intro left right same
  have decoded := congrArg decode same
  rw [decode_encode, decode_encode] at decoded
  exact Option.some.inj decoded

end Base64url
