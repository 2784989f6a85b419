import AuthWebauthn.Data.Decimal
import Mathlib.Data.List.TakeWhile
import Mathlib.Data.Option.Basic

namespace Json

/-! A parser for RFC 8259 texts without insignificant whitespace, fractions and
exponents.  A string is the UTF-8 encoding of its characters; it has no NUL, and
only ASCII characters may be escaped.

To show what a text that some program has put together means, one shows what its
pieces spell and composes these facts.
-/

abbrev Text := List UInt8

inductive Value where
  | null
  | boolean (value : Bool)
  | integer (value : Int)
  | string (text : Text)
  | array (items : List Value)
  | object (members : List (Text × Value))

def isTail (byte : UInt8) : Bool := 0x80 ≤ byte && byte ≤ 0xbf

/-- RFC 3629: no overlong forms, no surrogates, nothing above U+10FFFF. -/
def utf8 : Text → Bool
  | [] => true
  | first :: rest =>
      if first < 0x80 then utf8 rest
      else match rest with
        | [] => false
        | second :: rest =>
            if 0xc2 ≤ first ∧ first ≤ 0xdf then isTail second && utf8 rest
            else match rest with
              | [] => false
              | third :: rest =>
                  if 0xe0 ≤ first ∧ first ≤ 0xef then
                    isTail second && isTail third && (first != 0xe0 || 0xa0 ≤ second) &&
                      (first != 0xed || second ≤ 0x9f) && utf8 rest
                  else match rest with
                    | [] => false
                    | fourth :: rest =>
                        if 0xf0 ≤ first ∧ first ≤ 0xf4 then
                          isTail second && isTail third && isTail fourth &&
                            (first != 0xf0 || 0x90 ≤ second) && (first != 0xf4 || second ≤ 0x8f) &&
                            utf8 rest
                        else false

/-- A string without NUL. -/
def Clean (text : Text) : Prop := utf8 text = true ∧ 0 ∉ text

instance (text : Text) : Decidable (Clean text) := inferInstanceAs (Decidable (_ ∧ _))

def hexValue (digit : UInt8) : Option Nat :=
  if 48 ≤ digit ∧ digit ≤ 57 then some (digit.toNat - 48)
  else if 97 ≤ digit ∧ digit ≤ 102 then some (digit.toNat - 87)
  else if 65 ≤ digit ∧ digit ≤ 70 then some (digit.toNat - 55)
  else none

/-- The byte of `\uXXXX`, for ASCII characters. -/
def unicodeEscape (a b c d : UInt8) : Option UInt8 := do
  let code := (← hexValue a) * 4096 + (← hexValue b) * 256 + (← hexValue c) * 16 + (← hexValue d)
  if code < 0x80 then some (UInt8.ofNat code) else none

def shortEscape (letter : UInt8) : Option UInt8 :=
  if letter = 34 ∨ letter = 92 ∨ letter = 47 then some letter
  else if letter = 98 then some 8
  else if letter = 102 then some 12
  else if letter = 110 then some 10
  else if letter = 114 then some 13
  else if letter = 116 then some 9
  else none

def prepend (byte : UInt8) (parsed : Text × Text) : Text × Text := (byte :: parsed.1, parsed.2)

/-- The characters up to the closing quote, and what follows it. -/
def parseChars : Text → Option (Text × Text)
  | [] => none
  | byte :: rest =>
      if byte = 34 then some ([], rest)
      else if byte = 92 then
        match rest with
        | [] => none
        | letter :: rest =>
            if letter = 117 then
              match rest with
              | a :: b :: c :: d :: rest =>
                  (unicodeEscape a b c d).bind fun byte => (parseChars rest).map (prepend byte)
              | _ => none
            else (shortEscape letter).bind fun byte => (parseChars rest).map (prepend byte)
      else if byte < 0x20 then none
      else (parseChars rest).map (prepend byte)

def parseString (text : Text) : Option (Text × Text) :=
  (parseChars text).filter fun parsed => Clean parsed.1

def isDigit (byte : UInt8) : Bool := 48 ≤ byte && byte ≤ 57

def parseNatural (text : Text) : Option (Nat × Text) :=
  let digits := text.takeWhile isDigit
  let rest := text.dropWhile isDigit
  if digits = [] ∨ (digits.head? = some 48 ∧ digits ≠ [48]) then none
  else if rest.head? = some 46 ∨ rest.head? = some 69 ∨ rest.head? = some 101 then none
  else some (Decimal.valueFrom 0 digits, rest)

def parseInteger (text : Text) : Option (Int × Text) :=
  if text.head? = some 45 then (parseNatural text.tail).map fun parsed => (-(parsed.1 : Int), parsed.2)
  else (parseNatural text).map fun parsed => ((parsed.1 : Int), parsed.2)

def nullText : Text := [110, 117, 108, 108]
def trueText : Text := [116, 114, 117, 101]
def falseText : Text := [102, 97, 108, 115, 101]

mutual

def parseValue : Nat → Text → Option (Value × Text)
  | 0, _ => none
  | fuel + 1, text =>
      if text.head? = some 34 then
        (parseString text.tail).map fun parsed => (.string parsed.1, parsed.2)
      else if text.head? = some 123 then
        if text.tail.head? = some 125 then some (.object [], text.tail.tail)
        else (parseMembers fuel text.tail).map fun parsed => (.object parsed.1, parsed.2)
      else if text.head? = some 91 then
        if text.tail.head? = some 93 then some (.array [], text.tail.tail)
        else (parseItems fuel text.tail).map fun parsed => (.array parsed.1, parsed.2)
      else if nullText.isPrefixOf text then some (.null, text.drop 4)
      else if trueText.isPrefixOf text then some (.boolean true, text.drop 4)
      else if falseText.isPrefixOf text then some (.boolean false, text.drop 5)
      else (parseInteger text).map fun parsed => (.integer parsed.1, parsed.2)

def parseItems : Nat → Text → Option (List Value × Text)
  | 0, _ => none
  | fuel + 1, text =>
      (parseValue fuel text).bind fun first =>
        if first.2.head? = some 44 then
          (parseItems fuel first.2.tail).map fun later => (first.1 :: later.1, later.2)
        else if first.2.head? = some 93 then some ([first.1], first.2.tail)
        else none

def parseMembers : Nat → Text → Option (List (Text × Value) × Text)
  | 0, _ => none
  | fuel + 1, text =>
      if text.head? = some 34 then
        (parseString text.tail).bind fun name =>
          if name.2.head? = some 58 then
            (parseValue fuel name.2.tail).bind fun first =>
              if first.2.head? = some 44 then
                (parseMembers fuel first.2.tail).map fun later =>
                  ((name.1, first.1) :: later.1, later.2)
              else if first.2.head? = some 125 then some ([(name.1, first.1)], first.2.tail)
              else none
          else none
      else none

end

/-- A whole text. -/
def parse (text : Text) : Option Value :=
  (parseValue text.length text).bind fun parsed => if parsed.2 = [] then some parsed.1 else none

/-- The bytes `spelling` stand for `byte` inside a string. -/
def Spells (byte : UInt8) (spelling : Text) : Prop :=
  ∀ rest, parseChars (spelling ++ rest) = (parseChars rest).map (prepend byte)

theorem spells_self {byte : UInt8} (quote : byte ≠ 34) (backslash : byte ≠ 92) (printed : 0x20 ≤ byte) :
    Spells byte [byte] := by
  intro rest
  have control : ¬ byte < 0x20 := UInt8.not_lt.mpr printed
  rw [List.singleton_append, parseChars.eq_def]
  simp [quote, backslash, control]

theorem spells_short {byte letter : UInt8} (escape : shortEscape letter = some byte) :
    Spells byte [92, letter] := by
  intro rest
  have other : letter ≠ 117 := by
    intro same
    subst same
    cases escape
  rw [List.cons_append, List.singleton_append, parseChars.eq_def]
  simp [other, escape]

theorem spells_unicode {byte a b c d : UInt8} (escape : unicodeEscape a b c d = some byte) :
    Spells byte [92, 117, a, b, c, d] := by
  intro rest
  simp only [List.cons_append, List.nil_append]
  rw [parseChars.eq_def]
  simp [escape]

/-- The three ways to write an ASCII character. -/
inductive Spelling : UInt8 → Text → Prop where
  | self {byte : UInt8} (quote : byte ≠ 34) (backslash : byte ≠ 92) (printed : 0x20 ≤ byte) :
      Spelling byte [byte]
  | short {byte letter : UInt8} (escape : shortEscape letter = some byte) : Spelling byte [92, letter]
  | unicode {byte a b c d : UInt8} (escape : unicodeEscape a b c d = some byte) :
      Spelling byte [92, 117, a, b, c, d]

theorem Spelling.spells {byte : UInt8} {spelling : Text} (spelled : Spelling byte spelling) :
    Spells byte spelling := by
  cases spelled with
  | self quote backslash printed => exact spells_self quote backslash printed
  | short escape => exact spells_short escape
  | unicode escape => exact spells_unicode escape

/-- Between its quotes, `raw` stands for the string `text`. -/
structure StringSpells (raw text : Text) : Prop where
  clean : Clean text
  read : ∀ rest, parseChars (raw ++ 34 :: rest) = some (text, rest)

theorem stringSpells_flatMap (spelling : UInt8 → Text) {text : Text} (clean : Clean text)
    (each : ∀ byte ∈ text, Spells byte (spelling byte)) :
    StringSpells (text.flatMap spelling) text where
  clean := clean
  read rest := by
    clear clean
    induction text with
    | nil =>
        rw [List.flatMap_nil, List.nil_append, parseChars.eq_def]
        rfl
    | cons byte text ih =>
        rw [List.flatMap_cons, List.append_assoc, each byte (by simp),
          ih fun later member => each later (by simp [member])]
        rfl

theorem utf8_of_ascii {text : Text} (ascii : ∀ byte ∈ text, byte < 0x80) : utf8 text = true := by
  induction text with
  | nil => rfl
  | cons byte rest ih =>
      rw [utf8.eq_def]
      simp only [ascii byte (by simp), if_true]
      exact ih fun later member => ascii later (by simp [member])

/-- ASCII characters that stand for themselves. -/
def plain (byte : UInt8) : Bool := 0x20 ≤ byte && byte < 0x80 && byte != 34 && byte != 92

theorem stringSpells_plain {text : Text} (all : ∀ byte ∈ text, plain byte = true) :
    StringSpells text text := by
  have bounds : ∀ byte ∈ text, 0x20 ≤ byte ∧ byte < 0x80 ∧ byte ≠ 34 ∧ byte ≠ 92 := by
    intro byte member
    simpa [plain, and_assoc] using all byte member
  have clean : Clean text := by
    refine ⟨utf8_of_ascii fun byte member => (bounds byte member).2.1, fun zero => ?_⟩
    exact absurd (bounds 0 zero).1 (by decide)
  have spelled := stringSpells_flatMap (fun byte => [byte]) clean fun byte member =>
    spells_self (bounds byte member).2.2.1 (bounds byte member).2.2.2 (bounds byte member).1
  rwa [List.flatMap_singleton'] at spelled

theorem StringSpells.parseString {raw text : Text} (spells : StringSpells raw text) (rest : Text) :
    parseString (raw ++ 34 :: rest) = some (text, rest) := by
  rw [Json.parseString, spells.read, Option.filter_some, decide_eq_true spells.clean]
  rfl

/-- What may follow a value. -/
def Stops (rest : Text) : Prop := rest.head? ∈ [none, some 44, some 93, some 125]

def ValueSpells (raw : Text) (value : Value) : Prop :=
  ∀ fuel rest, raw.length ≤ fuel → Stops rest → parseValue fuel (raw ++ rest) = some (value, rest)

def ItemsSpell (raw : Text) (items : List Value) : Prop :=
  ∀ fuel rest, raw.length < fuel → parseItems fuel (raw ++ 93 :: rest) = some (items, rest)

def MembersSpell (raw : Text) (members : List (Text × Value)) : Prop :=
  ∀ fuel rest, raw.length < fuel → parseMembers fuel (raw ++ 125 :: rest) = some (members, rest)

theorem valueSpells_string {raw text : Text} (spells : StringSpells raw text) :
    ValueSpells (34 :: raw ++ [34]) (.string text) := by
  intro fuel rest enough _
  obtain ⟨fuel, rfl⟩ : ∃ less, fuel = less + 1 := Nat.exists_eq_add_one.mpr (by simp at enough; omega)
  have read := spells.parseString rest
  simp [parseValue, read]

theorem itemsSpell_one {raw : Text} {value : Value} (spells : ValueSpells raw value) :
    ItemsSpell raw [value] := by
  intro fuel rest enough
  obtain ⟨fuel, rfl⟩ : ∃ less, fuel = less + 1 := Nat.exists_eq_add_one.mpr (by omega)
  have read := spells fuel (93 :: rest) (by omega) (by simp [Stops])
  simp [parseItems, read]

theorem itemsSpell_cons {raw later : Text} {value : Value} {items : List Value}
    (spells : ValueSpells raw value) (others : ItemsSpell later items) :
    ItemsSpell (raw ++ 44 :: later) (value :: items) := by
  intro fuel rest enough
  obtain ⟨fuel, rfl⟩ : ∃ less, fuel = less + 1 := Nat.exists_eq_add_one.mpr (by omega)
  simp only [List.length_append, List.length_cons] at enough
  have first := spells fuel (44 :: (later ++ 93 :: rest)) (by omega) (by simp [Stops])
  have second := others fuel rest (by omega)
  simp [parseItems, first, second]

/-- One member of an object. -/
def member (name value : Text) : Text := 34 :: name ++ 34 :: 58 :: value

theorem membersSpell_one {name text raw : Text} {value : Value} (named : StringSpells name text)
    (spells : ValueSpells raw value) : MembersSpell (member name raw) [(text, value)] := by
  intro fuel rest enough
  obtain ⟨fuel, rfl⟩ : ∃ less, fuel = less + 1 := Nat.exists_eq_add_one.mpr (by omega)
  have first := named.parseString (58 :: (raw ++ 125 :: rest))
  have second := spells fuel (125 :: rest) (by simp [member] at enough; omega) (by simp [Stops])
  simp [parseMembers, member, first, second]

theorem membersSpell_cons {name text raw later : Text} {value : Value}
    {members : List (Text × Value)} (named : StringSpells name text) (spells : ValueSpells raw value)
    (others : MembersSpell later members) :
    MembersSpell (member name raw ++ 44 :: later) ((text, value) :: members) := by
  intro fuel rest enough
  obtain ⟨fuel, rfl⟩ : ∃ less, fuel = less + 1 := Nat.exists_eq_add_one.mpr (by omega)
  simp only [member, List.length_append, List.length_cons] at enough
  have first := named.parseString (58 :: (raw ++ 44 :: (later ++ 125 :: rest)))
  have second := spells fuel (44 :: (later ++ 125 :: rest)) (by omega) (by simp [Stops])
  have third := others fuel rest (by omega)
  simp [parseMembers, member, first, second, third]

theorem valueSpells_object {raw : Text} {members : List (Text × Value)}
    (spells : MembersSpell raw members) (opens : raw.head? = some 34) :
    ValueSpells (123 :: raw ++ [125]) (.object members) := by
  obtain ⟨raw, rfl⟩ := List.head?_eq_some_iff.mp opens
  intro fuel rest enough _
  obtain ⟨fuel, rfl⟩ : ∃ less, fuel = less + 1 := Nat.exists_eq_add_one.mpr (by simp at enough; omega)
  have read := spells fuel rest (by simp at enough; simp; omega)
  rw [List.cons_append] at read
  simp [parseValue, read]

theorem valueSpells_array {first : UInt8} {raw : Text} {items : List Value}
    (spells : ItemsSpell raw items) (opens : raw.head? = some first) (other : first ≠ 93) :
    ValueSpells (91 :: raw ++ [93]) (.array items) := by
  obtain ⟨raw, rfl⟩ := List.head?_eq_some_iff.mp opens
  intro fuel rest enough _
  obtain ⟨fuel, rfl⟩ : ∃ less, fuel = less + 1 := Nat.exists_eq_add_one.mpr (by simp at enough; omega)
  have read := spells fuel rest (by simp at enough; simp; omega)
  rw [List.cons_append] at read
  simp [parseValue, read, other]

theorem valueSpells_nil : ValueSpells [91, 93] (.array []) := by
  intro fuel rest enough _
  obtain ⟨fuel, rfl⟩ : ∃ less, fuel = less + 1 := Nat.exists_eq_add_one.mpr (by simp at enough; omega)
  simp [parseValue]

theorem isDigit_of_decimal {byte : UInt8} (digit : Decimal.IsDigit byte) : isDigit byte = true := by
  simp only [isDigit, Bool.and_eq_true, decide_eq_true_eq]
  exact ⟨UInt8.le_iff_toNat_le.mpr digit.1, UInt8.le_iff_toNat_le.mpr digit.2⟩

theorem Stops.not_digit {rest : Text} (stops : Stops rest) : rest.takeWhile isDigit = [] := by
  cases rest with
  | nil => rfl
  | cons byte rest =>
      have other : byte = 44 ∨ byte = 93 ∨ byte = 125 := by simpa [Stops] using stops
      rcases other with rfl | rfl | rfl <;> rfl

theorem parseNatural_digits (value : Nat) {rest : Text} (stops : Stops rest) :
    parseNatural (Decimal.digits value ++ rest) = some (value, rest) := by
  have numeral : ∀ byte ∈ Decimal.digits value, isDigit byte = true :=
    fun byte member => isDigit_of_decimal (Decimal.digits_isDigit value byte member)
  have ends : rest.dropWhile isDigit = rest := by
    have split := List.takeWhile_append_dropWhile (p := isDigit) (l := rest)
    rwa [stops.not_digit, List.nil_append] at split
  have taken : (Decimal.digits value ++ rest).takeWhile isDigit = Decimal.digits value := by
    rw [List.takeWhile_append_of_pos numeral, stops.not_digit, List.append_nil]
  have left : (Decimal.digits value ++ rest).dropWhile isDigit = rest := by
    rw [List.dropWhile_append_of_pos numeral, ends]
  have canonical : ¬ (Decimal.digits value = [] ∨
      ((Decimal.digits value).head? = some 48 ∧ Decimal.digits value ≠ [48])) := by
    intro padded
    rcases padded with empty | ⟨zero, longer⟩
    · exact Decimal.digits_ne_nil value empty
    · rcases Nat.eq_zero_or_pos value with rfl | positive
      · exact longer rfl
      · rw [List.head?_eq_some_head (Decimal.digits_ne_nil value), Option.some.injEq] at zero
        exact Decimal.digits_head_ne_zero positive zero
  have whole : ¬ (rest.head? = some 46 ∨ rest.head? = some 69 ∨ rest.head? = some 101) := by
    intro fraction
    rcases fraction with dot | upper | lower
    · simp [Stops, dot] at stops
    · simp [Stops, upper] at stops
    · simp [Stops, lower] at stops
  simp only [parseNatural, taken, left, if_neg canonical, if_neg whole, Decimal.valueFrom_digits]

theorem digits_head (value : Nat) :
    ∃ first rest, Decimal.digits value = first :: rest ∧ Decimal.IsDigit first := by
  obtain ⟨first, rest, split⟩ := List.exists_cons_of_ne_nil (Decimal.digits_ne_nil value)
  exact ⟨first, rest, split, Decimal.digits_isDigit value first (by simp [split])⟩

theorem parseInteger_ofInt (value : Int) {rest : Text} (stops : Stops rest) :
    parseInteger (Decimal.ofInt value ++ rest) = some (value, rest) := by
  unfold Decimal.ofInt
  split_ifs with negative
  · simp only [parseInteger, List.cons_append, List.head?_cons, List.tail_cons, if_true,
      parseNatural_digits value.natAbs stops, Option.map_some]
    congr
    omega
  · obtain ⟨first, later, split, digit⟩ := digits_head value.natAbs
    have sign : (Decimal.digits value.natAbs ++ rest).head? ≠ some 45 := by
      rw [split]
      intro signed
      cases signed
      exact absurd digit.1 (by decide)
    simp only [parseInteger, if_neg sign, parseNatural_digits value.natAbs stops, Option.map_some]
    congr
    omega

theorem ne_of_numeral {byte other : UInt8} (code : 45 ≤ byte.toNat ∧ byte.toNat ≤ 57)
    (far : 57 < other.toNat ∨ other.toNat < 45) : byte ≠ other := by
  intro same
  subst same
  omega

theorem valueSpells_integer (value : Int) : ValueSpells (Decimal.ofInt value) (.integer value) := by
  intro fuel rest enough stops
  obtain ⟨first, later, split⟩ := List.exists_cons_of_ne_nil (Decimal.ofInt_ne_nil value)
  have code := Decimal.ofInt_bytes value first (by simp [split])
  obtain ⟨fuel, rfl⟩ : ∃ less, fuel = less + 1 :=
    Nat.exists_eq_add_one.mpr (by rw [split] at enough; simp at enough; omega)
  have read := parseInteger_ofInt value stops
  rw [split, List.cons_append] at read ⊢
  have apart := fun (other : UInt8) => @ne_of_numeral first other code
  simp [parseValue, read, apart 34 (by decide), apart 123 (by decide), apart 91 (by decide), nullText,
    trueText, falseText, List.isPrefixOf, (apart 110 (by decide)).symm, (apart 116 (by decide)).symm,
    (apart 102 (by decide)).symm]

theorem parse_of_spells {raw : Text} {value : Value} (spells : ValueSpells raw value) :
    parse raw = some value := by
  have read := spells raw.length [] (Nat.le_refl _) (by simp [Stops])
  rw [List.append_nil] at read
  rw [parse, read]
  rfl

end Json
