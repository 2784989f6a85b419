import AuthWebauthn.Data.Json

namespace Json

/-! A string is what stands between two quotes: the standard escapes are undone and every
other byte from 0x20 on stands for itself, whatever encoding it is part of.  The
scanner knows what it has read through its state only, so the pieces of a text are
scanned one after the other.
-/

inductive Mark where
  | braceOpen
  | braceClose
  | bracketOpen
  | bracketClose
  | comma
  | colon
deriving DecidableEq

inductive Token where
  | mark (mark : Mark)
  | word (text : Text)
  | string (text : Text)
deriving DecidableEq

def markOf (byte : UInt8) : Option Mark :=
  if byte = 123 then some .braceOpen
  else if byte = 125 then some .braceClose
  else if byte = 91 then some .bracketOpen
  else if byte = 93 then some .bracketClose
  else if byte = 44 then some .comma
  else if byte = 58 then some .colon
  else none

def isSpace (byte : UInt8) : Bool := byte == 32 || byte == 9 || byte == 10 || byte == 13

def skipDigits (text : Text) : Option Text :=
  if text.head?.any isDigit then some (text.dropWhile isDigit) else none

def skipInteger (text : Text) : Option Text :=
  if text.head? = some 48 then some text.tail else skipDigits text

def skipFraction (text : Text) : Option Text :=
  if text.head? = some 46 then skipDigits text.tail else some text

def skipExponent (text : Text) : Option Text :=
  if text.head? = some 69 ∨ text.head? = some 101 then
    if text.tail.head? = some 43 ∨ text.tail.head? = some 45 then skipDigits text.tail.tail
    else skipDigits text.tail
  else some text

def isNumber (text : Text) : Bool :=
  (((skipInteger (if text.head? = some 45 then text.tail else text)).bind skipFraction).bind skipExponent) ==
    some []

def isWord (text : Text) : Bool :=
  text == nullText || text == trueText || text == falseText || isNumber text

def encodeUtf8 (code : Nat) : Text :=
  if code < 0x80 then [UInt8.ofNat code]
  else if code < 0x800 then [UInt8.ofNat (0xc0 + code / 64), UInt8.ofNat (0x80 + code % 64)]
  else if code < 0x10000 then
    [UInt8.ofNat (0xe0 + code / 4096), UInt8.ofNat (0x80 + code / 64 % 64), UInt8.ofNat (0x80 + code % 64)]
  else
    [UInt8.ofNat (0xf0 + code / 262144), UInt8.ofNat (0x80 + code / 4096 % 64),
      UInt8.ofNat (0x80 + code / 64 % 64), UInt8.ofNat (0x80 + code % 64)]

/-- The state; `read` is the part of a token that was read. -/
inductive Scan where
  | between
  | word (read : Text)
  | string (read : Text)
  | escape (read : Text)
  | unicode (read : Text) (high : Option Nat) (digits code : Nat)
  | surrogate (read : Text) (high : Nat)
  | surrogateEscape (read : Text) (high : Nat)
deriving DecidableEq

/-- After the fourth digit.  A high surrogate needs a low one behind it. -/
def closeUnicode (read : Text) (high : Option Nat) (code : Nat) : Option Scan :=
  match high with
  | none =>
      if 0xd800 ≤ code ∧ code ≤ 0xdbff then some (.surrogate read code)
      else if 0xdc00 ≤ code ∧ code ≤ 0xdfff then none
      else some (.string (read ++ encodeUtf8 code))
  | some high =>
      if 0xdc00 ≤ code ∧ code ≤ 0xdfff then
        some (.string (read ++ encodeUtf8 (0x10000 + (high - 0xd800) * 1024 + (code - 0xdc00))))
      else none

def start (byte : UInt8) : Scan × List Token :=
  if isSpace byte then (.between, [])
  else if byte = 34 then (.string [], [])
  else match markOf byte with
    | some mark => (.between, [.mark mark])
    | none => (.word [byte], [])

def endsWord (byte : UInt8) : Bool := isSpace byte || byte == 34 || (markOf byte).isSome

def step : Scan → UInt8 → Option (Scan × List Token)
  | .between, byte => some (start byte)
  | .word read, byte =>
      if endsWord byte then
        if isWord read then some ((start byte).1, .word read :: (start byte).2) else none
      else some (.word (read ++ [byte]), [])
  | .string read, byte =>
      if byte = 34 then some (.between, [.string read])
      else if byte = 92 then some (.escape read, [])
      else if byte < 0x20 then none
      else some (.string (read ++ [byte]), [])
  | .escape read, byte =>
      if byte = 117 then some (.unicode read none 0 0, [])
      else (shortEscape byte).map fun escaped => (.string (read ++ [escaped]), [])
  | .unicode read high digits code, byte =>
      (hexValue byte).bind fun digit =>
        if digits = 3 then (closeUnicode read high (code * 16 + digit)).map fun state => (state, [])
        else some (.unicode read high (digits + 1) (code * 16 + digit), [])
  | .surrogate read high, byte => if byte = 92 then some (.surrogateEscape read high, []) else none
  | .surrogateEscape read high, byte =>
      if byte = 117 then some (.unicode read (some high) 0 0, []) else none

def scan : Scan → Text → Option (Scan × List Token)
  | state, [] => some (state, [])
  | state, byte :: rest =>
      (step state byte).bind fun next => (scan next.1 rest).map fun later => (later.1, next.2 ++ later.2)

def Scan.finish : Scan → Option (List Token)
  | .between => some []
  | .word read => if isWord read then some [.word read] else none
  | _ => none

def tokensFrom (state : Scan) (text : Text) : Option (List Token) :=
  (scan state text).bind fun last => last.1.finish.map fun final => last.2 ++ final

def tokens (text : Text) : Option (List Token) := tokensFrom .between text

/-- Members with strings and words as their values. -/
def members : List Token → Option (List (Text × Token))
  | .string _ :: .mark .colon :: .mark _ :: _ => none
  | [.string name, .mark .colon, value, .mark .braceClose] => some [(name, value)]
  | .string name :: .mark .colon :: value :: .mark .comma :: rest =>
      (members rest).map fun later => (name, value) :: later
  | _ => none

def object (text : Text) : Option (List (Text × Token)) :=
  (tokens text).bind fun read => match read with
    | [.mark .braceOpen, .mark .braceClose] => some []
    | .mark .braceOpen :: rest => members rest
    | _ => none

/-- The string that ends at the first quote which the scanner takes for its end, and what
follows that quote. -/
def stringFrom : Scan → Text → Option (Text × Text)
  | _, [] => none
  | state, byte :: rest =>
      (step state byte).bind fun next => match next.2 with
        | .string text :: _ => some (text, rest)
        | _ => stringFrom next.1 rest

def readString (text : Text) : Option (Text × Text) := stringFrom (.string []) text

/-- What stands before the first quote without a backslash in front of it that is not
itself escaped, and what follows that quote. -/
def untilQuote : Text → Option (Text × Text)
  | [] => none
  | byte :: rest =>
      if byte = 34 then some ([], rest)
      else if byte = 92 then
        match rest with
        | [] => none
        | escaped :: rest => (untilQuote rest).map fun found => (byte :: escaped :: found.1, found.2)
      else (untilQuote rest).map fun found => (byte :: found.1, found.2)

theorem scan_cons {state : Scan} {byte : UInt8} {rest : Text} {next : Scan × List Token}
    (stepped : step state byte = some next) :
    scan state (byte :: rest) = (scan next.1 rest).map fun later => (later.1, next.2 ++ later.2) := by
  rw [scan, stepped, Option.bind_some]

theorem scan_append (state : Scan) (front back : Text) :
    scan state (front ++ back) = (scan state front).bind fun first =>
      (scan first.1 back).map fun later => (later.1, first.2 ++ later.2) := by
  induction front generalizing state with
  | nil => simp [scan]
  | cons byte rest ih =>
      simp only [List.cons_append, scan, ih, Option.bind_assoc]
      cases stepped : step state byte with
      | none => rfl
      | some next =>
          cases first : scan next.1 rest with
          | none => simp [first]
          | some middle => simp [first, Function.comp_def]

theorem tokensFrom_append {state middle : Scan} {front : Text} {read : List Token}
    (first : scan state front = some (middle, read)) (back : Text) :
    tokensFrom state (front ++ back) = (tokensFrom middle back).map fun later => read ++ later := by
  rw [tokensFrom, scan_append, first, tokensFrom, Option.bind_some]
  cases scan middle back with
  | none => rfl
  | some last => simp [Function.comp_def]

theorem tokensFrom_append_none {state : Scan} {front : Text} (first : scan state front = none)
    (back : Text) : tokensFrom state (front ++ back) = none := by
  rw [tokensFrom, scan_append, first]
  rfl

theorem unicodeEscape_digits {byte a b c d : UInt8} (escape : unicodeEscape a b c d = some byte) :
    ∃ first second third fourth, hexValue a = some first ∧ hexValue b = some second ∧
      hexValue c = some third ∧ hexValue d = some fourth ∧
      first * 4096 + second * 256 + third * 16 + fourth < 0x80 ∧
      byte = UInt8.ofNat (first * 4096 + second * 256 + third * 16 + fourth) := by
  unfold unicodeEscape at escape
  simp only [Option.bind_eq_bind, Option.bind_eq_some_iff] at escape
  obtain ⟨first, one, second, two, third, three, fourth, four, closed⟩ := escape
  split_ifs at closed with small
  exact ⟨first, second, third, fourth, one, two, three, four, small, (Option.some.inj closed).symm⟩

theorem Spelling.scan {byte : UInt8} {spelling : Text} (spelled : Spelling byte spelling) (read : Text) :
    Json.scan (.string read) spelling = some (.string (read ++ [byte]), []) := by
  cases spelled with
  | self quote backslash printed =>
      have control : ¬ byte < 0x20 := UInt8.not_lt.mpr printed
      simp [Json.scan, step, quote, backslash, control]
  | @short letter escape =>
      have other : letter ≠ 117 := by
        intro same
        subst same
        cases escape
      simp [Json.scan, step, other, escape]
  | unicode escape =>
      obtain ⟨first, second, third, fourth, one, two, three, four, small, rfl⟩ := unicodeEscape_digits escape
      have code : ((first * 16 + second) * 16 + third) * 16 + fourth =
          first * 4096 + second * 256 + third * 16 + fourth := by omega
      have plainCode : closeUnicode read none (first * 4096 + second * 256 + third * 16 + fourth) =
          some (.string (read ++ [UInt8.ofNat (first * 4096 + second * 256 + third * 16 + fourth)])) := by
        simp only [closeUnicode, encodeUtf8, if_pos small]
        rw [if_neg (by omega), if_neg (by omega)]
      simp [Json.scan, step, one, two, three, four, code, plainCode]

/-- A string that is written character by character. -/
theorem scan_flatMap (spelling : UInt8 → Text) {text : Text}
    (each : ∀ byte ∈ text, Spelling byte (spelling byte)) (read : Text) :
    scan (.string read) (text.flatMap spelling) = some (.string (read ++ text), []) := by
  induction text generalizing read with
  | nil => simp [scan]
  | cons byte rest ih =>
      have first := (each byte (by simp)).scan read
      have others := ih (fun later member => each later (by simp [member])) (read ++ [byte])
      rw [List.append_assoc, List.singleton_append] at others
      rw [List.flatMap_cons, scan_append, first, Option.bind_some, others]
      rfl

/-- Characters that stand for themselves. -/
def verbatim (byte : UInt8) : Bool := byte != 34 && byte != 92 && 0x20 ≤ byte

theorem scan_verbatim {text : Text} (all : ∀ byte ∈ text, verbatim byte = true) (read : Text) :
    scan (.string read) text = some (.string (read ++ text), []) := by
  have spelled : ∀ byte ∈ text, Spelling byte [byte] := by
    intro byte member
    have kept := all byte member
    simp only [verbatim, Bool.and_eq_true, bne_iff_ne, decide_eq_true_eq] at kept
    exact .self kept.1.1 kept.1.2 kept.2
  have scanned := scan_flatMap (fun byte => [byte]) spelled read
  rwa [List.flatMap_singleton'] at scanned

theorem verbatim_of_plain {byte : UInt8} (all : plain byte = true) : verbatim byte = true := by
  simp only [plain, Bool.and_eq_true, bne_iff_ne, decide_eq_true_eq] at all
  simp only [verbatim, Bool.and_eq_true, bne_iff_ne, decide_eq_true_eq]
  exact ⟨⟨all.1.2, all.2⟩, all.1.1.1⟩

/-- Nothing is read while no token is complete. -/
theorem stringFrom_append {state middle : Scan} {front : Text}
    (silent : scan state front = some (middle, [])) (back : Text) :
    stringFrom state (front ++ back) = stringFrom middle back := by
  induction front generalizing state with
  | nil =>
      cases silent
      rfl
  | cons byte rest ih =>
      cases stepped : step state byte with
      | none => simp [scan, stepped] at silent
      | some next =>
          rw [scan_cons stepped, Option.map_eq_some_iff] at silent
          obtain ⟨later, others, same⟩ := silent
          obtain ⟨here, nothing⟩ := Prod.mk.inj same
          obtain ⟨first, second⟩ := List.append_eq_nil_iff.mp nothing
          have following := @ih next.1 (by rw [others, ← here, ← second])
          rw [List.cons_append, stringFrom, stepped, Option.bind_some, first]
          exact following

theorem readString_flatMap (spelling : UInt8 → Text) {text : Text}
    (each : ∀ byte ∈ text, Spelling byte (spelling byte)) (rest : Text) :
    readString (text.flatMap spelling ++ 34 :: rest) = some (text, rest) := by
  have silent := scan_flatMap spelling each []
  rw [readString, stringFrom_append silent, List.nil_append]
  rfl

theorem hexValue_plain {byte : UInt8} {digit : Nat} (hex : hexValue byte = some digit) :
    byte ≠ 34 ∧ byte ≠ 92 := by
  constructor
  · intro same
    subst same
    cases hex
  · intro same
    subst same
    cases hex

theorem untilQuote_other {byte : UInt8} (quote : byte ≠ 34) (backslash : byte ≠ 92) (rest : Text) :
    untilQuote (byte :: rest) = (untilQuote rest).map fun found => (byte :: found.1, found.2) := by
  rw [untilQuote.eq_def]
  simp [quote, backslash]

theorem untilQuote_escaped (escaped : UInt8) (rest : Text) :
    untilQuote (92 :: escaped :: rest) =
      (untilQuote rest).map fun found => (92 :: escaped :: found.1, found.2) := by
  rw [untilQuote.eq_def]
  rfl

theorem Spelling.untilQuote {byte : UInt8} {spelling : Text} (spelled : Spelling byte spelling)
    (rest : Text) :
    Json.untilQuote (spelling ++ rest) =
      (Json.untilQuote rest).map fun found => (spelling ++ found.1, found.2) := by
  cases spelled with
  | self quote backslash _ => exact untilQuote_other quote backslash rest
  | @short letter _ => exact untilQuote_escaped letter rest
  | unicode escape =>
      obtain ⟨_, _, _, _, one, two, three, four, _, _⟩ := unicodeEscape_digits escape
      simp only [List.cons_append, List.nil_append, untilQuote_escaped,
        untilQuote_other (hexValue_plain one).1 (hexValue_plain one).2,
        untilQuote_other (hexValue_plain two).1 (hexValue_plain two).2,
        untilQuote_other (hexValue_plain three).1 (hexValue_plain three).2,
        untilQuote_other (hexValue_plain four).1 (hexValue_plain four).2, Option.map_map]
      rfl

theorem untilQuote_flatMap (spelling : UInt8 → Text) {text : Text}
    (each : ∀ byte ∈ text, Spelling byte (spelling byte)) (rest : Text) :
    untilQuote (text.flatMap spelling ++ 34 :: rest) = some (text.flatMap spelling, rest) := by
  induction text with
  | nil =>
      rw [List.flatMap_nil, List.nil_append, untilQuote.eq_def]
      rfl
  | cons byte text ih =>
      have others := ih fun later member => each later (by simp [member])
      rw [List.flatMap_cons, List.append_assoc, (each byte (by simp)).untilQuote, others]
      rfl

theorem scan_word {word : Text} (inside : ∀ byte ∈ word, endsWord byte = false) (read : Text) :
    scan (.word read) word = some (.word (read ++ word), []) := by
  induction word generalizing read with
  | nil => simp [scan]
  | cons byte rest ih =>
      have others := ih (fun later member => inside later (by simp [member])) (read ++ [byte])
      simp [scan, step, inside byte (by simp), others]

theorem start_word {byte : UInt8} (inside : endsWord byte = false) : start byte = (.word [byte], []) := by
  simp only [endsWord, Bool.or_eq_false_iff, beq_eq_false_iff_ne, Option.isSome_eq_false_iff,
    Option.isNone_iff_eq_none] at inside
  simp [start, inside.1.1, inside.1.2, inside.2]

theorem scan_between_word {word : Text} (some_byte : word ≠ [])
    (inside : ∀ byte ∈ word, endsWord byte = false) :
    scan .between word = some (.word word, []) := by
  obtain ⟨byte, rest, rfl⟩ := List.exists_cons_of_ne_nil some_byte
  have others := @scan_word rest (fun later member => inside later (by simp [member])) [byte]
  simp [scan, step, start_word (inside byte (by simp)), others]

theorem endsWord_numeral {byte : UInt8} (code : 45 ≤ byte.toNat ∧ byte.toNat ≤ 57) :
    endsWord byte = false := by
  have apart := fun (other : UInt8) => @ne_of_numeral byte other code
  simp [endsWord, isSpace, markOf, apart 32 (by decide), apart 9 (by decide), apart 10 (by decide),
    apart 13 (by decide), apart 34 (by decide), apart 123 (by decide), apart 125 (by decide),
    apart 91 (by decide), apart 93 (by decide), apart 44 (by decide), apart 58 (by decide)]

theorem skipInteger_digits (value : Nat) : skipInteger (Decimal.digits value) = some [] := by
  obtain ⟨first, rest, split, digit⟩ := digits_head value
  rcases Nat.eq_zero_or_pos value with rfl | positive
  · rfl
  · have leading : (Decimal.digits value).head? ≠ some 48 := by
      rw [List.head?_eq_some_head (Decimal.digits_ne_nil value)]
      intro zero
      exact Decimal.digits_head_ne_zero positive (Option.some.inj zero)
    have numeral : (Decimal.digits value).head?.any isDigit = true := by
      rw [split]
      exact isDigit_of_decimal digit
    have ended : (Decimal.digits value).dropWhile isDigit = [] :=
      List.dropWhile_eq_nil_iff.mpr fun byte member =>
        isDigit_of_decimal (Decimal.digits_isDigit value byte member)
    rw [skipInteger, if_neg leading, skipDigits, if_pos numeral, ended]

theorem isNumber_ofInt (value : Int) : isNumber (Decimal.ofInt value) = true := by
  have unsigned : (if (Decimal.ofInt value).head? = some 45 then (Decimal.ofInt value).tail
      else Decimal.ofInt value) = Decimal.digits value.natAbs := by
    unfold Decimal.ofInt
    split_ifs with negative sign sign
    · rfl
    · exact absurd rfl sign
    · obtain ⟨first, rest, split, digit⟩ := digits_head value.natAbs
      rw [split] at sign
      cases sign
      exact absurd digit.1 (by decide)
    · rfl
  rw [isNumber, unsigned, skipInteger_digits]
  rfl

theorem isWord_ofInt (value : Int) : isWord (Decimal.ofInt value) = true := by
  rw [isWord, isNumber_ofInt, Bool.or_true]

theorem scan_ofInt (value : Int) :
    scan .between (Decimal.ofInt value) = some (.word (Decimal.ofInt value), []) := by
  apply scan_between_word (Decimal.ofInt_ne_nil value)
  intro byte member
  exact endsWord_numeral (Decimal.ofInt_bytes value byte member)

theorem tokensFrom_close (text rest : Text) :
    tokensFrom (.string text) (34 :: rest) =
      (tokensFrom .between rest).map fun later => .string text :: later := by
  have closed : scan (.string text) [34] = some (.between, [.string text]) := rfl
  rw [← List.singleton_append, tokensFrom_append closed]
  rfl

theorem tokensFrom_string {raw text : Text} (body : scan (.string []) raw = some (.string text, []))
    (rest : Text) :
    tokensFrom .between (34 :: (raw ++ 34 :: rest)) =
      (tokensFrom .between rest).map fun later => .string text :: later := by
  have opened : scan .between [34] = some (.string [], []) := by decide
  rw [← List.singleton_append, tokensFrom_append opened, tokensFrom_append body, tokensFrom_close]
  simp [Function.comp_def]

theorem tokensFrom_word {word : Text} {byte : UInt8} (whole : isWord word = true)
    (ends : endsWord byte = true) (rest : Text) :
    tokensFrom (.word word) (byte :: rest) =
      (tokensFrom .between (byte :: rest)).map fun later => .word word :: later := by
  simp only [tokensFrom, scan, step, ends, whole, if_true, Option.bind_some]
  cases scan (start byte).1 rest with
  | none => rfl
  | some last => simp [Function.comp_def]

theorem tokensFrom_ofInt (value : Int) {byte : UInt8} (ends : endsWord byte = true) (rest : Text) :
    tokensFrom .between (Decimal.ofInt value ++ byte :: rest) =
      (tokensFrom .between (byte :: rest)).map fun later => .word (Decimal.ofInt value) :: later := by
  rw [tokensFrom_append (scan_ofInt value), tokensFrom_word (isWord_ofInt value) ends]
  simp [Function.comp_def]

end Json
