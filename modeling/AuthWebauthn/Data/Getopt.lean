import Mathlib.Data.List.TakeWhile

namespace Getopt

/-! `getopt_long` of the GNU C library, for options of which the short ones take no argument.  A long
option may be abbreviated as long as one option is meant; its argument stands behind `=` or is
the next word, whatever that word is.  Operands between the options are passed over, unless
POSIXLY_CORRECT asks for the options to stand first.
-/

structure LongOption (C : Type) where
  name : List UInt8
  hasArgument : Bool
  code : C
deriving DecidableEq

/-- What one call reports; `invalid` is the `?`. -/
inductive Event (C : Type) where
  | option (code : C) (argument : Option (List UInt8))
  | invalid
deriving DecidableEq

/-- The scanner's view of a single word. -/
inductive Word where
  | operand
  | terminator
  | letters (text : List UInt8)
  | long (name : List UInt8) (argument : Option (List UInt8))
deriving DecidableEq

def dash : UInt8 := 45

def equals : UInt8 := 61

/-- The name up to the first `=`, and what stands behind that. -/
def splitLong (body : List UInt8) : Word :=
  match body.dropWhile (· ≠ equals) with
  | [] => .long body none
  | _ :: argument => .long (body.takeWhile (· ≠ equals)) (some argument)

def classify : List UInt8 → Word
  | first :: second :: rest =>
      if first ≠ dash then .operand
      else if second ≠ dash then .letters (second :: rest)
      else if rest = [] then .terminator
      else splitLong rest
  | _ => .operand

section Tables

variable {C : Type} [DecidableEq C]

/-- The option of that name, or the only one whose name begins so; options that do the same are one. -/
def findLong (long : List (LongOption C)) (name : List UInt8) : Option (LongOption C) :=
  match long.find? (·.name = name) with
  | some found => some found
  | none =>
      match long.filter (name.isPrefixOf ·.name) with
      | [] => none
      | first :: others =>
          if ∀ other ∈ others, other.hasArgument = first.hasArgument ∧ other.code = first.code then some first
          else none

structure Table (C : Type) where
  short : UInt8 → Option C
  long : List (LongOption C)

variable (posix : Bool) (table : Table C)

def scanLetter (letter : UInt8) : Event C :=
  match table.short letter with
  | some code => .option code none
  | none => .invalid

/-- The events up to the end of the options. -/
def scan : List (List UInt8) → List (Event C)
  | [] => []
  | word :: rest =>
      match classify word with
      | .operand => if posix then [] else scan rest
      | .terminator => []
      | .letters text => text.map (scanLetter table) ++ scan rest
      | .long name argument =>
          match findLong table.long name with
          | none => .invalid :: scan rest
          | some found =>
              match found.hasArgument, argument with
              | false, none => .option found.code none :: scan rest
              | false, some _ => .invalid :: scan rest
              | true, some value => .option found.code (some value) :: scan rest
              | true, none =>
                  match rest with
                  | [] => [.invalid]
                  | value :: later => .option found.code (some value) :: scan later

/-- The arguments an option was given, in their order. -/
def arguments (code : C) (events : List (Event C)) : List (List UInt8) :=
  events.filterMap fun event =>
    match event with
    | .option found argument => if found = code then some (argument.getD []) else none
    | .invalid => none

/-- The ways to write options, with what they mean. -/
inductive Spells : List (List UInt8) → List (Event C) → Prop where
  | letters {text : List UInt8} {codes : List C} (written : text ≠ []) (single : text.head? ≠ some dash)
      (known : text.map table.short = codes.map some) :
      Spells [dash :: text] (codes.map fun code => .option code none)
  | plain {name : List UInt8} {found : LongOption C} (written : name ≠ []) (whole : equals ∉ name)
      (means : findLong table.long name = some found) (bare : found.hasArgument = false) :
      Spells [dash :: dash :: name] [.option found.code none]
  | joined {name value : List UInt8} {found : LongOption C} (whole : equals ∉ name)
      (means : findLong table.long name = some found) (takes : found.hasArgument = true) :
      Spells [dash :: dash :: (name ++ equals :: value)] [.option found.code (some value)]
  | apart {name value : List UInt8} {found : LongOption C} (written : name ≠ []) (whole : equals ∉ name)
      (means : findLong table.long name = some found) (takes : found.hasArgument = true) :
      Spells [dash :: dash :: name, value] [.option found.code (some value)]

/-- A whole line of options and operands. -/
inductive Line : List (List UInt8) → List (Event C) → Prop where
  | nil : Line [] []
  | terminated (operands : List (List UInt8)) : Line ([dash, dash] :: operands) []
  | ordered {word : List UInt8} (operand : classify word = .operand) (stops : posix = true)
      (operands : List (List UInt8)) : Line (word :: operands) []
  | operand {word : List UInt8} {rest : List (List UInt8)} {events : List (Event C)}
      (operand : classify word = .operand) (permutes : posix = false) (tail : Line rest events) :
      Line (word :: rest) events
  | spelled {words rest : List (List UInt8)} {events later : List (Event C)}
      (spells : Spells table words events) (tail : Line rest later) : Line (words ++ rest) (events ++ later)

end Tables

theorem classify_dash {word : List UInt8} : classify (dash :: dash :: word) =
    if word = [] then .terminator else splitLong word := by
  simp [classify]

theorem classify_letters {text : List UInt8} (written : text ≠ []) (single : text.head? ≠ some dash) :
    classify (dash :: text) = .letters text := by
  cases text with
  | nil => exact absurd rfl written
  | cons letter rest =>
      have other : letter ≠ dash := by
        intro same
        exact single (by rw [same]; rfl)
      simp [classify, other]

theorem whole_passes {name : List UInt8} (whole : equals ∉ name) :
    ∀ letter ∈ name, decide (letter ≠ equals) = true := by
  intro letter member
  simpa using fun same : letter = equals => whole (same ▸ member)

theorem splitLong_plain {name : List UInt8} (whole : equals ∉ name) : splitLong name = .long name none := by
  rw [splitLong, List.dropWhile_eq_nil_iff.mpr (whole_passes whole)]

theorem splitLong_joined {name : List UInt8} (whole : equals ∉ name) (value : List UInt8) :
    splitLong (name ++ equals :: value) = .long name (some value) := by
  rw [splitLong, List.dropWhile_append_of_pos (whole_passes whole),
    List.takeWhile_append_of_pos (whole_passes whole)]
  simp

theorem splitLong_eq {body name : List UInt8} {argument : Option (List UInt8)}
    (split : splitLong body = .long name argument) :
    equals ∉ name ∧ ((argument = none ∧ body = name) ∨
      ∃ value, argument = some value ∧ body = name ++ equals :: value) := by
  have joined := @List.takeWhile_append_dropWhile _ (fun letter => decide (letter ≠ equals)) body
  have name_whole : equals ∉ body.takeWhile (fun letter => decide (letter ≠ equals)) := by
    intro member
    simpa using List.mem_takeWhile_imp member
  unfold splitLong at split
  split at split
  · rename_i nothing
    cases split
    rw [nothing, List.append_nil] at joined
    rw [joined] at name_whole
    exact ⟨name_whole, .inl ⟨rfl, rfl⟩⟩
  · rename_i stop value left
    cases split
    have ends : stop = equals := by
      have stopped := List.head?_dropWhile_not (fun letter => decide (letter ≠ equals)) body
      rw [left] at stopped
      simpa using stopped
    rw [left, ends] at joined
    exact ⟨name_whole, .inr ⟨value, rfl, joined.symm⟩⟩

theorem splitLong_long (body : List UInt8) : ∃ name argument, splitLong body = .long name argument := by
  unfold splitLong
  split
  · exact ⟨_, _, rfl⟩
  · exact ⟨_, _, rfl⟩

/-- Words that are not operands start with a dash. -/
theorem classify_cases (word : List UInt8) : classify word = .operand ∨
    (word = [dash, dash] ∧ classify word = .terminator) ∨
    (∃ text, word = dash :: text ∧ text ≠ [] ∧ text.head? ≠ some dash ∧ classify word = .letters text) ∨
    ∃ body, word = dash :: dash :: body ∧ body ≠ [] ∧ classify word = splitLong body := by
  unfold classify
  split
  · rename_i first second rest
    split_ifs with other single bare
    · exact .inl rfl
    · rw [not_not.mp other]
      exact .inr (.inr (.inl ⟨second :: rest, rfl, by simp, by simpa using single, rfl⟩))
    · rw [not_not.mp other, not_not.mp single, bare]
      exact .inr (.inl ⟨rfl, rfl⟩)
    · rw [not_not.mp other, not_not.mp single]
      exact .inr (.inr (.inr ⟨rest, rfl, bare, rfl⟩))
  · exact .inl rfl

variable {C : Type} {posix : Bool} {table : Table C}

theorem scanLetters_known {text : List UInt8} {codes : List C} (known : text.map table.short = codes.map some) :
    text.map (scanLetter table) = codes.map fun code => .option code none := by
  induction text generalizing codes with
  | nil =>
      cases codes with
      | nil => rfl
      | cons code codes => simp at known
  | cons letter text ih =>
      cases codes with
      | nil => simp at known
      | cons code codes =>
          obtain ⟨first, later⟩ := List.cons.inj known
          simp only [List.map_cons, scanLetter, first, ih later]

theorem scanLetters_valid {text : List UInt8} (valid : Event.invalid ∉ text.map (scanLetter table)) :
    ∃ codes : List C, text.map table.short = codes.map some := by
  induction text with
  | nil => exact ⟨[], rfl⟩
  | cons letter text ih =>
      simp only [List.map_cons, List.mem_cons, not_or] at valid
      obtain ⟨codes, known⟩ := ih valid.2
      cases read : table.short letter with
      | none => exact absurd (by simp [scanLetter, read]) valid.1
      | some code => exact ⟨code :: codes, by simp [read, known]⟩

variable [DecidableEq C]

/-- What is spelled is read, whatever stands behind it. -/
theorem Spells.scan {words : List (List UInt8)} {events : List (Event C)} (spells : Spells table words events)
    (rest : List (List UInt8)) : scan posix table (words ++ rest) = events ++ scan posix table rest := by
  cases spells with
  | letters written single known =>
      rw [List.singleton_append, Getopt.scan, classify_letters written single]
      simp only [scanLetters_known known]
  | plain written whole means bare =>
      rw [List.singleton_append, Getopt.scan, classify_dash, if_neg written, splitLong_plain whole]
      simp [means, bare]
  | joined whole means takes =>
      rw [List.singleton_append, Getopt.scan, classify_dash, if_neg (by simp), splitLong_joined whole]
      simp [means, takes]
  | apart written whole means takes =>
      rw [List.cons_append, List.singleton_append, Getopt.scan, classify_dash, if_neg written,
        splitLong_plain whole]
      simp [means, takes]

theorem Line.scan {words : List (List UInt8)} {events : List (Event C)} (line : Line posix table words events) :
    scan posix table words = events := by
  induction line with
  | nil => rfl
  | terminated operands => rw [Getopt.scan, classify_dash, if_pos rfl]
  | ordered operand stops operands =>
      rw [Getopt.scan, operand]
      simp [stops]
  | operand operand permutes tail ih =>
      rw [Getopt.scan, operand]
      simpa [permutes] using ih
  | spelled spells tail ih => rw [spells.scan, ih]

theorem Line.valid {words : List (List UInt8)} {events : List (Event C)} (line : Line posix table words events) :
    Event.invalid ∉ events := by
  induction line with
  | nil | terminated _ | ordered _ _ _ => exact List.not_mem_nil
  | operand _ _ _ ih => exact ih
  | spelled spells _ ih =>
      rw [List.mem_append, not_or]
      refine ⟨?_, ih⟩
      cases spells with
      | letters _ _ _ => simp
      | plain _ _ _ _ | joined _ _ _ | apart _ _ _ _ => simp

/-- A line that is scanned without complaint is made of spelled options. -/
theorem line_of_scan {words : List (List UInt8)} (valid : Event.invalid ∉ scan posix table words) :
    Line posix table words (scan posix table words) := by
  induction size : words.length using Nat.strongRecOn generalizing words with
  | ind length ih =>
      subst size
      cases words with
      | nil => exact .nil
      | cons word rest =>
          have shorter : ∀ {later : List (List UInt8)}, later.length ≤ rest.length →
              Event.invalid ∉ scan posix table later → Line posix table later (scan posix table later) :=
            fun short accepted => ih _ (Nat.lt_succ_of_le short) accepted rfl
          rcases classify_cases word with read | ⟨rfl, read⟩ | ⟨text, rfl, written, single, read⟩ |
            ⟨body, rfl, written, read⟩
          · rw [scan, read] at valid ⊢
            cases posix with
            | true => exact .ordered read rfl rest
            | false => exact .operand read rfl (shorter le_rfl valid)
          · rw [scan, read]
            exact .terminated rest
          · rw [scan, read] at valid ⊢
            simp only [List.mem_append, not_or] at valid
            obtain ⟨codes, known⟩ := scanLetters_valid valid.1
            simp only [scanLetters_known known]
            exact .spelled (.letters written single known) (shorter le_rfl valid.2)
          · obtain ⟨name, argument, split⟩ := splitLong_long body
            obtain ⟨whole, form⟩ := splitLong_eq split
            rw [scan, read, split] at valid ⊢
            cases means : findLong table.long name with
            | none => simp [means] at valid
            | some found =>
                simp only [means] at valid ⊢
                rcases form with ⟨rfl, rfl⟩ | ⟨value, rfl, rfl⟩
                · cases takes : found.hasArgument with
                  | false =>
                      simp only [takes, List.mem_cons, not_or] at valid ⊢
                      exact .spelled (.plain written whole means takes) (shorter le_rfl valid.2)
                  | true =>
                      cases rest with
                      | nil => simp [takes] at valid
                      | cons value later =>
                          simp only [takes, List.mem_cons, not_or] at valid ⊢
                          exact .spelled (.apart written whole means takes) (shorter (by simp) valid.2)
                · cases takes : found.hasArgument with
                  | false => simp [takes] at valid
                  | true =>
                      simp only [takes, List.mem_cons, not_or] at valid ⊢
                      exact .spelled (.joined whole means takes) (shorter le_rfl valid.2)

@[simp] theorem arguments_snoc_invalid (code : C) (events : List (Event C)) :
    arguments code (events ++ [.invalid]) = arguments code events := by
  simp [arguments]

@[simp] theorem arguments_snoc (code found : C) (events : List (Event C)) (argument : Option (List UInt8)) :
    arguments code (events ++ [.option found argument]) =
      if found = code then arguments code events ++ [argument.getD []] else arguments code events := by
  unfold arguments
  rw [List.filterMap_append]
  split_ifs with same
  · simp [same]
  · simp [same]

end Getopt
