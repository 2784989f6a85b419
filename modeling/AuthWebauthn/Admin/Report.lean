import AuthWebauthn.Credential.RoundTrip
import AuthWebauthn.Data.Base64url
import AuthWebauthn.Data.Civil
import Mathlib.Data.List.TakeWhile

namespace AuthWebauthn

/-! `auth_webauthn_admin_alg_name`, `auth_webauthn_admin_fmt_time`,
`ngx_auth_webauthn_admin_aaguid_fmt` and the printf calls of the four commands.
-/

def adminAlgName : Int32 → Bytes
  | -7 => ascii "ES256"
  | -8 => ascii "EdDSA"
  | -257 => ascii "RS256"
  | _ => ascii "unknown"

/-- `%02d`, for what is less than a hundred. -/
def twoDigits (number : Nat) : Bytes := [UInt8.ofNat (48 + number / 10), UInt8.ofNat (48 + number % 10)]

/-- `%Y-%m-%dT%H:%M:%SZ` -/
def isoText (moment : Civil.Moment) : Bytes :=
  Decimal.digits moment.year ++ 45 :: (twoDigits moment.month ++ 45 :: (twoDigits moment.day ++
    84 :: (twoDigits moment.hour ++ 58 :: (twoDigits moment.minute ++
      58 :: (twoDigits moment.second ++ [90])))))

/-- `tm_year` is an int and counts from 1900. -/
def gmtimeR (seconds : Nat) : Option Civil.Moment :=
  let moment := Civil.momentOf seconds
  if moment.year < 1900 + 2147483648 then some moment else none

/-- The text that is left in a buffer of `size` bytes; `strftime` counts the NUL too. -/
def adminFmtTime (t : Int64) (size : Nat) : Bytes :=
  if t ≤ 0 then ascii "-"
  else
    match gmtimeR t.toInt.toNat with
    | none => ascii "-"
    | some moment => if size < (isoText moment).length + 1 then ascii "-" else isoText moment

def aaguidHex (value : UInt8) : UInt8 := (ascii "0123456789abcdef").getD value.toNat 0

def aaguidDashes : List Nat := [4, 6, 8, 10]

/-- The loop, from byte `index` and dash `d` on. -/
def aaguidLoop : Nat → Nat → Bytes → Bytes
  | _, _, [] => []
  | index, d, byte :: rest =>
      if d < 4 ∧ aaguidDashes[d]? = some index then
        45 :: aaguidHex (byte >>> 4) :: aaguidHex (byte &&& 0x0f) :: aaguidLoop (index + 1) (d + 1) rest
      else aaguidHex (byte >>> 4) :: aaguidHex (byte &&& 0x0f) :: aaguidLoop (index + 1) d rest

def adminAaguidFmt (aaguid : Vector UInt8 16) : Bytes := aaguidLoop 0 0 aaguid.toList

/-- `%.*s` prints up to a NUL. -/
def shown (text : Bytes) : Bytes := text.takeWhile (· ≠ 0)

/-- `%-*s` -/
def padded (width : Nat) (text : Bytes) : Bytes := text ++ List.replicate (width - text.length) 32

/-- The buffers for times, `tbuf`. -/
abbrev timeSize : Nat := 24

def listRow (credentialId alg signCount createdAt : Bytes) : Bytes :=
  padded 43 credentialId ++ 32 :: padded 6 alg ++ 32 :: padded 11 signCount ++ 32 :: createdAt ++ [10]

def listHeader : Bytes :=
  listRow (ascii "CREDENTIAL_ID") (ascii "ALG") (ascii "SIGN_COUNT") (ascii "CREATED_AT")

/-- The line for a member of the index; a record that is gone or unreadable is missing. -/
def listLine (member : Bytes) : Except Rc Credential → Bytes
  | .ok cred => listRow (shown member) (adminAlgName cred.alg) (Decimal.digits cred.signCount.toNat)
      (adminFmtTime cred.createdAt timeSize)
  | .error _ => listRow (shown member) (ascii "?") (ascii "?") (ascii "(missing)")

/-- Lines with their ends. -/
def unlines (lines : List Bytes) : Bytes := lines.flatMap (· ++ [10])

def showLines (credentialId : Bytes) (cred : Credential) : List Bytes :=
  [ascii "credential_id: " ++ shown credentialId,
    ascii "user_id:       " ++ shown cred.userId,
    ascii "alg:           " ++ adminAlgName cred.alg ++ ascii " (" ++ Decimal.ofInt cred.alg.toInt ++ ascii ")",
    ascii "sign_count:    " ++ Decimal.digits cred.signCount.toNat,
    ascii "created_at:    " ++ adminFmtTime cred.createdAt timeSize,
    ascii "last_used_at:  " ++ adminFmtTime cred.lastUsedAt timeSize,
    ascii "aaguid:        " ++ (if cred.hasAaguid then adminAaguidFmt cred.aaguid else ascii "-"),
    ascii "transports:    " ++ (if cred.transports ≠ [] then shown cred.transports else ascii "-"),
    ascii "public_key:    " ++ Decimal.digits cred.publicKey.length ++
      ascii " bytes (DER SubjectPublicKeyInfo)"]

def showReport (credentialId : Bytes) (cred : Credential) : Bytes := unlines (showLines credentialId cred)

/-- The part of an id that is echoed, `AUTH_WEBAUTHN_ADMIN_CID_ECHO`. -/
abbrev cidEcho : Nat := 12

def registeredLine (cred : Credential) : Bytes :=
  ascii "registered: cid=" ++ shown (cred.credentialId.take cidEcho) ++
    (if cidEcho < cred.credentialId.length then ascii "..." else []) ++ ascii " alg=" ++
    adminAlgName cred.alg ++ [10]

def revokedLine (credentialId : Bytes) : Bytes := ascii "revoked: cid=" ++ shown credentialId ++ [10]

/-- The end of the last year whose text fits its buffer. -/
def shownUntil : Nat := (Civil.daysBeforeYear 10000000 - Civil.daysBeforeYear 1970) * 86400

theorem isoText_length (moment : Civil.Moment) :
    (isoText moment).length = (Decimal.digits moment.year).length + 16 := by
  simp [isoText, twoDigits]

theorem isoText_fits_iff (moment : Civil.Moment) :
    (isoText moment).length + 1 ≤ timeSize ↔ moment.year < 10000000 := by
  rw [isoText_length, Decimal.digits, List.length_map]
  have digits := @Nat.length_toDigits_le_iff 10 moment.year 7 (by decide) (by decide)
  have size : timeSize = 24 := rfl
  constructor
  · intro short
    exact digits.mp (by omega)
  · intro early
    have short := digits.mpr early
    omega

theorem adminFmtTime_eq {t : Int64} (positive : 0 < t.toInt) :
    adminFmtTime t timeSize =
      if t.toInt.toNat < shownUntil then isoText (Civil.momentOf t.toInt.toNat) else ascii "-" := by
  obtain ⟨valid, seconds⟩ := Civil.momentOf_spec t.toInt.toNat
  have year := valid.year_lt_iff 10000000
  rw [seconds] at year
  have fits := isoText_fits_iff (Civil.momentOf t.toInt.toNat)
  have later : ¬ t ≤ 0 := by
    rw [Int64.le_iff_toInt_le]
    exact not_le.mpr positive
  unfold adminFmtTime gmtimeR
  rw [if_neg later]
  simp only
  by_cases early : t.toInt.toNat < shownUntil
  · have before := year.mpr early
    have room := fits.mpr before
    rw [if_pos early, if_pos (by omega)]
    simp only
    rw [if_neg (by omega)]
  · rw [if_neg early]
    by_cases counted : (Civil.momentOf t.toInt.toNat).year < 1900 + 2147483648
    · rw [if_pos counted]
      simp only
      have after : ¬ (Civil.momentOf t.toInt.toNat).year < 10000000 := fun before => early (year.mp before)
      have full : ¬ (isoText (Civil.momentOf t.toInt.toNat)).length + 1 ≤ timeSize := fun room => after (fits.mp room)
      rw [if_pos (by omega)]
    · rw [if_neg counted]

/-- Texts in front of a separator that does not occur in them. -/
theorem separated_inj {separator : UInt8} {front other back rest : Bytes} (first : separator ∉ front)
    (second : separator ∉ other) (same : front ++ separator :: back = other ++ separator :: rest) :
    front = other ∧ back = rest := by
  induction front generalizing other with
  | nil =>
      cases other with
      | nil => exact ⟨rfl, (List.cons.inj same).2⟩
      | cons byte other =>
          rw [List.nil_append, List.cons_append] at same
          exact absurd (List.mem_cons.mpr (.inl (List.cons.inj same).1)) second
  | cons byte front ih =>
      cases other with
      | nil =>
          rw [List.nil_append, List.cons_append] at same
          exact absurd (List.mem_cons.mpr (.inl (List.cons.inj same).1.symm)) first
      | cons start other =>
          rw [List.cons_append, List.cons_append] at same
          obtain ⟨rfl, later⟩ := List.cons.inj same
          rw [List.mem_cons, not_or] at first second
          obtain ⟨rfl, rest⟩ := ih first.2 second.2 later
          exact ⟨rfl, rest⟩

theorem digits_injective {value other : Nat} (same : Decimal.digits value = Decimal.digits other) :
    value = other := by
  rw [← Decimal.valueFrom_digits value, same, Decimal.valueFrom_digits]

theorem ofInt_injective {value other : Int} (same : Decimal.ofInt value = Decimal.ofInt other) :
    value = other := by
  have minus : ∀ {number : Nat} {rest : Bytes}, Decimal.digits number ≠ 45 :: rest := by
    intro number rest equal
    have digit := Decimal.digits_isDigit number 45 (by rw [equal]; exact List.mem_cons_self ..)
    exact absurd digit.1 (by decide)
  unfold Decimal.ofInt at same
  split_ifs at same with negative also also
  · have sizes := digits_injective (List.cons.inj same).2
    omega
  · exact absurd same.symm minus
  · exact absurd same minus
  · have sizes := digits_injective same
    omega

theorem twoDigits_injective {number other : Nat} (small : number < 100) (also : other < 100)
    (same : twoDigits number = twoDigits other) : number = other := by
  simp only [twoDigits, List.cons.injEq, and_true] at same
  have tens := congrArg UInt8.toNat same.1
  have ones := congrArg UInt8.toNat same.2
  simp only [UInt8.toNat_ofNat'] at tens ones
  omega

theorem dash_notMem_digits (number : Nat) : 45 ∉ Decimal.digits number := by
  intro member
  exact absurd (Decimal.digits_isDigit number 45 member).1 (by decide)

theorem isoText_injective {moment other : Civil.Moment} (valid : moment.Valid) (also : other.Valid)
    (same : isoText moment = isoText other) : moment = other := by
  obtain ⟨years, rest⟩ := separated_inj (dash_notMem_digits _) (dash_notMem_digits _) same
  simp only [twoDigits, List.cons_append, List.nil_append, List.cons.injEq, true_and] at rest
  obtain ⟨month, month', day, day', hour, hour', minute, minute', second, second', _⟩ := rest
  have year := digits_injective years
  have month := twoDigits_injective (Nat.lt_of_le_of_lt valid.date.month_le (by decide))
    (Nat.lt_of_le_of_lt also.date.month_le (by decide)) (by simp [twoDigits, month, month'])
  have day := twoDigits_injective (Nat.lt_of_le_of_lt valid.date.day_le (by decide))
    (Nat.lt_of_le_of_lt also.date.day_le (by decide)) (by simp [twoDigits, day, day'])
  have hour := twoDigits_injective (Nat.lt_trans valid.hour (by decide)) (Nat.lt_trans also.hour (by decide))
    (by simp [twoDigits, hour, hour'])
  have minute := twoDigits_injective (Nat.lt_trans valid.minute (by decide))
    (Nat.lt_trans also.minute (by decide)) (by simp [twoDigits, minute, minute'])
  have second := twoDigits_injective (Nat.lt_trans valid.second (by decide))
    (Nat.lt_trans also.second (by decide)) (by simp [twoDigits, second, second'])
  obtain ⟨⟨_, _, _⟩, _, _, _⟩ := moment
  obtain ⟨⟨_, _, _⟩, _, _, _⟩ := other
  simp_all

/-- Whether a time is printed as a date. -/
def TimeShown (t : Int64) : Prop := 0 < t.toInt ∧ t.toInt.toNat < shownUntil

def SameTime (t u : Int64) : Prop := t = u ∨ (¬ TimeShown t ∧ ¬ TimeShown u)

theorem adminFmtTime_unshown {t : Int64} (unshown : ¬ TimeShown t) : adminFmtTime t timeSize = ascii "-" := by
  by_cases positive : 0 < t.toInt
  · rw [adminFmtTime_eq positive, if_neg fun early => unshown ⟨positive, early⟩]
  · rw [adminFmtTime, if_pos]
    rw [Int64.le_iff_toInt_le]
    exact not_lt.mp positive

theorem adminFmtTime_shown {t : Int64} (isShown : TimeShown t) :
    adminFmtTime t timeSize = isoText (Civil.momentOf t.toInt.toNat) := by
  rw [adminFmtTime_eq isShown.1, if_pos isShown.2]

theorem isoText_ne_dash (moment : Civil.Moment) : isoText moment ≠ ascii "-" := by
  intro same
  have lengths := congrArg List.length same
  rw [isoText_length] at lengths
  have short : (ascii "-").length = 1 := rfl
  omega

theorem adminFmtTime_eq_iff {t u : Int64} :
    adminFmtTime t timeSize = adminFmtTime u timeSize ↔ SameTime t u := by
  constructor
  · intro same
    by_cases first : TimeShown t
    · by_cases second : TimeShown u
      · rw [adminFmtTime_shown first, adminFmtTime_shown second] at same
        obtain ⟨valid, seconds⟩ := Civil.momentOf_spec t.toInt.toNat
        obtain ⟨also, others⟩ := Civil.momentOf_spec u.toInt.toNat
        have moments := isoText_injective valid also same
        rw [moments] at seconds
        have positive := first.1
        have later := second.1
        left
        apply Int64.toInt_inj.mp
        omega
      · rw [adminFmtTime_shown first, adminFmtTime_unshown second] at same
        exact absurd same (isoText_ne_dash _)
    · by_cases second : TimeShown u
      · rw [adminFmtTime_unshown first, adminFmtTime_shown second] at same
        exact absurd same.symm (isoText_ne_dash _)
      · exact .inr ⟨first, second⟩
  · intro alike
    rcases alike with rfl | ⟨first, second⟩
    · rfl
    · rw [adminFmtTime_unshown first, adminFmtTime_unshown second]

/-- A time is printed as its date and time of day in UTC as long as the text fits, and as a dash
otherwise, so that two times that are printed alike are the same or both not printed. -/
theorem printed_time_exact (t : Int64) :
    (TimeShown t → ∃ moment, moment.Valid ∧ (moment.seconds : Int) = t.toInt ∧
      adminFmtTime t timeSize = isoText moment) ∧
    (¬ TimeShown t → adminFmtTime t timeSize = ascii "-") ∧
    ∀ u, adminFmtTime t timeSize = adminFmtTime u timeSize ↔ SameTime t u := by
  refine ⟨?_, adminFmtTime_unshown, fun u => adminFmtTime_eq_iff⟩
  intro isShown
  obtain ⟨valid, seconds⟩ := Civil.momentOf_spec t.toInt.toNat
  have positive := isShown.1
  exact ⟨Civil.momentOf t.toInt.toNat, valid, by omega, adminFmtTime_shown isShown⟩

example : adminFmtTime 1776420000 timeSize = ascii "2026-04-17T10:00:00Z" := by decide +kernel

def aaguidHexValue (char : UInt8) : UInt8 := if char < 58 then char - 48 else char - 87

theorem aaguidHex_spec : ∀ byte : UInt8,
    (aaguidHexValue (aaguidHex (byte >>> 4)) <<< 4) ||| aaguidHexValue (aaguidHex (byte &&& 0x0f)) = byte ∧
      aaguidHex (byte >>> 4) ≠ 10 ∧ aaguidHex (byte &&& 0x0f) ≠ 10 :=
  Base64url.forall_byte (by decide +kernel)

theorem aaguidLoop_length (index d : Nat) (bytes : Bytes) :
    2 * bytes.length ≤ (aaguidLoop index d bytes).length ∧
      (aaguidLoop index d bytes).length ≤ 2 * bytes.length + (4 - d) := by
  induction bytes generalizing index d with
  | nil => simp [aaguidLoop]
  | cons byte rest ih =>
      unfold aaguidLoop
      split_ifs with dashed
      · have later := ih (index + 1) (d + 1)
        simp only [List.length_cons]
        omega
      · have later := ih (index + 1) d
        simp only [List.length_cons]
        omega

theorem aaguidLoop_unbroken (index d : Nat) (bytes : Bytes) : 10 ∉ aaguidLoop index d bytes := by
  induction bytes generalizing index d with
  | nil => simp [aaguidLoop]
  | cons byte rest ih =>
      obtain ⟨_, high, low⟩ := aaguidHex_spec byte
      unfold aaguidLoop
      split_ifs with dashed
      · simp [high.symm, low.symm, ih]
      · simp [high.symm, low.symm, ih]

theorem aaguidLoop_injective (index d : Nat) {bytes others : Bytes} (lengths : bytes.length = others.length)
    (same : aaguidLoop index d bytes = aaguidLoop index d others) : bytes = others := by
  induction bytes generalizing index d others with
  | nil => exact (List.length_eq_zero_iff.mp lengths.symm).symm
  | cons byte rest ih =>
      cases others with
      | nil => cases lengths
      | cons other later =>
          have heads : ∀ {d'}, aaguidHex (byte >>> 4) = aaguidHex (other >>> 4) ∧
              aaguidHex (byte &&& 0x0f) = aaguidHex (other &&& 0x0f) ∧
                aaguidLoop (index + 1) d' rest = aaguidLoop (index + 1) d' later →
              byte :: rest = other :: later := by
            intro d' pieces
            obtain ⟨high, low, tail⟩ := pieces
            rw [← (aaguidHex_spec byte).1, high, low, (aaguidHex_spec other).1,
              ih _ _ (Nat.succ.inj lengths) tail]
          unfold aaguidLoop at same
          split_ifs at same with dashed
          · simp only [List.cons.injEq, true_and] at same
            exact heads same
          · simp only [List.cons.injEq] at same
            exact heads same

theorem adminAaguidFmt_injective {aaguid other : Vector UInt8 16}
    (same : adminAaguidFmt aaguid = adminAaguidFmt other) : aaguid.toList = other.toList :=
  aaguidLoop_injective 0 0 (by rw [Vector.length_toList, Vector.length_toList]) same

theorem adminAaguidFmt_ne_dash (aaguid : Vector UInt8 16) : adminAaguidFmt aaguid ≠ ascii "-" := by
  intro same
  have bounds := (aaguidLoop_length 0 0 aaguid.toList).1
  rw [Vector.length_toList] at bounds
  have lengths : (adminAaguidFmt aaguid).length = 1 := congrArg List.length same
  unfold adminAaguidFmt at lengths
  omega

theorem unlines_injective {lines others : List Bytes} (first : ∀ line ∈ lines, 10 ∉ line)
    (second : ∀ line ∈ others, 10 ∉ line) (same : unlines lines = unlines others) : lines = others := by
  induction lines generalizing others with
  | nil =>
      cases others with
      | nil => rfl
      | cons line others => simp [unlines] at same
  | cons line lines ih =>
      cases others with
      | nil => simp [unlines] at same
      | cons other others =>
          simp only [List.forall_mem_cons] at first second
          simp only [unlines, List.flatMap_cons, List.append_assoc, List.singleton_append] at same
          obtain ⟨rfl, rest⟩ := separated_inj first.1 second.1 same
          rw [ih first.2 second.2 rest]

/-- A text that is printed whole and on one line. -/
structure Printable (text : Bytes) : Prop where
  terminated : 0 ∉ text
  unbroken : 10 ∉ text

theorem Printable.shown_eq {text : Bytes} (printable : Printable text) : shown text = text := by
  unfold shown
  rw [List.takeWhile_eq_self_iff]
  intro byte member
  simpa using fun zero : byte = 0 => printable.terminated (zero ▸ member)

/-- The texts of a record that come from outside. -/
structure ReportsPlainly (credentialId : Bytes) (cred : Credential) : Prop where
  credentialId : Printable credentialId
  userId : Printable cred.userId
  transports : Printable cred.transports

theorem digits_unbroken (number : Nat) : 10 ∉ Decimal.digits number := by
  intro member
  exact absurd (Decimal.digits_isDigit number 10 member).1 (by decide)

theorem ofInt_unbroken (value : Int) : 10 ∉ Decimal.ofInt value := by
  intro member
  exact absurd (Decimal.ofInt_bytes value 10 member).1 (by decide)

theorem adminAlgName_plain (alg : Int32) : 10 ∉ adminAlgName alg ∧ 40 ∉ adminAlgName alg := by
  unfold adminAlgName
  split <;> decide

theorem twoDigits_unbroken {number : Nat} (small : number < 100) : 10 ∉ twoDigits number := by
  simp only [twoDigits, List.mem_cons, List.not_mem_nil, or_false, not_or, ← UInt8.toNat_inj,
    UInt8.toNat_ofNat']
  have ten : (10 : UInt8).toNat = 10 := rfl
  omega

theorem isoText_unbroken {moment : Civil.Moment} (valid : moment.Valid) : 10 ∉ isoText moment := by
  have month := twoDigits_unbroken (Nat.lt_of_le_of_lt valid.date.month_le (by decide))
  have day := twoDigits_unbroken (Nat.lt_of_le_of_lt valid.date.day_le (by decide))
  have hour := twoDigits_unbroken (Nat.lt_trans valid.hour (by decide))
  have minute := twoDigits_unbroken (Nat.lt_trans valid.minute (by decide))
  have second := twoDigits_unbroken (Nat.lt_trans valid.second (by decide))
  simp [isoText, digits_unbroken, month, day, hour, minute, second]

theorem adminFmtTime_unbroken (t : Int64) : 10 ∉ adminFmtTime t timeSize := by
  by_cases isShown : TimeShown t
  · rw [adminFmtTime_shown isShown]
    exact isoText_unbroken (Civil.momentOf_spec _).1
  · rw [adminFmtTime_unshown isShown]
    decide

theorem showLines_unbroken {credentialId : Bytes} {cred : Credential} (plain : ReportsPlainly credentialId cred) :
    ∀ line ∈ showLines credentialId cred, 10 ∉ line := by
  have aaguid : 10 ∉ if cred.hasAaguid then adminAaguidFmt cred.aaguid else ascii "-" := by
    split_ifs
    · exact aaguidLoop_unbroken 0 0 _
    · decide
  have transports : 10 ∉ if cred.transports ≠ [] then shown cred.transports else ascii "-" := by
    rw [plain.transports.shown_eq]
    split_ifs
    · exact plain.transports.unbroken
    · decide
  have literal : ∀ {front text : Bytes}, 10 ∉ front → 10 ∉ text → 10 ∉ front ++ text := by
    intro front text first second
    simp [first, second]
  simp only [showLines, List.forall_mem_cons, plain.credentialId.shown_eq, plain.userId.shown_eq]
  refine ⟨literal (by decide) plain.credentialId.unbroken, literal (by decide) plain.userId.unbroken,
    literal (literal (literal (literal (by decide) (adminAlgName_plain _).1) (by decide)) (ofInt_unbroken _))
      (by decide),
    literal (by decide) (digits_unbroken _), literal (by decide) (adminFmtTime_unbroken _),
    literal (by decide) (adminFmtTime_unbroken _), literal (by decide) aaguid,
    literal (by decide) transports, literal (literal (by decide) (digits_unbroken _)) (by decide), by simp⟩

theorem shownAaguid_eq_iff {cred other : Credential} :
    (if cred.hasAaguid then adminAaguidFmt cred.aaguid else ascii "-") =
        (if other.hasAaguid then adminAaguidFmt other.aaguid else ascii "-") ↔
      cred.aaguidBytes = other.aaguidBytes := by
  unfold Credential.aaguidBytes
  split_ifs with first second second
  · rw [Option.some.injEq]
    constructor
    · exact adminAaguidFmt_injective
    · intro same
      rw [adminAaguidFmt, same, adminAaguidFmt]
  · simp [adminAaguidFmt_ne_dash]
  · simp [(adminAaguidFmt_ne_dash other.aaguid).symm]
  · simp

/-- What a report says of a record's transports. -/
def shownTransports (cred : Credential) : Bytes := if cred.transports ≠ [] then cred.transports else ascii "-"

theorem shownAlg_injective {alg other : Int32}
    (same : ascii "alg:           " ++ adminAlgName alg ++ ascii " (" ++ Decimal.ofInt alg.toInt ++ ascii ")" =
      ascii "alg:           " ++ adminAlgName other ++ ascii " (" ++ Decimal.ofInt other.toInt ++ ascii ")") :
    alg = other := by
  have texts := List.append_cancel_right same
  have label : ∀ alg : Int32, ascii "alg:           " ++ adminAlgName alg ++ ascii " (" ++
      Decimal.ofInt alg.toInt = (ascii "alg:           " ++ adminAlgName alg ++ [32]) ++
        40 :: Decimal.ofInt alg.toInt := by
    intro alg
    simp [show ascii " (" = [32, 40] from rfl]
  have apart : ∀ alg : Int32, 40 ∉ ascii "alg:           " ++ adminAlgName alg ++ [32] := by
    intro alg
    simp only [List.mem_append, not_or]
    exact ⟨⟨by decide, (adminAlgName_plain alg).2⟩, by decide⟩
  rw [label, label] at texts
  exact Int32.toInt_inj.mp (ofInt_injective (separated_inj (apart alg) (apart other) texts).2)

/-- The reports of two records are the same exactly if the records agree in everything that a report
is for; of the key it gives the size only. -/
theorem showReport_eq_iff {credentialId otherId : Bytes} {cred other : Credential}
    (plain : ReportsPlainly credentialId cred) (also : ReportsPlainly otherId other) :
    showReport credentialId cred = showReport otherId other ↔
      credentialId = otherId ∧ cred.userId = other.userId ∧ cred.alg = other.alg ∧
      cred.signCount = other.signCount ∧ SameTime cred.createdAt other.createdAt ∧
      SameTime cred.lastUsedAt other.lastUsedAt ∧ cred.aaguidBytes = other.aaguidBytes ∧
      shownTransports cred = shownTransports other ∧ cred.publicKey.length = other.publicKey.length := by
  constructor
  · intro same
    have lines := unlines_injective (showLines_unbroken plain) (showLines_unbroken also) same
    simp only [showLines, List.cons.injEq, and_true, plain.credentialId.shown_eq, plain.userId.shown_eq,
      plain.transports.shown_eq, also.credentialId.shown_eq, also.userId.shown_eq,
      also.transports.shown_eq] at lines
    obtain ⟨ids, users, algs, counts, created, used, aaguids, transports, keys⟩ := lines
    exact ⟨List.append_cancel_left ids, List.append_cancel_left users, shownAlg_injective algs,
      UInt32.toNat_inj.mp (digits_injective (List.append_cancel_left counts)),
      adminFmtTime_eq_iff.mp (List.append_cancel_left created),
      adminFmtTime_eq_iff.mp (List.append_cancel_left used),
      shownAaguid_eq_iff.mp (List.append_cancel_left aaguids), List.append_cancel_left transports,
      digits_injective (List.append_cancel_left (List.append_cancel_right keys))⟩
  · intro agree
    obtain ⟨rfl, users, algs, counts, created, used, aaguids, transports, keys⟩ := agree
    unfold shownTransports at transports
    unfold showReport showLines
    rw [users, algs, counts, keys, adminFmtTime_eq_iff.mpr created, adminFmtTime_eq_iff.mpr used,
      shownAaguid_eq_iff.mpr aaguids, plain.transports.shown_eq, also.transports.shown_eq, transports]

theorem report_tells_transports :
    showReport (ascii "AQ") Sample.usbRecord ≠ showReport (ascii "AQ") Sample.bareRecord := by
  have first : ReportsPlainly (ascii "AQ") Sample.usbRecord :=
    ⟨⟨by decide, by decide⟩, ⟨by decide, by decide⟩, ⟨by decide, by decide⟩⟩
  have second : ReportsPlainly (ascii "AQ") Sample.bareRecord :=
    ⟨⟨by decide, by decide⟩, ⟨by decide, by decide⟩, ⟨by decide, by decide⟩⟩
  intro same
  have agree := (showReport_eq_iff first second).mp same
  exact absurd agree.2.2.2.2.2.2.2.1 (by decide)

end AuthWebauthn
