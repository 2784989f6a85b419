import Mathlib.Tactic.IntervalCases

namespace Civil

/-! A day is counted from the first day of the year 0.  The year is found in four-hundred-year
cycles that start with March, so that the leap day is the last day of its year.
-/

def IsLeap (year : Nat) : Prop := year % 4 = 0 ∧ (year % 100 ≠ 0 ∨ year % 400 = 0)

instance (year : Nat) : Decidable (IsLeap year) := inferInstanceAs (Decidable (_ ∧ _))

def february (year : Nat) : Nat := if IsLeap year then 29 else 28

def monthLengths (year : Nat) : List Nat :=
  [31, february year, 31, 30, 31, 30, 31, 31, 30, 31, 30, 31]

def daysBeforeYear (year : Nat) : Nat :=
  365 * year + (year + 3) / 4 - (year + 99) / 100 + (year + 399) / 400

/-- The month counts from 1, as the day does. -/
structure Date where
  year : Nat
  month : Nat
  day : Nat
deriving DecidableEq

def Date.Valid (date : Date) : Prop :=
  1 ≤ date.month ∧ 1 ≤ date.day ∧
    ∃ length, (monthLengths date.year)[date.month - 1]? = some length ∧ date.day ≤ length

def Date.number (date : Date) : Nat :=
  daysBeforeYear date.year + ((monthLengths date.year).take (date.month - 1)).sum + (date.day - 1)

def marchLengths : List Nat := [31, 30, 31, 30, 31, 31, 30, 31, 30, 31, 31, 29]

/-- The month that a day falls in, and the days before it in that month. -/
def findMonth : List Nat → Nat → Nat × Nat
  | [], rest => (0, rest)
  | length :: later, rest =>
      if rest < length then (0, rest)
      else ((findMonth later (rest - length)).1 + 1, (findMonth later (rest - length)).2)

/-- The year that starts with March, and the day of that year. -/
def marchYear (day : Nat) : Nat × Nat :=
  let cycle := day % 146097
  let century := min 3 (cycle / 36524)
  let olympiad := (cycle - 36524 * century) / 1461
  let rest := cycle - 36524 * century - 1461 * olympiad
  let year := min 3 (rest / 365)
  (400 * (day / 146097) + 100 * century + 4 * olympiad + year, rest - 365 * year)

/-- The day is not one of the first sixty of the year 0. -/
def dateOf (number : Nat) : Date :=
  let found := marchYear (number - 60)
  let month := findMonth marchLengths found.2
  if month.1 < 10 then ⟨found.1, month.1 + 3, month.2 + 1⟩
  else ⟨found.1 + 1, month.1 - 9, month.2 + 1⟩

/-- The first day of March. -/
def daysBeforeMarch (year : Nat) : Nat := 365 * year + year / 4 - year / 100 + year / 400

/-- The parts of a cycle: only its last day lies beyond the fourth century, and only the last day
of a leap year beyond the 365th. -/
theorem cycle_parts {cycle century olympiad rest year : Nat} (inside : cycle < 146097)
    (isCentury : century = min 3 (cycle / 36524)) (isOlympiad : olympiad = (cycle - 36524 * century) / 1461)
    (isRest : rest = cycle - 36524 * century - 1461 * olympiad) (isYear : year = min 3 (rest / 365)) :
    36524 * century + 1461 * olympiad + 365 * year + (rest - 365 * year) = cycle ∧ century ≤ 3 ∧
      olympiad ≤ 24 ∧ year ≤ 3 ∧ (rest - 365 * year < 365 ∨
        (rest - 365 * year = 365 ∧ year = 3 ∧ (olympiad < 24 ∨ century = 3))) := by
  have first : 36524 * century ≤ cycle ∧ century ≤ 3 ∧
      (cycle - 36524 * century < 36524 ∨ (cycle - 36524 * century = 36524 ∧ century = 3)) := by omega
  have second : 1461 * olympiad + rest = cycle - 36524 * century ∧ rest < 1461 := by omega
  have third : 365 * year ≤ rest ∧ year ≤ 3 ∧
      (rest - 365 * year < 365 ∨ (rest - 365 * year = 365 ∧ year = 3)) := by omega
  omega

theorem marchYear_spec (day : Nat) :
    daysBeforeMarch (marchYear day).1 + (marchYear day).2 = day ∧
      ((marchYear day).2 < 365 ∨ ((marchYear day).2 = 365 ∧ IsLeap ((marchYear day).1 + 1))) := by
  obtain ⟨whole, centuries, olympiads, years, last⟩ :=
    cycle_parts (Nat.mod_lt day (by decide : 0 < 146097)) rfl rfl rfl rfl
  unfold marchYear
  simp only
  generalize min 3 (day % 146097 / 36524) = century at *
  generalize (day % 146097 - 36524 * century) / 1461 = olympiad at *
  generalize day % 146097 - 36524 * century - 1461 * olympiad = rest at *
  generalize min 3 (rest / 365) = year at *
  have number : daysBeforeMarch (400 * (day / 146097) + 100 * century + 4 * olympiad + year) =
      146097 * (day / 146097) + 36524 * century + 1461 * olympiad + 365 * year := by
    have fours : (400 * (day / 146097) + 100 * century + 4 * olympiad + year) / 4 =
        100 * (day / 146097) + 25 * century + olympiad := by omega
    have hundreds : (400 * (day / 146097) + 100 * century + 4 * olympiad + year) / 100 =
        4 * (day / 146097) + century := by omega
    have cycles : (400 * (day / 146097) + 100 * century + 4 * olympiad + year) / 400 = day / 146097 := by omega
    rw [daysBeforeMarch, fours, hundreds, cycles]
    omega
  refine ⟨by omega, ?_⟩
  rcases last with short | ⟨full, fourth, leap⟩
  · exact .inl short
  · refine .inr ⟨full, ?_⟩
    unfold IsLeap
    omega

theorem findMonth_spec {lengths : List Nat} {rest : Nat} (inside : rest < lengths.sum) :
    ((lengths.take (findMonth lengths rest).1).sum + (findMonth lengths rest).2 = rest) ∧
      ∃ length, lengths[(findMonth lengths rest).1]? = some length ∧ (findMonth lengths rest).2 < length := by
  induction lengths generalizing rest with
  | nil => simp at inside
  | cons length later ih =>
      by_cases here : rest < length
      · simp [findMonth, here]
      · rw [List.sum_cons] at inside
        have later_inside : rest - length < later.sum := by omega
        obtain ⟨whole, found, listed, below⟩ := ih later_inside
        simp only [findMonth, if_neg here, List.take_succ_cons, List.sum_cons, List.getElem?_cons_succ]
        exact ⟨by omega, found, listed, below⟩

theorem daysBeforeYear_march (year : Nat) :
    daysBeforeYear year + february year = daysBeforeMarch year + 29 := by
  have wholeCycle : year % 400 = 0 → year % 100 = 0 := by omega
  have wholeCentury : year % 100 = 0 → year % 4 = 0 := by omega
  unfold daysBeforeYear daysBeforeMarch february IsLeap
  by_cases four : year % 4 = 0
  · have fours : (year + 3) / 4 = year / 4 := by omega
    by_cases hundred : year % 100 = 0
    · have hundreds : (year + 99) / 100 = year / 100 := by omega
      by_cases cycle : year % 400 = 0
      · have cycles : (year + 399) / 400 = year / 400 := by omega
        simp only [four, cycle, or_true, and_self, if_true]
        omega
      · have cycles : (year + 399) / 400 = year / 400 + 1 := by omega
        simp only [hundred, cycle, ne_eq, not_true_eq_false, or_self, and_false, if_false]
        omega
    · have hundreds : (year + 99) / 100 = year / 100 + 1 := by omega
      have cycles : (year + 399) / 400 = year / 400 + 1 := by omega
      simp only [four, hundred, ne_eq, not_false_eq_true, true_or, and_self, if_true]
      omega
  · have fours : (year + 3) / 4 = year / 4 + 1 := by omega
    have hundreds : (year + 99) / 100 = year / 100 + 1 := by omega
    have cycles : (year + 399) / 400 = year / 400 + 1 := by omega
    simp only [four, false_and, if_false]
    omega

theorem daysBeforeYear_next (year : Nat) : daysBeforeYear (year + 1) = daysBeforeMarch year + 366 := by
  unfold daysBeforeYear daysBeforeMarch
  omega

/-- Every day from March of the year 0 on has a date, and its number is the day. -/
theorem dateOf_spec {number : Nat} (from_march : 60 ≤ number) :
    (dateOf number).Valid ∧ (dateOf number).number = number := by
  obtain ⟨whole, last⟩ := marchYear_spec (number - 60)
  have inside : (marchYear (number - 60)).2 < marchLengths.sum := by
    rcases last with short | ⟨full, _⟩
    · exact Nat.lt_trans short (by decide)
    · rw [full]
      decide
  obtain ⟨counted, length, listed, below⟩ := findMonth_spec inside
  have march := daysBeforeYear_march (marchYear (number - 60)).1
  have next := daysBeforeYear_next (marchYear (number - 60)).1
  unfold dateOf
  simp only
  generalize marchYear (number - 60) = found at *
  generalize findMonth marchLengths found.2 = month at *
  obtain ⟨year, dayOfYear⟩ := found
  obtain ⟨month, rest⟩ := month
  simp only at *
  have small : month < 12 := by
    by_contra large
    rw [List.getElem?_eq_none (by simpa [marchLengths] using large)] at listed
    cases listed
  have leapDay : dayOfYear < 336 + february (year + 1) + 1 := by
    unfold february
    rcases last with short | ⟨full, leap⟩
    · split_ifs <;> omega
    · rw [if_pos leap]
      omega
  unfold Date.Valid Date.number
  interval_cases month
  all_goals
    simp only [marchLengths, List.getElem?_cons_succ, List.getElem?_cons_zero, Option.some.injEq,
      List.take_succ_cons, List.take_zero, List.sum_cons, List.sum_nil] at listed counted
    subst listed
    simp only [Nat.reduceLT, if_true, if_false, monthLengths, Nat.reduceAdd, Nat.reduceSub,
      List.getElem?_cons_succ, List.getElem?_cons_zero, Option.some.injEq,
      List.take_succ_cons, List.take_zero, List.sum_cons, List.sum_nil, exists_eq_left']
    omega

theorem take_sum_le {lengths : List Nat} {index length : Nat} (listed : lengths[index]? = some length) :
    (lengths.take index).sum + length ≤ lengths.sum := by
  induction lengths generalizing index with
  | nil => cases listed
  | cons first later ih =>
      cases index with
      | zero =>
          cases listed
          simp
      | succ index =>
          have rest := ih listed
          rw [List.take_succ_cons, List.sum_cons, List.sum_cons]
          omega

theorem february_le (year : Nat) : february year ≤ 29 := by
  unfold february
  split_ifs <;> decide

theorem Date.Valid.month_le {date : Date} (valid : date.Valid) : date.month ≤ 12 := by
  obtain ⟨_, _, length, listed, _⟩ := valid
  have inside : date.month - 1 < 12 := (List.getElem?_eq_some_iff.mp listed).1
  omega

theorem Date.Valid.day_le {date : Date} (valid : date.Valid) : date.day ≤ 31 := by
  obtain ⟨_, _, length, listed, last⟩ := valid
  have short : length ≤ 31 := by
    have leap := february_le date.year
    have member := List.mem_of_getElem? listed
    simp only [monthLengths, List.mem_cons, List.not_mem_nil, or_false] at member
    omega
  omega

/-- A date lies before the next year. -/
theorem Date.Valid.number_lt {date : Date} (valid : date.Valid) :
    date.number < daysBeforeYear (date.year + 1) := by
  obtain ⟨_, first, length, listed, last⟩ := valid
  have within := take_sum_le listed
  have march := daysBeforeYear_march date.year
  have next := daysBeforeYear_next date.year
  have total : (monthLengths date.year).sum = 337 + february date.year := by
    simp only [monthLengths, List.sum_cons, List.sum_nil]
    omega
  unfold Date.number
  omega

theorem daysBeforeYear_le {earlier later : Nat} (ordered : earlier ≤ later) :
    daysBeforeYear earlier ≤ daysBeforeYear later := by
  induction ordered with
  | refl => exact Nat.le_refl _
  | @step later ordered ih =>
      have march := daysBeforeYear_march later
      have next := daysBeforeYear_next later
      have short := february_le later
      change daysBeforeYear earlier ≤ daysBeforeYear (later + 1)
      omega

structure Moment extends Date where
  hour : Nat
  minute : Nat
  second : Nat
deriving DecidableEq

structure Moment.Valid (moment : Moment) : Prop where
  date : moment.toDate.Valid
  since : 1970 ≤ moment.year
  hour : moment.hour < 24
  minute : moment.minute < 60
  second : moment.second < 60

def Moment.seconds (moment : Moment) : Nat :=
  (moment.toDate.number - daysBeforeYear 1970) * 86400 + moment.hour * 3600 + moment.minute * 60 + moment.second

def momentOf (seconds : Nat) : Moment where
  toDate := dateOf (daysBeforeYear 1970 + seconds / 86400)
  hour := seconds % 86400 / 3600
  minute := seconds % 3600 / 60
  second := seconds % 60

theorem momentOf_spec (seconds : Nat) : (momentOf seconds).Valid ∧ (momentOf seconds).seconds = seconds := by
  have epoch : daysBeforeYear 1970 = 719528 := rfl
  obtain ⟨valid, number⟩ := @dateOf_spec (daysBeforeYear 1970 + seconds / 86400) (by omega)
  have since : 1970 ≤ (dateOf (daysBeforeYear 1970 + seconds / 86400)).year := by
    by_contra earlier
    have before := valid.number_lt
    have ordered := daysBeforeYear_le (show (dateOf (daysBeforeYear 1970 + seconds / 86400)).year + 1 ≤ 1970 by omega)
    omega
  refine ⟨⟨valid, since, ?_, ?_, ?_⟩, ?_⟩
  · change seconds % 86400 / 3600 < 24
    omega
  · change seconds % 3600 / 60 < 60
    omega
  · change seconds % 60 < 60
    omega
  · change ((dateOf (daysBeforeYear 1970 + seconds / 86400)).number - daysBeforeYear 1970) * 86400 +
      seconds % 86400 / 3600 * 3600 + seconds % 3600 / 60 * 60 + seconds % 60 = seconds
    rw [number]
    omega

/-- The moments of the years before `year`. -/
theorem Moment.Valid.year_lt_iff {moment : Moment} (valid : moment.Valid) (year : Nat) :
    moment.year < year ↔ moment.seconds < (daysBeforeYear year - daysBeforeYear 1970) * 86400 := by
  have before := valid.date.number_lt
  have hour := valid.hour
  have minute := valid.minute
  have second := valid.second
  have epoch := daysBeforeYear_le valid.since
  have start : daysBeforeYear moment.year ≤ moment.toDate.number := by
    unfold Date.number
    omega
  unfold Moment.seconds
  constructor
  · intro earlier
    have ordered := daysBeforeYear_le (Nat.succ_le_of_lt earlier)
    change daysBeforeYear (moment.year + 1) ≤ daysBeforeYear year at ordered
    omega
  · intro early
    by_contra reached
    have ordered := daysBeforeYear_le (Nat.le_of_not_lt reached)
    omega

end Civil
