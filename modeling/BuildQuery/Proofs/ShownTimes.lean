import BuildQuery.Calendar
import Mathlib.Data.List.Basic

/-!
# BuildQuery — the minutes that times are shown as

A time is shown as the minute of the calendar in which it lies. The years follow each other without a
gap (`daysToYear_succ`), so every day lies in one year, and in one month of it. What is shown can be read
again: a year of four digits has no sign, any other year has one and as many digits as it needs, and all
other fields have two digits (`Minute.ofText?`).

Main results:

* `Date.days_ofDays` — the date of a day is in the calendar, and is that day.
* `Minute.millis_ofMillis` — the minute of a time begins at the last full minute.
* `Minute.ofText?_text` — the text of a minute is read as that minute.
* `inRange_iff` — the first and the last time that are shown as a minute.
* `timeText_minute` — what a time is shown as.
-/

namespace BuildQuery

-- ---------------------------------------------------------------------------
-- Numbers of so many digits
-- ---------------------------------------------------------------------------

namespace Decimal

/-- The numbers of at most so many digits. -/
theorem length_digits_le_iff (k n : Nat) :
    (digits n).length ≤ k + 1 ↔ n < Nat.pow 10 (k + 1) := by
  have hPower (k : Nat) : Nat.pow 10 (k + 1) = Nat.pow 10 k * 10 := rfl
  -- on the number of digits: the last one is taken off by dividing
  induction k generalizing n with
  | zero =>
    have hSome := List.length_pos_iff.mpr (digits_ne_nil (n / 10))
    rw [digits]
    split
    · simpa
    · show _ ↔ n < 10
      simp only [List.length_append, List.length_singleton]
      omega
  | succ k ih =>
    have hFirst : 1 ≤ Nat.pow 10 (k + 1) := Nat.pow_pos (by decide)
    have hRest := ih (n / 10)
    rw [digits, hPower]
    split
    · simp only [List.length_singleton]
      omega
    · simp only [List.length_append, List.length_singleton]
      omega

end Decimal

namespace Calendar

open Decimal

-- ---------------------------------------------------------------------------
-- Years
-- ---------------------------------------------------------------------------

/-- A leap year has a day more, and there is nothing between two years. -/
theorem daysToYear_succ (year : Int) :
    daysToYear (year + 1) = daysToYear year + if isLeap year then 366 else 365 := by
  by_cases hLeap : isLeap year
  · rw [if_pos hLeap]
    simp only [isLeap, Bool.or_eq_true, Bool.and_eq_true, beq_iff_eq, bne_iff_ne] at hLeap
    simp only [daysToYear]
    omega
  · rw [if_neg hLeap]
    simp only [isLeap, Bool.or_eq_true, Bool.and_eq_true, beq_iff_eq, bne_iff_ne] at hLeap
    simp only [daysToYear]
    omega

/-- Days are counted from the beginning of 1970. -/
example : daysToYear 1970 = 0 := rfl

/-- Later years begin later. -/
theorem daysToYear_le {year later : Int} (h : year ≤ later) : daysToYear year ≤ daysToYear later := by
  simp only [daysToYear]
  omega

/-- A day lies in its year. -/
theorem yearOf_bounds (days : Int) :
    daysToYear (yearOf days) ≤ days ∧ days < daysToYear (yearOf days + 1) := by
  -- the guess is at most one year away
  have hAbove : daysToYear (1970 + 400 * days / 146097 - 1) ≤ days := by
    simp only [daysToYear]
    omega
  have hBelow : days < daysToYear (1970 + 400 * days / 146097 + 1 + 1) := by
    simp only [daysToYear]
    omega
  unfold yearOf
  dsimp only
  split
  · next hEarlier =>
    rw [Int.sub_add_cancel]
    exact ⟨hAbove, hEarlier⟩
  · split
    · next hLater => exact ⟨hLater, hBelow⟩
    · next hNotEarlier hNotLater => exact ⟨by omega, by omega⟩

/-- A year is not after that of a day if it began by then. -/
theorem le_yearOf_iff (year days : Int) : year ≤ yearOf days ↔ daysToYear year ≤ days := by
  obtain ⟨hFrom, hUntil⟩ := yearOf_bounds days
  constructor
  · intro h
    exact Int.le_trans (daysToYear_le h) hFrom
  · intro h
    -- otherwise the year behind that of the day would have begun
    by_contra hLater
    have hNext : daysToYear (yearOf days + 1) ≤ daysToYear year := daysToYear_le (by omega)
    omega

-- ---------------------------------------------------------------------------
-- Months and days
-- ---------------------------------------------------------------------------

/-- The months of a year have all its days. -/
theorem sum_monthLengths (leap : Bool) :
    (monthLengths leap).foldl (· + ·) 0 = if leap then 366 else 365 := by
  cases leap <;> rfl

/-- A day of the year lies in a month, behind the days of the months before it. -/
theorem monthAndDay_spec {lengths : List Nat} {rest : Nat} (first : Nat)
    (h : rest < lengths.foldl (· + ·) 0) :
    ∃ i length day, monthAndDay first lengths rest = (first + i, day) ∧
      lengths[i]? = some length ∧ 1 ≤ day ∧ day ≤ length ∧
      (lengths.take i).foldl (· + ·) 0 + day = rest + 1 := by
  -- on the months that are left; the day lies in the first of them or behind it
  induction lengths generalizing first rest with
  | nil => exact absurd h (Nat.not_lt_zero _)
  | cons length lengths ih =>
    have hSum (ls : List Nat) : (length :: ls).foldl (· + ·) 0 = length + ls.foldl (· + ·) 0 := by
      rw [List.foldl_cons, Nat.add_comm 0 length, List.foldl_assoc]
    rw [monthAndDay]
    split
    · next hHere => exact ⟨0, length, rest + 1, rfl, rfl, by omega, by omega, by simp⟩
    · next hBehind =>
      rw [hSum] at h
      have hRest : rest - length < lengths.foldl (· + ·) 0 := by omega
      obtain ⟨i, found, day, hDay, hFound, hFirst, hLast, hPlace⟩ := ih (first + 1) hRest
      refine ⟨i + 1, found, day, ?_, hFound, hFirst, hLast, ?_⟩
      · rw [hDay, Nat.add_assoc, Nat.add_comm 1 i]
      · rw [List.take_succ_cons, hSum]
        omega

/-- **The date of a day** is in the calendar, and is that day. -/
theorem Date.days_ofDays (days : Int) : (Date.ofDays days).Valid ∧ (Date.ofDays days).days = days := by
  obtain ⟨hFrom, hUntil⟩ := yearOf_bounds days
  rw [daysToYear_succ] at hUntil
  -- the days since the beginning of the year are fewer than the year has, leap or not
  have hInYear : (days - daysToYear (yearOf days)).toNat <
      (monthLengths (isLeap (yearOf days))).foldl (· + ·) 0 := by
    rw [sum_monthLengths]
    generalize isLeap (yearOf days) = leap at hUntil ⊢
    cases leap with
    | false | true =>
      simp only [Bool.false_eq_true, if_true, if_false] at hUntil ⊢
      omega
  obtain ⟨i, length, day, hDay, hLength, hFirst, hLast, hPlace⟩ := monthAndDay_spec 1 hInYear
  have hDate : Date.ofDays days = ⟨yearOf days, 1 + i, day⟩ := by
    rw [Date.ofDays]
    simp only [hDay]
  have hMonth : 1 + i - 1 = i := Nat.add_sub_cancel_left 1 i
  rw [hDate]
  constructor
  · refine ⟨length, ?_, Nat.le_add_right 1 i, hFirst, hLast⟩
    rw [hMonth]
    exact hLength
  · simp only [Date.days, hMonth]
    omega

/-- A date in the calendar has one of twelve months. -/
theorem Date.Valid.month_le {d : Date} (h : d.Valid) : d.month ≤ 12 := by
  obtain ⟨length, hLength, -⟩ := h
  have hIndex := (List.getElem?_eq_some_iff.mp hLength).1
  rw [monthLengths] at hIndex
  simp only [List.length_cons, List.length_nil] at hIndex
  omega

/-- A date in the calendar has at most the 31st of a month. -/
theorem Date.Valid.day_le {d : Date} (h : d.Valid) : d.day ≤ 31 := by
  obtain ⟨length, hLength, -, -, hDay⟩ := h
  have hLong : ∀ leap, ∀ length ∈ monthLengths leap, length ≤ 31 := by
    decide
  exact Nat.le_trans hDay (hLong _ _ (List.mem_of_getElem? hLength))

-- ---------------------------------------------------------------------------
-- Minutes
-- ---------------------------------------------------------------------------

/-- A minute that is in the calendar. -/
structure Minute.Valid (m : Minute) : Prop where
  date   : m.date.Valid
  hour   : m.hour < 24
  minute : m.minute < 60

/-- The minute of a time is in the calendar. -/
theorem Minute.valid_ofMillis (millis : Int) : (Minute.ofMillis millis).Valid := by
  refine ⟨(Date.days_ofDays _).1, ?_, ?_⟩
  · simp only [Minute.ofMillis]
    omega
  · simp only [Minute.ofMillis]
    omega

/-- **The minute of a time** begins at the last full minute. -/
theorem Minute.millis_ofMillis (millis : Int) :
    (Minute.ofMillis millis).millis = millis / 60000 * 60000 := by
  have hDays := (Date.days_ofDays (millis / 60000 / 1440)).2
  simp only [Minute.ofMillis, Minute.millis, hDays]
  omega

/-- The first time that is shown as a minute: the beginning of the year -262143. -/
def firstShown : Int := -8334601228800000

/-- The last time that is shown as a minute: the last millisecond of the year 262142. -/
def lastShown : Int := 8210266876799999

/-- The range is that of the years. -/
example : (⟨⟨firstYear, 1, 1⟩, 0, 0⟩ : Minute).millis = firstShown ∧
    (⟨⟨lastYear + 1, 1, 1⟩, 0, 0⟩ : Minute).millis = lastShown + 1 := by decide

/-- **The range** is the times from the first to the last that is shown as a minute. -/
theorem inRange_iff (millis : Int) :
    inRange millis = true ↔ firstShown ≤ millis ∧ millis ≤ lastShown := by
  -- the check is on the year, and a year is told by the days at which it begins
  have hFrom := le_yearOf_iff firstYear (millis / 60000 / 1440)
  have hUntil := le_yearOf_iff (lastYear + 1) (millis / 60000 / 1440)
  have hFirst : daysToYear firstYear = -96465292 := rfl
  have hLast : daysToYear (lastYear + 1) = 95026237 := rfl
  have hYear : (Minute.ofMillis millis).date.year = yearOf (millis / 60000 / 1440) := rfl
  simp only [inRange, hYear, Bool.and_eq_true, decide_eq_true_eq, firstShown, lastShown]
  omega

-- ---------------------------------------------------------------------------
-- Reading what is shown
-- ---------------------------------------------------------------------------

/-- The number that is written in digits. -/
def number? (cs : List Char) : Option Nat :=
  if cs.all Char.isDigit then some (ofDigits (cs.map fun c => c.toNat - '0'.toNat)) else none

/-- The year that is written, with a sign unless it has four digits. -/
def year? : List Char → Option Int
  | '-' :: cs => if 4 ≤ cs.length then (number? cs).map fun n : Nat => -(n : Int) else none
  | '+' :: cs => if 5 ≤ cs.length then (number? cs).map fun n : Nat => (n : Int) else none
  | cs => if cs.length = 4 then (number? cs).map fun n : Nat => (n : Int) else none

/-- The minute that is written in a text. All fields after the year have two digits. -/
def Minute.ofText? (s : String) : Option Minute :=
  match s.toList.splitAt (s.length - 12) with
  | (year, ['-', m, m', '-', d, d', ' ', h, h', ':', n, n']) => do
    return ⟨⟨← year? year, ← number? [m, m'], ← number? [d, d']⟩, ← number? [h, h'], ← number? [n, n']⟩
  | _ => none

/-- The characters of digits are digits and no signs. -/
theorem digitChar_isDigit : ∀ d < 10, (digitChar d).isDigit = true ∧ digitChar d ∉ ['-', '+'] := by
  decide

/-- Digits are read as the number that they write. -/
theorem number?_digitChars {ds : List Nat} (h : ∀ d ∈ ds, d < 10) :
    number? (ds.map digitChar) = some (ofDigits ds) := by
  have hDigits : (ds.map digitChar).all Char.isDigit = true := by
    rw [List.all_map, List.all_eq_true]
    exact fun d hd => (digitChar_isDigit d (h d hd)).1
  have hBack : (ds.map digitChar).map (fun c => c.toNat - '0'.toNat) = ds := by
    rw [List.map_map]
    refine (List.map_congr_left fun d hd => ?_).trans (List.map_id ds)
    show (digitChar d).toNat - 0x30 = d
    rw [toNat_digitChar d (h d hd)]
    omega
  rw [number?, if_pos hDigits, hBack]

/-- The digits of a number with zeros in front, up to a width. -/
def paddedDigits (width n : Nat) : List Nat :=
  List.replicate (width - (digits n).length) 0 ++ digits n

/-- A padded number is written with its padded digits. -/
theorem toList_padded (width n : Nat) :
    (padded width n).toList = (paddedDigits width n).map digitChar := by
  rw [padded, String.toList_ofList, paddedDigits, List.map_append, List.map_replicate, chars,
    List.length_map]
  rfl

/-- Padded digits are digits. -/
theorem lt_ten_of_mem_paddedDigits {width n d : Nat} (h : d ∈ paddedDigits width n) : d < 10 := by
  rcases List.mem_append.mp h with hZero | hDigit
  · rw [List.eq_of_mem_replicate hZero]
    decide
  · exact lt_ten_of_mem_digits hDigit

/-- Zeros in front of a number do not change it. -/
theorem ofDigits_paddedDigits (width n : Nat) : ofDigits (paddedDigits width n) = n := by
  rw [paddedDigits]
  generalize width - (digits n).length = zeros
  induction zeros with
  | zero => exact ofDigits_digits n
  | succ zeros ih => exact ih

/-- A padded number is read as the number. -/
theorem number?_padded (width n : Nat) : number? (padded width n).toList = some n := by
  rw [toList_padded, number?_digitChars fun d hd => lt_ten_of_mem_paddedDigits hd,
    ofDigits_paddedDigits]

/-- A padded number has the width, unless it needs more. -/
theorem length_padded (width n : Nat) :
    (padded width n).toList.length = max width (digits n).length := by
  rw [toList_padded, paddedDigits, List.length_map, List.length_append, List.length_replicate]
  omega

/-- A number of two digits is written with two characters. -/
theorem exists_padded_two {n : Nat} (h : n < 100) :
    ∃ c c', (padded 2 n).toList = [c, c'] ∧ number? [c, c'] = some n := by
  have hShort : (digits n).length ≤ 2 := (length_digits_le_iff 1 n).mpr h
  have hTwo : (padded 2 n).toList.length = 2 := by
    rw [length_padded]
    omega
  obtain ⟨c, c', hChars⟩ := List.length_eq_two.mp hTwo
  refine ⟨c, c', hChars, ?_⟩
  rw [← hChars, number?_padded]

/-- What is written in front of digits is no digit. -/
theorem year?_padded {width n : Nat} (h : (padded width n).toList.length = 4) :
    year? (padded width n).toList = some (n : Int) := by
  have hNumber := number?_padded width n
  have hDigits : ∀ c ∈ (padded width n).toList, c ∉ ['-', '+'] := by
    rw [toList_padded]
    intro c hc
    obtain ⟨d, hd, rfl⟩ := List.mem_map.mp hc
    exact (digitChar_isDigit d (lt_ten_of_mem_paddedDigits hd)).2
  generalize (padded width n).toList = cs at h hNumber hDigits ⊢
  unfold year?
  split
  · exact absurd List.mem_cons_self (hDigits '-' List.mem_cons_self)
  · exact absurd (List.mem_cons_of_mem _ List.mem_cons_self) (hDigits '+' List.mem_cons_self)
  · rw [if_pos h, hNumber]
    rfl

/-- **The text of a year is read as the year**, with a sign or without one. -/
theorem year?_yearText (year : Int) : year? (yearText year).toList = some year := by
  have hLength (n : Nat) : (padded 4 n).toList.length = max 4 (digits n).length := length_padded 4 n
  have hFour (n : Nat) : (digits n).length ≤ 4 ↔ n < 10000 := length_digits_le_iff 3 n
  rw [yearText]
  split
  · next hPlain =>
    -- a year from 0 to 9999 has four digits and no sign
    have hDigits := hFour year.toNat
    rw [year?_padded (by rw [hLength]; omega)]
    exact congrArg some (Int.toNat_of_nonneg hPlain.1)
  · next hOther =>
    -- any other year has a sign; behind a plus sign it needs a fifth digit, or it would have been plain
    have hDigits := hFour year.natAbs
    rw [String.toList_append]
    split
    · show (if 4 ≤ (padded 4 year.natAbs).toList.length then
        (number? (padded 4 year.natAbs).toList).map fun n : Nat => -(n : Int) else none) = _
      rw [if_pos (by rw [hLength]; omega), number?_padded]
      exact congrArg some (show -(year.natAbs : Int) = year by omega)
    · show (if 5 ≤ (padded 4 year.natAbs).toList.length then
        (number? (padded 4 year.natAbs).toList).map fun n : Nat => (n : Int) else none) = _
      rw [if_pos (by rw [hLength]; omega), number?_padded]
      exact congrArg some (show (year.natAbs : Int) = year by omega)

/-- The text of a minute: the year, and twelve characters with the other fields. -/
theorem Minute.exists_fields {m : Minute} (h : m.Valid) :
    ∃ m₁ m₂ d₁ d₂ h₁ h₂ n₁ n₂, m.text.toList = (yearText m.date.year).toList ++
        ['-', m₁, m₂, '-', d₁, d₂, ' ', h₁, h₂, ':', n₁, n₂] ∧
      number? [m₁, m₂] = some m.date.month ∧ number? [d₁, d₂] = some m.date.day ∧
      number? [h₁, h₂] = some m.hour ∧ number? [n₁, n₂] = some m.minute := by
  obtain ⟨hDate, hHour, hMinute⟩ := h
  have hMonth := hDate.month_le
  have hDay := hDate.day_le
  obtain ⟨m₁, m₂, hMonthChars, hMonthRead⟩ := exists_padded_two (n := m.date.month) (by omega)
  obtain ⟨d₁, d₂, hDayChars, hDayRead⟩ := exists_padded_two (n := m.date.day) (by omega)
  obtain ⟨h₁, h₂, hHourChars, hHourRead⟩ := exists_padded_two (n := m.hour) (by omega)
  obtain ⟨n₁, n₂, hMinuteChars, hMinuteRead⟩ := exists_padded_two (n := m.minute) (by omega)
  refine ⟨m₁, m₂, d₁, d₂, h₁, h₂, n₁, n₂, ?_, hMonthRead, hDayRead, hHourRead, hMinuteRead⟩
  simp only [text, String.toList_append, hMonthChars, hDayChars, hHourChars, hMinuteChars]
  simp

/-- **The text of a minute is read as that minute.** -/
theorem Minute.ofText?_text {m : Minute} (h : m.Valid) : ofText? m.text = some m := by
  obtain ⟨m₁, m₂, d₁, d₂, h₁, h₂, n₁, n₂, hText, hMonth, hDay, hHour, hMinute⟩ := exists_fields h
  -- the last twelve characters are the fields behind the year, however many digits the year has
  have hSplit : m.text.toList.splitAt (m.text.length - 12) =
      ((yearText m.date.year).toList, ['-', m₁, m₂, '-', d₁, d₂, ' ', h₁, h₂, ':', n₁, n₂]) := by
    rw [← String.length_toList, hText]
    simp
  simp only [ofText?, hSplit, year?_yearText, hMonth, hDay, hHour, hMinute]
  rfl

-- ---------------------------------------------------------------------------
-- The text of a time
-- ---------------------------------------------------------------------------

/-- A time that is shown as a minute. -/
def Shown (millis : Int) : Prop :=
  firstShown ≤ millis ∧ millis ≤ lastShown

instance (millis : Int) : Decidable (Shown millis) :=
  inferInstanceAs (Decidable (_ ∧ _))

/-- A time in the range is shown as its minute. -/
theorem timeText_of_shown {millis : Int} (h : Shown millis) :
    timeText millis = (Minute.ofMillis millis).text :=
  if_pos ((inRange_iff millis).mpr h)

/-- A time out of the range is shown as a dash. -/
theorem timeText_of_not_shown {millis : Int} (h : ¬ Shown millis) : timeText millis = "-" :=
  if_neg (h ∘ (inRange_iff millis).mp)

/-- The text of a time is read as the minute of the time. -/
theorem ofText?_timeText {millis : Int} (h : Shown millis) :
    Minute.ofText? (timeText millis) = some (Minute.ofMillis millis) := by
  rw [timeText_of_shown h]
  exact Minute.ofText?_text (Minute.valid_ofMillis millis)

/-- Two times are shown the same just when they lie in one minute. -/
theorem timeText_eq_iff {a b : Int} (ha : Shown a) (hb : Shown b) :
    timeText a = timeText b ↔ a / 60000 = b / 60000 := by
  constructor
  · intro hText
    have hRead : some (Minute.ofMillis a) = some (Minute.ofMillis b) := by
      rw [← ofText?_timeText ha, ← ofText?_timeText hb, hText]
    -- one text is read as one minute, and the minute says when it begins
    have hMillis := congrArg Minute.millis (Option.some.inj hRead)
    rw [Minute.millis_ofMillis, Minute.millis_ofMillis] at hMillis
    omega
  · intro hMinute
    rw [timeText_of_shown ha, timeText_of_shown hb, Minute.ofMillis, Minute.ofMillis, hMinute]

/-- **What a time is shown as.** From the first time to the last one, the text is read as a minute of the
calendar that begins at the time or less than a minute before it; any other time is shown as a dash. So
two times that are shown as minutes have one text just when they lie in the same minute. -/
theorem timeText_minute (a : Int64) :
    (Shown a.toInt → ∃ m, Minute.ofText? (timeText a.toInt) = some m ∧ m.Valid ∧
      60000 ∣ m.millis ∧ m.millis ≤ a.toInt ∧ a.toInt < m.millis + 60000) ∧
    (¬ Shown a.toInt → timeText a.toInt = "-") ∧
    ∀ b : Int64, Shown a.toInt → Shown b.toInt →
      (timeText a.toInt = timeText b.toInt ↔ a.toInt / 60000 = b.toInt / 60000) := by
  refine ⟨?_, timeText_of_not_shown, fun b => timeText_eq_iff⟩
  intro hShown
  have hBegins := Minute.millis_ofMillis a.toInt
  refine ⟨_, ofText?_timeText hShown, Minute.valid_ofMillis a.toInt, ?_, ?_, ?_⟩
  · exact hBegins ▸ Int.dvd_mul_left _ _
  · omega
  · omega

/-- The last millisecond before 1970, the ends of the range, and a minute of the year -1. -/
theorem timeText_minute_before_1970 :
    (timeText (-1) = "1969-12-31 23:59" ∧
      ∃ m, Minute.ofText? "1969-12-31 23:59" = some m ∧ m.Valid ∧
        60000 ∣ m.millis ∧ m.millis ≤ -1 ∧ -1 < m.millis + 60000) ∧
    timeText (-8334601228800000) = "-262143-01-01 00:00" ∧ timeText (-8334601228800001) = "-" ∧
    timeText 8210266876799999 = "+262142-12-31 23:59" ∧ timeText 8210266876800000 = "-" ∧
    timeText (-62188905600000) = timeText (-62188905540001) := by
  obtain ⟨hMinute, -, -⟩ := timeText_minute (-1)
  obtain ⟨-, hBefore, -⟩ := timeText_minute (-8334601228800001)
  obtain ⟨-, hAfter, -⟩ := timeText_minute 8210266876800000
  obtain ⟨-, -, hSame⟩ := timeText_minute (-62188905600000)
  have hText : timeText (-1) = "1969-12-31 23:59" := by decide +kernel
  refine ⟨⟨hText, ?_⟩, by decide +kernel, hBefore (by decide), by decide +kernel, hAfter (by decide), ?_⟩
  · exact hText ▸ hMinute (by decide)
  · exact (hSame (-62188905540001) (by decide) (by decide)).mpr (by decide)

end Calendar

end BuildQuery
