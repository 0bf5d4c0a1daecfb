import Mathlib.Algebra.Group.Nat.Defs
import Mathlib.Data.Int.Init
import Mathlib.Order.Lattice

/-! Millisecond time values and the ISO text that `Date.prototype.toISOString` writes.
The calendar counts years from the first of March, so the leap day ends a year and the
month lengths repeat from its start.
-/

namespace AiSdlc.Js

/-- A day of the proleptic Gregorian calendar. -/
structure CivilDate where
  year : Int
  month : Int
  day : Int
  deriving DecidableEq, Repr

/-- Days from 0000-03-01 to the first of March of `year`. -/
def marchStart (year : Int) : Int :=
  365 * year + year / 4 - year / 100 + year / 400

/-- The March-based year and the day in it, for a count of days since 0000-03-01.
Eras have 400 years; only the last century of an era and the last year of a four-year
cycle have a leap day at their end.
-/
def marchYearAndDay (days : Int) : Int × Int :=
  let era := days / 146097
  let dayOfEra := days % 146097
  let century := min (dayOfEra / 36524) 3
  let dayOfCentury := dayOfEra - 36524 * century
  let cycle := dayOfCentury / 1461
  let yearOfCycle := min (dayOfCentury % 1461 / 365) 3
  (400 * era + 100 * century + 4 * cycle + yearOfCycle,
    dayOfCentury % 1461 - 365 * yearOfCycle)

/-- The civil date of a count of days since 1970-01-01. -/
def civilFromDays (days : Int) : CivilDate :=
  let (year, dayOfYear) := marchYearAndDay (days + 719468)
  let month := (5 * dayOfYear + 2) / 153
  let day := dayOfYear - (153 * month + 2) / 5 + 1
  if month < 10 then
    { year, month := month + 3, day }
  else
    { year := year + 1, month := month - 9, day }

/-- The count of days since 1970-01-01 of a civil date. -/
def daysFromCivil (date : CivilDate) : Int :=
  if date.month ≤ 2 then
    marchStart (date.year - 1) + (153 * (date.month + 9) + 2) / 5 + date.day - 719469
  else
    marchStart date.year + (153 * (date.month - 3) + 2) / 5 + date.day - 719469

example : civilFromDays 19782 = { year := 2024, month := 2, day := 29 } := by decide

theorem marchStart_eq (era century cycle year : Int) (hc : 0 ≤ century ∧ century ≤ 3)
    (hq : 0 ≤ cycle ∧ cycle ≤ 24) (hy : 0 ≤ year ∧ year ≤ 3)
    : marchStart (400 * era + 100 * century + 4 * cycle + year)
      = 146097 * era + 36524 * century + 1461 * cycle + 365 * year := by
  unfold marchStart
  generalize total : 400 * era + 100 * century + 4 * cycle + year = shifted
  have quarters : shifted / 4 = 100 * era + 25 * century + cycle := by omega
  have centuries : shifted / 100 = 4 * era + century := by omega
  have eras : shifted / 400 = era := by omega
  omega

/-- Splitting a day count into year and day loses nothing, and the day lies in the year. -/
theorem marchYearAndDay_spec (days : Int)
    : marchStart (marchYearAndDay days).1 + (marchYearAndDay days).2 = days
      ∧ 0 ≤ (marchYearAndDay days).2 ∧ (marchYearAndDay days).2 ≤ 365 := by
  simp only [marchYearAndDay]
  have dayOfEra : 0 ≤ days % 146097 ∧ days % 146097 < 146097 := by omega
  have whole : days = 146097 * (days / 146097) + days % 146097 := by omega
  generalize days / 146097 = era at whole ⊢
  generalize days % 146097 = day at dayOfEra whole ⊢
  have century : 0 ≤ min (day / 36524) 3 ∧ min (day / 36524) 3 ≤ 3 := by omega
  have inCentury : 0 ≤ day - 36524 * min (day / 36524) 3
      ∧ day - 36524 * min (day / 36524) 3 ≤ 36524 := by omega
  generalize min (day / 36524) 3 = c at century inCentury ⊢
  have total : day = 36524 * c + (day - 36524 * c) := by omega
  generalize day - 36524 * c = rest at inCentury total ⊢
  have cycle : 0 ≤ rest / 1461 ∧ rest / 1461 ≤ 24 := by omega
  have year : 0 ≤ min (rest % 1461 / 365) 3 ∧ min (rest % 1461 / 365) 3 ≤ 3 := by omega
  rw [marchStart_eq _ _ _ _ century cycle year]
  omega

/-- Counting the days of a civil date inverts `civilFromDays`: the day of the year
determines its month, and the month the start of its days.
-/
theorem daysFromCivil_civilFromDays (days : Int)
    : daysFromCivil (civilFromDays days) = days := by
  obtain ⟨whole, low, high⟩ := marchYearAndDay_spec (days + 719468)
  unfold daysFromCivil civilFromDays
  generalize marchYearAndDay (days + 719468) = split at whole low high ⊢
  obtain ⟨year, day⟩ := split
  dsimp only at whole low high ⊢
  have month : 0 ≤ (5 * day + 2) / 153 ∧ (5 * day + 2) / 153 ≤ 11 := by omega
  by_cases spring : (5 * day + 2) / 153 < 10
  · simp only [if_pos spring, if_neg (show ¬(5 * day + 2) / 153 + 3 ≤ 2 by omega),
      Int.add_sub_cancel]
    omega
  · simp only [if_neg spring, if_pos (show (5 * day + 2) / 153 - 9 ≤ 2 by omega),
      Int.add_sub_cancel, Int.sub_add_cancel]
    omega

/-- A valid `Date`: a whole number of milliseconds within the range of time values, so
that no `Invalid Date` can be built.
-/
structure Date where
  ms : Int
  inRange : -8640000000000000 ≤ ms ∧ ms ≤ 8640000000000000
  deriving DecidableEq, Repr

/-- `new Date(0)`. -/
def Date.epoch : Date := ⟨0, by decide⟩

/-- One second after the epoch. -/
def Date.oneSecond : Date := ⟨1000, by decide⟩

/-- Five seconds after the epoch. -/
def Date.fiveSeconds : Date := ⟨5000, by decide⟩

instance : LT Date := ⟨fun left right => left.ms < right.ms⟩

instance (left right : Date) : Decidable (left < right) :=
  inferInstanceAs (Decidable (left.ms < right.ms))

/-- `new Date(date.getTime() + ms)`, or none where that is an `Invalid Date`. -/
def Date.plus? (date : Date) (ms : Int) : Option Date :=
  if h : -8640000000000000 ≤ date.ms + ms ∧ date.ms + ms ≤ 8640000000000000 then
    some ⟨date.ms + ms, h⟩
  else
    none

def digit (value : Nat) : Char := Char.ofNat (48 + value % 10)

/-- The value of a decimal digit, or none for another character. -/
def digitValue (char : Char) : Option Nat :=
  if 48 ≤ char.toNat ∧ char.toNat ≤ 57 then some (char.toNat - 48) else none

/-- `value.toString().padStart(width, '0')` for a value of at most `width` digits. -/
def padded : Nat → Nat → List Char
  | 0, _ => []
  | width + 1, value => padded width (value / 10) ++ [digit value]

/-- The number written by a run of decimal digits, most significant first. -/
def readDigits (chars : List Char) : Option Nat :=
  chars.foldl (fun value char => do return 10 * (← value) + (← digitValue char)) (some 0)

/-- Four digits for the years 0 to 9999, and a sign and six digits for the others. -/
def isoYear (year : Int) : List Char :=
  if 0 ≤ year ∧ year ≤ 9999 then padded 4 year.toNat
  else (if year < 0 then '-' else '+') :: padded 6 year.natAbs

def Date.isoChars (date : Date) : List Char :=
  let civil := civilFromDays (date.ms / 86400000)
  let ofDay := (date.ms % 86400000).toNat
  isoYear civil.year ++ '-' :: padded 2 civil.month.toNat
    ++ '-' :: padded 2 civil.day.toNat
    ++ 'T' :: padded 2 (ofDay / 3600000)
    ++ ':' :: padded 2 (ofDay / 60000 % 60)
    ++ ':' :: padded 2 (ofDay / 1000 % 60)
    ++ '.' :: padded 3 (ofDay % 1000) ++ ['Z']

def Date.toISOString (date : Date) : String := String.ofList date.isoChars

/-- A signed six-digit or unsigned four-digit year, and the text after it. -/
def readYear (chars : List Char) : Option (Int × List Char) :=
  match chars with
  | '-' :: rest => do return (-(Int.ofNat (← readDigits (rest.take 6))), rest.drop 6)
  | '+' :: rest => do return (Int.ofNat (← readDigits (rest.take 6)), rest.drop 6)
  | _ => do return (Int.ofNat (← readDigits (chars.take 4)), chars.drop 4)

/-- A separator followed by `width` digits, and the text after them. -/
def readField (separator : Char) (width : Nat) (chars : List Char)
    : Option (Nat × List Char) :=
  match chars with
  | char :: rest =>
      if char = separator then do return (← readDigits (rest.take width), rest.drop width)
      else none
  | [] => none

/-- `new Date(text)` on the full UTC form of the ISO format; none is an `Invalid Date`. -/
def Date.parse (text : String) : Option Date := do
  let (year, rest) ← readYear text.toList
  let (month, rest) ← readField '-' 2 rest
  let (day, rest) ← readField '-' 2 rest
  let (hours, rest) ← readField 'T' 2 rest
  let (minutes, rest) ← readField ':' 2 rest
  let (seconds, rest) ← readField ':' 2 rest
  let (millis, rest) ← readField '.' 3 rest
  let days := daysFromCivil { year, month, day }
  let ms : Int :=
    86400000 * days + (3600000 * hours + 60000 * minutes + 1000 * seconds + millis)
  if h : rest = ['Z'] ∧ -8640000000000000 ≤ ms ∧ ms ≤ 8640000000000000 then
    some ⟨ms, h.2⟩
  else
    none

theorem digitValue_digit (value : Nat) : digitValue (digit value) = some (value % 10) := by
  have digits : ∀ k : Fin 10, digitValue (Char.ofNat (48 + k)) = some k.val := by decide
  exact digits ⟨value % 10, Nat.mod_lt _ (by decide)⟩

theorem length_padded (width value : Nat) : (padded width value).length = width := by
  induction width generalizing value with
  | zero => rfl
  | succ width ih => simp [padded, ih]

/-- Reading the padded digits of a value gives it back modulo the width, by induction on
the width: the last digit holds the remainder.
-/
theorem readDigits_padded (width value : Nat)
    : readDigits (padded width value) = some (value % 10 ^ width) := by
  induction width generalizing value with
  | zero => simp [padded, readDigits, Nat.mod_one]
  | succ width ih =>
      have shorter := ih (value / 10)
      unfold readDigits at shorter ⊢
      rw [padded, List.foldl_append, shorter]
      simp only [List.foldl_cons, List.foldl_nil, digitValue_digit, Option.bind_eq_bind,
        Option.bind_some, Option.pure_def]
      rw [Nat.pow_succ, Nat.mul_comm (10 ^ width), Nat.mod_mul, Nat.add_comm]

theorem readField_padded (separator : Char) (width value : Nat) (rest : List Char)
    (fits : value < 10 ^ width)
    : readField separator width (separator :: (padded width value ++ rest))
      = some (value, rest) := by
  have taken : (padded width value ++ rest).take width = padded width value :=
    List.take_left' (length_padded width value)
  have dropped : (padded width value ++ rest).drop width = rest :=
    List.drop_left' (length_padded width value)
  simp [readField, taken, dropped, readDigits_padded, Nat.mod_eq_of_lt fits]

theorem padded_four_cons (value : Nat)
    : ∃ thousands rest, padded 4 value = digit thousands :: rest :=
  ⟨value / 10 / 10 / 10, _, rfl⟩

theorem digit_ne_sign (value : Nat) : digit value ≠ '-' ∧ digit value ≠ '+' := by
  have digits : ∀ k : Fin 10, Char.ofNat (48 + k) ≠ '-' ∧ Char.ofNat (48 + k) ≠ '+' := by
    decide
  exact digits ⟨value % 10, Nat.mod_lt _ (by decide)⟩

/-- A year of at most six digits is read back with its sign, by the form it is written in. -/
theorem readYear_isoYear (year : Int) (rest : List Char)
    (low : -999999 ≤ year) (high : year ≤ 999999)
    : readYear (isoYear year ++ rest) = some (year, rest) := by
  have six : year.natAbs % 10 ^ 6 = year.natAbs := Nat.mod_eq_of_lt (by omega)
  have taken : (padded 6 year.natAbs ++ rest).take 6 = padded 6 year.natAbs :=
    List.take_left' (length_padded 6 _)
  have dropped : (padded 6 year.natAbs ++ rest).drop 6 = rest :=
    List.drop_left' (length_padded 6 _)
  unfold isoYear
  by_cases plain : 0 ≤ year ∧ year ≤ 9999
  · obtain ⟨thousands, tail, first⟩ := padded_four_cons year.toNat
    have four : year.toNat % 10 ^ 4 = year.toNat := Nat.mod_eq_of_lt (by omega)
    have whole : (padded 4 year.toNat ++ rest).take 4 = padded 4 year.toNat :=
      List.take_left' (length_padded 4 _)
    have after : (padded 4 year.toNat ++ rest).drop 4 = rest :=
      List.drop_left' (length_padded 4 _)
    have unsigned : readYear (padded 4 year.toNat ++ rest)
        = (readDigits ((padded 4 year.toNat ++ rest).take 4)).bind
            (fun value => some (Int.ofNat value, (padded 4 year.toNat ++ rest).drop 4)) := by
      rw [first, List.cons_append]
      unfold readYear
      split
      · next h => exact absurd (List.cons.inj h).1 (digit_ne_sign thousands).1
      · next h => exact absurd (List.cons.inj h).1 (digit_ne_sign thousands).2
      · rfl
    rw [if_pos plain, unsigned, whole, after, readDigits_padded, four]
    simp [max_eq_left plain.1]
  · rw [if_neg plain]
    by_cases negative : year < 0
    · simp only [if_pos negative, List.cons_append, readYear, taken, dropped,
        readDigits_padded, six, Option.bind_eq_bind, Option.bind_some, Option.pure_def]
      congr 2
      simp only [Int.ofNat_eq_natCast]
      omega
    · simp only [if_neg negative, List.cons_append, readYear, taken, dropped,
        readDigits_padded, six, Option.bind_eq_bind, Option.bind_some, Option.pure_def]
      congr 2
      simp only [Int.ofNat_eq_natCast]
      omega

/-- The fields of a valid date's day fit the widths they are written in. -/
theorem civilFromDays_bounds (days : Int) (low : -100000000 ≤ days) (high : days ≤ 100000000)
    : -999999 ≤ (civilFromDays days).year ∧ (civilFromDays days).year ≤ 999999
      ∧ 1 ≤ (civilFromDays days).month ∧ (civilFromDays days).month ≤ 12
      ∧ 1 ≤ (civilFromDays days).day ∧ (civilFromDays days).day ≤ 31 := by
  obtain ⟨whole, first, last⟩ := marchYearAndDay_spec (days + 719468)
  unfold civilFromDays
  generalize marchYearAndDay (days + 719468) = split at whole first last ⊢
  obtain ⟨year, day⟩ := split
  dsimp only at whole first last ⊢
  unfold marchStart at whole
  by_cases spring : (5 * day + 2) / 153 < 10
  · simp only [if_pos spring]
    omega
  · simp only [if_neg spring]
    omega

/-- Parsing the ISO text of a valid date gives the date back: each field is read at the
width it was written in, and the calendar round trip recovers the day.
-/
theorem Date.parse_toISOString (date : Date) : Date.parse date.toISOString = some date := by
  obtain ⟨ms, low, high⟩ := date
  obtain ⟨yearLow, yearHigh, monthLow, monthHigh, dayLow, dayHigh⟩ :=
    civilFromDays_bounds (ms / 86400000) (by omega) (by omega)
  have days := daysFromCivil_civilFromDays (ms / 86400000)
  simp only [Date.parse, Date.toISOString, Date.isoChars, String.toList_ofList,
    List.append_assoc, List.cons_append]
  rw [readYear_isoYear _ _ yearLow yearHigh]
  simp only [Option.bind_eq_bind, Option.bind_some]
  rw [readField_padded _ _ _ _ (by omega)]
  simp only [Option.bind_some]
  rw [readField_padded _ _ _ _ (by omega)]
  simp only [Option.bind_some]
  rw [readField_padded _ _ _ _ (by omega)]
  simp only [Option.bind_some]
  rw [readField_padded _ _ _ _ (by omega)]
  simp only [Option.bind_some]
  rw [readField_padded _ _ _ _ (by omega)]
  simp only [Option.bind_some]
  rw [readField_padded _ _ _ _ (by omega)]
  simp only [Option.bind_some, Int.toNat_of_nonneg (show 0 ≤ (civilFromDays (ms / 86400000)).month
      by omega), Int.toNat_of_nonneg (show 0 ≤ (civilFromDays (ms / 86400000)).day by omega),
    days]
  have total : 86400000 * (ms / 86400000)
      + (3600000 * (((ms % 86400000).toNat / 3600000 : Nat) : Int)
        + 60000 * (((ms % 86400000).toNat / 60000 % 60 : Nat) : Int)
        + 1000 * (((ms % 86400000).toNat / 1000 % 60 : Nat) : Int)
        + (((ms % 86400000).toNat % 1000 : Nat) : Int)) = ms := by omega
  simp only [total, true_and, dif_pos (And.intro low high)]

end AiSdlc.Js
