import Legitimacy.Ledger.Record
import Mathlib.Order.SuccPred.IntervalSucc
import Mathlib.Data.Int.SuccPred
import Mathlib.Tactic.IntervalCases
import Mathlib.Data.Int.ConditionallyCompleteOrder

namespace Gregorian

structure Date where
  year : Int
  month : Int
  day : Int

variable {date other : Date} {year month : Int}

def IsLeap (year : Int) : Prop := year % 4 = 0 ∧ (year % 100 = 0 → year % 400 = 0)

instance : Decidable (IsLeap year) := inferInstanceAs (Decidable (_ ∧ _))

def daysInMonth (year month : Int) : Int :=
  if month = 2 then if IsLeap year then 29 else 28
  else if month = 4 ∨ month = 6 ∨ month = 9 ∨ month = 11 then 30 else 31

structure Date.Valid (date : Date) : Prop where
  month : 1 ≤ date.month ∧ date.month ≤ 12
  day : 1 ≤ date.day ∧ date.day ≤ daysInMonth date.year date.month

def Date.Before (date other : Date) : Prop :=
  date.year < other.year ∨ date.year = other.year ∧ (date.month < other.month ∨ date.month = other.month ∧ date.day < other.day)

/-- The leap days from the year 1 to the end of a year. -/
def leapDays (year : Int) : Int := year / 4 - year / 100 + year / 400

def daysBeforeMonth (year month : Int) : Int :=
  ((List.range (month.toNat - 1)).map fun earlier => daysInMonth year (earlier + 1)).sum

def daysFromCivil (date : Date) : Int :=
  365 * (date.year - 1970) + (leapDays (date.year - 1) - leapDays 1969) + daysBeforeMonth date.year date.month + (date.day - 1)

theorem leapDays_step (year : Int) : leapDays year = leapDays (year - 1) + if IsLeap year then 1 else 0 := by
  by_cases leap : IsLeap year
  · rw [if_pos leap]
    unfold IsLeap at leap
    unfold leapDays
    omega
  · rw [if_neg leap]
    unfold IsLeap at leap
    unfold leapDays
    omega

theorem leapDays_mono : Monotone leapDays :=
  monotone_int_of_le_succ fun year => by
    have step := leapDays_step (year + 1)
    rw [Int.add_sub_cancel] at step
    split at step <;> omega

theorem daysBeforeMonth_eq (low : 1 ≤ month) (high : month ≤ 12) : daysBeforeMonth year month =
    if month ≤ 2 then 31 * (month - 1) else (153 * (month - 3) + 2) / 5 + 59 + if IsLeap year then 1 else 0 := by
  by_cases leap : IsLeap year
  · interval_cases month <;> simp [daysBeforeMonth, daysInMonth, leap, List.range_succ]
  · interval_cases month <;> simp [daysBeforeMonth, daysInMonth, leap, List.range_succ]

theorem daysInMonth_eq (low : 1 ≤ month) (high : month ≤ 12) : daysInMonth year month =
    if month = 12 then 31 else daysBeforeMonth year (month + 1) - daysBeforeMonth year month := by
  split
  · subst month
    simp [daysInMonth]
  · rw [daysBeforeMonth_eq (by omega) (by omega), daysBeforeMonth_eq low high, daysInMonth]
    interval_cases month <;> simp
    split <;> rfl

theorem daysBeforeMonth_mono {later : Int} (low : 1 ≤ month) (before : month < later) (high : later ≤ 12) :
    daysBeforeMonth year month + daysInMonth year month ≤ daysBeforeMonth year later := by
  have next := @daysBeforeMonth_eq year (month + 1) (by omega) (by omega)
  have after := @daysBeforeMonth_eq year later (by omega) high
  rw [daysInMonth_eq low (by omega), if_neg (by omega)]
  split at next <;> split at after <;> omega

theorem Date.Valid.dayOfYear (valid : date.Valid) : 0 ≤ daysBeforeMonth date.year date.month + (date.day - 1) ∧
    daysBeforeMonth date.year date.month + (date.day - 1) < 365 + if IsLeap date.year then 1 else 0 := by
  obtain ⟨⟨low, high⟩, first, last⟩ := valid
  rw [daysInMonth_eq low high] at last
  split at last
  · rw [daysBeforeMonth_eq low high] at *
    split <;> omega
  · rw [daysBeforeMonth_eq (by omega) (by omega), daysBeforeMonth_eq low high] at last
    rw [daysBeforeMonth_eq low high]
    split <;> split at last <;> split <;> omega

theorem daysFromCivil_lt (valid : date.Valid) (valid' : other.Valid) (before : date.Before other) : daysFromCivil date < daysFromCivil other := by
  have within := valid.dayOfYear
  have within' := valid'.dayOfYear
  unfold daysFromCivil
  rcases before with years | ⟨years, months | ⟨months, days⟩⟩
  · have step := leapDays_step date.year
    have mono : leapDays date.year ≤ leapDays (other.year - 1) := leapDays_mono (by omega)
    omega
  · have follows := @daysBeforeMonth_mono date.year _ _ valid.month.1 months valid'.month.2
    have last := valid.day.2
    have first := valid'.day.1
    rw [← years]
    omega
  · rw [← years, ← months]
    omega

theorem before_trichotomy (date other : Date) : date.Before other ∨ date = other ∨ other.Before date := by
  obtain ⟨year, month, day⟩ := date
  obtain ⟨year', month', day'⟩ := other
  simp only [Date.Before, Date.mk.injEq]
  omega

theorem daysFromCivil_lt_iff (valid : date.Valid) (valid' : other.Valid) : daysFromCivil date < daysFromCivil other ↔ date.Before other := by
  constructor
  · intro less
    rcases before_trichotomy date other with before | rfl | after
    · exact before
    · omega
    · have more := daysFromCivil_lt valid' valid after
      omega
  · exact daysFromCivil_lt valid valid'

theorem daysFromCivil_injective (valid : date.Valid) (valid' : other.Valid) (same : daysFromCivil date = daysFromCivil other) : date = other := by
  rcases before_trichotomy date other with before | equal | after
  · have less := daysFromCivil_lt valid valid' before
    omega
  · exact equal
  · have less := daysFromCivil_lt valid' valid after
    omega

end Gregorian

namespace Legitimacy.Ledger

open Gregorian

def yearOfEra (dayOfEra : Int) : Int := (dayOfEra - dayOfEra / 1460 + dayOfEra / 36524 - dayOfEra / 146096) / 365

/-- A day of an era of 400 years lies in a century, in a block of four years and on a day of this block, whose years start with March. -/
theorem yearOfEra_eq {dayOfEra : Int} (low : 0 ≤ dayOfEra) (high : dayOfEra < 146097) :
    ∃ century block rest year : Int, 0 ≤ century ∧ century ≤ 3 ∧ 0 ≤ block ∧ block ≤ 24 ∧ 0 ≤ rest ∧ rest ≤ 1460 ∧
      (rest = 1460 → century < 3 → block < 24) ∧ dayOfEra = 36524 * century + 1461 * block + rest ∧
      (0 ≤ year ∧ year ≤ 3) ∧ 0 ≤ rest - 365 * year ∧ rest - 365 * year ≤ 365 ∧ (rest - 365 * year = 365 → rest = 1460 ∧ year = 3) ∧
      yearOfEra dayOfEra = 100 * century + 4 * block + year := by
  by_cases last : dayOfEra = 146096
  · subst last
    exact ⟨3, 24, 1460, 3, by decide⟩
  · have whole : dayOfEra / 146096 = 0 := by omega
    obtain ⟨century, atCentury⟩ : ∃ century, century = dayOfEra / 36524 := ⟨_, rfl⟩
    obtain ⟨block, atBlock⟩ : ∃ block, block = (dayOfEra - 36524 * century) / 1461 := ⟨_, rfl⟩
    obtain ⟨rest, atRest⟩ : ∃ rest, rest = dayOfEra - 36524 * century - 1461 * block := ⟨_, rfl⟩
    have inside : 0 ≤ rest ∧ rest ≤ 1460 ∧ 0 ≤ block ∧ block ≤ 24 ∧ 0 ≤ century ∧ century ≤ 3 := by omega
    obtain ⟨year, atYear⟩ : ∃ year, year = if rest = 1460 then 3 else rest / 365 := ⟨_, rfl⟩
    have years : (0 ≤ year ∧ year ≤ 3) ∧ 0 ≤ rest - 365 * year ∧ rest - 365 * year ≤ 365 ∧ (rest - 365 * year = 365 → rest = 1460 ∧ year = 3) := by
      split at atYear <;> omega
    refine ⟨century, block, rest, year, by omega, by omega, by omega, by omega, by omega, by omega, by omega, by omega, years.1, years.2.1,
      years.2.2.1, years.2.2.2, ?_⟩
    rw [yearOfEra, whole, ← atCentury, atYear]
    by_cases early : 24 * century + block + rest < 1460
    · have quarter : dayOfEra / 1460 = 25 * century + block := by omega
      rw [quarter]
      split <;> omega
    · have quarter : dayOfEra / 1460 = 25 * century + block + 1 := by omega
      rw [quarter]
      split <;> omega

/-- The calendar year that ends the year starting with March. -/
theorem isLeap_next {century block year : Int} (era : Int) (centuries : 0 ≤ century ∧ century ≤ 3) (blocks : 0 ≤ block ∧ block ≤ 24)
    (years : 0 ≤ year ∧ year ≤ 3) : IsLeap (100 * century + 4 * block + year + era * 400 + 1) ↔ year = 3 ∧ (block = 24 → century = 3) := by
  unfold IsLeap
  omega

theorem leapDays_era {century block year : Int} (era : Int) (centuries : 0 ≤ century ∧ century ≤ 3) (blocks : 0 ≤ block ∧ block ≤ 24)
    (years : 0 ≤ year ∧ year ≤ 3) : leapDays (100 * century + 4 * block + year + era * 400) = 97 * era + 24 * century + block ∧
      (100 * century + 4 * block + year) / 4 = 25 * century + block ∧ (100 * century + 4 * block + year) / 100 = century := by
  unfold leapDays
  omega

theorem date_of_dayOfYear {march dayOfYear piece month : Int} (low : 0 ≤ dayOfYear) (high : dayOfYear ≤ 365)
    (ends : dayOfYear = 365 → IsLeap (march + 1)) (atPiece : piece = (5 * dayOfYear + 2) / 153)
    (atMonth : month = piece + if piece < 10 then 3 else -9) {date : Date}
    (atDate : date = ⟨march + (if month ≤ 2 then 1 else 0), month, dayOfYear - (153 * piece + 2) / 5 + 1⟩) :
    date.Valid ∧ daysFromCivil date = 365 * (march - 1970) + (leapDays march - 477) + 59 + dayOfYear := by
  have pieces : 0 ≤ piece ∧ piece ≤ 11 := by omega
  have base : leapDays 1969 = 477 := by decide
  have step := leapDays_step march
  subst atDate
  by_cases early : piece < 10
  · obtain rfl : month = piece + 3 := by omega
    rw [if_neg (by omega : ¬piece + 3 ≤ 2), Int.add_zero]
    have before := @daysBeforeMonth_eq march (piece + 3) (by omega) (by omega)
    rw [if_neg (by omega), Int.add_sub_cancel] at before
    refine ⟨⟨by dsimp only; omega, by dsimp only; omega, ?_⟩, ?_⟩
    · dsimp only
      have length := @daysInMonth_eq march (piece + 3) (by omega) (by omega)
      have ceiling : dayOfYear < (153 * (piece + 1) + 2) / 5 := by omega
      split at length
      · omega
      · have next := @daysBeforeMonth_eq march (piece + 3 + 1) (by omega) (by omega)
        rw [if_neg (by omega), show piece + 3 + 1 - 3 = piece + 1 by omega] at next
        omega
    · simp only [daysFromCivil]
      omega
  · rw [if_neg early] at atMonth
    rw [if_pos (by omega : month ≤ 2)]
    have months : 1 ≤ month ∧ month ≤ 12 := by omega
    have before := @daysBeforeMonth_eq (march + 1) month months.1 months.2
    rw [if_pos (by omega)] at before
    refine ⟨⟨months, ?_⟩, ?_⟩
    · rcases (by omega : month = 1 ∨ month = 2) with rfl | rfl
      · have length : daysInMonth (march + 1) 1 = 31 := rfl
        constructor <;> dsimp only <;> omega
      · have length : daysInMonth (march + 1) 2 = if IsLeap (march + 1) then 29 else 28 := rfl
        constructor
        · dsimp only
          omega
        · dsimp only
          rw [length]
          split
          · omega
          · have short : dayOfYear ≠ 365 := fun last => absurd (ends last) (by assumption)
            omega
    · simp only [daysFromCivil, Int.add_sub_cancel]
      omega

theorem civilFromDays_eq (days : Int) : ∃ date : Date, date.Valid ∧ daysFromCivil date = days ∧
    civilFromDays days = (date.year.bmod (2 ^ 32), date.month, date.day) := by
  obtain ⟨shifted, atShifted⟩ : ∃ shifted, shifted = days + 719468 := ⟨_, rfl⟩
  obtain ⟨era, atEra⟩ : ∃ era, era = shifted / 146097 := ⟨_, rfl⟩
  have floor : Int.tdiv (if 0 ≤ shifted then shifted else shifted - 146096) 146097 = era := by
    rw [Int.tdiv_eq_ediv, show Int.sign 146097 = 1 from rfl]
    split <;> split <;> omega
  obtain ⟨dayOfEra, atDay⟩ : ∃ dayOfEra, dayOfEra = shifted - era * 146097 := ⟨_, rfl⟩
  have within : 0 ≤ dayOfEra ∧ dayOfEra < 146097 := by omega
  obtain ⟨century, block, rest, year, lowCentury, highCentury, lowBlock, highBlock, lowRest, highRest, ends, split, years, lowDay, highDay, last,
    quotient⟩ := yearOfEra_eq within.1 within.2
  obtain ⟨leaps, quarters, hundreds⟩ := leapDays_era era ⟨lowCentury, highCentury⟩ ⟨lowBlock, highBlock⟩ years
  have dayOfYear : dayOfEra - (365 * (100 * century + 4 * block + year) + (100 * century + 4 * block + year) / 4 -
      (100 * century + 4 * block + year) / 100) = rest - 365 * year := by
    rw [quarters, hundreds]
    omega
  have nonneg (value divisor : Int) (positive : 0 ≤ value) : value.tdiv divisor = value / divisor := Int.tdiv_eq_ediv_of_nonneg positive
  have leap : rest - 365 * year = 365 → IsLeap (100 * century + 4 * block + year + era * 400 + 1) :=
    fun final => (isLeap_next era ⟨lowCentury, highCentury⟩ ⟨lowBlock, highBlock⟩ years).2 (by have whole := last final; omega)
  obtain ⟨piece, atPiece⟩ : ∃ piece, piece = (5 * (rest - 365 * year) + 2) / 153 := ⟨_, rfl⟩
  obtain ⟨month, atMonth⟩ : ∃ month, month = piece + if piece < 10 then 3 else -9 := ⟨_, rfl⟩
  obtain ⟨date, atDate⟩ : ∃ date : Date, date = ⟨100 * century + 4 * block + year + era * 400 + (if month ≤ 2 then 1 else 0), month,
    rest - 365 * year - (153 * piece + 2) / 5 + 1⟩ := ⟨_, rfl⟩
  obtain ⟨valid, counted⟩ := date_of_dayOfYear lowDay highDay leap atPiece atMonth atDate
  refine ⟨date, valid, by omega, ?_⟩
  simp only [civilFromDays, ← atShifted, floor, ← atDay]
  rw [nonneg dayOfEra 1460 within.1, nonneg dayOfEra 36524 within.1, nonneg dayOfEra 146096 within.1,
    nonneg (dayOfEra - dayOfEra / 1460 + dayOfEra / 36524 - dayOfEra / 146096) _ (by omega), ← yearOfEra, quotient,
    nonneg (100 * century + 4 * block + year) 4 (by omega), nonneg (100 * century + 4 * block + year) 100 (by omega), dayOfYear,
    nonneg (5 * (rest - 365 * year) + 2) _ (by omega), ← atPiece, nonneg (153 * piece + 2) _ (by omega), ← atMonth, atDate]

def firstDay : Int := daysFromCivil ⟨-2 ^ 31, 1, 1⟩

def lastDay : Int := daysFromCivil ⟨2 ^ 31 - 1, 12, 31⟩

def civilDate (days : Int) : Date :=
  let (year, month, day) := civilFromDays days
  ⟨year, month, day⟩

variable {date : Date} {days : Int}

theorem year_inRange_iff (valid : date.Valid) :
    firstDay ≤ daysFromCivil date ∧ daysFromCivil date ≤ lastDay ↔ -2 ^ 31 ≤ date.year ∧ date.year < 2 ^ 31 := by
  have first : Date.Valid ⟨-2 ^ 31, 1, 1⟩ := ⟨by decide, by decide⟩
  have last : Date.Valid ⟨2 ^ 31 - 1, 12, 31⟩ := ⟨by decide, by decide⟩
  have below := daysFromCivil_lt_iff valid first
  have above := daysFromCivil_lt_iff last valid
  have months := valid.month
  have day := valid.day
  have length : daysInMonth date.year date.month ≤ 31 := by
    unfold daysInMonth
    split <;> split <;> omega
  simp only [Date.Before] at below above
  unfold firstDay lastDay
  omega

theorem civilDate_eq (low : firstDay ≤ days) (high : days ≤ lastDay) : (civilDate days).Valid ∧ daysFromCivil (civilDate days) = days := by
  obtain ⟨date, valid, rfl, made⟩ := civilFromDays_eq days
  obtain ⟨above, below⟩ := (year_inRange_iff valid).1 ⟨low, high⟩
  have year : date.year.bmod (2 ^ 32) = date.year := Int.bmod_eq_of_le (by omega) (by omega)
  have same : civilDate (daysFromCivil date) = date := by rw [civilDate, made, year]
  rw [same]
  exact ⟨valid, rfl⟩

section

theorem append_lt {before after : List Char} (less : before < after) (length : before.length = after.length) (rest rest' : List Char) :
    before ++ rest < after ++ rest' := by
  induction before generalizing after with
  | nil =>
    cases after with
    | nil => exact absurd less (List.lt_irrefl [])
    | cons head tail => cases length
  | cons head tail ih =>
    cases after with
    | nil => cases length
    | cons head' tail' =>
      rw [List.cons_append, List.cons_append, List.cons_lt_cons_iff]
      rcases List.cons_lt_cons_iff.1 less with first | ⟨same, others⟩
      · exact .inl first
      · exact .inr ⟨same, ih others (Nat.succ.inj length)⟩

def digitList : Nat → Nat → List Char
  | 0, _ => []
  | width + 1, number => digitList width (number / 10) ++ [Nat.digitChar (number % 10)]

theorem length_digitList (width number : Nat) : (digitList width number).length = width := by
  induction width generalizing number with
  | zero => rfl
  | succ width ih => rw [digitList, List.length_append, ih, List.length_singleton]

theorem digitList_lt {width first second : Nat} (less : first < second) (bounded : second < 10 ^ width) :
    digitList width first < digitList width second := by
  induction width generalizing first second with
  | zero => omega
  | succ width ih =>
    rw [Nat.pow_succ] at bounded
    by_cases same : first / 10 = second / 10
    · have digits : ∀ digit < 10, ∀ other < 10, digit < other → Nat.digitChar digit < Nat.digitChar other := by decide
      rw [digitList, digitList, same]
      exact List.append_left_lt (List.cons_lt_cons_iff.2 (.inl (digits _ (by omega) _ (by omega) (by omega))))
    · exact append_lt (ih (by omega) (by omega)) (by rw [length_digitList, length_digitList]) _ _

theorem digitList_eq {width number : Nat} (positive : 0 < width) (bounded : number < 10 ^ width) :
    List.replicate (width - (Nat.toDigits 10 number).length) '0' ++ Nat.toDigits 10 number = digitList width number := by
  induction width generalizing number with
  | zero => omega
  | succ width ih =>
    rw [Nat.pow_succ] at bounded
    rw [digitList]
    by_cases small : number < 10
    · rw [Nat.toDigits_of_lt_base small, Nat.div_eq_of_lt small, Nat.mod_eq_of_lt small, List.length_singleton, Nat.add_sub_cancel]
      cases width with
      | zero => rfl
      | succ width =>
        rw [← ih (by omega) (by positivity), Nat.toDigits_zero, List.length_singleton, Nat.add_sub_cancel, ← List.replicate_succ']
    · have more : 0 < width := by
        cases width with
        | zero => omega
        | succ width => omega
      rw [Nat.toDigits_of_base_le (by decide) (by omega), List.length_append, List.length_singleton, Nat.add_sub_add_right, ← List.append_assoc,
        ih more (by omega)]

theorem toList_padded {width : Nat} {value : Int} (positive : 0 < width) (low : 0 ≤ value) (high : value < 10 ^ width) :
    (padded width value).toList = digitList width value.toNat := by
  obtain ⟨number, rfl⟩ := Int.eq_ofNat_of_zero_le low
  rw [padded, if_neg (by omega), String.toList_ofList, Int.toNat_natCast, Int.natAbs_natCast]
  exact digitList_eq positive (by exact_mod_cast high)

/-- Numbers in fields of fixed widths, each with the character behind it. -/
def stamp : List (Nat × Char) → List Int → List Char
  | (width, separator) :: shape, value :: values => (padded width value).toList ++ separator :: stamp shape values
  | _, _ => []

def Fits (field : Nat × Char) (value : Int) : Prop := 0 < field.1 ∧ 0 ≤ value ∧ value < 10 ^ field.1

theorem stamp_lt {shape : List (Nat × Char)} {values others : List Int} (fit : List.Forall₂ Fits shape values)
    (fit' : List.Forall₂ Fits shape others) (less : values < others) : stamp shape values < stamp shape others := by
  induction fit generalizing others with
  | nil =>
    cases fit'
    exact absurd less (List.lt_irrefl [])
  | @cons field value shape values fits rest ih =>
    obtain ⟨width, separator⟩ := field
    cases fit' with
    | @cons _ other _ others fits' rest' =>
      obtain ⟨positive, low, high⟩ := fits
      rw [stamp, stamp, toList_padded positive low high, toList_padded positive fits'.2.1 fits'.2.2]
      rcases List.cons_lt_cons_iff.1 less with first | ⟨rfl, behind⟩
      · obtain ⟨number, rfl⟩ := Int.eq_ofNat_of_zero_le fits'.2.1
        have bounded : number < 10 ^ width := by exact_mod_cast fits'.2.2
        exact append_lt (digitList_lt (by omega) bounded) (by rw [length_digitList, length_digitList]) _ _
      · exact List.append_left_lt (List.cons_lt_cons_iff.2 (.inr ⟨rfl, ih rest' behind⟩))

def stampShape : List (Nat × Char) := [(4, '-'), (2, '-'), (2, 'T'), (2, ':'), (2, ':'), (2, 'Z')]

def stampValues (seconds : Int) : List Int :=
  let date := civilDate (seconds / 86400)
  let time := seconds % 86400
  [date.year, date.month, date.day, time / 3600, time % 3600 / 60, time % 60]

theorem toList_timestamp (seconds : Int) : (timestamp seconds).toList = stamp stampShape (stampValues seconds) := by
  simp [timestamp, civilDate, stamp, stampShape, stampValues, toString, String.toList_append]

theorem stampValues_fit {seconds : Int} (low : 0 ≤ seconds) (high : seconds ≤ 253402300799) :
    List.Forall₂ Fits stampShape (stampValues seconds) ∧ (civilDate (seconds / 86400)).Valid ∧
      daysFromCivil (civilDate (seconds / 86400)) = seconds / 86400 := by
  have first : firstDay = -784353015833 := by decide
  have last : lastDay = 784351576776 := by decide
  obtain ⟨valid, counted⟩ := @civilDate_eq (seconds / 86400) (by omega) (by omega)
  have start := daysFromCivil_lt_iff valid (⟨by decide, by decide⟩ : Date.Valid ⟨1970, 1, 1⟩)
  have finish := daysFromCivil_lt_iff (⟨by decide, by decide⟩ : Date.Valid ⟨9999, 12, 31⟩) valid
  have atStart : daysFromCivil ⟨1970, 1, 1⟩ = 0 := by decide
  have atFinish : daysFromCivil ⟨9999, 12, 31⟩ = 2932896 := by decide
  have months := valid.month
  have days := valid.day
  have length : daysInMonth (civilDate (seconds / 86400)).year (civilDate (seconds / 86400)).month ≤ 31 := by
    unfold daysInMonth
    split <;> split <;> omega
  simp only [Date.Before] at start finish
  refine ⟨?_, valid, counted⟩
  simp [stampShape, stampValues, Fits]
  omega

/-- Until the year 9999 the time stamps are in the order of the instants. -/
theorem timestamp_lt {seconds later : Int} (low : 0 ≤ seconds) (less : seconds < later) (high : later ≤ 253402300799) :
    timestamp seconds < timestamp later := by
  obtain ⟨fit, valid, counted⟩ := stampValues_fit low (by omega)
  obtain ⟨fit', valid', counted'⟩ := @stampValues_fit later (by omega) high
  have order := daysFromCivil_lt_iff valid valid'
  show (timestamp seconds).toList < (timestamp later).toList
  rw [toList_timestamp, toList_timestamp]
  refine stamp_lt fit fit' ?_
  by_cases day : seconds / 86400 < later / 86400
  · have before := order.1 (by omega)
    simp only [Date.Before] at before
    simp only [stampValues, List.cons_lt_cons_iff]
    omega
  · have same : seconds / 86400 = later / 86400 := by omega
    simp [stampValues, List.cons_lt_cons_iff, same]
    omega

end

/-- Every day whose year has 32 bits becomes the one valid date of the Gregorian calendar that many days after 1970-01-01, and the time stamps of the instants
from 1970 to 9999 are in the order of the instants. -/
theorem civilFromDays_exact :
    (∀ days, firstDay ≤ days → days ≤ lastDay → (civilDate days).Valid ∧ daysFromCivil (civilDate days) = days ∧
      (∀ date : Date, date.Valid → daysFromCivil date = days → date = civilDate days) ∧
      ∀ later, days < later → later ≤ lastDay → (civilDate days).Before (civilDate later)) ∧
    (∀ date : Date, date.Valid → -2 ^ 31 ≤ date.year → date.year < 2 ^ 31 →
      firstDay ≤ daysFromCivil date ∧ daysFromCivil date ≤ lastDay ∧ civilDate (daysFromCivil date) = date) ∧
    ∀ seconds later, 0 ≤ seconds → seconds < later → later ≤ 253402300799 → timestamp seconds < timestamp later := by
  refine ⟨fun days low high => ?_, fun date valid low high => ?_, fun seconds later => timestamp_lt⟩
  · obtain ⟨valid, counted⟩ := civilDate_eq low high
    refine ⟨valid, counted, fun date other same => daysFromCivil_injective other valid (same.trans counted.symm), fun later less bounded => ?_⟩
    obtain ⟨valid', counted'⟩ := civilDate_eq (by omega : firstDay ≤ later) bounded
    exact (daysFromCivil_lt_iff valid valid').1 (by omega)
  · obtain ⟨above, below⟩ := (year_inRange_iff valid).2 ⟨low, high⟩
    obtain ⟨valid', counted⟩ := civilDate_eq above below
    exact ⟨above, below, daysFromCivil_injective valid' valid counted⟩

/-- The last second of the year 9999 and the first one after it. -/
theorem timestamp_unordered : ¬∀ seconds later, 0 ≤ seconds → seconds < later → timestamp seconds < timestamp later := by
  intro ordered
  exact absurd (ordered 253402300799 253402300800 (by decide) (by decide)) (by decide +kernel)

end Legitimacy.Ledger
