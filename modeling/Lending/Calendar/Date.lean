/-!
# Dates

Days of the proleptic Gregorian calendar in the years -262143 to 262142.

* `Date.addMonths`: the same day some months later, or the last day of a shorter month.
* `Date.dayNumber`, `Date.ofDayNumber?`: a date as a count of days from 1970-01-01, and back.
* `Date.position`: a number by which dates are ordered.
-/

namespace Lending

namespace Calendar

/-- The first year of the calendar. -/
def firstYear : Int := -262143

/-- The last year of the calendar. -/
def lastYear : Int := 262142

/-- Whether the year has a 29th of February. -/
def isLeap (year : Int) : Bool := year % 4 = 0 ∧ (year % 100 ≠ 0 ∨ year % 400 = 0)

/-- The length of a month, numbered from 1. -/
def daysInMonth (year : Int) (month : Nat) : Nat :=
  match month with
  | 2 => if isLeap year then 29 else 28
  | 4 | 6 | 9 | 11 => 30
  | _ => 31

theorem daysInMonth_pos (year : Int) (month : Nat) : 1 ≤ daysInMonth year month := by
  unfold daysInMonth
  split <;> try split
  all_goals decide

theorem daysInMonth_le (year : Int) (month : Nat) : daysInMonth year month ≤ 31 := by
  unfold daysInMonth
  split <;> try split
  all_goals decide

/-- December of the last year, as a count of months from January of the year 0. -/
def lastMonthIndex : Int := lastYear * 12 + 11

/-- What makes a year, a month and a day a date. -/
def IsDate (year : Int) (month day : Nat) : Prop :=
  (firstYear ≤ year ∧ year ≤ lastYear) ∧ (1 ≤ month ∧ month ≤ 12) ∧
    (1 ≤ day ∧ day ≤ daysInMonth year month)

instance (year : Int) (month day : Nat) : Decidable (IsDate year month day) :=
  inferInstanceAs (Decidable (_ ∧ _ ∧ _))

end Calendar

open Calendar

/-- A day of the calendar. -/
structure Date where
  year : Int
  month : Nat
  day : Nat
  isDate : IsDate year month day
  deriving DecidableEq

namespace Date

/-- The date with these parts, if there is such a day. -/
def ofParts? (year : Int) (month day : Nat) : Option Date :=
  if h : IsDate year month day then some ⟨year, month, day, h⟩ else none

/-! ## Months -/

/-- The month as a count of months from January of the year 0. -/
def monthIndex (d : Date) : Int := d.year * 12 + (d.month - 1 : Nat)

/-- How many months the calendar goes on after the month of `d`. -/
def monthsLeft (d : Date) : Nat := (lastMonthIndex - d.monthIndex).toNat

theorem monthIndex_le (d : Date) : d.monthIndex ≤ lastMonthIndex := by
  have := d.isDate
  simp only [IsDate, lastYear] at this
  simp only [monthIndex, lastMonthIndex, lastYear]
  omega

theorem firstYear_le_monthIndex (d : Date) : firstYear * 12 ≤ d.monthIndex := by
  have := d.isDate
  simp only [IsDate] at this
  simp only [monthIndex]
  omega

/-- The day `count` months later, on the last day of the month if that month is too short. The
calendar ends with `lastMonthIndex`; no later month is reached. -/
def addMonths (d : Date) (count : Nat) : Date :=
  let index := min (d.monthIndex + count) lastMonthIndex
  let year := index / 12
  let month := (index % 12).toNat + 1
  { year, month
    day := min d.day (daysInMonth year month)
    isDate := by
      have hd := d.isDate.2.2
      have hlow := d.firstYear_le_monthIndex
      have hmonth := d.monthIndex_le
      have hpos := daysInMonth_pos year month
      have hindex : firstYear * 12 ≤ index ∧ index ≤ lastMonthIndex := by
        simp only [index]; omega
      simp only [firstYear, lastMonthIndex, lastYear] at hindex
      simp only [IsDate, firstYear, lastYear]
      refine ⟨⟨?_, ?_⟩, ⟨?_, ?_⟩, ?_, ?_⟩ <;> omega }

/-! ## Days -/

/-- Days from 1970-01-01. The count goes through years that begin in March, so that the leap day
is a year's last. -/
def dayNumber (d : Date) : Int :=
  let year := if d.month ≤ 2 then d.year - 1 else d.year
  let fromMarch := (d.month + 9) % 12
  let dayOfYear := (153 * fromMarch + 2) / 5 + (d.day - 1)
  365 * year + year / 4 - year / 100 + year / 400 + dayOfYear - 719468

/-- The date of a day number; `none` outside the calendar. -/
def ofDayNumber? (n : Int) : Option Date :=
  let shifted := n + 719468
  let era := shifted / 146097
  let dayOfEra := shifted % 146097
  let yearOfEra := (dayOfEra - dayOfEra / 1460 + dayOfEra / 36524 - dayOfEra / 146096) / 365
  let dayOfYear := (dayOfEra - (365 * yearOfEra + yearOfEra / 4 - yearOfEra / 100)).toNat
  let fromMarch := (5 * dayOfYear + 2) / 153
  let day := dayOfYear - (153 * fromMarch + 2) / 5 + 1
  let month := if fromMarch < 10 then fromMarch + 3 else fromMarch - 9
  let year := 400 * era + yearOfEra + (if month ≤ 2 then 1 else 0)
  ofParts? year month day

/-- The date some days later, or earlier if `days` is negative; none outside the calendar. -/
def addDays? (d : Date) (days : Int) : Option Date := ofDayNumber? (d.dayNumber + days)

/-! ## Order -/

/-- The place of the date in a calendar whose months all have 31 days. It grows with the date. -/
def position (d : Date) : Int := d.monthIndex * 31 + (d.day - 1 : Nat)

theorem position_injective {a b : Date} (h : a.position = b.position) : a = b := by
  rcases a with ⟨ya, ma, da, ha⟩
  rcases b with ⟨yb, mb, db, hb⟩
  have hda := daysInMonth_le ya ma
  have hdb := daysInMonth_le yb mb
  have hpa := ha
  have hpb := hb
  simp only [IsDate] at hpa hpb
  simp only [position, monthIndex] at h
  have hmonth : ya = yb ∧ ma = mb ∧ da = db := by omega
  obtain ⟨rfl, rfl, rfl⟩ := hmonth
  rfl

instance : LT Date := ⟨fun a b => a.position < b.position⟩

instance : LE Date := ⟨fun a b => a.position ≤ b.position⟩

end Date

end Lending
