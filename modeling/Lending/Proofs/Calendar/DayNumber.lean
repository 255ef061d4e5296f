import Lending.Calendar.Date
import Mathlib

/-!
# Dates and day numbers

`ofDayNumber?` is a left inverse of `dayNumber`. Years are counted from March, so that the leap day
is the last of a year; 400 of them are an era of 146097 days.

* `yearOfEra_eq`: the year that a day of an era lies in.
* `ofDayNumber?_dayNumber`: a date is found again by its day number.
-/

namespace Lending.Calendar

/-- The year `100 c + 4 q + s` of an era has 365 days, or 366 if it ends in a leap day. -/
theorem yearOfEra_eq {c q s doy : Int} (hc : 0 ≤ c ∧ c ≤ 3) (hq : 0 ≤ q ∧ q ≤ 24)
    (hs : 0 ≤ s ∧ s ≤ 3) (hd : 0 ≤ doy ∧ doy ≤ 365)
    (hleap : doy = 365 → s = 3 ∧ (q ≠ 24 ∨ c = 3)) :
    let doe := 36524 * c + 1461 * q + 365 * s + doy
    (doe - doe / 1460 + doe / 36524 - doe / 146096) / 365 = 100 * c + 4 * q + s := by
  intro doe
  have h1 : doe / 1460 = 25 * c + q + (24 * c + q + 365 * s + doy) / 1460 := by omega
  simp only [doe] at *
  rw [h1]
  by_cases hlast : c = 3 ∧ q = 24 ∧ s = 3 ∧ doy = 365
  · obtain ⟨rfl, rfl, rfl, rfl⟩ := hlast
    decide
  · have h2 : (36524 * c + 1461 * q + 365 * s + doy) / 36524 = c := by omega
    have h3 : (36524 * c + 1461 * q + 365 * s + doy) / 146096 = 0 := by omega
    rw [h2, h3]
    by_cases he : 24 * c + q + 365 * s + doy < 1460
    · have : (24 * c + q + 365 * s + doy) / 1460 = 0 := by omega
      rw [this]
      omega
    · have : (24 * c + q + 365 * s + doy) / 1460 = 1 := by omega
      rw [this]
      omega

/-- The first day of a month, by the number of the month from March on. -/
def monthStart (fromMarch : Nat) : Nat := (153 * fromMarch + 2) / 5

theorem fromMarch_eq {fromMarch day : Nat}
    (h : monthStart fromMarch + day < monthStart (fromMarch + 1)) :
    (5 * (monthStart fromMarch + day) + 2) / 153 = fromMarch := by
  simp only [monthStart] at *
  omega

theorem daysInMonth_eq {year : Int} {month : Nat} (hm : 1 ≤ month ∧ month ≤ 12) (hne : month ≠ 2) :
    daysInMonth year month =
      monthStart ((month + 9) % 12 + 1) - monthStart ((month + 9) % 12) := by
  have : month = 1 ∨ month = 3 ∨ month = 4 ∨ month = 5 ∨ month = 6 ∨ month = 7 ∨ month = 8 ∨
      month = 9 ∨ month = 10 ∨ month = 11 ∨ month = 12 := by omega
  rcases this with rfl | rfl | rfl | rfl | rfl | rfl | rfl | rfl | rfl | rfl | rfl <;> rfl

/-- A day of a month comes before the next month, and only the leap day is the 365th. -/
theorem dayOfYear_bounds {year : Int} {month day : Nat} (hm : 1 ≤ month ∧ month ≤ 12)
    (hd : 1 ≤ day ∧ day ≤ daysInMonth year month) :
    monthStart ((month + 9) % 12) + (day - 1) < monthStart ((month + 9) % 12 + 1) ∧
      monthStart ((month + 9) % 12) + (day - 1) ≤ 365 ∧
      (monthStart ((month + 9) % 12) + (day - 1) = 365 → month = 2 ∧ isLeap year = true) := by
  obtain ⟨hd1, hd2⟩ := hd
  by_cases hfeb : month = 2
  · subst hfeb
    simp only [daysInMonth] at hd2
    simp only [monthStart]
    split at hd2
    · rename_i hleap
      exact ⟨by omega, by omega, fun _ => ⟨trivial, hleap⟩⟩
    · omega
  · rw [daysInMonth_eq hm hfeb] at hd2
    simp only [monthStart] at *
    omega

/-- A date's day number splits into eras, years and days. -/
theorem dayNumber_split {year : Int} {month doy : Nat} {y e c q s : Int}
    (hy : y = if month ≤ 2 then year - 1 else year)
    (hsplit : y = 400 * e + 100 * c + 4 * q + s) (hc : 0 ≤ c ∧ c ≤ 3) (hq : 0 ≤ q ∧ q ≤ 24)
    (hs : 0 ≤ s ∧ s ≤ 3) :
    365 * y + y / 4 - y / 100 + y / 400 + doy =
      146097 * e + (36524 * c + 1461 * q + 365 * s + doy) := by
  have h4 : y / 4 = 100 * e + 25 * c + q := by omega
  have h100 : y / 100 = 4 * e + c := by omega
  have h400 : y / 400 = e := by omega
  rw [h4, h100, h400, hsplit]
  omega

/-- The 365th day of a year from March on is the leap day at its end. -/
theorem leap_place {year : Int} {y e c q s : Int} (hy : y = year - 1)
    (hsplit : y = 400 * e + 100 * c + 4 * q + s) (hc : 0 ≤ c ∧ c ≤ 3) (hs : 0 ≤ s ∧ s ≤ 3)
    (hleap : isLeap year = true) : s = 3 ∧ (q ≠ 24 ∨ c = 3) := by
  simp only [isLeap, Bool.decide_and, Bool.and_eq_true, decide_eq_true_eq] at hleap
  omega

end Lending.Calendar

namespace Lending.Date

open Calendar

theorem ofParts?_self (d : Date) : ofParts? d.year d.month d.day = some d := by
  rw [ofParts?, dif_pos d.isDate]

theorem ofDayNumber?_dayNumber (d : Date) : ofDayNumber? d.dayNumber = some d := by
  obtain ⟨_, hm, hd⟩ := d.isDate
  obtain ⟨hnext, hle, hlast⟩ := dayOfYear_bounds hm hd
  obtain ⟨doy, hdoy⟩ : ∃ doy, doy = monthStart ((d.month + 9) % 12) + (d.day - 1) := ⟨_, rfl⟩
  rw [← hdoy] at hnext hle hlast
  -- the year from March on, and its place in the era
  obtain ⟨y, hy⟩ : ∃ y, y = if d.month ≤ 2 then d.year - 1 else d.year := ⟨_, rfl⟩
  obtain ⟨e, c, q, s, hsplit, hc, hq, hs⟩ : ∃ e c q s : Int, y = 400 * e + 100 * c + 4 * q + s ∧
      (0 ≤ c ∧ c ≤ 3) ∧ (0 ≤ q ∧ q ≤ 24) ∧ (0 ≤ s ∧ s ≤ 3) :=
    ⟨y / 400, y % 400 / 100, y % 100 / 4, y % 4, by omega, by omega, by omega, by omega⟩
  have hleap : (doy : Int) = 365 → s = 3 ∧ (q ≠ 24 ∨ c = 3) := by
    intro h365
    obtain ⟨hfeb, hyes⟩ := hlast (by omega)
    exact leap_place (by rw [hy, if_pos (by omega)]) hsplit hc hs hyes
  have hshift : d.dayNumber + 719468 = 146097 * e + (36524 * c + 1461 * q + 365 * s + doy) := by
    rw [← dayNumber_split hy hsplit hc hq hs, dayNumber, ← hy, hdoy, monthStart]
    omega
  have hyear := yearOfEra_eq hc hq hs ⟨by omega, by omega⟩ hleap
  have hmonth : (5 * doy + 2) / 153 = (d.month + 9) % 12 := by
    rw [hdoy] at hnext ⊢
    exact fromMarch_eq hnext
  have hdoe : (146097 * e + (36524 * c + 1461 * q + 365 * s + doy)) % 146097 =
      36524 * c + 1461 * q + 365 * s + doy := by
    clear hy hsplit hshift hyear hmonth hdoy
    omega
  have hera : (146097 * e + (36524 * c + 1461 * q + 365 * s + doy)) / 146097 = e := by
    clear hy hsplit hshift hyear hmonth hdoy
    omega
  have hrest : (36524 * c + 1461 * q + 365 * s + doy - (365 * (100 * c + 4 * q + s) +
      (100 * c + 4 * q + s) / 4 - (100 * c + 4 * q + s) / 100)).toNat = doy := by
    clear hy hsplit hshift hyear hmonth hdoy hdoe hera hleap
    omega
  rw [ofDayNumber?, hshift]
  simp only at hyear
  simp only [hdoe, hera, hyear, hrest, hmonth]
  clear hdoe hera hyear hrest hmonth hshift hnext hle hlast hleap
  have hm' : (if (d.month + 9) % 12 < 10 then (d.month + 9) % 12 + 3
      else (d.month + 9) % 12 - 9) = d.month := by
    clear hy hdoy hsplit
    split <;> omega
  have hd' : doy - (153 * ((d.month + 9) % 12) + 2) / 5 + 1 = d.day := by
    rw [hdoy, monthStart, Nat.add_sub_cancel_left, Nat.sub_add_cancel hd.1]
  have hy' : 400 * e + (100 * c + 4 * q + s) + (if d.month ≤ 2 then 1 else 0) = d.year := by
    clear hdoy hd' hm'
    split at hy <;> rename_i h <;> simp only [h, if_true, if_false] <;> omega
  rw [hm', hd', hy']
  exact ofParts?_self d

end Lending.Date
