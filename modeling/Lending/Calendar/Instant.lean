import Lending.Calendar.Date

/-!
# Instants

Points in time, in UTC, to the nanosecond. A minute may end in a leap second: its part of a second
is then counted on from the second before, so `nano` runs up to two thousand million.

* `Instant.add?`: the instant some milliseconds later or earlier.
* `Instant.fromEpoch?`, `Instant.toEpoch`: an instant as a count of milliseconds from 1970-01-01.
* `Instant.position`: a number by which instants are ordered; `Instant` has a lawful `Ord`.
-/

namespace Lending

/-- Nanoseconds in a second. -/
def nanosPerSecond : Nat := 1000000000

/-- Seconds in a day, leap seconds left out. -/
def secondsPerDay : Nat := 86400

/-- A point in time: a day, a second of the day and a part of that second. -/
structure Instant where
  date : Date
  /-- Second of the day. -/
  second : Nat
  /-- Part of the second; from `nanosPerSecond` on it lies in a leap second. -/
  nano : Nat
  second_lt : second < secondsPerDay
  nano_lt : nano < 2 * nanosPerSecond
  /-- Only the last second of a minute may have a leap second after it. -/
  leap : nanosPerSecond ≤ nano → second % 60 = 59
  deriving DecidableEq

namespace Instant

/-- The instant with these parts, if there is such a moment. -/
def ofParts? (date : Date) (second nano : Nat) : Option Instant :=
  if h : second < secondsPerDay ∧ nano < 2 * nanosPerSecond ∧
      (nanosPerSecond ≤ nano → second % 60 = 59) then
    some ⟨date, second, nano, h.1, h.2.1, h.2.2⟩
  else none

/-- The instant that lies `seconds` after the beginning of the day, on a later or an earlier day if
they are more than a day or below zero. -/
def ofSeconds? (date : Date) (seconds : Int) (nano : Nat) : Option Instant := do
  let day ← date.addDays? (seconds / secondsPerDay)
  ofParts? day (seconds % secondsPerDay).toNat nano

/-- The instant `millis` milliseconds later. Whoever leaves a leap second forwards counts on from
the second before it, and backwards from the second after it. -/
def add? (t : Instant) (millis : Int) : Option Instant :=
  let seconds := millis.tdiv 1000
  let nanos := millis.tmod 1000 * 1000000
  let inLeap := nanosPerSecond ≤ t.nano
  if inLeap ∧ seconds = 0 ∧ t.nano + nanos < 2 * nanosPerSecond then
    ofParts? t.date t.second (t.nano + nanos).toNat
  else
    let start : Int := if inLeap ∧ seconds < 0 then t.second + 1 else t.second
    let nano : Int := (if inLeap then (t.nano : Int) - nanosPerSecond else t.nano) + nanos
    ofSeconds? t.date (start + seconds + nano / nanosPerSecond) (nano % nanosPerSecond).toNat

/-- The instant `millis` milliseconds later. Where the calendar ends before, there is none, and
whoever cannot go on without one is given the instant itself. -/
def add (t : Instant) (millis : Int) : Instant := (t.add? millis).getD t

/-- The beginning of 1970. -/
def epoch : Instant where
  date := { year := 1970, month := 1, day := 1, isDate := by decide }
  second := 0
  nano := 0
  second_lt := by decide
  nano_lt := by decide
  leap := by decide

/-- The instant `millis` milliseconds after 1970 began; none outside the calendar. -/
def fromEpoch? (millis : Int) : Option Instant := epoch.add? millis

/-- Whole milliseconds from 1970-01-01. -/
def toEpoch (t : Instant) : Int :=
  (t.date.dayNumber * secondsPerDay + t.second) * 1000 + (t.nano / 1000000 : Nat)

/-! ## Order -/

/-- The place of the instant in time, if every second could be a leap second. -/
def position (t : Instant) : Int :=
  (t.date.position * secondsPerDay + t.second) * (2 * nanosPerSecond : Nat) + t.nano

theorem position_injective {a b : Instant} (h : a.position = b.position) : a = b := by
  rcases a with ⟨da, sa, na, hsa, hna, _⟩
  rcases b with ⟨db, sb, nb, hsb, hnb, _⟩
  simp only [position, secondsPerDay, nanosPerSecond] at h hsa hna hsb hnb
  have hparts : da.position = db.position ∧ sa = sb ∧ na = nb := by omega
  obtain ⟨hdate, rfl, rfl⟩ := hparts
  obtain rfl := Date.position_injective hdate
  rfl

instance : LT Instant := ⟨fun a b => a.position < b.position⟩

instance : LE Instant := ⟨fun a b => a.position ≤ b.position⟩

instance (a b : Instant) : Decidable (a < b) := inferInstanceAs (Decidable (_ < (_ : Int)))

instance (a b : Instant) : Decidable (a ≤ b) := inferInstanceAs (Decidable (_ ≤ (_ : Int)))

instance : Ord Instant := ⟨fun a b => compare a.position b.position⟩

theorem compare_eq (a b : Instant) : compare a b = compare a.position b.position := rfl

instance : Std.LawfulEqOrd Instant where
  compare_self := by simp [compare_eq]
  eq_of_compare h := position_injective (Std.compare_eq_iff_eq.mp h)

instance : Std.TransOrd Instant where
  eq_swap := Std.OrientedOrd.eq_swap (α := Int)
  isLE_trans := Std.TransOrd.isLE_trans (α := Int)

end Instant

end Lending
