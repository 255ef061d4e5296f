import Lending.Calendar.Instant
import Lending.Text.Digits

/-!
# Dates and instants as text

A date is written `2026-01-31`, an instant `2026-01-31T10:00:00.250Z` in UTC. A year outside 0 to
9999 carries a sign and at least four digits. The fraction of a second has three, six or nine
digits, the fewest that are exact, and is left out when it is zero; a leap second is second 60.

Reading is more generous than writing: blanks may stand before a number and before a hyphen or
colon, numbers may have fewer digits, a signed year may have any number of them, a space or `t` may
stand for the `T`, and an instant may have an offset from UTC, which is taken off.
-/

namespace Lending

open Text

namespace Calendar

/-! ## Writing -/

/-- The year with at least four digits, and with a sign unless it has just four. -/
def yearText (year : Int) : List Char :=
  if 0 ≤ year ∧ year ≤ 9999 then padded 4 year.toNat
  else (if year < 0 then '-' else '+') :: padded 4 year.natAbs

/-- The fraction of a second with its point, in the fewest of 0, 3, 6 or 9 digits. -/
def fractionText (nanos : Nat) : List Char :=
  if nanos = 0 then []
  else if nanos % 1000000 = 0 then '.' :: padded 3 (nanos / 1000000)
  else if nanos % 1000 = 0 then '.' :: padded 6 (nanos / 1000)
  else '.' :: padded 9 nanos

end Calendar

open Calendar

/-- The date as characters. -/
def Date.chars (d : Date) : List Char :=
  yearText d.year ++ '-' :: padded 2 d.month ++ '-' :: padded 2 d.day

/-- The date as text. -/
def Date.toText (d : Date) : String := String.ofList d.chars

/-- The instant as characters. -/
def Instant.chars (t : Instant) : List Char :=
  let leap := t.nano / nanosPerSecond
  t.date.chars ++ 'T' :: padded 2 (t.second / 3600) ++ ':' :: padded 2 (t.second / 60 % 60) ++
    ':' :: padded 2 (t.second % 60 + leap) ++ fractionText (t.nano % nanosPerSecond) ++ ['Z']

/-- The instant as text. -/
def Instant.toText (t : Instant) : String := String.ofList t.chars

namespace Calendar

/-! ## Reading -/

/-- A year at the front of the text: four digits at most, or a sign and any number of digits. -/
def readYear? (cs : List Char) : Option (Int × List Char) :=
  match trimStart cs with
  | '-' :: cs => (takeNumber? cs.length cs).map fun (n, rest) => (-n, rest)
  | '+' :: cs => (takeNumber? cs.length cs).map fun (n, rest) => (n, rest)
  | cs => (takeNumber? 4 cs).map fun (n, rest) => (n, rest)

/-- A number of one or two digits at the front of the text, after blanks. -/
def readPart? (cs : List Char) : Option (Nat × List Char) := takeNumber? 2 (trimStart cs)

/-- What follows the mark `c`, which blanks may precede. -/
def readMark? (c : Char) (cs : List Char) : Option (List Char) :=
  match trimStart cs with
  | d :: rest => if d = c then some rest else none
  | [] => none

/-- Year, month and day at the front of the text. -/
def readDay? (cs : List Char) : Option (Int × Nat × Nat × List Char) := do
  let (year, cs) ← readYear? cs
  let cs ← readMark? '-' cs
  let (month, cs) ← readPart? cs
  let cs ← readMark? '-' cs
  let (day, cs) ← readPart? cs
  pure (year, month, day, cs)

/-- A fraction of a second at the front of the text, in nanoseconds; digits after the ninth are
passed over. A text that begins otherwise has the fraction zero. -/
def readFraction? : List Char → Option (Nat × List Char)
  | '.' :: cs =>
    match takeDigits 9 cs with
    | ([], _) => none
    | (digits, rest) =>
      let nanos := digits ++ List.replicate (9 - digits.length) '0'
      some (decimalValue nanos, rest.dropWhile Char.isDigit)
  | cs => some (0, cs)

/-- Hour, minute, second and fraction at the front of the text, as second of the day and
nanoseconds. The second 60 is the leap second after second 59. -/
def readTime? (cs : List Char) : Option (Nat × Nat × List Char) := do
  let (hour, cs) ← readPart? cs
  let cs ← readMark? ':' cs
  let (minute, cs) ← readPart? cs
  let cs ← readMark? ':' cs
  let (second, cs) ← readPart? cs
  let (nano, cs) ← readFraction? cs
  if hour < 24 ∧ minute < 60 ∧ second ≤ 60 then
    let leap := second / 60
    pure (hour * 3600 + minute * 60 + (second - leap), leap * nanosPerSecond + nano, cs)
  else none

/-- Two digits at the front of the text. -/
def readPair? : List Char → Option (Nat × List Char)
  | a :: b :: rest =>
    if a.isDigit ∧ b.isDigit then some (decimalValue [a, b], rest) else none
  | _ => none

/-- Hours and minutes of an offset, in seconds. Colons and blanks may stand between them. -/
def readOffsetSize? (cs : List Char) : Option (Int × List Char) := do
  let (hours, cs) ← readPair? cs
  let (minutes, cs) ← readPair? (cs.dropWhile fun c => c = ':' || isBlank c)
  if minutes < 60 then pure (hours * 3600 + minutes * 60, cs) else none

/-- The offset from UTC at the front of the text, in seconds: a `Z`, the letters `UTC`, or hours and
minutes behind a sign. The minus sign of mathematics is one, too. -/
def readOffset? (cs : List Char) : Option (Int × List Char) :=
  match cs with
  | a :: b :: c :: rest =>
    if [a, b, c].map Char.toUpper = ['U', 'T', 'C'] then some (0, rest) else signed cs
  | cs => signed cs
where
  signed : List Char → Option (Int × List Char)
    | 'Z' :: rest | 'z' :: rest => some (0, rest)
    | '+' :: rest => readOffsetSize? rest
    | '-' :: rest | '−' :: rest => (readOffsetSize? rest).map fun (size, rest) => (-size, rest)
    | _ => none

end Calendar

/-- Blanks may follow the date, but nothing else. -/
def Date.parse? (s : String) : Option Date := do
  let (year, month, day, rest) ← readDay? s.toList
  if trimStart rest = [] then Date.ofParts? year month day else none

/-- An offset of a day or more is none. -/
def Instant.parse? (s : String) : Option Instant := do
  let (year, month, day, rest) ← readDay? s.toList
  let rest ← match rest with
    | 'T' :: rest | 't' :: rest | ' ' :: rest => some rest
    | _ => none
  let (second, nano, rest) ← readTime? rest
  let (offset, rest) ← readOffset? (trimStart rest)
  let date ← Date.ofParts? year month day
  if offset.natAbs < secondsPerDay ∧ trimStart rest = [] then
    Instant.ofSeconds? date (second - offset) nano
  else none

end Lending
