import Lending.Text.Blank

/-!
# Digits

Unsigned numbers as digits: writing with leading zeros, and taking digits from the front of a text.
Only the ASCII digits count.

* `decimal`, `padded`: a number in decimal, and with leading zeros up to a width.
* `takeDigits`: the leading digits of a text, at most so many, and what follows them.
* `decimal?`, `hexadecimal?`: the number a whole text spells.
-/

namespace Lending.Text

/-- The digits of a number in decimal. -/
def decimal (n : Nat) : List Char := Nat.toDigits 10 n

/-- A number in decimal. -/
def numeral (n : Nat) : String := String.ofList (decimal n)

/-- A number in decimal, with zeros in front up to `width` digits. -/
def padded (width n : Nat) : List Char :=
  let digits := decimal n
  List.replicate (width - digits.length) '0' ++ digits

/-- The number that decimal digits spell, the most significant first. -/
def decimalValue (digits : List Char) : Nat :=
  digits.foldl (fun value c => 10 * value + (c.toNat - '0'.toNat)) 0

/-- The leading digits, at most `most` of them, and the rest. -/
def takeDigits : Nat → List Char → List Char × List Char
  | 0, cs => ([], cs)
  | _ + 1, [] => ([], [])
  | most + 1, c :: cs =>
    if c.isDigit then
      let (digits, rest) := takeDigits most cs
      (c :: digits, rest)
    else ([], c :: cs)

/-- A number of one to `most` digits at the front of the text. -/
def takeNumber? (most : Nat) (cs : List Char) : Option (Nat × List Char) :=
  match takeDigits most cs with
  | ([], _) => none
  | (digits, rest) => some (decimalValue digits, rest)

/-- The number that the whole text spells in decimal. -/
def decimal? (cs : List Char) : Option Nat :=
  if cs ≠ [] ∧ cs.all Char.isDigit then some (decimalValue cs) else none

/-- The value of a hexadecimal digit, in letters of either case. -/
def hexDigit? (c : Char) : Option Nat :=
  if c.isDigit then some (c.toNat - '0'.toNat)
  else if 'a' ≤ c ∧ c ≤ 'f' then some (c.toNat - 'a'.toNat + 10)
  else if 'A' ≤ c ∧ c ≤ 'F' then some (c.toNat - 'A'.toNat + 10)
  else none

/-- The number that the whole text spells in hexadecimal, in letters of either case. -/
def hexadecimal? (cs : List Char) : Option Nat :=
  if cs = [] then none
  else cs.foldlM (fun value c => (hexDigit? c).map (16 * value + ·)) 0

end Lending.Text
