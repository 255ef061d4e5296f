import Lending.Text.Digits

/-!
# Order references

A payment carries an order reference that no other payment has: a number of 120 bits in the form of
a random identifier, `xxxxxxxx-xxxx-4xxx-8xxx-xxxxxxxxxxxx` in hexadecimal. A source of references
counts on from a place that its seed gives it.
-/

namespace Lending

/-- A source of order references: its seed, and how many it has given. -/
structure OrderSource where
  seed : UInt64
  given : Nat := 0

namespace OrderSource

/-- The number of the next reference. -/
def number (s : OrderSource) : Nat := s.seed.toNat <<< 56 + s.given

/-- A number of thirty hexadecimal digits in the form of a reference. -/
def reference (n : Nat) : String :=
  let digits := Nat.toDigits 16 n
  let digits := List.replicate (30 - digits.length) '0' ++ digits
  String.ofList (digits.take 8 ++ '-' :: (digits.drop 8).take 4 ++ '-' :: '4' ::
    (digits.drop 12).take 3 ++ '-' :: '8' :: (digits.drop 15).take 3 ++ '-' :: digits.drop 18)

/-- The next reference, and the source after it. -/
def next (s : OrderSource) : String × OrderSource :=
  (reference s.number, { s with given := s.given + 1 })

/-- Whether a text has the form of a random identifier. -/
def isReference (s : String) : Bool :=
  let groups := s.splitOn "-"
  groups.map String.length = [8, 4, 4, 4, 12] &&
    (groups.all fun group => group.toList.all fun c => (Text.hexDigit? c).isSome) &&
    (groups[2]?.map fun group => group.toList.head?) = some (some '4')

end OrderSource

end Lending
