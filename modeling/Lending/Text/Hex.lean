import Lending.Text.Digits

/-!
# Bytes in hexadecimal

Two digits for every byte, the higher half first. Small letters are written, and letters of either
case are read.
-/

namespace Lending.Text

/-- The two digits of a byte. -/
def hexPair (byte : UInt8) : List Char :=
  [Nat.digitChar (byte.toNat / 16), Nat.digitChar (byte.toNat % 16)]

/-- Bytes as text. -/
def hexText (bytes : List UInt8) : String := String.ofList (bytes.flatMap hexPair)

/-- The bytes that characters spell; none if they are not pairs of digits. -/
def readHex? : List Char → Option (List UInt8)
  | [] => some []
  | [_] => none
  | high :: low :: rest => do
    let high ← hexDigit? high
    let low ← hexDigit? low
    let bytes ← readHex? rest
    pure (UInt8.ofNat (16 * high + low) :: bytes)

/-- The bytes that a text spells. -/
def ofHex? (s : String) : Option (List UInt8) := readHex? s.toList

end Lending.Text
