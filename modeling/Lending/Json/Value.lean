import Lending.Text.Digits

/-!
# JSON values

The value type of a JSON text, and its compact text form. Object members keep their order and may
repeat a name; what that means is for the reader of the object to say (`Lending.Json.Shape`).

A number is an `integer` when it is written as one; any other spelling is kept as `real`. A string
whose escapes leave half of a surrogate pair alone is well-formed but has no text; it is `broken`,
and so is an object with such a name.
-/

namespace Lending

/-- A JSON value. -/
inductive Json where
  | null
  | bool (value : Bool)
  | integer (value : Int)
  | real (literal : String)
  | string (value : String)
  | broken
  | array (items : List Json)
  | object (members : List (String × Json))

namespace Json

open Text

/-- A natural number as a JSON value. -/
def nat (n : Nat) : Json := .integer n

/-- The value of what may be absent: null if it is. -/
def option {α : Type} (encode : α → Json) : Option α → Json
  | some a => encode a
  | none => .null

/-- The array of the values of items. -/
def list {α : Type} (encode : α → Json) (items : List α) : Json := .array (items.map encode)

/-! ## Text -/

/-- A number in hexadecimal, with at least four digits. -/
def hex4 (n : Nat) : List Char :=
  let digits := Nat.toDigits 16 n
  List.replicate (4 - digits.length) '0' ++ digits

/-- A character inside a string: quotes, backslashes and control characters are escaped. -/
def stringChar (c : Char) : List Char :=
  match c with
  | '"' => ['\\', '"']
  | '\\' => ['\\', '\\']
  | '\x08' => ['\\', 'b']
  | '\x0c' => ['\\', 'f']
  | '\n' => ['\\', 'n']
  | '\r' => ['\\', 'r']
  | '\t' => ['\\', 't']
  | c => if c.toNat < 0x20 then ['\\', 'u'] ++ hex4 c.toNat else [c]

/-- A text between quotes, with its escapes. -/
def stringChars (s : String) : List Char := '"' :: s.toList.flatMap stringChar ++ ['"']

/-- A whole number in decimal. -/
def integerChars : Int → List Char
  | .ofNat n => decimal n
  | .negSucc n => '-' :: decimal (n + 1)

mutual

/-- The text of a value, without blanks. A broken value has no spelling of its own. -/
def chars : Json → List Char
  | .null => ['n', 'u', 'l', 'l']
  | .bool true => ['t', 'r', 'u', 'e']
  | .bool false => ['f', 'a', 'l', 's', 'e']
  | .integer n => integerChars n
  | .real literal => literal.toList
  | .string s => stringChars s
  | .broken => stringChars ""
  | .array [] => ['[', ']']
  | .array (item :: items) => '[' :: chars item ++ itemsChars items
  | .object [] => ['\x7b', '\x7d']
  | .object ((name, value) :: members) =>
    '\x7b' :: stringChars name ++ ':' :: chars value ++ membersChars members

/-- What follows the first item of an array. -/
def itemsChars : List Json → List Char
  | [] => [']']
  | item :: items => ',' :: chars item ++ itemsChars items

/-- What follows the first member of an object. -/
def membersChars : List (String × Json) → List Char
  | [] => ['\x7d']
  | (name, value) :: members =>
    ',' :: stringChars name ++ ':' :: chars value ++ membersChars members

end

/-- The compact text of a value. -/
def toText (j : Json) : String := String.ofList j.chars

end Json

end Lending
