import Lending.Text.Unshown

/-!
# Quoted text in messages

Text that a caller sent is shown between double quotes in an error message, on one line and without
ambiguity: a quote and a backslash are written behind a backslash, five control characters by a
letter or digit, and every other character without a shape of its own by its number in hexadecimal.
A single quote stands for itself.
-/

namespace Lending.Text

/-- The number of a character in the form that quoted text uses. -/
def numberEscape (c : Char) : List Char :=
  ['\\', 'u', '\x7b'] ++ Nat.toDigits 16 c.toNat ++ ['\x7d']

/-- A character inside quoted text. -/
def quotedChar (c : Char) : List Char :=
  match c with
  | '\x00' => ['\\', '0']
  | '\t' => ['\\', 't']
  | '\r' => ['\\', 'r']
  | '\n' => ['\\', 'n']
  | '\\' => ['\\', '\\']
  | '"' => ['\\', '"']
  | c => if isUnshown c then numberEscape c else [c]

/-- A text between double quotes. -/
def quoted (s : String) : String :=
  String.ofList ('"' :: s.toList.flatMap quotedChar ++ ['"'])

end Lending.Text
