import Lending.Json.Value

/-!
# Reading JSON text

`Json.parse?` accepts the texts of the JSON grammar, with nothing but blanks around the value. The
blanks of JSON are space, tab, line feed and carriage return.

The reader descends into a text with a bound on its depth, and no text is deeper than it is long.
-/

namespace Lending.Json

open Text

/-- Whether a character may stand between the parts of a JSON text. -/
def isSpace (c : Char) : Bool := c = ' ' || c = '\t' || c = '\n' || c = '\r'

/-- What follows the blanks at the front of the text. -/
def skipSpace (cs : List Char) : List Char := cs.dropWhile isSpace

/-! ## Strings

A string is first read as code points, where an escape may stand for a surrogate; surrogates are
then joined in pairs. -/

/-- The code point of an escape of one letter. -/
def letterEscape? : Char → Option Nat
  | '"' => some 0x22
  | '\\' => some 0x5C
  | '/' => some 0x2F
  | 'b' => some 0x08
  | 'f' => some 0x0C
  | 'n' => some 0x0A
  | 'r' => some 0x0D
  | 't' => some 0x09
  | _ => none

/-- The code points up to the closing quote, the last first, and what follows the quote. -/
def readCodes? : List Char → List Nat → Option (List Nat × List Char)
  | '"' :: rest, codes => some (codes, rest)
  | '\\' :: 'u' :: a :: b :: c :: d :: rest, codes =>
    match hexadecimal? [a, b, c, d] with
    | some code => readCodes? rest (code :: codes)
    | none => none
  | '\\' :: c :: rest, codes =>
    match letterEscape? c with
    | some code => readCodes? rest (code :: codes)
    | none => none
  | c :: rest, codes => if c.toNat < 0x20 then none else readCodes? rest (c.toNat :: codes)
  | [], _ => none

/-- Whether a code point is the first half of a surrogate pair. -/
def isHighSurrogate (code : Nat) : Bool := 0xD800 ≤ code && code < 0xDC00

/-- Whether a code point is the second half of a surrogate pair. -/
def isLowSurrogate (code : Nat) : Bool := 0xDC00 ≤ code && code < 0xE000

/-- Joins surrogates, from the last code point to the first; `none` if one of them is alone. -/
def joinCodes? : List Nat → List Char → Option (List Char)
  | [], cs => some cs
  | [code], cs =>
    if isHighSurrogate code || isLowSurrogate code then none else some (Char.ofNat code :: cs)
  | low :: high :: codes, cs =>
    if isLowSurrogate low then
      if isHighSurrogate high then
        joinCodes? codes (Char.ofNat (0x10000 + (high - 0xD800) * 0x400 + (low - 0xDC00)) :: cs)
      else none
    else if isHighSurrogate low then none
    else joinCodes? (high :: codes) (Char.ofNat low :: cs)

/-- A string after its opening quote: its text, if it has one, and what follows. -/
def readString? (cs : List Char) : Option (Option String × List Char) := do
  let (codes, rest) ← readCodes? cs []
  pure ((joinCodes? codes []).map String.ofList, rest)

/-! ## Numbers -/

/-- Digits and what follows them; at least one. -/
def readDigits? (cs : List Char) : Option (List Char × List Char) :=
  match cs.span Char.isDigit with
  | ([], _) => none
  | (digits, rest) => some (digits, rest)

/-- The integer part of a number: no zero stands before another digit. -/
def readWhole? (cs : List Char) : Option (List Char × List Char) :=
  match readDigits? cs with
  | some ('0' :: _ :: _, _) => none
  | other => other

/-- The fraction of a number with its point, possibly empty. -/
def readFraction? : List Char → Option (List Char × List Char)
  | '.' :: cs => (readDigits? cs).map fun (digits, rest) => ('.' :: digits, rest)
  | cs => some ([], cs)

/-- The exponent of a number with its letter, possibly empty. -/
def readExponent? : List Char → Option (List Char × List Char)
  | 'e' :: cs | 'E' :: cs =>
    match cs with
    | '+' :: cs => (readDigits? cs).map fun (digits, rest) => ('e' :: '+' :: digits, rest)
    | '-' :: cs => (readDigits? cs).map fun (digits, rest) => ('e' :: '-' :: digits, rest)
    | cs => (readDigits? cs).map fun (digits, rest) => ('e' :: digits, rest)
  | cs => some ([], cs)

/-- A number. It is an integer if it has neither fraction nor exponent; minus zero is not one. -/
def readNumber? (cs : List Char) : Option (Json × List Char) := do
  let (sign, cs) := match cs with
    | '-' :: cs => (['-'], cs)
    | cs => ([], cs)
  let (whole, cs) ← readWhole? cs
  let (fraction, cs) ← readFraction? cs
  let (exponent, cs) ← readExponent? cs
  let value := decimalValue whole
  if fraction = [] ∧ exponent = [] ∧ (sign = [] ∨ value ≠ 0) then
    pure (.integer (if sign = [] then value else -value), cs)
  else pure (.real (String.ofList (sign ++ whole ++ fraction ++ exponent)), cs)

/-! ## Values -/

/-- The members of an object whose names have a text. -/
def ofMembers (members : List (Option String × Json)) : Json :=
  match members.mapM fun (name, value) => name.map (·, value) with
  | some members => .object members
  | none => .broken

mutual

/-- A value at the front of the text, after blanks. -/
def readValue? : Nat → List Char → Option (Json × List Char)
  | 0, _ => none
  | depth + 1, cs =>
    match skipSpace cs with
    | 'n' :: 'u' :: 'l' :: 'l' :: rest => some (.null, rest)
    | 't' :: 'r' :: 'u' :: 'e' :: rest => some (.bool true, rest)
    | 'f' :: 'a' :: 'l' :: 's' :: 'e' :: rest => some (.bool false, rest)
    | '"' :: rest => do
      let (text, rest) ← readString? rest
      pure ((text.map Json.string).getD .broken, rest)
    | '[' :: rest =>
      match skipSpace rest with
      | ']' :: rest => some (.array [], rest)
      | rest => do
        let (item, rest) ← readValue? depth rest
        let (items, rest) ← readItems? depth rest
        pure (.array (item :: items), rest)
    | '\x7b' :: rest =>
      match skipSpace rest with
      | '\x7d' :: rest => some (.object [], rest)
      | rest => do
        let (member, rest) ← readMember? depth rest
        let (members, rest) ← readMembers? depth rest
        pure (ofMembers (member :: members), rest)
    | cs => readNumber? cs

/-- The items of an array after its first. -/
def readItems? : Nat → List Char → Option (List Json × List Char)
  | 0, _ => none
  | depth + 1, cs =>
    match skipSpace cs with
    | ']' :: rest => some ([], rest)
    | ',' :: rest => do
      let (item, rest) ← readValue? depth rest
      let (items, rest) ← readItems? depth rest
      pure (item :: items, rest)
    | _ => none

/-- A member of an object: a name, a colon and a value. -/
def readMember? : Nat → List Char → Option ((Option String × Json) × List Char)
  | 0, _ => none
  | depth + 1, cs =>
    match skipSpace cs with
    | '"' :: rest => do
      let (name, rest) ← readString? rest
      match skipSpace rest with
      | ':' :: rest => do
        let (value, rest) ← readValue? depth rest
        pure ((name, value), rest)
      | _ => none
    | _ => none

/-- The members of an object after its first. -/
def readMembers? : Nat → List Char → Option (List (Option String × Json) × List Char)
  | 0, _ => none
  | depth + 1, cs =>
    match skipSpace cs with
    | '\x7d' :: rest => some ([], rest)
    | ',' :: rest => do
      let (member, rest) ← readMember? depth rest
      let (members, rest) ← readMembers? depth rest
      pure (member :: members, rest)
    | _ => none

end

/-- The value that the whole text spells. -/
def parse? (s : String) : Option Json := do
  let cs := s.toList
  let (value, rest) ← readValue? (2 * cs.length + 2) cs
  if skipSpace rest = [] then pure value else none

end Lending.Json
