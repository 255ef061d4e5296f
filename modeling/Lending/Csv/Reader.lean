/-!
# CSV text as records

A CSV text is a series of records, each a list of fields; both are byte strings. Fields are divided
by commas and records end at a line feed or a carriage return; empty lines are no records. A quote
at the beginning of a field opens a quoted part, in which commas and line ends count as text and a
quote is written twice; text after the closing quote belongs to the field, too. A byte order mark at
the beginning of the text is passed over.

The reader goes through the text byte by byte and remembers its place, so what it makes of a text
depends on what came before only through a `State`.

* `records`: the records of a text; one that the text does not end is ended with it.
-/

namespace Lending.Csv

/-- The bytes of a field, without its quotes. -/
abbrev Field := List UInt8

/-- The fields of a record. -/
abbrev Record := List Field

/-- The byte that divides fields. -/
def comma : UInt8 := 0x2C

/-- The byte that opens and closes a quoted part. -/
def quote : UInt8 := 0x22

/-- Whether a byte ends a record outside quotes. -/
def isLineEnd (b : UInt8) : Bool := b = 0x0A || b = 0x0D

/-- Where in a text the reader is. -/
inductive Place where
  | recordStart
  | fieldStart
  | inField
  | inQuotes
  /-- After a quote in a quoted part, which closes it unless another quote follows. -/
  | afterQuote
  deriving DecidableEq

/-- The place in the text, and what was read of the current record: its fields and the bytes of the
current field, the last first. -/
structure State where
  place : Place := .recordStart
  fields : List Field := []
  field : List UInt8 := []
  deriving DecidableEq

namespace State

/-- The state after a comma: the current field is done, and a new one begins. -/
def endField (s : State) : State :=
  { place := .fieldStart, fields := s.field.reverse :: s.fields, field := [] }

/-- The record that ends here. -/
def record (s : State) : Record := (s.field.reverse :: s.fields).reverse

/-- The state after a byte of the current field. -/
def add (s : State) (place : Place) (b : UInt8) : State :=
  { s with place, field := b :: s.field }

/-- The step outside quotes. -/
def plain (s : State) (b : UInt8) : State × Option Record :=
  if b = comma then (s.endField, none)
  else if isLineEnd b then ({}, some s.record)
  else (s.add .inField b, none)

/-- The state after a byte, and the record that ended with it. -/
def step (s : State) (b : UInt8) : State × Option Record :=
  match s.place with
  | .recordStart =>
    if isLineEnd b then ({}, none)
    else if b = quote then ({ s with place := .inQuotes }, none)
    else s.plain b
  | .fieldStart => if b = quote then ({ s with place := .inQuotes }, none) else s.plain b
  | .inField => s.plain b
  | .inQuotes =>
    if b = quote then ({ s with place := .afterQuote }, none) else (s.add .inQuotes b, none)
  | .afterQuote => if b = quote then (s.add .inQuotes b, none) else s.plain b

/-- The record that the end of the text ends. -/
def finish (s : State) : Option Record :=
  match s.place with
  | .recordStart => none
  | _ => some s.record

end State

/-- Goes through a text; the records that ended in it are put before `done`, the last first. -/
def scan (bytes : List UInt8) (s : State) (done : List Record) : State × List Record :=
  match bytes with
  | [] => (s, done)
  | b :: rest =>
    let (s, ended) := s.step b
    scan rest s (ended.toList ++ done)

/-- The text behind a byte order mark, if it begins with one. -/
def withoutByteOrderMark : List UInt8 → List UInt8
  | 0xEF :: 0xBB :: 0xBF :: rest => rest
  | bytes => bytes

/-- The records of a text in their order. -/
def records (bytes : List UInt8) : List Record :=
  let (s, done) := scan (withoutByteOrderMark bytes) {} []
  (s.finish.toList ++ done).reverse

end Lending.Csv
