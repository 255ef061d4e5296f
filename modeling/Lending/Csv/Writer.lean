/-!
# Records as CSV text

Fields are divided by commas and every record ends with a line feed. A field that holds a comma, a
quote or a line end stands between quotes, with each quote of its own written twice.
-/

namespace Lending.Csv

/-- Whether a field has to stand between quotes. -/
def needsQuotes (field : List Char) : Bool :=
  field.any fun c => c = ',' || c = '"' || c = '\n' || c = '\r'

/-- A field between quotes. -/
def quotedField (field : List Char) : List Char :=
  '"' :: field.flatMap (fun c => if c = '"' then ['"', '"'] else [c]) ++ ['"']

/-- A field as it is written. -/
def fieldChars (field : List Char) : List Char :=
  if needsQuotes field then quotedField field else field

/-- A record of at least two fields. -/
def recordChars (fields : List (List Char)) : List Char :=
  [','].intercalate (fields.map fieldChars) ++ ['\n']

end Lending.Csv
