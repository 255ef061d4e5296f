import Lending.Store.Database
import Lending.Text.Hex

/-!
# Databases as text

A database is kept in a file as a text with a line for every row: a JSON array of the name of the
table, the key in hexadecimal and the text of the row.
-/

namespace Lending

namespace TableName

/-- The tables in the order in which they are written. -/
def all : List TableName :=
  [.applications, .payments, .installments, .loans, .repayments, .spare]

/-- The name of the table in the text. -/
def text : TableName → String
  | .applications => "applications"
  | .payments => "payments"
  | .installments => "installments"
  | .loans => "loans"
  | .repayments => "repayments"
  | .spare => "default"

/-- The table of a name, if it is one. -/
def ofText? (text : String) : Option TableName := all.find? fun name => name.text == text

end TableName

namespace Database

open Text

/-- The line of a row. -/
def rowText (name : TableName) (row : Bytes × String) : String :=
  (Json.array [.string name.text, .string (hexText row.1), .string row.2]).toText ++ "\n"

/-- The lines of all rows, table by table and key by key. -/
def toText (d : Database) : String :=
  String.join (TableName.all.flatMap fun name => (d.table name).rows.map (rowText name))

/-- The database with the row that a line describes. -/
def addLine? (d : Database) (line : String) : Option Database := do
  match ← Json.parse? line with
  | .array [.string name, .string key, .string text] =>
    pure (d.put (← TableName.ofText? name) (← ofHex? key) text)
  | _ => none

/-- The database that a text describes. -/
def ofText? (text : String) : Option Database :=
  ((text.splitOn "\n").filter (· ≠ "")).foldlM addLine? {}

end Database

end Lending
