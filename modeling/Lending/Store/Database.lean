import Lending.Json.Record
import Lending.Store.Table

/-!
# Databases

A database maps keys to texts in a few named tables; keys are byte strings, ordered byte by byte.
The rows of the books are kept in it under their numbers, as eight bytes with the highest first, so
that the order of the keys is the order of the numbers. The text of a row is its JSON form.
-/

namespace Lending

/-- A byte string. -/
abbrev Bytes := List UInt8

/-- The tables of a database. -/
inductive TableName where
  | applications
  | payments
  | installments
  | loans
  | repayments
  /-- A table that every database has and nothing is kept in. -/
  | spare
  deriving DecidableEq

/-- The tables by their names. A table that nothing was put in is empty. -/
structure Database where
  table : TableName → Table Bytes String := fun _ => .empty

namespace Database

/-- The database with another table under a name. -/
def setTable (d : Database) (name : TableName) (table : Table Bytes String) : Database :=
  ⟨fun other => if other = name then table else d.table other⟩

/-- Puts a text under a key of a table, in place of the one that was there. -/
def put (d : Database) (name : TableName) (key : Bytes) (text : String) : Database :=
  d.setTable name ((d.table name).insert key text)

/-- Removes a key from a table. -/
def delete (d : Database) (name : TableName) (key : Bytes) : Database :=
  d.setTable name ((d.table name).erase key)

end Database

/-- The bytes of a number, the highest first. -/
def bigEndian (n : UInt64) : Bytes :=
  ([56, 48, 40, 32, 24, 16, 8, 0] : List UInt64).map fun shift => (n >>> shift).toUInt8

/-- The number of eight bytes, the highest first. -/
def ofBigEndian? (bytes : Bytes) : Option UInt64 :=
  if bytes.length = 8 then
    some (bytes.foldl (fun n byte => (n <<< 8) ||| byte.toUInt64) 0)
  else none

/-- The kinds of rows a database holds: each has its table, its entity and its JSON form. -/
class Row (α : Type) where
  table : TableName
  entity : Entity
  id : α → Id entity
  toJson : α → Json
  ofJson? : Json → Option α

namespace Row

variable {α : Type} [Row α]

/-- The key of a row: the number of its identity. -/
def key (row : α) : Bytes := bigEndian (id row).value

/-- The text that is kept of a row. -/
def encode (row : α) : String := (toJson row).toText

/-- The row that a text was kept of; refused if it is not the JSON form of one. -/
def decode (text : String) : Except Failure α :=
  match Json.parse? text >>= ofJson? with
  | some row => .ok row
  | none => .error (.storage .malformedRow)

end Row

instance : Row Application where
  table := .applications
  entity := .application
  id := Application.id
  toJson := Application.toJson
  ofJson? := Application.ofJson?

instance : Row Payment where
  table := .payments
  entity := .payment
  id := Payment.id
  toJson := Payment.toJson
  ofJson? := Payment.ofJson?

instance : Row Installment where
  table := .installments
  entity := .installment
  id := Installment.id
  toJson := Installment.toJson
  ofJson? := Installment.ofJson?

instance : Row Loan where
  table := .loans
  entity := .loan
  id := Loan.id
  toJson := Loan.toJson
  ofJson? := Loan.ofJson?

instance : Row Repayment where
  table := .repayments
  entity := .repayment
  id := Repayment.id
  toJson := Repayment.toJson
  ofJson? := Repayment.ofJson?

end Lending
