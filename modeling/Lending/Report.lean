import Lending.Csv.Writer
import Lending.Record

/-!
# The payments report

A CSV text with a line for every payment and a header before them. Amounts are in major units with
two decimal places; `scheduled` is the sum of the payment's installments, however large.
-/

namespace Lending.Report

/-- The names of the columns. -/
def header : List String :=
  ["payment", "application", "user", "amount", "currency", "status", "installments", "scheduled"]

/-- The sum of the installments in minor units. -/
def scheduled (entries : List Installment) : Nat :=
  entries.foldr (fun entry sum => entry.amount.toNat + sum) 0

/-- The line of a payment, field by field in the order of `header`. -/
def row (d : PaymentDetails) : List (List Char) :=
  let p := d.payment
  [Text.decimal p.id.value.toNat, Text.decimal p.application.value.toNat, p.user.toList,
    majorChars p.amount.toNat, p.currency.code.toList, (Lifecycle.text p.status).toList,
    Text.decimal d.installments.length, majorChars (scheduled d.installments)]

/-- The header and the lines of the payments as CSV. -/
def chars (details : List PaymentDetails) : List Char :=
  Csv.recordChars (header.map String.toList) ++ details.flatMap fun d => Csv.recordChars (row d)

/-- The text of the report. -/
def toText (details : List PaymentDetails) : String := String.ofList (chars details)

end Lending.Report
