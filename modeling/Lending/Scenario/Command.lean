import Lending.Csv.Reader
import Lending.Engine.Call
import Lending.Text.Digits

/-!
# Scenario commands

A scenario is a CSV text whose first record names the columns and whose other records are commands.
A column is known by its name, may stand anywhere and may be left out, as may the fields at the end
of a record; fields in a column of another name must be there, but what they hold does not matter. A
header that is no text leaves the columns in the order of `columns`.

* `Command.readAll`: the commands of a text, each record for itself.
* `Command.task`: what a command asks for, if it has the columns that its operation needs.
-/

namespace Lending

/-- The operations that a scenario can ask for. -/
inductive CommandKind where
  | apply
  | decide
  | pay
  | paymentWebhook
  | installmentWebhook
  | collect
  | settle
  | loan
  | loanDecide
  | loanActivate
  | loanRepay
  | loanDefault
  deriving DecidableEq

namespace CommandKind

/-- Every kind of command. -/
def all : List CommandKind :=
  [.apply, .decide, .pay, .paymentWebhook, .installmentWebhook, .collect, .settle, .loan,
    .loanDecide, .loanActivate, .loanRepay, .loanDefault]

/-- The name of the kind in a scenario. -/
def name : CommandKind → String
  | .apply => "apply"
  | .decide => "decide"
  | .pay => "pay"
  | .paymentWebhook => "payment_webhook"
  | .installmentWebhook => "installment_webhook"
  | .collect => "collect"
  | .settle => "settle"
  | .loan => "loan"
  | .loanDecide => "loan_decide"
  | .loanActivate => "loan_activate"
  | .loanRepay => "loan_repay"
  | .loanDefault => "loan_default"

/-- The kind of a name, if it is one. -/
def ofName? (name : String) : Option CommandKind := all.find? fun kind => kind.name == name

end CommandKind

/-- A command with those of its columns that are filled. -/
structure Command where
  kind : CommandKind
  id : Option UInt64
  user : Option String
  amount : Option UInt64
  currency : Option String
  method : Option String
  status : Option String
  term : Option UInt32
  deriving DecidableEq

namespace Command

/-! ## Reading -/

/-- The names of the columns, in the order that a scenario without a header has. -/
def columns : List String :=
  ["op", "id", "user", "amount", "currency", "method", "status", "term"]

/-- A field as text, without blanks around it; `none` if it is not UTF-8. -/
def fieldText? (field : Csv.Field) : Option String :=
  (String.fromUTF8? ⟨field.toArray⟩).map fun s => String.ofList (Text.trim s.toList)

/-- The fields of a record as texts; none if one of them is no text. -/
def recordText? (record : Csv.Record) : Option (List String) := record.mapM fieldText?

/-- A number below `bound`: in decimal, or in hexadecimal behind `0x`. A plus sign may stand before
the digits. -/
def number? (bound : Nat) (s : String) : Option Nat := do
  let n ← match s.toList with
    | '0' :: 'x' :: '+' :: digits => Text.hexadecimal? digits
    | '0' :: 'x' :: digits => Text.hexadecimal? digits
    | '+' :: digits => Text.decimal? digits
    | digits => Text.decimal? digits
  if n < bound then pure n else none

/-- The text of an optional field; an empty one counts as missing. -/
def textField (field : Option String) : Option String := field.filter (· ≠ "")

/-- The number in an optional field; refused if it spells none. -/
def numberField (bound : Nat) (field : Option String) : Option (Option Nat) :=
  match textField field with
  | some s => (number? bound s).map some
  | none => some none

/-- The command of the fields in the order of `columns`, where a field may be missing. -/
def ofFields? : List (Option String) → Option Command
  | [kind, id, user, amount, currency, method, status, term] => do
    let kind ← kind.bind CommandKind.ofName?
    let id ← numberField UInt64.size id
    let amount ← numberField UInt64.size amount
    let term ← numberField UInt32.size term
    pure
      { kind
        id := id.map UInt64.ofNat
        user := textField user
        amount := amount.map UInt64.ofNat
        currency := textField currency
        method := textField method
        status := textField status
        term := term.map UInt32.ofNat }
  | _ => none

/-- The places in a header where a name stands. -/
def placesOf (header : List String) (name : String) : List Nat :=
  (List.range header.length).filter fun place => header[place]? = some name

/-- The field of a column; refused if the header names the column twice. -/
def column? (header row : List String) (name : String) : Option (Option String) :=
  match placesOf header name with
  | [] => some none
  | [place] => some row[place]?
  | _ => none

/-- A record has a field in every column of a name that is not known. -/
def fillsForeignColumns (header row : List String) : Bool :=
  (List.range header.length).all fun place =>
    place < row.length || (header[place]?.any columns.contains)

/-- The command of a record. -/
def ofRow? (header : Option (List String)) (row : List String) : Option Command :=
  match header with
  | some header =>
    if fillsForeignColumns header row then columns.mapM (column? header row) >>= ofFields?
    else none
  | none => ofFields? ((row.take columns.length).map some)

/-- The command of a record, or the failure to read it. -/
def read (header : Option (List String)) (record : Csv.Record) : Except Failure Command :=
  match recordText? record >>= ofRow? header with
  | some command => .ok command
  | none => .error .csv

/-- The commands of records, of which the first is the header. -/
def ofRecords : List Csv.Record → List (Except Failure Command)
  | [] => []
  | header :: rows => rows.map (read (recordText? header))

/-- The commands of a scenario in their order, and a failure for every record that is none. -/
def readAll (bytes : List UInt8) : List (Except Failure Command) := ofRecords (Csv.records bytes)

/-! ## What a command asks for -/

/-- What a command asks for. -/
inductive Task where
  | call (call : EngineCall)
  /-- Wait until payments settle. -/
  | settle

/-- The value of a column that the operation needs. -/
def needed {α : Type} (c : Command) (column : String) (value : Option α) : Except Failure α :=
  match value with
  | some value => .ok value
  | none => .error (.invalid (.missingColumn c.kind.name column))

/-- The number in the column `id`. -/
def neededId (c : Command) : Except Failure UInt64 := c.needed "id" c.id

/-- The user in the column `user`. -/
def neededUser (c : Command) : Except Failure String := c.needed "user" c.user

/-- The number in the column `amount`. -/
def neededAmount (c : Command) : Except Failure UInt64 := c.needed "amount" c.amount

/-- The code in the column `currency`. -/
def neededCurrency (c : Command) : Except Failure String := c.needed "currency" c.currency

/-- The name in the column `method`. -/
def neededMethod (c : Command) : Except Failure String := c.needed "method" c.method

/-- The token in the column `status`. -/
def neededStatus (c : Command) : Except Failure String := c.needed "status" c.status

/-- The number of months in the column `term`. -/
def neededTerm (c : Command) : Except Failure UInt32 := c.needed "term" c.term

/-- What the command asks for; it fails for the first column that is needed and missing. -/
def task (c : Command) : Except Failure Task :=
  match c.kind with
  | .apply => do
    let user ← c.neededUser
    let amount ← c.neededAmount
    let currency ← c.neededCurrency
    pure (.call (.apply { user, amount, currency }))
  | .decide => do
    let id ← c.neededId
    pure (.call (.decideApplication ⟨id⟩))
  | .pay => do
    let id ← c.neededId
    let user ← c.neededUser
    let amount ← c.neededAmount
    let currency ← c.neededCurrency
    let method ← c.neededMethod
    pure (.call (.pay { application := ⟨id⟩, user, amount, currency, method }))
  | .paymentWebhook => do
    let id ← c.neededId
    let status ← c.neededStatus
    pure (.call (.deliverPayment ⟨id⟩ status))
  | .installmentWebhook => do
    let id ← c.neededId
    let status ← c.neededStatus
    pure (.call (.deliverInstallment ⟨id⟩ status))
  | .collect => do
    let id ← c.neededId
    pure (.call (.collect ⟨id⟩))
  | .settle => pure .settle
  | .loan => do
    let user ← c.neededUser
    let principal ← c.neededAmount
    let currency ← c.neededCurrency
    let term ← c.neededTerm
    pure (.call (.fileLoan { user, principal, currency, term }))
  | .loanDecide => do
    let id ← c.neededId
    pure (.call (.decideLoan ⟨id⟩))
  | .loanActivate => do
    let id ← c.neededId
    pure (.call (.activateLoan ⟨id⟩))
  | .loanRepay => do
    let id ← c.neededId
    let amount ← c.neededAmount
    let method ← c.neededMethod
    pure (.call (.repayLoan ⟨id⟩ { amount, method }))
  | .loanDefault => do
    let id ← c.neededId
    pure (.call (.defaultLoan ⟨id⟩))

end Command

end Lending
