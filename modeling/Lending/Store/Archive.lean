import Lending.Store.Call
import Lending.Store.Database

/-!
# The archive

A store over a database, which outlives the program. A look-up by identity reads one row, and so
does the check that a row to be overwritten exists, which need not be readable; every other look-up
reads its whole table in the order of the keys and fails if one row is not the JSON form of its
entity. Every write goes to the key of the identity the row itself carries.

* `Archive.open?`: the archive of a database. New rows are numbered on from the highest key.
* `Archive.answer`: the meaning of every store call.
-/

namespace Lending

/-- A database with the last number given out to each kind of row. -/
structure Archive where
  database : Database := {}
  counters : Counters := {}

namespace Archive

/-! ## Opening -/

/-- The highest number that a row of a table is kept under, 0 if the table is empty. -/
def highestNumber (table : Table Bytes String) : Except Failure UInt64 :=
  match table.lastKey? with
  | none => .ok 0
  | some key =>
    match ofBigEndian? key with
    | some number => .ok number
    | none => .error (.storage (.malformedKey key.length))

/-- The archive of a database. It fails if a highest key is malformed. -/
def open? (d : Database) : Except Failure Archive := do
  pure
    { database := d
      counters :=
        { application := ← highestNumber (d.table .applications)
          payment := ← highestNumber (d.table .payments)
          installment := ← highestNumber (d.table .installments)
          loan := ← highestNumber (d.table .loans)
          repayment := ← highestNumber (d.table .repayments) } }

/-! ## Rows -/

section Rows

variable {α : Type} [Row α]

/-- Whether there is a row of this identity, readable or not. -/
def has (α : Type) [Row α] (d : Database) (id : Id (Row.entity α)) : Bool :=
  (d.table (Row.table α)).contains (bigEndian id.value)

/-- The row of an identity, if there is one; refused if it cannot be read. -/
def read? (α : Type) [Row α] (d : Database) (id : Id (Row.entity α)) : Except Failure (Option α) :=
  match (d.table (Row.table α)).get? (bigEndian id.value) with
  | none => .ok none
  | some text => (Row.decode text).map some

/-- Every row of a table, in the order of the keys. -/
def scan (α : Type) [Row α] (d : Database) : Except Failure (List α) :=
  (d.table (Row.table α)).values.mapM Row.decode

/-- Puts a row under the key of its own identity. -/
def write (d : Database) (row : α) : Database :=
  d.put (Row.table α) (Row.key row) (Row.encode row)

/-- Overwrites a row that is there. -/
def replace (d : Database) (row : α) : Except Failure Database :=
  if has α d (Row.id row) then .ok (write d row)
  else .error (.notFound (Row.entity α) (Row.id row).value)

end Rows

/-! ## Calls -/

/-- Numbers and writes a new application. -/
def createApplication (s : Archive) (a : Application) : Except Failure (Application × Archive) :=
  let number := s.counters.application + 1
  let a := { a with id := ⟨number⟩ }
  .ok (a, { s with
    database := write s.database a
    counters := { s.counters with application := number } })

/-- Numbers and writes a new payment, unless another one has its order reference. -/
def createPayment (s : Archive) (p : Payment) : Except Failure (Payment × Archive) := do
  let existing ← scan Payment s.database
  if existing.any fun other => other.order = p.order then
    throw (.invalid (.duplicateOrder p.order))
  let number := s.counters.payment + 1
  let p := { p with id := ⟨number⟩ }
  pure (p, { s with
    database := write s.database p
    counters := { s.counters with payment := number } })

/-- Numbers and writes a schedule, unless its owner has one. -/
def createBatch (s : Archive) (batch : List Installment) :
    Except Failure (List Installment × Archive) := do
  let owner ← batchOwner batch
  let existing ← scan Installment s.database
  if existing.any fun entry => entry.owner = owner then
    throw owner.alreadyScheduled
  let (numbered, last) := numberBatch s.counters.installment batch
  pure (numbered, { s with
    database := numbered.foldl write s.database
    counters := { s.counters with installment := last } })

/-- Overwrites entries, all of them or, if one is unknown, none. -/
def updateBatch (s : Archive) (batch : List Installment) : Except Failure (Unit × Archive) :=
  match batch.find? fun entry => !has Installment s.database entry.id with
  | some unknown => .error (.notFound .installment unknown.id.value)
  | none => .ok ((), { s with database := batch.foldl write s.database })

/-- The schedule of an owner, by sequence. -/
def installmentsOf (s : Archive) (owner : Owner) : Except Failure (List Installment) := do
  let entries ← scan Installment s.database
  pure (bySequence (entries.filter fun entry => entry.owner = owner))

/-- Removes the schedule of an owner, and counts its entries. -/
def deleteInstallmentsOf (s : Archive) (owner : Owner) : Except Failure (Nat × Archive) := do
  let entries ← scan Installment s.database
  let doomed := entries.filter fun entry => entry.owner = owner
  pure (doomed.length, { s with
    database := doomed.foldl (fun d entry => d.delete .installments (Row.key entry)) s.database })

/-- Numbers and writes a new loan. -/
def createLoan (s : Archive) (loan : Loan) : Except Failure (Loan × Archive) :=
  let number := s.counters.loan + 1
  let loan := { loan with id := ⟨number⟩ }
  .ok (loan, { s with
    database := write s.database loan
    counters := { s.counters with loan := number } })

/-- Overwrites a loan and adds a repayment on it, both or neither. -/
def recordRepayment (s : Archive) (loan : Loan) (repayment : Repayment) :
    Except Failure (Repayment × Archive) := do
  let database ← replace s.database loan
  let number := s.counters.repayment + 1
  let repayment := { repayment with id := ⟨number⟩ }
  pure (repayment, { s with
    database := write database repayment
    counters := { s.counters with repayment := number } })

/-- The result of a read that leaves the archive as it is. -/
def reading {α : Type} (s : Archive) (result : Except Failure α) : Except Failure (α × Archive) :=
  result.map (·, s)

/-- The result of an update, and the archive over the database that it leaves. -/
def updating (s : Archive) (database : Except Failure Database) :
    Except Failure (Unit × Archive) :=
  database.map fun database => ((), { s with database })

/-- The result of a call that succeeds, and the archive after it. -/
def answer (s : Archive) : (call : StoreCall) → Except Failure (call.Result × Archive)
  | .createApplication a => s.createApplication a
  | .getApplication id => s.reading (read? Application s.database id)
  | .updateApplication a => s.updating (replace s.database a)
  | .listApplications => s.reading (scan Application s.database)
  | .applicationsOfUser user =>
    s.reading ((scan Application s.database).map (·.filter fun a => a.user = user))
  | .createPayment p => s.createPayment p
  | .getPayment id => s.reading (read? Payment s.database id)
  | .updatePayment p => s.updating (replace s.database p)
  | .listPayments => s.reading (scan Payment s.database)
  | .paymentsOfApplication id =>
    s.reading ((scan Payment s.database).map (·.filter fun p => p.application = id))
  | .createBatch batch => s.createBatch batch
  | .getInstallment id => s.reading (read? Installment s.database id)
  | .updateInstallment entry => s.updating (replace s.database entry)
  | .updateBatch batch => s.updateBatch batch
  | .installmentsOf owner => s.reading (s.installmentsOf owner)
  | .deleteInstallmentsOf owner => s.deleteInstallmentsOf owner
  | .createLoan loan => s.createLoan loan
  | .getLoan id => s.reading (read? Loan s.database id)
  | .updateLoan loan => s.updating (replace s.database loan)
  | .listLoans => s.reading (scan Loan s.database)
  | .loansOfUser user =>
    s.reading ((scan Loan s.database).map (·.filter fun loan => loan.user = user))
  | .recordRepayment loan repayment => s.recordRepayment loan repayment
  | .repaymentsOf id =>
    s.reading ((scan Repayment s.database).map (·.filter fun r => r.loan = id))

end Archive

end Lending
