import Lending.Store.Call
import Lending.Store.Table

/-!
# The ledger in memory

A store that keeps its rows as they are, in one table for each kind of row. `Ledger.answer` is the
meaning of every store call.
-/

namespace Lending

/-- The rows of the books by their identities, and the last number given out to each kind of row. -/
structure Ledger where
  counters : Counters := {}
  applications : Table ApplicationId Application := .empty
  payments : Table PaymentId Payment := .empty
  installments : Table InstallmentId Installment := .empty
  loans : Table LoanId Loan := .empty
  repayments : Table RepaymentId Repayment := .empty
  deriving DecidableEq

namespace Ledger

/-- Replaces the row of an identity that is known. -/
def replace {e : Entity} {α : Type} (table : Table (Id e) α) (id : Id e) (row : α) :
    Except Failure (Table (Id e) α) :=
  if table.contains id then .ok (table.insert id row) else .error (.notFound e id.value)

/-- Puts entries under their identities, one after another. -/
def insertBatch (table : Table InstallmentId Installment) (batch : List Installment) :
    Table InstallmentId Installment :=
  batch.foldl (fun table entry => table.insert entry.id entry) table

/-- Numbers and adds a new application. -/
def createApplication (l : Ledger) (a : Application) : Except Failure (Application × Ledger) :=
  let number := l.counters.application + 1
  let a := { a with id := ⟨number⟩ }
  .ok (a, { l with
    counters := { l.counters with application := number }
    applications := l.applications.insert a.id a })

/-- Numbers and adds a new payment, unless another one has its order reference. -/
def createPayment (l : Ledger) (p : Payment) : Except Failure (Payment × Ledger) :=
  if l.payments.values.any fun other => other.order = p.order then
    .error (.invalid (.duplicateOrder p.order))
  else
    let number := l.counters.payment + 1
    let p := { p with id := ⟨number⟩ }
    .ok (p, { l with
      counters := { l.counters with payment := number }
      payments := l.payments.insert p.id p })

/-- Numbers and adds a schedule, unless its owner has one. -/
def createBatch (l : Ledger) (batch : List Installment) :
    Except Failure (List Installment × Ledger) := do
  let owner ← batchOwner batch
  if l.installments.values.any fun entry => entry.owner = owner then
    throw owner.alreadyScheduled
  let (numbered, last) := numberBatch l.counters.installment batch
  pure (numbered, { l with
    counters := { l.counters with installment := last }
    installments := insertBatch l.installments numbered })

/-- Overwrites entries, all of them or, if one is unknown, none. -/
def updateBatch (l : Ledger) (batch : List Installment) : Except Failure (Unit × Ledger) :=
  match batch.find? fun entry => !l.installments.contains entry.id with
  | some unknown => .error (.notFound .installment unknown.id.value)
  | none => .ok ((), { l with installments := insertBatch l.installments batch })

/-- The schedule of an owner, by sequence. -/
def installmentsOf (l : Ledger) (owner : Owner) : List Installment :=
  bySequence (l.installments.values.filter fun entry => entry.owner = owner)

/-- Removes the schedule of an owner, and counts its entries. -/
def deleteInstallmentsOf (l : Ledger) (owner : Owner) : Nat × Ledger :=
  let kept := l.installments.filterRows fun entry => entry.owner ≠ owner
  (l.installments.size - kept.size, { l with installments := kept })

/-- Numbers and adds a new loan. -/
def createLoan (l : Ledger) (loan : Loan) : Except Failure (Loan × Ledger) :=
  let number := l.counters.loan + 1
  let loan := { loan with id := ⟨number⟩ }
  .ok (loan, { l with
    counters := { l.counters with loan := number }
    loans := l.loans.insert loan.id loan })

/-- Overwrites a loan and adds a repayment on it, both or neither. -/
def recordRepayment (l : Ledger) (loan : Loan) (repayment : Repayment) :
    Except Failure (Repayment × Ledger) := do
  let loans ← replace l.loans loan.id loan
  let number := l.counters.repayment + 1
  let repayment := { repayment with id := ⟨number⟩ }
  pure (repayment, { l with
    counters := { l.counters with repayment := number }
    loans
    repayments := l.repayments.insert repayment.id repayment })

/-- The result of a call that succeeds, and the ledger after it. -/
def answer (l : Ledger) : (call : StoreCall) → Except Failure (call.Result × Ledger)
  | .createApplication a => l.createApplication a
  | .getApplication id => .ok (l.applications.get? id, l)
  | .updateApplication a => do
    let applications ← replace l.applications a.id a
    pure ((), { l with applications })
  | .listApplications => .ok (l.applications.values, l)
  | .applicationsOfUser user => .ok (l.applications.values.filter fun a => a.user = user, l)
  | .createPayment p => l.createPayment p
  | .getPayment id => .ok (l.payments.get? id, l)
  | .updatePayment p => do
    let payments ← replace l.payments p.id p
    pure ((), { l with payments })
  | .listPayments => .ok (l.payments.values, l)
  | .paymentsOfApplication id => .ok (l.payments.values.filter fun p => p.application = id, l)
  | .createBatch batch => l.createBatch batch
  | .getInstallment id => .ok (l.installments.get? id, l)
  | .updateInstallment entry => do
    let installments ← replace l.installments entry.id entry
    pure ((), { l with installments })
  | .updateBatch batch => l.updateBatch batch
  | .installmentsOf owner => .ok (l.installmentsOf owner, l)
  | .deleteInstallmentsOf owner => .ok (l.deleteInstallmentsOf owner)
  | .createLoan loan => l.createLoan loan
  | .getLoan id => .ok (l.loans.get? id, l)
  | .updateLoan loan => do
    let loans ← replace l.loans loan.id loan
    pure ((), { l with loans })
  | .listLoans => .ok (l.loans.values, l)
  | .loansOfUser user => .ok (l.loans.values.filter fun loan => loan.user = user, l)
  | .recordRepayment loan repayment => l.recordRepayment loan repayment
  | .repaymentsOf id => .ok (l.repayments.values.filter fun r => r.loan = id, l)

end Ledger

end Lending
