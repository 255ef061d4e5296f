import Lending.Record

/-!
# Store calls

What the engine asks of its store, as data. A store keeps applications, payments, installments,
loans and repayments; it is whatever answers a `StoreCall` and moves on to its next state. Two
stores are given, `Lending.Ledger` in memory and `Lending.Archive` over tables of bytes.

* `StoreCall.Result`: what a call answers when it succeeds.
* `StoreMethod`: a call without its arguments, by which outages refer to it.

A look-up answers `none` for an unknown identity, and an update of one fails. A batch of
installments is written whole or not at all.
-/

namespace Lending

/-- The calls of a store with their arguments. -/
inductive StoreCall where
  | createApplication (application : Application)
  | getApplication (id : ApplicationId)
  | updateApplication (application : Application)
  | listApplications
  | applicationsOfUser (user : String)
  | createPayment (payment : Payment)
  | getPayment (id : PaymentId)
  | updatePayment (payment : Payment)
  | listPayments
  | paymentsOfApplication (id : ApplicationId)
  /-- Numbers and writes a schedule; refused if its owner has one. -/
  | createBatch (batch : List Installment)
  | getInstallment (id : InstallmentId)
  | updateInstallment (installment : Installment)
  /-- Overwrites entries; refused if one of them is unknown. -/
  | updateBatch (batch : List Installment)
  /-- The schedule of an owner, by sequence. -/
  | installmentsOf (owner : Owner)
  /-- Removes the schedule of an owner and counts its entries. -/
  | deleteInstallmentsOf (owner : Owner)
  | createLoan (loan : Loan)
  | getLoan (id : LoanId)
  | updateLoan (loan : Loan)
  | listLoans
  | loansOfUser (user : String)
  /-- Updates a loan and adds to its repayments, at once. -/
  | recordRepayment (loan : Loan) (repayment : Repayment)
  | repaymentsOf (id : LoanId)

/-- What a call answers. -/
@[reducible]
def StoreCall.Result : StoreCall → Type
  | createApplication _ => Application
  | getApplication _ => Option Application
  | updateApplication _ => Unit
  | listApplications => List Application
  | applicationsOfUser _ => List Application
  | createPayment _ => Payment
  | getPayment _ => Option Payment
  | updatePayment _ => Unit
  | listPayments => List Payment
  | paymentsOfApplication _ => List Payment
  | createBatch _ => List Installment
  | getInstallment _ => Option Installment
  | updateInstallment _ => Unit
  | updateBatch _ => Unit
  | installmentsOf _ => List Installment
  | deleteInstallmentsOf _ => Nat
  | createLoan _ => Loan
  | getLoan _ => Option Loan
  | updateLoan _ => Unit
  | listLoans => List Loan
  | loansOfUser _ => List Loan
  | recordRepayment _ _ => Repayment
  | repaymentsOf _ => List Repayment

/-- The kinds of store calls. -/
inductive StoreMethod where
  | createApplication
  | getApplication
  | updateApplication
  | listApplications
  | applicationsOfUser
  | createPayment
  | getPayment
  | updatePayment
  | listPayments
  | paymentsOfApplication
  | createBatch
  | getInstallment
  | updateInstallment
  | updateBatch
  | installmentsOf
  | deleteInstallmentsOf
  | createLoan
  | getLoan
  | updateLoan
  | listLoans
  | loansOfUser
  | recordRepayment
  | repaymentsOf
  deriving DecidableEq

/-- The method of a call. -/
def StoreCall.method : StoreCall → StoreMethod
  | createApplication _ => .createApplication
  | getApplication _ => .getApplication
  | updateApplication _ => .updateApplication
  | listApplications => .listApplications
  | applicationsOfUser _ => .applicationsOfUser
  | createPayment _ => .createPayment
  | getPayment _ => .getPayment
  | updatePayment _ => .updatePayment
  | listPayments => .listPayments
  | paymentsOfApplication _ => .paymentsOfApplication
  | createBatch _ => .createBatch
  | getInstallment _ => .getInstallment
  | updateInstallment _ => .updateInstallment
  | updateBatch _ => .updateBatch
  | installmentsOf _ => .installmentsOf
  | deleteInstallmentsOf _ => .deleteInstallmentsOf
  | createLoan _ => .createLoan
  | getLoan _ => .getLoan
  | updateLoan _ => .updateLoan
  | listLoans => .listLoans
  | loansOfUser _ => .loansOfUser
  | recordRepayment _ _ => .recordRepayment
  | repaymentsOf _ => .repaymentsOf

/-- The next number of each kind of row is one more than the last one given out. -/
structure Counters where
  application : UInt64 := 0
  payment : UInt64 := 0
  installment : UInt64 := 0
  loan : UInt64 := 0
  repayment : UInt64 := 0
  deriving DecidableEq

/-- Puts an entry before the entries of its own and of higher sequences. -/
def insertBySequence (entry : Installment) : List Installment → List Installment
  | [] => [entry]
  | first :: rest =>
    if entry.sequence ≤ first.sequence then entry :: first :: rest
    else first :: insertBySequence entry rest

/-- Entries by sequence; entries of one sequence stay in their order. -/
def bySequence (entries : List Installment) : List Installment :=
  entries.foldr insertBySequence []

/-- A batch numbered from `last + 1` on, and the last number given out. -/
def numberBatch (last : UInt64) : List Installment → List Installment × UInt64
  | [] => ([], last)
  | entry :: rest =>
    let (numbered, final) := numberBatch (last + 1) rest
    ({ entry with id := ⟨last + 1⟩ } :: numbered, final)

end Lending
