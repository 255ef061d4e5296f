import Lending.Installment

/-!
# Applications, payments and loans

What the books hold beside installments, the requests that bring it about, and the obligation that
a payment and a loan have in common: to be repaid by a schedule.
-/

namespace Lending

/-- A user's request for a credit line. Once it is approved, `amount` is the limit that successful
payments draw on. -/
structure Application where
  id : ApplicationId
  user : String
  amount : Amount
  currency : Currency
  status : ApplicationStatus
  createdAt : Instant
  decidedAt : Option Instant
  creditScore : Option UInt16
  deriving DecidableEq

/-- Funds drawn on an approved application. -/
structure Payment where
  id : PaymentId
  application : ApplicationId
  user : String
  /-- Reference for the payment gateway; no two payments share it. -/
  order : String
  amount : Amount
  currency : Currency
  method : PaymentMethod
  status : PaymentStatus
  createdAt : Instant
  settledAt : Option Instant
  deriving DecidableEq

/-- Money lent for a fixed number of months. -/
structure Loan where
  id : LoanId
  user : String
  principal : Amount
  currency : Currency
  term : UInt32
  /-- The number of unpaid entries. -/
  remainingTerm : UInt32
  status : LoanStatus
  remaining : UInt64
  totalPaid : UInt64
  createdAt : Instant
  approvedAt : Option Instant
  activatedAt : Option Instant
  nextPayment : Option Date
  deriving DecidableEq

/-- A repayment that was made on a loan. -/
structure Repayment where
  id : RepaymentId
  loan : LoanId
  amount : Amount
  method : PaymentMethod
  paidAt : Instant
  deriving DecidableEq

/-- A payment with its schedule, which is empty until the payment is settled. -/
structure PaymentDetails where
  payment : Payment
  installments : List Installment
  deriving DecidableEq

/-- A loan with its schedule, which is empty until the loan is activated. -/
structure LoanDetails where
  loan : Loan
  schedule : List Installment
  deriving DecidableEq

/-! ## Requests -/

/-- What a user sends to file an application, unchecked. -/
structure ApplicationRequest where
  user : String
  amount : UInt64
  currency : String
  deriving DecidableEq

/-- What a user sends to make a payment on an application, unchecked. -/
structure PaymentRequest where
  application : ApplicationId
  user : String
  amount : UInt64
  currency : String
  method : String
  deriving DecidableEq

/-- What a user sends to file a loan, unchecked. -/
structure LoanRequest where
  user : String
  principal : UInt64
  currency : String
  term : UInt32
  deriving DecidableEq

/-- What a user sends to repay a part of a loan, unchecked. -/
structure RepaymentRequest where
  amount : UInt64
  method : String
  deriving DecidableEq

/-! ## New records -/

/-- An application as it is filed: pending, and not numbered yet. -/
def Application.new (user : String) (amount : Amount) (currency : Currency) (created : Instant) :
    Application where
  id := .unassigned
  user
  amount
  currency
  status := .pending
  createdAt := created
  decidedAt := none
  creditScore := none

/-- A loan as it is filed: pending, nothing paid, and not numbered yet. -/
def Loan.new (user : String) (principal : Amount) (currency : Currency) (term : UInt32)
    (created : Instant) : Loan where
  id := .unassigned
  user
  principal
  currency
  term
  remainingTerm := term
  status := .pending
  remaining := principal.value
  totalPaid := 0
  createdAt := created
  approvedAt := none
  activatedAt := none
  nextPayment := none

/-! ## Obligations -/

/-- What is repaid by a schedule. -/
inductive Obligation where
  | payment (payment : Payment)
  | loan (loan : Loan)

namespace Obligation

/-- What the schedule of the obligation belongs to. -/
def owner : Obligation → Owner
  | .payment p => .payment p.id
  | .loan l => .loan l.id

/-- What is to be repaid. -/
def principal : Obligation → Amount
  | .payment p => p.amount
  | .loan l => l.principal

/-- How the principal is split: by the tiers for a payment, over the term for a loan. -/
def strategy (tiers : Tiers) : Obligation → Strategy
  | .payment _ => .tiered tiers
  | .loan l => .fixedTerm l.term

/-- When the obligation began: a payment when it is settled, a loan when it is activated. -/
def startedAt : Obligation → Option Instant
  | .payment p => p.settledAt
  | .loan l => l.activatedAt

/-- The date from which the schedule counts months. -/
def start (o : Obligation) : Except Failure Date :=
  match o.startedAt with
  | some t => .ok t.date
  | none => .error (.invalid (.notStarted o.owner))

/-- The number of installments of the obligation. -/
def count (tiers : Tiers) (o : Obligation) : UInt32 := (o.strategy tiers).count o.principal

/-- The pending entry of an owner's schedule that a line becomes, not numbered yet. -/
def entryOf (owner : Owner) (line : Line) : Installment where
  id := .unassigned
  owner
  sequence := line.sequence
  dueDate := line.dueDate
  amount := line.amount
  status := .pending

/-- The schedule of the obligation, before a store numbers its entries. -/
def draft (tiers : Tiers) (o : Obligation) : Except Failure (List Installment) := do
  let start ← o.start
  let lines ← (o.strategy tiers).plan o.principal start
  pure (lines.map (entryOf o.owner))

end Obligation

end Lending
