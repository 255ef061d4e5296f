import Lending.Engine.Settlement

/-!
# Loans

Filing, deciding, activating, repaying and defaulting loans. Every operation that changes a loan
holds its lock. A repayment and a default change entries before the loan; if the loan then cannot be
written, the entries are put back.

* `Loan.repaid`: the loan and its schedule after a repayment.
-/

namespace Lending

/-! ## Repaying -/

/-- Entries are paid in turn: one is paid once `paid` covers it and all before it, which sum up to
`sum`. The entries afterwards, and those that were paid just now. -/
def coverEntries (paid : Nat) (sum : Nat) :
    List Installment → List Installment × List Installment
  | [] => ([], [])
  | entry :: rest =>
    let sum := min (sum + entry.amount.toNat) (UInt64.size - 1)
    let (after, newlyPaid) := coverEntries paid sum rest
    if sum ≤ paid ∧ entry.status = .pending then
      let entry := { entry with status := .paid }
      (entry :: after, entry :: newlyPaid)
    else (entry :: after, newlyPaid)

/-- The entries of a schedule that are neither paid nor failed. -/
def pendingEntries (schedule : List Installment) : List Installment :=
  schedule.filter fun entry => entry.status = .pending

/-- The loan after a repayment of `amount`, and the entries that it pays. -/
def Loan.repaid (loan : Loan) (schedule : List Installment) (amount : Amount) :
    Loan × List Installment :=
  let totalPaid := loan.totalPaid + amount.value
  let remaining := loan.remaining - amount.value
  let (after, newlyPaid) := coverEntries totalPaid.toNat 0 schedule
  let unpaid := pendingEntries after
  ({ loan with
      totalPaid, remaining
      remainingTerm := UInt32.ofNat unpaid.length
      nextPayment := unpaid.head?.map Installment.dueDate
      status := if remaining = 0 then .paid else loan.status }, newlyPaid)

/-- The entries with another status. -/
def withStatus (status : InstallmentStatus) (entries : List Installment) : List Installment :=
  entries.map fun entry => { entry with status }

namespace Engine

open Operation

/-! ## Filing and deciding -/

/-- What an accepted request asks for. -/
def readLoan (policy : Policy) (r : LoanRequest) : Except Failure (Amount × Currency) := do
  checkUser r.user
  let principal ← Amount.make r.principal
  let currency ← Currency.make r.currency
  checkCurrency policy currency
  if r.term = 0 ∨ policy.longestTerm < r.term then
    throw (.invalid (.loanTerm policy.longestTerm r.term))
  pure (principal, currency)

/-- Records a pending loan. -/
def fileLoan (policy : Policy) (r : LoanRequest) (limit : Deadline) : Operation LoanId := do
  let (principal, currency) ← require (readLoan policy r)
  check limit
  let created ← now
  let loan ← call (.createLoan (.new r.user principal currency r.term created))
  pure loan.id

/-- Looks a loan up; it fails if there is none. -/
def getLoan (id : LoanId) (limit : Deadline) : Operation Loan := do
  found id (← boundedCall limit (.getLoan id))

/-- The schedule of a loan, by sequence. -/
def scheduleOf (id : LoanId) (limit : Deadline) : Operation (List Installment) :=
  boundedCall limit (.installmentsOf (.loan id))

/-- Approves or rejects a pending loan, whoever reaches the threshold being approved. -/
def decideLoan (policy : Policy) (id : LoanId) (limit : Deadline) : Operation LoanStatus :=
  locked (.loan id) limit do
    let loan ← getLoan id limit
    if loan.status ≠ .pending then
      throw (.invalidState .loan id.value (Lifecycle.text loan.status) .decide)
    let verdict ← verdict policy loan.user limit
    let next : LoanStatus := if verdict.approved then .approved else .rejected
    let _ ← require (Lifecycle.advance id.value loan.status next)
    check limit
    let approvedAt ← if verdict.approved then some <$> now else pure loan.approvedAt
    call (.updateLoan { loan with status := next, approvedAt })
    pure next

/-! ## Activating -/

/-- Activates an approved loan: its schedule is written and then the loan, without which the
schedule is removed. -/
def activateLoan (policy : Policy) (id : LoanId) (limit : Deadline) : Operation LoanDetails :=
  locked (.loan id) limit do
    let loan ← getLoan id limit
    let _ ← require (Lifecycle.advance id.value loan.status .active)
    check limit
    let activated ← now
    let loan := { loan with status := .active, activatedAt := some activated }
    let schedule ← writeSchedule policy (.loan loan)
    let loan := { loan with
      nextPayment := schedule.head?.map Installment.dueDate
      remainingTerm := UInt32.ofNat schedule.length }
    compensated (call (.updateLoan loan)) (removeSchedule (.loan id))
    pure { loan, schedule }

/-! ## Repaying and defaulting -/

/-- Overwrites entries, all of them or none. No call is made for no entries. -/
def writeEntries (entries : List Installment) : Operation Unit :=
  if entries.isEmpty then pure () else call (.updateBatch entries)

/-- Puts entries back that were changed for a loan that could not be written. -/
def revertEntries (entries : List Installment) : Operation Unit :=
  writeEntries (withStatus .pending entries)

/-- What an accepted request asks for. -/
def readRepayment (policy : Policy) (r : RepaymentRequest) :
    Except Failure (Amount × PaymentMethod) := do
  let amount ← Amount.make r.amount
  let method ← PaymentMethod.make r.method
  checkMethod policy method
  pure (amount, method)

/-- Records a repayment on an active loan. -/
def repayLoan (policy : Policy) (id : LoanId) (r : RepaymentRequest) (limit : Deadline) :
    Operation Loan := do
  let (amount, method) ← require (readRepayment policy r)
  locked (.loan id) limit do
    let loan ← getLoan id limit
    if loan.status ≠ .active then
      throw (.invalidState .loan id.value (Lifecycle.text loan.status) .repay)
    if loan.remaining < amount.value then
      throw (.invalid (.repaymentTooLarge amount.value loan.remaining))
    let schedule ← scheduleOf id limit
    check limit
    let (loan, newlyPaid) := loan.repaid schedule amount
    writeEntries newlyPaid
    let paidAt ← now
    let _ ← compensated
      (call (.recordRepayment loan { id := .unassigned, loan := id, amount, method, paidAt }))
      (revertEntries newlyPaid)
    pure loan

/-- Gives an active loan up: its pending entries fail. On a loan given up before, this only fails
the entries that were left pending. -/
def defaultLoan (id : LoanId) (limit : Deadline) : Operation Ack :=
  locked (.loan id) limit do
    let loan ← getLoan id limit
    let transition ← require (Lifecycle.advance id.value loan.status .defaulted)
    let schedule ← scheduleOf id limit
    let failed := withStatus .failed (pendingEntries schedule)
    if transition = .unchanged ∧ failed.isEmpty then
      pure .duplicate
    else
      check limit
      writeEntries failed
      if transition = .applied then
        compensated (call (.updateLoan { loan with status := .defaulted, nextPayment := none }))
          (revertEntries failed)
      pure .applied

/-! ## Reading -/

/-- The loans of a user, by number. -/
def loansOfUser (user : String) (limit : Deadline) : Operation (List Loan) :=
  boundedCall limit (.loansOfUser user)

/-- The repayments on a loan, the oldest first. -/
def repaymentsOf (id : LoanId) (limit : Deadline) : Operation (List Repayment) := do
  let _ ← getLoan id limit
  boundedCall limit (.repaymentsOf id)

/-- A loan with its schedule. -/
def loanDetails (id : LoanId) (limit : Deadline) : Operation LoanDetails := do
  let loan ← getLoan id limit
  let schedule ← scheduleOf id limit
  pure { loan, schedule }

end Engine

end Lending
