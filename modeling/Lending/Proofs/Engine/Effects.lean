import Lending.Proofs.Engine.Execution

/-!
# What calls do to the books

A call that succeeds has one of a few effects on the books, and a call that fails leaves them as
they were, apart from the numbers given out, unless a fault kept it from undoing what it had begun.
That these are all is shown in `Lending.Proofs.Engine.Calls`.

* `Effect`: what a call does that succeeds, case by case.
* `Remnant`: what a call leaves that fails.
* `Faults.LeaveSchedules`, `Faults.LeaveStatuses`: the faults that can leave something.
-/

namespace Lending

/-! ## Parts of effects -/

/-- The same rows and the same waiting notifications. -/
structure Books.Alike (b b' : Books) : Prop where
  applications : b'.ledger.applications = b.ledger.applications
  payments : b'.ledger.payments = b.ledger.payments
  installments : b'.ledger.installments = b.ledger.installments
  loans : b'.ledger.loans = b.ledger.loans
  repayments : b'.ledger.repayments = b.ledger.repayments
  queue : b'.queue = b.queue

theorem Books.Alike.refl (b : Books) : b.Alike b := ⟨rfl, rfl, rfl, rfl, rfl, rfl⟩

/-- The rows and the queue are the same, and all numbers as well. -/
theorem Books.Alike.eq {b b' : Books} (h : b.Alike b')
    (hcounters : b'.ledger.counters = b.ledger.counters) : b' = b := by
  obtain ⟨⟨counters, applications, payments, installments, loans, repayments⟩, queue⟩ := b
  obtain ⟨⟨counters', applications', payments', installments', loans', repayments'⟩, queue'⟩ := b'
  obtain ⟨rfl, rfl, rfl, rfl, rfl, rfl⟩ := h
  cases hcounters
  rfl

namespace Ledger

/-- The total of the successful payments on an application. -/
def creditUsed (l : Ledger) (id : ApplicationId) : Nat :=
  ((l.payments.values.filter fun p => p.application = id ∧ p.status = .successful).map
    fun p => p.amount.toNat).sum

/-- The schedule of an obligation was written: `entries` are its entries, `t` is the table of all
entries then, and `c` are the counters. -/
def Schedules (policy : Policy) (l : Ledger) (o : Obligation) (entries : List Installment)
    (c : Counters) (t : Table InstallmentId Installment) : Prop :=
  ∃ draft, o.draft policy.tiers = .ok draft ∧ l.counters.Left (.createBatch draft) ∧
    l.createBatch draft = .ok (entries, { l with counters := c, installments := t })

end Ledger

/-- The pending entries that `paid` covers, in a schedule whose entries before sum up to `sum`. -/
def coveredEntries (paid : Nat) : Nat → List Installment → List Installment
  | _, [] => []
  | sum, entry :: rest =>
    let sum := min (sum + entry.amount.toNat) (UInt64.size - 1)
    if sum ≤ paid ∧ entry.status = .pending then entry :: coveredEntries paid sum rest
    else coveredEntries paid sum rest

/-- The entries that a repayment of `amount` on a loan pays. -/
def Loan.newlyCovered (loan : Loan) (schedule : List Installment) (amount : Amount) :
    List Installment :=
  coveredEntries (loan.totalPaid + amount.value).toNat 0 schedule

/-! ## Effects -/

/-- The result tells that something was applied. Of the calls that write, only deliveries and
defaults may find that nothing is to be done. -/
def EngineCall.Applied : (call : EngineCall) → call.Result → Prop
  | .deliverPayment _ _, ack | .deliverInstallment _ _, ack | .defaultLoan _, ack => ack = .applied
  | .apply _, _ | .decideApplication _, _ | .pay _, _ | .collect _, _ | .fileLoan _, _
  | .decideLoan _, _ | .activateLoan _, _ | .repayLoan _ _, _ => True
  | _, _ => False

/-- What a call does to the books that succeeds with a result. -/
inductive Effect (policy : Policy) (b : Books) : (call : EngineCall) → call.Result → Books → Prop
  | unchanged {call : EngineCall} {result : call.Result} (idle : ¬call.Applied result) :
    Effect policy b call result b
  /-- A pending application with a new number. -/
  | applied {request : ApplicationRequest} {amount : Amount} {currency : Currency}
      {created : Instant} {a : Application}
      (read : Engine.readApplication policy request = .ok (amount, currency))
      (left : b.ledger.counters.application.toNat + 1 < UInt64.size)
      (new : a = { Application.new request.user amount currency created with
        id := ⟨b.ledger.counters.application + 1⟩ }) :
    Effect policy b (.apply request) a.id
      { b with
        ledger := { b.ledger with
          counters := { b.ledger.counters with
            application := b.ledger.counters.application + 1 }
          applications := b.ledger.applications.insert a.id a } }
  | decided {a : Application} {next : ApplicationStatus} {score : CreditScore} {moment : Instant}
      (known : b.ledger.applications.get? a.id = some a) (pending : a.status = .pending)
      (verdict : next = if policy.approvalThreshold ≤ score.value then .approved else .rejected) :
    Effect policy b (.decideApplication a.id) next
      { b with
        ledger := { b.ledger with
          applications := b.ledger.applications.insert a.id
            { a with
              status := next
              decidedAt := some moment
              creditScore := some score.value } } }
  /-- A pending payment with a new number, and its settlement in the queue. -/
  | paid {request : PaymentRequest} {amount : Amount} {currency : Currency}
      {method : PaymentMethod} {a : Application} {created : Instant} {order : String} {p : Payment}
      (read : Engine.readPayment policy request = .ok (amount, currency, method))
      (known : b.ledger.applications.get? request.application = some a)
      (drawn : Engine.checkDrawn a request.application request.user currency = .ok ())
      (credit : b.ledger.creditUsed request.application + amount.toNat ≤ a.amount.toNat)
      (left : b.ledger.counters.payment.toNat + 1 < UInt64.size)
      (fresh : ∀ other ∈ b.ledger.payments.values, other.order ≠ order)
      (new : p =
        { id := ⟨b.ledger.counters.payment + 1⟩
          application := request.application
          user := request.user
          order, amount, currency, method
          status := .pending
          createdAt := created
          settledAt := none }) :
    Effect policy b (.pay request) p.id
      { ledger := { b.ledger with
          counters := { b.ledger.counters with payment := b.ledger.counters.payment + 1 }
          payments := b.ledger.payments.insert p.id p }
        queue := b.queue.schedule (.paymentSettled p.id) (created.add policy.delayMillis) }
  /-- A payment that succeeds gets its schedule. -/
  | settled {token : String} {p p' : Payment} {a : Application} {moment : Instant}
      {entries : List Installment} {c : Counters} {t : Table InstallmentId Installment}
      (outcome : Lifecycle.ofToken PaymentStatus token = .ok .successful)
      (known : b.ledger.payments.get? p.id = some p) (pending : p.status = .pending)
      (drawnOn : b.ledger.applications.get? p.application = some a)
      (credit : b.ledger.creditUsed p.application + p.amount.toNat ≤ a.amount.toNat)
      (new : p' = { p with status := .successful, settledAt := some moment })
      (written : b.ledger.Schedules policy (.payment p') entries c t) :
    Effect policy b (.deliverPayment p.id token) .applied
      { ledger := { b.ledger with
          counters := c
          payments := b.ledger.payments.insert p.id p'
          installments := t }
        queue := (b.queue.cancel (.paymentSettled p.id)).2 }
  | paymentFailed {token : String} {p : Payment}
      (outcome : Lifecycle.ofToken PaymentStatus token = .ok .failed)
      (known : b.ledger.payments.get? p.id = some p) (pending : p.status = .pending) :
    Effect policy b (.deliverPayment p.id token) .applied
      { ledger := { b.ledger with
          payments := b.ledger.payments.insert p.id { p with status := .failed } }
        queue := (b.queue.cancel (.paymentSettled p.id)).2 }
  | collected {token : String} {entry : Installment} {next : InstallmentStatus}
      (outcome : Lifecycle.ofToken InstallmentStatus token = .ok next)
      (known : b.ledger.installments.get? entry.id = some entry)
      (owner : entry.owner.entity ≠ .loan) (pending : entry.status = .pending) :
    Effect policy b (.deliverInstallment entry.id token) .applied
      { ledger := { b.ledger with
          installments := b.ledger.installments.insert entry.id { entry with status := next } }
        queue := (b.queue.cancel (.installmentCollected entry.id)).2 }
  | collectionAsked {entry : Installment} {asked : Instant}
      (known : b.ledger.installments.get? entry.id = some entry)
      (owner : entry.owner.entity = .payment) (pending : entry.status = .pending) :
    Effect policy b (.collect entry.id) (asked.add policy.delayMillis)
      { b with
        queue := b.queue.schedule (.installmentCollected entry.id)
          (asked.add policy.delayMillis) }
  /-- A pending loan with a new number. -/
  | filed {request : LoanRequest} {principal : Amount} {currency : Currency} {created : Instant}
      {loan : Loan}
      (read : Engine.readLoan policy request = .ok (principal, currency))
      (left : b.ledger.counters.loan.toNat + 1 < UInt64.size)
      (new : loan = { Loan.new request.user principal currency request.term created with
        id := ⟨b.ledger.counters.loan + 1⟩ }) :
    Effect policy b (.fileLoan request) loan.id
      { b with
        ledger := { b.ledger with
          counters := { b.ledger.counters with loan := b.ledger.counters.loan + 1 }
          loans := b.ledger.loans.insert loan.id loan } }
  | loanDecided {loan : Loan} {next : LoanStatus} {score : CreditScore}
      {approvedAt : Option Instant}
      (known : b.ledger.loans.get? loan.id = some loan) (pending : loan.status = .pending)
      (verdict : next = if policy.approvalThreshold ≤ score.value then .approved else .rejected)
      (stamp : if next = .approved then approvedAt.isSome else approvedAt = loan.approvedAt) :
    Effect policy b (.decideLoan loan.id) next
      { b with
        ledger := { b.ledger with
          loans := b.ledger.loans.insert loan.id { loan with status := next, approvedAt } } }
  /-- A loan that is activated gets its schedule. -/
  | activated {loan started loan' : Loan} {moment : Instant} {entries : List Installment}
      {c : Counters} {t : Table InstallmentId Installment}
      (known : b.ledger.loans.get? loan.id = some loan) (approved : loan.status = .approved)
      (start : started = { loan with status := .active, activatedAt := some moment })
      (written : b.ledger.Schedules policy (.loan started) entries c t)
      (new : loan' = { started with
        nextPayment := entries.head?.map Installment.dueDate
        remainingTerm := UInt32.ofNat entries.length }) :
    Effect policy b (.activateLoan loan.id) { loan := loan', schedule := entries }
      { b with
        ledger := { b.ledger with
          counters := c
          installments := t
          loans := b.ledger.loans.insert loan.id loan' } }
  /-- A repayment on an active loan pays the entries that it covers. -/
  | repaid {loan : Loan} {request : RepaymentRequest} {amount : Amount} {method : PaymentMethod}
      {schedule : List Installment} {r : Repayment} {moment : Instant}
      (read : Engine.readRepayment policy request = .ok (amount, method))
      (known : b.ledger.loans.get? loan.id = some loan) (active : loan.status = .active)
      (enough : amount.value ≤ loan.remaining)
      (owed : schedule = b.ledger.installmentsOf (.loan loan.id))
      (left : b.ledger.counters.repayment.toNat + 1 < UInt64.size)
      (new : r =
        { id := ⟨b.ledger.counters.repayment + 1⟩, loan := loan.id, amount, method
          paidAt := moment }) :
    Effect policy b (.repayLoan loan.id request) (loan.repaid schedule amount).1
      { b with
        ledger := { b.ledger with
          counters := { b.ledger.counters with repayment := b.ledger.counters.repayment + 1 }
          installments := Ledger.insertBatch b.ledger.installments
            (withStatus .paid (loan.newlyCovered schedule amount))
          loans := b.ledger.loans.insert loan.id (loan.repaid schedule amount).1
          repayments := b.ledger.repayments.insert r.id r } }
  | defaulted {loan : Loan} (known : b.ledger.loans.get? loan.id = some loan)
      (active : loan.status = .active) :
    Effect policy b (.defaultLoan loan.id) .applied
      { b with
        ledger := { b.ledger with
          installments := Ledger.insertBatch b.ledger.installments
            (withStatus .failed (pendingEntries (b.ledger.installmentsOf (.loan loan.id))))
          loans := b.ledger.loans.insert loan.id
            { loan with status := .defaulted, nextPayment := none } } }
  /-- The pending entries that were left of a loan given up before fail. -/
  | defaultedAgain {loan : Loan} (known : b.ledger.loans.get? loan.id = some loan)
      (before : loan.status = .defaulted) :
    Effect policy b (.defaultLoan loan.id) .applied
      { b with
        ledger := { b.ledger with
          installments := Ledger.insertBatch b.ledger.installments
            (withStatus .failed (pendingEntries (b.ledger.installmentsOf (.loan loan.id)))) } }

/-! ## Remnants -/

/-- A schedule may be left whose owner was not updated: a program may crash, or the removal of a
schedule may be refused. -/
def Faults.LeaveSchedules (faults : Faults) : Prop :=
  (∃ call, faults call .crash) ∨ ∃ owner, faults (.deleteInstallmentsOf owner) .refusal

/-- Entries may be left with a status that their loan does not account for: a program may crash, or
putting pending entries back may be refused. -/
def Faults.LeaveStatuses (faults : Faults) : Prop :=
  (∃ call, faults call .crash) ∨
    ∃ batch : List Installment, (∀ e ∈ batch, e.status = .pending) ∧
      faults (.updateBatch batch) .refusal

def StoreCall.removes : StoreCall → Bool
  | .deleteInstallmentsOf _ => true
  | _ => false

/-- The call puts entries back that were changed: no other writes only pending entries. -/
def StoreCall.putsBack : StoreCall → Bool
  | .updateBatch batch => batch.all fun entry => entry.status = .pending
  | _ => false

/-- Any call may be refused, but not the removal of a schedule. -/
def Faults.sparingRemoval : Faults := fun call fault => fault = .refusal ∧ call.removes = false

/-- Any call may be refused, but none that undoes another. -/
def Faults.sparingUndo : Faults := fun call fault =>
  fault = .refusal ∧ call.removes = false ∧ call.putsBack = false

instance (call : StoreCall) (fault : Fault) : Decidable (Faults.sparingRemoval call fault) :=
  inferInstanceAs (Decidable (_ ∧ _))

instance (call : StoreCall) (fault : Fault) : Decidable (Faults.sparingUndo call fault) :=
  inferInstanceAs (Decidable (_ ∧ _))

theorem Faults.sparingRemoval_leaveSchedules : ¬Faults.sparingRemoval.LeaveSchedules := by
  rintro (⟨_, hcrash, -⟩ | ⟨_, -, hremoves⟩)
  · cases hcrash
  · cases hremoves

theorem Faults.sparingUndo_leaveSchedules : ¬Faults.sparingUndo.LeaveSchedules := by
  rintro (⟨_, hcrash, -⟩ | ⟨_, -, hremoves, -⟩)
  · cases hcrash
  · cases hremoves

theorem Faults.sparingUndo_leaveStatuses : ¬Faults.sparingUndo.LeaveStatuses := by
  rintro (⟨_, hcrash, -⟩ | ⟨batch, hpending, -, -, hputsBack⟩)
  · cases hcrash
  · have hall : StoreCall.putsBack (.updateBatch batch) = true :=
      List.all_eq_true.mpr fun e he => decide_eq_true (hpending e he)
    rw [hall] at hputsBack
    cases hputsBack

/-- The call writes a schedule, whose numbers are used up even if it is removed again. -/
def EngineCall.schedules : EngineCall → Bool
  | .deliverPayment _ _ | .activateLoan _ => true
  | _ => false

/-- What a call leaves in the books that fails. -/
inductive Remnant (faults : Faults) (policy : Policy) (b : Books) : EngineCall → Books → Prop
  | nothing {call : EngineCall} {b' : Books} (alike : b.Alike b')
      (numbers : call.schedules = true ∨ b'.ledger.counters = b.ledger.counters) :
    Remnant faults policy b call b'
  /-- The schedule of a payment that is still pending. -/
  | settling {token : String} {p : Payment} {moment : Instant} {entries : List Installment}
      {c : Counters} {t : Table InstallmentId Installment}
      (may : faults.LeaveSchedules)
      (known : b.ledger.payments.get? p.id = some p) (pending : p.status = .pending)
      (written : b.ledger.Schedules policy
        (.payment { p with status := .successful, settledAt := some moment }) entries c t) :
    Remnant faults policy b (.deliverPayment p.id token)
      { b with ledger := { b.ledger with counters := c, installments := t } }
  /-- The schedule of a loan that is still approved. -/
  | activating {loan : Loan} {moment : Instant} {entries : List Installment} {c : Counters}
      {t : Table InstallmentId Installment}
      (may : faults.LeaveSchedules)
      (known : b.ledger.loans.get? loan.id = some loan) (approved : loan.status = .approved)
      (written : b.ledger.Schedules policy
        (.loan { loan with status := .active, activatedAt := some moment }) entries c t) :
    Remnant faults policy b (.activateLoan loan.id)
      { b with ledger := { b.ledger with counters := c, installments := t } }
  /-- Entries that were paid by a repayment that was not recorded. -/
  | repaying {loan : Loan} {request : RepaymentRequest} {amount : Amount} {method : PaymentMethod}
      (may : faults.LeaveStatuses)
      (read : Engine.readRepayment policy request = .ok (amount, method))
      (known : b.ledger.loans.get? loan.id = some loan) (active : loan.status = .active)
      (enough : amount.value ≤ loan.remaining) :
    Remnant faults policy b (.repayLoan loan.id request)
      { b with
        ledger := { b.ledger with
          installments := Ledger.insertBatch b.ledger.installments
            (withStatus .paid
              (loan.newlyCovered (b.ledger.installmentsOf (.loan loan.id)) amount)) } }
  /-- Entries that failed with a loan that is still active. -/
  | defaulting {loan : Loan} (may : faults.LeaveStatuses)
      (known : b.ledger.loans.get? loan.id = some loan) (active : loan.status = .active) :
    Remnant faults policy b (.defaultLoan loan.id)
      { b with
        ledger := { b.ledger with
          installments := Ledger.insertBatch b.ledger.installments
            (withStatus .failed (pendingEntries (b.ledger.installmentsOf (.loan loan.id)))) } }

end Lending
