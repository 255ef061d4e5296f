import Lending.Engine.Applications

/-!
# Payments and their settlement

Payments are drawn on an approved application, and outcomes of payments and installments are
delivered by a gateway, from outside or by the settlement queue.

The credit limit is checked twice, before a payment is recorded and again when it succeeds, since
pending payments do not count against it. Both checks and the writes that follow are made under the
lock of the application; a delivery takes the payment's lock before it.
-/

namespace Lending.Engine

open Operation

/-! ## Schedules -/

/-- Writes the schedule of an obligation, unless its owner has one. The caller holds the owner's
lock. -/
def writeSchedule (policy : Policy) (o : Obligation) : Operation (List Installment) := do
  let existing ← call (.installmentsOf o.owner)
  if !existing.isEmpty then
    throw o.owner.alreadyScheduled
  let draft ← require (o.draft policy.tiers)
  call (.createBatch draft)

/-- Removes a schedule whose owner could not be updated. -/
def removeSchedule (owner : Owner) : Operation Nat := call (.deleteInstallmentsOf owner)

/-! ## Credit -/

/-- The total of the successful payments on an application. -/
def settledTotal (id : ApplicationId) : Operation UInt64 := do
  let payments ← call (.paymentsOfApplication id)
  require (checkedTotal
    ((payments.filter fun p => p.status = .successful).map fun p => p.amount.value))

/-- What a limit leaves after `settled`, nothing if it is exceeded. -/
def available (limit : Amount) (settled : UInt64) : UInt64 :=
  if settled ≤ limit.value then limit.value - settled else 0

/-- Refuses an amount that is more than the application has left of what it was granted. -/
def checkCredit (id : ApplicationId) (granted amount : Amount) (limit : Deadline) :
    Operation Unit := do
  check limit
  let settled ← settledTotal id
  let available := available granted settled
  if available < amount.value then
    throw (.insufficientCredit amount.value available)

/-! ## Payments -/

/-- What an accepted request asks for. -/
def readPayment (policy : Policy) (r : PaymentRequest) :
    Except Failure (Amount × Currency × PaymentMethod) := do
  let amount ← Amount.make r.amount
  let currency ← Currency.make r.currency
  let method ← PaymentMethod.make r.method
  checkCurrency policy currency
  checkMethod policy method
  pure (amount, currency, method)

/-- Whether the application takes payments of this user in this currency. -/
def checkDrawn (application : Application) (id : ApplicationId) (user : String)
    (currency : Currency) : Except Failure Unit :=
  if application.status ≠ .approved then
    .error (.invalidState .application id.value (Lifecycle.text application.status) .acceptPayments)
  else if application.user ≠ user then .error (.invalid (.foreignApplication id user))
  else if application.currency ≠ currency then
    .error (.invalid (.currencyMismatch currency.code application.currency.code))
  else .ok ()

/-- Records a pending payment and schedules its settlement. At the end of the calendar no instant
lies a settlement delay ahead, and the call would break off after the payment is recorded; that is
not considered, and the settlement is due at once there (`Instant.add`). -/
def pay (policy : Policy) (r : PaymentRequest) (limit : Deadline) : Operation PaymentId := do
  let (amount, currency, method) ← require (readPayment policy r)
  locked (.application r.application) limit do
    let application ← getApplication r.application limit
    require (checkDrawn application r.application r.user currency)
    checkCredit r.application application.amount amount limit
    check limit
    let created ← now
    let order ← freshOrder
    let payment ← call (.createPayment
      { id := .unassigned
        application := r.application
        user := r.user
        order, amount, currency, method
        status := .pending
        createdAt := created
        settledAt := none })
    schedule (.paymentSettled payment.id) (created.add policy.delayMillis)
    pure payment.id

/-- A payment with its schedule; it fails if there is no such payment. -/
def paymentDetails (id : PaymentId) (limit : Deadline) : Operation PaymentDetails := do
  let payment ← found id (← boundedCall limit (.getPayment id))
  let installments ← boundedCall limit (.installmentsOf (.payment id))
  pure { payment, installments }

/-- Every payment, by number. -/
def payments (limit : Deadline) : Operation (List Payment) := boundedCall limit .listPayments

/-- Every payment with its schedule, by number. -/
def allPaymentDetails (limit : Deadline) : Operation (List PaymentDetails) := do
  let all ← payments limit
  all.mapM fun payment => paymentDetails payment.id limit

/-! ## Deliveries -/

/-- What a delivery is answered with. -/
inductive Ack where
  | applied
  /-- The status was delivered before. -/
  | duplicate
  deriving DecidableEq

/-- Settles a payment: the limit is checked again, the schedule is written and then the payment,
without which the schedule is removed. -/
def settlePayment (policy : Policy) (id : PaymentId) (payment : Payment) (limit : Deadline) :
    Operation Unit :=
  locked (.application payment.application) limit do
    let application ← getApplication payment.application limit
    checkCredit payment.application application.amount payment.amount limit
    check limit
    let settled ← now
    let payment := { payment with status := .successful, settledAt := some settled }
    let _ ← writeSchedule policy (.payment payment)
    compensated (call (.updatePayment payment)) (removeSchedule (.payment id))

/-- Records that a payment failed. -/
def failPayment (payment : Payment) (limit : Deadline) : Operation Unit := do
  check limit
  call (.updatePayment { payment with status := .failed })

/-- Records the outcome of a payment, unless it has one: its success is settled, its failure noted,
and its notification is withdrawn. -/
def deliverPayment (policy : Policy) (id : PaymentId) (token : String) (limit : Deadline) :
    Operation Ack := do
  let next ← require (Lifecycle.ofToken PaymentStatus token)
  locked (.payment id) limit do
    let payment ← found id (← boundedCall limit (.getPayment id))
    match ← require (Lifecycle.advance id.value payment.status next) with
    | .unchanged => pure .duplicate
    | .applied =>
      match next with
      | .successful => settlePayment policy id payment limit
      | _ => failPayment payment limit
      let _ ← cancel (.paymentSettled id)
      pure .applied

/-- Looks an entry of a schedule up; it fails if there is none. -/
def getInstallment (id : InstallmentId) (limit : Deadline) : Operation Installment := do
  found id (← boundedCall limit (.getInstallment id))

/-- Entries of loans are settled by repayments, so no outcome is delivered for them. -/
def deliverInstallment (id : InstallmentId) (token : String) (limit : Deadline) :
    Operation Ack := do
  let next ← require (Lifecycle.ofToken InstallmentStatus token)
  locked (.installment id) limit do
    let entry ← getInstallment id limit
    if entry.owner.entity = .loan then
      throw (.invalidState .installment id.value (Lifecycle.text entry.status)
        (.settleByWebhook entry.owner))
    match ← require (Lifecycle.advance id.value entry.status next) with
    | .unchanged => pure .duplicate
    | .applied =>
      check limit
      call (.updateInstallment { entry with status := next })
      let _ ← cancel (.installmentCollected id)
      pure .applied

/-- Schedules the collection of a pending installment of a payment; the instant it is due. As in
`pay`, a call that would break off at the end of the calendar is not considered. -/
def collect (policy : Policy) (id : InstallmentId) (limit : Deadline) : Operation Instant :=
  locked (.installment id) limit do
    let entry ← getInstallment id limit
    if entry.status ≠ .pending ∨ entry.owner.entity ≠ .payment then
      throw (.invalidState .installment id.value (Lifecycle.text entry.status) .requestCollection)
    let requested ← now
    let due := requested.add policy.delayMillis
    schedule (.installmentCollected id) due
    pure due

/-! ## The queue -/

/-- Delivers what a notification confirms. -/
def deliver (policy : Policy) : Notification → Operation Ack
  | .paymentSettled id =>
    deliverPayment policy id (Lifecycle.text PaymentStatus.successful) .unbounded
  | .installmentCollected id =>
    deliverInstallment id (Lifecycle.text InstallmentStatus.paid) .unbounded

/-- Delivers the notifications in turn, each with its outcome. -/
def deliverAll (policy : Policy) :
    List Notification → Program (List (Notification × Except Failure Ack))
  | [] => pure []
  | n :: rest => do
    let outcome ← (deliver policy n).run
    let outcomes ← deliverAll policy rest
    pure ((n, outcome) :: outcomes)

/-- Delivers everything that is due. What cannot be delivered is not scheduled again. -/
def runDue (policy : Policy) : Program (List (Notification × Except Failure Ack)) := do
  let due ← takeDue (← now)
  let outcomes ← deliverAll policy due
  pruneLocks
  pure outcomes

end Lending.Engine
