import Lending.Proofs.Engine.Conduct
import Lending.Engine.Call

/-!
# What remains to be done in the queue

A payment is recorded in the store first, and its settlement is scheduled by the very next request.
A delivery that decides a payment records that first and withdraws the notification later. In
between, the queue does not agree with the rows yet, and the call owes the queue a request.

* `Debt`: what a call owes the queue.
* `Conduct.debts`: payments are recorded and decided by calls that owe nothing, and notifications
  are scheduled and withdrawn by those that owe it.
* `Operation.debts_call` and its like: what is owed after a request, for those who owed nothing.
* `Engine.pay_debts`, `Engine.deliverPayment_debts`: both calls pay their debts.
-/

namespace Lending

/-- What a call still owes the queue. -/
inductive Debt where
  | nothing
  /-- The settlement of a payment that was recorded is to be scheduled. -/
  | schedule (id : PaymentId)
  /-- The notification for a payment that was decided is to be withdrawn. -/
  | withdraw (id : PaymentId)
  deriving DecidableEq

/-- What is owed once a request is answered. -/
def Debt.after (d : Debt) : (request : Request) → request.Answer → Debt
  | .store (.createPayment _), .ok p => .schedule p.id
  | .store (.updatePayment p), .ok _ => .withdraw p.id
  | .schedule (.paymentSettled _) _, _ => .nothing
  | .cancel (.paymentSettled _), _ => .nothing
  | _, _ => d

/-- Who owes a settlement schedules it at once. Who owes nothing may record a payment, which is
pending then, or decide one; who owes a withdrawal may do other things before. Nothing is taken out
of the queue. -/
def Conduct.debts : Conduct Debt where
  may
    | .schedule id, request => ∃ due, request = .schedule (.paymentSettled id) due
    | _, .schedule (.paymentSettled _) _ => False
    | d, .cancel (.paymentSettled id) => d = .withdraw id
    | d, .store (.createPayment p) => d = .nothing ∧ p.status = .pending
    | d, .store (.updatePayment _) => d = .nothing
    | _, .takeDue _ => False
    | _, _ => True
  leads
    | d, .store (.getPayment id), .ok (some p), d' => p.id = id ∧ d' = d
    | d, request, answer, d' => d' = d.after request answer

/-- Calls after which those who owed nothing owe nothing, whatever is answered. -/
def StoreCall.owesNothing : StoreCall → Bool
  | .getPayment _ | .createPayment _ | .updatePayment _ => false
  | _ => true

namespace Operation

variable {α : Type} {ok : α → Debt → Prop} {fail : Debt → Prop}

/-! ## Requests -/

theorem debts_now {ok : Instant → Debt → Prop} :
    Abides .debts (liftM now) ok fail .nothing ↔ ∀ t, ok t .nothing :=
  abides_now.trans
    ⟨fun h t => h.2 t .nothing rfl, fun h => ⟨trivial, by rintro t _ rfl; exact h t⟩⟩

theorem debts_freshOrder {ok : String → Debt → Prop} :
    Abides .debts (liftM freshOrder) ok fail .nothing ↔ ∀ order, ok order .nothing :=
  abides_freshOrder.trans
    ⟨fun h order => h.2 order .nothing rfl,
      fun h => ⟨trivial, by rintro order _ rfl; exact h order⟩⟩

/-- A settlement is scheduled by those who owe it. -/
theorem debts_schedule {ok : Unit → Debt → Prop} (id : PaymentId) (due : Instant) :
    Abides .debts (liftM (schedule (.paymentSettled id) due)) ok fail (.schedule id) ↔
      ok () .nothing :=
  (abides_schedule _ due).trans
    ⟨fun h => h.2 .nothing rfl, fun h => ⟨⟨due, rfl⟩, by rintro _ rfl; exact h⟩⟩

/-- A settlement is withdrawn by those who owe that. -/
theorem debts_cancel {ok : Bool → Debt → Prop} (id : PaymentId) :
    Abides .debts (liftM (cancel (.paymentSettled id))) ok fail (.withdraw id) ↔
      ∀ waiting, ok waiting .nothing :=
  (abides_cancel _).trans
    ⟨fun h waiting => h.2 waiting .nothing rfl,
      fun h => ⟨rfl, by rintro waiting _ rfl; exact h waiting⟩⟩

theorem debts_check {ok : Unit → Debt → Prop} (limit : Deadline) :
    Abides .debts (check limit) ok fail .nothing ↔ fail .nothing ∧ ok () .nothing := by
  rw [abides_check]
  constructor
  · rintro ⟨-, h⟩
    exact ⟨(h true .nothing rfl).1 rfl, (h false .nothing rfl).2 rfl⟩
  · rintro ⟨hfail, hok⟩
    refine ⟨trivial, ?_⟩
    rintro _ _ rfl
    exact ⟨fun _ => hfail, fun _ => hok⟩

-- the type of the result is a case of `StoreCall.Result`, by which `simp` could not find the rule
theorem debts_call (c : StoreCall) {ok : c.Result → Debt → Prop} (h : c.owesNothing = true) :
    @Abides _ (no_index c.Result) .debts (call c) ok fail .nothing ↔
      (∀ a, ok a .nothing) ∧ fail .nothing := by
  have hleads : Conduct.debts.may .nothing (.store c) ∧
      ∀ answer d, Conduct.debts.leads .nothing (.store c) answer d ↔ d = .nothing := by
    cases c with
    | getPayment _ | createPayment _ | updatePayment _ => cases h
    | _ => exact ⟨trivial, fun _ _ => Iff.rfl⟩
  rw [abides_call]
  simp only [hleads, forall_eq, true_and]
  exact and_congr_right fun _ => ⟨fun h => h .timeout, fun h _ => h⟩

/-- Whoever records a payment owes its settlement. -/
theorem debts_createPayment {ok : Payment → Debt → Prop} (p : Payment) :
    @Abides _ (no_index _) .debts (call (.createPayment p)) ok fail .nothing ↔
      p.status = .pending ∧ (∀ a, ok a (.schedule a.id)) ∧ fail .nothing := by
  refine (abides_call (.createPayment p)).trans ?_
  constructor
  · rintro ⟨⟨-, hpending⟩, hok, hfail⟩
    exact ⟨hpending, fun a => hok a _ rfl, hfail .timeout _ rfl⟩
  · rintro ⟨hpending, hok, hfail⟩
    refine ⟨⟨rfl, hpending⟩, ?_, ?_⟩
    · rintro a _ rfl
      exact hok a
    · rintro _ _ rfl
      exact hfail

/-- Whoever decides a payment owes the withdrawal of its notification. -/
theorem debts_updatePayment {ok : Unit → Debt → Prop} (p : Payment) :
    @Abides _ (no_index _) .debts (call (.updatePayment p)) ok fail .nothing ↔
      ok () (.withdraw p.id) ∧ fail .nothing := by
  refine (abides_call (.updatePayment p)).trans ?_
  constructor
  · rintro ⟨-, hok, hfail⟩
    exact ⟨hok () _ rfl, hfail .timeout _ rfl⟩
  · rintro ⟨hok, hfail⟩
    refine ⟨rfl, ?_, ?_⟩
    · rintro _ _ rfl
      exact hok
    · rintro _ _ rfl
      exact hfail

/-- Who owes a settlement schedules it before a lock is given back. -/
theorem debts_locked (key : LockKey) (limit : Deadline) (body : Operation α) :
    Abides .debts (locked key limit body) ok fail .nothing ↔
      fail .nothing ∧ Abides .debts body (fun a d => (∀ id, d ≠ .schedule id) ∧ ok a d)
        (fun d => (∀ id, d ≠ .schedule id) ∧ fail d) .nothing := by
  have hrelease : ∀ (P : Debt → Prop) (d : Debt),
      (Conduct.debts.may d (.release key) ∧
        ∀ d', Conduct.debts.leads d (.release key) () d' → P d') ↔
      (∀ id, d ≠ .schedule id) ∧ P d := by
    intro P d
    cases d with
    | schedule id =>
      refine iff_of_false ?_ fun h => h.1 id rfl
      rintro ⟨⟨_, ⟨⟩⟩, -⟩
    | nothing | withdraw id =>
      refine ⟨fun h => ⟨?_, h.2 _ rfl⟩, fun h => ⟨trivial, ?_⟩⟩
      · rintro _ ⟨⟩
      · rintro _ rfl
        exact h.2
  rw [abides_locked]
  simp only [hrelease]
  constructor
  · rintro ⟨-, h⟩
    exact ⟨(h false _ rfl).1 rfl, (h true _ rfl).2 rfl⟩
  · rintro ⟨hfail, hbody⟩
    refine ⟨trivial, ?_⟩
    rintro _ _ rfl
    exact ⟨fun _ => hfail, fun _ => hbody⟩

/-! ## Calls -/

/-- Nothing is owed before and after, whether the operation succeeds or fails. -/
def OwesNothing (op : Operation α) : Prop :=
  op.Abides .debts (fun _ d => d = .nothing) (fun d => d = .nothing) .nothing

theorem OwesNothing.locked {op : Operation α} (h : op.OwesNothing) (key : LockKey)
    (limit : Deadline) : OwesNothing (Operation.locked key limit op) := by
  refine (debts_locked key limit op).mpr ⟨rfl, h.mono ?_ ?_⟩
  · rintro _ _ rfl
    exact ⟨fun _ => Debt.noConfusion, rfl⟩
  · rintro _ rfl
    exact ⟨fun _ => Debt.noConfusion, rfl⟩

/-- A payment that is looked up is found under its own number. -/
theorem getPayment_debts (id : PaymentId) (limit : Deadline) :
    Abides .debts (boundedCall limit (.getPayment id))
      (fun row d => d = .nothing ∧ ∀ p, row = some p → p.id = id) (fun d => d = .nothing)
      .nothing := by
  rw [boundedCall, abides_bind, debts_check]
  refine ⟨rfl, (abides_call (.getPayment id)).mpr ⟨trivial, ?_, fun _ _ h => h⟩⟩
  rintro (_ | p) d hleads
  · refine ⟨hleads, ?_⟩
    rintro _ ⟨⟩
  · obtain ⟨hid, rfl⟩ := hleads
    refine ⟨rfl, ?_⟩
    rintro _ ⟨⟩
    exact hid

end Operation

namespace Engine

open Operation

variable {policy : Policy} {limit : Deadline}

attribute [local simp] debts_now debts_freshOrder debts_schedule debts_check debts_createPayment
  debts_updatePayment debts_locked

/-- A payment that is recorded is scheduled. -/
theorem pay_debts (request : PaymentRequest) : OwesNothing (pay policy request limit) := by
  simp [OwesNothing, pay, getApplication, checkCredit, settledTotal, boundedCall,
    debts_call (.getApplication _) rfl, debts_call (.paymentsOfApplication _) rfl]

/-- A payment that is settled has another status, and its notification is to be withdrawn. -/
theorem settlePayment_debts (payment : Payment) {ok : Unit → Debt → Prop} {fail : Debt → Prop}
    (hok : ok () (.withdraw payment.id)) (hfail : fail .nothing) (id : PaymentId) :
    Abides .debts (settlePayment policy id payment limit) ok fail .nothing := by
  simp [settlePayment, getApplication, checkCredit, settledTotal, writeSchedule, removeSchedule,
    boundedCall, abides_compensated, debts_call (.getApplication _) rfl,
    debts_call (.paymentsOfApplication _) rfl, debts_call (.installmentsOf _) rfl,
    debts_call (.createBatch _) rfl, debts_call (.deleteInstallmentsOf _) rfl, hok, hfail]

theorem failPayment_debts (payment : Payment) {ok : Unit → Debt → Prop} {fail : Debt → Prop}
    (hok : ok () (.withdraw payment.id)) (hfail : fail .nothing) :
    Abides .debts (failPayment payment limit) ok fail .nothing := by
  simp [failPayment, hok, hfail]

/-- A payment that is decided is withdrawn. -/
theorem deliverPayment_debts (id : PaymentId) (token : String) :
    OwesNothing (deliverPayment policy id token limit) := by
  have hcancel : Abides .debts (do let _ ← cancel (.paymentSettled id); pure Ack.applied)
      (fun _ d => d = .nothing) (fun d => d = .nothing) (.withdraw id) := by
    rw [abides_bind, debts_cancel]
    exact fun _ => rfl
  unfold OwesNothing deliverPayment
  rw [abides_bind, abides_require]
  refine ⟨fun next _ => OwesNothing.locked ?_ _ _, fun _ _ => rfl⟩
  unfold OwesNothing
  rw [abides_bind]
  refine (getPayment_debts id limit).mono ?_ fun _ h => h
  rintro row _ ⟨rfl, hrow⟩
  rw [abides_bind, abides_found]
  refine ⟨fun p hp => ?_, fun _ => rfl⟩
  obtain rfl := hrow p hp
  rw [abides_bind, abides_require]
  refine ⟨fun transition _ => ?_, fun _ _ => rfl⟩
  cases transition with
  | unchanged => rfl
  | applied =>
    cases next with
    | successful =>
      rw [abides_bind]
      apply settlePayment_debts
      · exact hcancel
      · rfl
    | pending | failed =>
      rw [abides_bind]
      apply failPayment_debts
      · exact hcancel
      · rfl

end Engine

end Lending
