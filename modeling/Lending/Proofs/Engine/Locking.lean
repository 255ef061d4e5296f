import Lending.Proofs.Engine.Execution
import Lending.Proofs.Engine.LockTable

/-!
# Locks are taken in order and given back

Every call takes its locks in one order, the lock of a payment before that of its application, and
gives back those that it has taken, the latest first, however it ends. So a call that runs alone
never waits for a lock and leaves none behind.

* `LockKey.rank`: the order in which locks are taken.
* `Program.Nests`: locks are taken in order and given back in the opposite one.
* `Operation.Nests`: the same for operations, with an equation for every part of an operation.
* `EngineCall.returns`: every call gives back the locks that it takes.
* `World.Runs.idle`, `World.idle_after`: what runs alone leaves all locks free.
-/

namespace Lending

/-- Locks are taken by growing rank: that of a payment before that of its application. -/
def LockKey.rank : LockKey → Nat
  | .payment _ | .installment _ | .loan _ => 0
  | .application _ => 1

/-- The request takes or releases a lock. -/
def Request.isLocking : Request → Bool
  | .acquire _ _ | .release _ => true
  | _ => false

namespace Program

variable {α β : Type}

/-- Begun with the locks `held`, the latest first, the program takes locks by growing rank, gives
the latest one back first, and ends with a result and with locks that satisfy `Q`. -/
def Nests (Q : α → List LockKey → Prop) : Program α → List LockKey → Prop
  | .done value, held => Q value held
  | .ask (.acquire key _) next, held =>
    (∀ k ∈ held, k.rank < key.rank) ∧ (next false).Nests Q held ∧ (next true).Nests Q (key :: held)
  | .ask (.release key) next, held => ∃ rest, held = key :: rest ∧ (next ()).Nests Q rest
  | .ask _ next, held => ∀ answer, (next answer).Nests Q held

theorem nests_ask {Q : α → List LockKey → Prop} {request : Request}
    (h : request.isLocking = false) (next : request.Answer → Program α) (held : List LockKey) :
    (ask request next).Nests Q held ↔ ∀ answer, (next answer).Nests Q held := by
  cases request with
  | acquire _ _ | release _ => cases h
  | store _ | score _ _ | expired _ | now | freshOrder | schedule _ _ | cancel _ | takeDue _
  | pruneLocks => rfl

theorem nests_bind {Q : β → List LockKey → Prop} (p : Program α) (f : α → Program β)
    (held : List LockKey) :
    (p.bind f).Nests Q held ↔ p.Nests (fun a held' => (f a).Nests Q held') held := by
  induction p generalizing held with
  | done value => rfl
  | ask request next ih =>
    cases request with
    | acquire key limit => exact and_congr_right fun _ => and_congr (ih _ _) (ih _ _)
    | release key => exact exists_congr fun rest => and_congr_right fun _ => ih _ _
    | store _ | score _ _ | expired _ | now | freshOrder | schedule _ _ | cancel _ | takeDue _
    | pruneLocks => exact forall_congr' fun answer => ih answer held

theorem Nests.mono {Q Q' : α → List LockKey → Prop} {p : Program α} {held : List LockKey}
    (hQ : ∀ a held, Q a held → Q' a held) (h : p.Nests Q held) : p.Nests Q' held := by
  induction p generalizing held with
  | done value => exact hQ _ _ h
  | ask request next ih =>
    cases request with
    | acquire key limit => exact ⟨h.1, ih _ h.2.1, ih _ h.2.2⟩
    | release key =>
      obtain ⟨rest, hrest, hnext⟩ := h
      exact ⟨rest, hrest, ih _ hnext⟩
    | store _ | score _ _ | expired _ | now | freshOrder | schedule _ _ | cancel _ | takeDue _
    | pruneLocks => exact fun answer => ih answer (h answer)

/-- Begun without locks, the program ends without locks. -/
def Returns (p : Program α) : Prop := p.Nests (fun _ held => held = []) []

end Program

namespace Operation

variable {α β : Type}

/-- The same of an operation, which ends with a value and locks that satisfy `ok`, or fails with
locks that satisfy `fail`. -/
def Nests (op : Operation α) (ok : α → List LockKey → Prop) (fail : List LockKey → Prop)
    (held : List LockKey) : Prop :=
  Program.Nests (fun
    | .ok a => ok a
    | .error _ => fail) op.run held

variable {ok : α → List LockKey → Prop} {fail : List LockKey → Prop} {held : List LockKey}

theorem nests_pure (a : α) : Nests (pure a) ok fail held ↔ ok a held := Iff.rfl

theorem nests_throw (cause : Failure) :
    Nests (throw cause : Operation α) ok fail held ↔ fail held := Iff.rfl

theorem nests_bind {ok : β → List LockKey → Prop} (op : Operation α) (f : α → Operation β) :
    Nests (op >>= f) ok fail held ↔ Nests op (fun a => Nests (f a) ok fail) fail held := by
  refine (Program.nests_bind _ _ held).trans (iff_of_eq ?_)
  refine congrArg (fun Q => Program.Nests Q op.run held) ?_
  funext result held'
  cases result <;> rfl

theorem nests_map (f : β → α) (op : Operation β) :
    Nests (f <$> op) ok fail held ↔ Nests op (fun a => ok (f a)) fail held := by
  rw [map_eq_pure_bind, nests_bind]
  rfl

theorem nests_lift (p : Program α) :
    Nests (liftM p : Operation α) ok fail held ↔ p.Nests ok held :=
  Program.nests_bind _ _ held

theorem nests_ite (c : Prop) [Decidable c] (x y : Operation α) :
    Nests (if c then x else y) ok fail held ↔
      (c → Nests x ok fail held) ∧ (¬c → Nests y ok fail held) := by
  split <;> simp [*]

/-! ### Requests and parts -/

theorem nests_now {ok : Instant → List LockKey → Prop} :
    Nests (liftM now) ok fail held ↔ ∀ t, ok t held := nests_lift _

theorem nests_freshOrder {ok : String → List LockKey → Prop} :
    Nests (liftM freshOrder) ok fail held ↔ ∀ order, ok order held := nests_lift _

theorem nests_expired {ok : Bool → List LockKey → Prop} (limit : Deadline) :
    Nests (liftM (expired limit)) ok fail held ↔ ∀ late, ok late held := nests_lift _

theorem nests_schedule {ok : Unit → List LockKey → Prop} (n : Notification) (due : Instant) :
    Nests (liftM (schedule n due)) ok fail held ↔ ok () held :=
  (nests_lift _).trans ⟨fun h => h (), fun h _ => h⟩

theorem nests_cancel {ok : Bool → List LockKey → Prop} (n : Notification) :
    Nests (liftM (cancel n)) ok fail held ↔ ∀ waiting, ok waiting held := nests_lift _

theorem nests_score {ok : CreditScore → List LockKey → Prop} (user : String) (limit : Deadline) :
    Nests (score user limit) ok fail held ↔ (∀ s, ok s held) ∧ fail held := by
  constructor
  · intro h
    exact ⟨fun s => h (.ok s), h (.error .timeout)⟩
  · rintro ⟨hok, hfail⟩ (cause | s)
    · exact hfail
    · exact hok s

-- the type of the result is a case of `StoreCall.Result`, by which `simp` could not find the rule
theorem nests_call (c : StoreCall) {ok : c.Result → List LockKey → Prop} :
    @Nests (no_index c.Result) (call c) ok fail held ↔ (∀ result, ok result held) ∧ fail held := by
  constructor
  · intro h
    exact ⟨fun result => h (.ok result), h (.error .timeout)⟩
  · rintro ⟨hok, hfail⟩ (cause | result)
    · exact hfail
    · exact hok result

theorem nests_require (result : Except Failure α) :
    Nests (require result) ok fail held ↔
      (∀ a, result = .ok a → ok a held) ∧ ∀ cause, result = .error cause → fail held := by
  cases result with
  | error cause =>
    constructor
    · intro h
      refine ⟨?_, fun _ _ => h⟩
      rintro _ ⟨⟩
    · intro h
      exact h.2 cause rfl
  | ok a =>
    constructor
    · intro h
      refine ⟨?_, ?_⟩ <;> rintro _ ⟨⟩
      exact h
    · intro h
      exact h.1 a rfl

theorem nests_check {ok : Unit → List LockKey → Prop} (limit : Deadline) :
    Nests (check limit) ok fail held ↔ fail held ∧ ok () held := by
  simp [check, nests_bind, nests_expired, nests_ite, nests_throw, nests_pure, and_comm]

theorem nests_boundedCall (limit : Deadline) (c : StoreCall)
    {ok : c.Result → List LockKey → Prop} :
    @Nests (no_index c.Result) (boundedCall limit c) ok fail held ↔
      (∀ result, ok result held) ∧ fail held := by
  simp only [boundedCall, nests_bind, nests_check, nests_call]
  exact ⟨fun h => h.2, fun h => ⟨h.2, h⟩⟩

theorem nests_found {e : Entity} (id : Id e) (row : Option α) :
    Nests (found id row) ok fail held ↔
      (∀ a, row = some a → ok a held) ∧ (row = none → fail held) := by
  unfold found
  rw [nests_require]
  cases row <;> simp

theorem nests_locked (key : LockKey) (limit : Deadline) (body : Operation α) :
    Nests (locked key limit body) ok fail held ↔
      (∀ k ∈ held, k.rank < key.rank) ∧ fail held ∧
        Nests body (fun a held' => ∃ rest, held' = key :: rest ∧ ok a rest)
          (fun held' => ∃ rest, held' = key :: rest ∧ fail rest) (key :: held) := by
  refine and_congr_right fun _ => and_congr_right fun _ => ?_
  refine (Program.nests_bind body.run (fun result => .ask (.release key) fun _ => .done result)
    (key :: held)).trans (iff_of_eq ?_)
  refine congrArg (fun Q => Program.Nests Q body.run (key :: held)) ?_
  funext result held'
  cases result <;> rfl

theorem nests_compensated (write : Operation α) (undo : Operation β) :
    Nests (compensated write undo) ok fail held ↔
      Nests write ok (Nests undo (fun _ => fail) fail) held := by
  refine (Program.nests_bind _ _ held).trans (iff_of_eq ?_)
  refine congrArg (fun Q => Program.Nests Q write.run held) ?_
  funext result held'
  cases result with
  | error cause =>
    refine propext ((Program.nests_bind _ _ held').trans (iff_of_eq ?_))
    refine congrArg (fun Q => Program.Nests Q undo.run held') ?_
    funext result held''
    cases result <;> rfl
  | ok a => rfl

/-- Begun without locks, the operation ends without locks, whether it succeeds or fails. -/
def Returns (op : Operation α) : Prop :=
  Nests op (fun _ held => held = []) (fun held => held = []) []

theorem Returns.run {op : Operation α} (h : op.Returns) : Program.Returns op.run := by
  refine Program.Nests.mono ?_ h
  rintro (_ | _) held hheld <;> exact hheld

end Operation

namespace Engine

open Operation

variable {policy : Policy} {limit : Deadline}

/-! ## Calls -/

theorem apply_returns (request : ApplicationRequest) : (apply policy request limit).Returns := by
  simp only [Returns, apply, nests_bind, nests_require, nests_check, nests_now, nests_call,
    nests_pure]
  simp

theorem getApplication_returns (id : ApplicationId) : (getApplication id limit).Returns := by
  simp only [Returns, getApplication, nests_bind, nests_boundedCall, nests_found]
  simp

theorem applicationsOfUser_returns (user : String) : (applicationsOfUser user limit).Returns := by
  simp only [Returns, applicationsOfUser, nests_boundedCall]
  simp

theorem decideApplication_returns (id : ApplicationId) :
    (decideApplication policy id limit).Returns := by
  simp only [Returns, decideApplication, getApplication, verdict, nests_locked, nests_bind,
    nests_boundedCall, nests_found, nests_ite, nests_throw, nests_score, nests_require,
    nests_check, nests_now, nests_call, nests_pure]
  simp

theorem pay_returns (request : PaymentRequest) : (pay policy request limit).Returns := by
  simp only [Returns, pay, getApplication, checkCredit, settledTotal, nests_locked, nests_bind,
    nests_boundedCall, nests_found, nests_ite, nests_throw, nests_require, nests_check, nests_now,
    nests_freshOrder, nests_call, nests_schedule, nests_pure]
  simp

theorem nests_paymentDetails {ok : PaymentDetails → List LockKey → Prop}
    {fail : List LockKey → Prop} {held : List LockKey} (hok : ∀ details, ok details held)
    (hfail : fail held) (id : PaymentId) : Nests (paymentDetails id limit) ok fail held := by
  simp only [paymentDetails, nests_bind, nests_boundedCall, nests_found, nests_pure, hok, hfail,
    implies_true, and_true]

theorem paymentDetails_returns (id : PaymentId) : (paymentDetails id limit).Returns := by
  apply nests_paymentDetails <;> simp

theorem payments_returns : (payments limit).Returns := by
  simp only [Returns, payments, nests_boundedCall]
  simp

theorem allPaymentDetails_returns : (allPaymentDetails limit).Returns := by
  have hall : ∀ (all : List Payment) (ok : List PaymentDetails → List LockKey → Prop),
      (∀ details, ok details []) →
        Nests (all.mapM fun payment => paymentDetails payment.id limit) ok
          (fun held => held = []) [] := by
    intro all
    induction all with
    | nil => exact fun ok hok => hok []
    | cons p rest ih =>
      intro ok hok
      rw [List.mapM_cons, nests_bind]
      apply nests_paymentDetails
      · intro details
        rw [nests_bind]
        exact ih _ fun others => hok _
      · rfl
  simp only [Returns, allPaymentDetails, payments, nests_bind, nests_boundedCall]
  exact ⟨fun all => hall all _ fun _ => rfl, trivial⟩

/-- The lock of the application is taken under that of the payment. -/
theorem nests_settlePayment {ok : Unit → List LockKey → Prop} {fail : List LockKey → Prop}
    {id : PaymentId} (hok : ok () [.payment id]) (hfail : fail [.payment id]) (payment : Payment) :
    Nests (settlePayment policy id payment limit) ok fail [.payment id] := by
  simp only [settlePayment, getApplication, checkCredit, settledTotal, writeSchedule,
    removeSchedule, nests_locked, nests_bind, nests_boundedCall, nests_found, nests_ite,
    nests_throw, nests_require, nests_check, nests_now, nests_call, nests_compensated, nests_pure]
  simp [LockKey.rank, hok, hfail]

theorem deliverPayment_returns (id : PaymentId) (token : String) :
    (deliverPayment policy id token limit).Returns := by
  simp only [Returns, deliverPayment, nests_bind, nests_require, nests_locked, nests_boundedCall,
    nests_found]
  refine ⟨fun next _ => ⟨by simp, by simp, fun found => ?_, by simp⟩, by simp⟩
  refine ⟨fun p _ => ⟨fun transition _ => ?_, by simp⟩, by simp⟩
  cases transition with
  | unchanged => exact ⟨[], rfl, rfl⟩
  | applied =>
    cases next with
    | successful =>
      rw [nests_bind]
      apply nests_settlePayment
      · simp only [nests_bind, nests_cancel, nests_pure]
        simp
      · exact ⟨[], rfl, rfl⟩
    | pending | failed =>
      simp only [failPayment, nests_bind, nests_check, nests_call, nests_cancel, nests_pure]
      simp

theorem deliverInstallment_returns (id : InstallmentId) (token : String) :
    (deliverInstallment id token limit).Returns := by
  simp only [Returns, deliverInstallment, getInstallment, nests_bind, nests_require, nests_locked,
    nests_boundedCall, nests_found, nests_ite, nests_throw]
  refine ⟨fun next _ => ⟨by simp, by simp, ⟨fun found => ?_, by simp⟩⟩, by simp⟩
  refine ⟨fun entry _ => ⟨by simp, fun _ => ⟨fun transition _ => ?_, by simp⟩⟩, by simp⟩
  cases transition with
  | unchanged => exact ⟨[], rfl, rfl⟩
  | applied =>
    simp only [nests_bind, nests_check, nests_call, nests_cancel, nests_pure]
    simp

theorem collect_returns (id : InstallmentId) : (collect policy id limit).Returns := by
  simp only [Returns, collect, getInstallment, nests_locked, nests_bind, nests_boundedCall,
    nests_found, nests_ite, nests_throw, nests_now, nests_schedule, nests_pure]
  simp

theorem fileLoan_returns (request : LoanRequest) : (fileLoan policy request limit).Returns := by
  simp only [Returns, fileLoan, nests_bind, nests_require, nests_check, nests_now, nests_call,
    nests_pure]
  simp

theorem decideLoan_returns (id : LoanId) : (decideLoan policy id limit).Returns := by
  simp only [Returns, decideLoan, getLoan, verdict, nests_locked, nests_bind, nests_boundedCall,
    nests_found, nests_ite, nests_throw, nests_score, nests_require, nests_check, nests_map,
    nests_now, nests_call, nests_pure]
  simp

theorem activateLoan_returns (id : LoanId) : (activateLoan policy id limit).Returns := by
  simp only [Returns, activateLoan, getLoan, writeSchedule, removeSchedule, nests_locked,
    nests_bind, nests_boundedCall, nests_found, nests_ite, nests_throw, nests_require, nests_check,
    nests_now, nests_call, nests_compensated, nests_pure]
  simp

theorem repayLoan_returns (id : LoanId) (request : RepaymentRequest) :
    (repayLoan policy id request limit).Returns := by
  simp only [Returns, repayLoan, getLoan, scheduleOf, revertEntries, writeEntries, nests_locked,
    nests_bind, nests_boundedCall, nests_found, nests_ite, nests_throw, nests_require, nests_check,
    nests_now, nests_call, nests_compensated, nests_pure]
  simp

theorem defaultLoan_returns (id : LoanId) : (defaultLoan id limit).Returns := by
  simp only [Returns, defaultLoan, getLoan, scheduleOf, revertEntries, writeEntries, nests_locked,
    nests_bind, nests_boundedCall, nests_found, nests_ite, nests_require, nests_check, nests_call,
    nests_compensated, nests_pure]
  simp

theorem loanDetails_returns (id : LoanId) : (loanDetails id limit).Returns := by
  simp only [Returns, loanDetails, getLoan, scheduleOf, nests_bind, nests_boundedCall, nests_found,
    nests_pure]
  simp

theorem repaymentsOf_returns (id : LoanId) : (repaymentsOf id limit).Returns := by
  simp only [Returns, repaymentsOf, getLoan, nests_bind, nests_boundedCall, nests_found]
  simp

theorem loansOfUser_returns (user : String) : (loansOfUser user limit).Returns := by
  simp only [Returns, loansOfUser, nests_boundedCall]
  simp

end Engine

/-- Every call gives back the locks that it takes. -/
theorem EngineCall.returns (policy : Policy) (limit : Deadline) (call : EngineCall) :
    (call.program policy limit).Returns := by
  cases call with
  | apply request => exact Engine.apply_returns request
  | decideApplication id => exact Engine.decideApplication_returns id
  | getApplication id => exact Engine.getApplication_returns id
  | applicationsOfUser user => exact Engine.applicationsOfUser_returns user
  | pay request => exact Engine.pay_returns request
  | paymentDetails id => exact Engine.paymentDetails_returns id
  | payments => exact Engine.payments_returns
  | allPaymentDetails => exact Engine.allPaymentDetails_returns
  | deliverPayment id token => exact Engine.deliverPayment_returns id token
  | deliverInstallment id token => exact Engine.deliverInstallment_returns id token
  | collect id => exact Engine.collect_returns id
  | fileLoan request => exact Engine.fileLoan_returns request
  | decideLoan id => exact Engine.decideLoan_returns id
  | activateLoan id => exact Engine.activateLoan_returns id
  | repayLoan id request => exact Engine.repayLoan_returns id request
  | defaultLoan id => exact Engine.defaultLoan_returns id
  | loanDetails id => exact Engine.loanDetails_returns id
  | repaymentsOf id => exact Engine.repaymentsOf_returns id
  | loansOfUser user => exact Engine.loansOfUser_returns user

theorem Engine.deliver_returns (policy : Policy) (n : Notification) :
    (deliver policy n).Returns := by
  cases n with
  | paymentSettled id => exact deliverPayment_returns id _
  | installmentCollected id => exact deliverInstallment_returns id _

theorem Engine.deliverAll_returns (policy : Policy) (ns : List Notification) :
    (deliverAll policy ns).Returns := by
  induction ns with
  | nil => rfl
  | cons n rest ih =>
    refine (Program.nests_bind (deliver policy n).run _ []).mpr ?_
    refine (deliver_returns policy n).run.mono fun outcome held hheld => ?_
    subst hheld
    refine (Program.nests_bind (deliverAll policy rest) _ []).mpr ?_
    exact ih.mono fun outcomes held hheld => hheld

/-- A drain gives back the locks of all its deliveries. -/
theorem Engine.runDue_returns (policy : Policy) : (runDue policy).Returns := by
  intro now due
  refine (Program.nests_bind (deliverAll policy due) _ []).mpr ?_
  refine (deliverAll_returns policy due).mono fun outcomes held hheld => ?_
  intro _
  exact hheld

/-! ## Worlds -/

namespace World

variable {α : Type} {w : World}

theorem locks_drawScore (w : World) (inTime : Bool) (user : String) :
    (w.drawScore inTime user).2.locks = w.locks := by
  unfold drawScore
  split <;> rfl

theorem locks_passTo (w : World) (time : Nat) : (w.passTo time).locks = w.locks := by
  unfold passTo
  split <;> rfl

theorem locks_callStore (w : World) (call : StoreCall) : (w.callStore call).2.locks = w.locks := by
  simp only [callStore]
  cases w.outages.next call.method with
  | some fault => cases fault <;> rfl
  | none => cases w.store.answer call <;> rfl

/-- Whatever takes and releases no lock leaves the locks to their holders. -/
theorem answer_locks {request : Request} (h : request.isLocking = false)
    (hw : w.locks.Exclusive) :
    (w.answer request).2.locks.Exclusive ∧ (w.answer request).2.locks.held = w.locks.held := by
  cases request with
  | acquire _ _ | release _ => cases h
  | pruneLocks => exact ⟨hw.prune, rfl⟩
  | store call =>
    have hlocks : (w.answer (.store call)).2.locks = w.locks := locks_callStore w call
    exact ⟨hlocks ▸ hw, congrArg _ hlocks⟩
  | score user limit =>
    have hlocks : (w.answer (.score user limit)).2.locks = w.locks :=
      (locks_drawScore _ _ _).trans (locks_passTo _ _)
    exact ⟨hlocks ▸ hw, congrArg _ hlocks⟩
  | expired _ | now | freshOrder | schedule _ _ | cancel _ | takeDue _ => exact ⟨hw, rfl⟩

/-- A lock that nobody holds is granted, unless the deadline has expired. -/
theorem answer_acquire {key : LockKey} (hw : w.locks.Exclusive) (hfree : key ∉ w.locks.held)
    (limit : Deadline) :
    ∃ locks, w.answer (.acquire key limit) = (some (!limit.isExpired w.time), { w with locks }) ∧
      locks.Exclusive ∧
        locks.held = if limit.isExpired w.time then w.locks.held else key :: w.locks.held := by
  obtain ⟨locks, hlock, hexclusive, hheld⟩ := hw.lock_free hfree
  cases hexpired : limit.isExpired w.time with
  | true =>
    refine ⟨w.locks, ?_, hw, rfl⟩
    simp only [answer, hexpired]
    rfl
  | false =>
    refine ⟨locks, ?_, hexclusive, hheld⟩
    simp only [answer, hexpired, hlock]
    rfl

/-- The lock that was taken last is given back. -/
theorem answer_release {key : LockKey} {rest : List LockKey} (hw : w.locks.Exclusive)
    (hrest : w.locks.held = key :: rest) :
    ∃ locks, w.answer (.release key) = (some (), { w with locks }) ∧ locks.Exclusive ∧
      locks.held = rest := by
  have hnodup := hw.nodup
  obtain ⟨locks, hunlock, hexclusive, hheld⟩ := hw.unlock (hrest ▸ List.mem_cons_self)
  refine ⟨locks, by simp only [answer, hunlock], hexclusive, ?_⟩
  rw [hrest] at hheld hnodup
  rw [hheld, List.filter_cons_of_neg (by simp)]
  refine List.filter_eq_self.mpr fun k hk => ?_
  simpa using fun heq : k = key => (List.nodup_cons.mp hnodup).1 (heq ▸ hk)

/-- What a program that runs alone asks for next leaves its locks nested. -/
theorem answer_nests {Q : α → List LockKey → Prop} {request : Request}
    {next : request.Answer → Program α} (hp : (Program.ask request next).Nests Q w.locks.held)
    (hw : w.locks.Exclusive) :
    (w.answer request).2.locks.Exclusive ∧ ∀ answer, (w.answer request).1 = some answer →
      (next answer).Nests Q (w.answer request).2.locks.held := by
  cases hlocking : request.isLocking with
  | false =>
    obtain ⟨hexclusive, hheld⟩ := answer_locks hlocking hw
    have hnext := (Program.nests_ask hlocking next _).mp hp
    exact ⟨hexclusive, fun answer _ => hheld ▸ hnext answer⟩
  | true =>
    cases request with
    | acquire key limit =>
      obtain ⟨hrank, hlate, hgranted⟩ := hp
      have hfree : key ∉ w.locks.held := fun hmem => Nat.lt_irrefl _ (hrank key hmem)
      obtain ⟨locks, hanswer, hexclusive, hheld⟩ := answer_acquire hw hfree limit
      rw [hanswer]
      refine ⟨hexclusive, ?_⟩
      rintro _ ⟨⟩
      cases hexpired : limit.isExpired w.time <;> rw [hexpired] at hheld
      · exact hheld ▸ hgranted
      · exact hheld ▸ hlate
    | release key =>
      obtain ⟨rest, hrest, hnext⟩ := hp
      obtain ⟨locks, hanswer, hexclusive, hheld⟩ := answer_release hw hrest
      rw [hanswer]
      exact ⟨hexclusive, fun _ _ => hheld ▸ hnext⟩
    | store _ | score _ _ | expired _ | now | freshOrder | schedule _ _ | cancel _ | takeDue _
    | pruneLocks => cases hlocking

/-- A program that runs alone is granted every lock that it asks for in time, and what it holds in
the end is as its locks nest. -/
theorem run_nests {Q : α → List LockKey → Prop} {p : Program α}
    (hp : p.Nests Q w.locks.held) (hw : w.locks.Exclusive) :
    (w.run p).2.locks.Exclusive ∧
      ∀ a, (w.run p).1 = some a → Q a (w.run p).2.locks.held := by
  induction p generalizing w with
  | done value =>
    refine ⟨hw, ?_⟩
    rintro _ ⟨⟩
    exact hp
  | ask request next ih =>
    obtain ⟨hexclusive, hnext⟩ := answer_nests hp hw
    rw [run]
    rcases hanswer : w.answer request with ⟨_ | answer, w'⟩ <;>
      rw [hanswer] at hexclusive hnext
    · refine ⟨hexclusive, ?_⟩
      rintro _ ⟨⟩
    · exact ih answer (hnext answer rfl) hexclusive

theorem nests_of_idle {p : Program α} (hp : p.Returns) (hw : w.locks.Idle) :
    p.Nests (fun _ held => held = []) w.locks.held := by
  rw [hw.2]
  exact hp

/-- What gives its locks back leaves all locks free, even if it crashes. -/
theorem idle_after {p : Program α} (hp : p.Returns) (hw : w.locks.Idle) :
    (w.after p).locks.Idle := by
  obtain ⟨hexclusive, hends⟩ := run_nests (nests_of_idle hp hw) hw.1
  unfold after
  rcases hrun : w.run p with ⟨_ | a, w'⟩ <;> rw [hrun] at hexclusive hends
  · exact hexclusive.clear
  · exact ⟨hexclusive, hends a rfl⟩

/-- However time goes by, locks nest as they do in no time. -/
theorem Runs.nests {Q : α → List LockKey → Prop} {faults : Faults} {p : Program α}
    {result : Option α} {w' : World} (h : w.Runs faults p result w')
    (hp : p.Nests Q w.locks.held) (hw : w.locks.Exclusive) :
    w'.locks.Exclusive ∧ (∀ a, result = some a → Q a w'.locks.held) ∧
      (result = none → w'.locks.held = []) := by
  induction h with
  | done =>
    refine ⟨hw, ?_, ?_⟩
    · rintro _ ⟨⟩
      exact hp
    · rintro ⟨⟩
  | ask lapses grants answers _ ih =>
    rw [← lapses.locks] at hp hw
    obtain ⟨hexclusive, hnext⟩ := answer_nests hp hw
    rw [answers] at hexclusive hnext
    exact ih (hnext _ rfl) hexclusive
  | crash lapses grants answers =>
    rw [← lapses.locks] at hp hw
    obtain ⟨hexclusive, -⟩ := answer_nests hp hw
    rw [answers] at hexclusive
    refine ⟨hexclusive.clear.1, ?_, fun _ => rfl⟩
    rintro _ ⟨⟩

/-- However time goes by, what gives its locks back leaves all locks free. -/
theorem Runs.idle {faults : Faults} {p : Program α} {result : Option α} {w' : World}
    (h : w.Runs faults p result w') (hp : p.Returns) (hw : w.locks.Idle) : w'.locks.Idle := by
  obtain ⟨hexclusive, hends, hcrashed⟩ := h.nests (nests_of_idle hp hw) hw.1
  cases result with
  | none => exact ⟨hexclusive, hcrashed rfl⟩
  | some a => exact ⟨hexclusive, hends a rfl⟩

end World

end Lending
