import Lending.Proofs.Engine.Conduct
import Lending.Proofs.Engine.Waiting

/-!
# When notifications are due

Payments and collections schedule their notifications one settlement delay ahead of the engine's
clock, and no other call schedules anything. Nor does any call take out what is due; that is what a
drain begins with.

* `Conduct.dues`: notifications are scheduled only for instants that are allowed.
* `Engine.deliverAll_dues`: deliveries schedule nothing.
* `EngineCall.dues`: calls schedule one settlement delay ahead.
* `World.run_dues`: so what waits after a run waits until an instant that is allowed.
* `World.runDue_dues`: and once everything is due, nothing waits after a drain.
-/

namespace Lending

/-! ## The rule -/

/-- Notifications are scheduled only for instants that `P` allows, by a clock that stands still, and
none is taken out. -/
def Conduct.dues (clock : Instant) (P : Instant → Prop) : Conduct Unit where
  may
    | _, .schedule _ due => P due
    | _, .takeDue _ => False
    | _, _ => True
  leads
    | _, .now, answer, _ => answer = clock
    | _, _, _, _ => True

/-- The program schedules notifications only for instants that `P` allows. -/
def Program.Dues {α : Type} (clock : Instant) (P : Instant → Prop) (p : Program α) : Prop :=
  p.Abides (.dues clock P) (fun _ _ => True) ()

/-- So does the operation, whether it succeeds or fails. -/
def Operation.Dues {α : Type} (clock : Instant) (P : Instant → Prop) (op : Operation α) : Prop :=
  op.Abides (.dues clock P) (fun _ _ => True) (fun _ => True) ()

theorem Operation.Dues.program {α : Type} {clock : Instant} {P : Instant → Prop}
    {op : Operation α} (h : Operation.Dues clock P op) : op.run.Dues clock P :=
  Program.Abides.mono (fun _ _ _ => trivial) h

/-! ### Requests and parts -/

namespace Operation

variable {α : Type} {clock : Instant} {P : Instant → Prop} {ok : α → Unit → Prop}
  {fail : Unit → Prop}

@[simp]
theorem dues_now {ok : Instant → Unit → Prop} :
    Abides (.dues clock P) (liftM now) ok fail () ↔ ok clock () := by
  rw [abides_now]
  constructor
  · exact fun h => h.2 clock () rfl
  · rintro h
    refine ⟨trivial, ?_⟩
    rintro _ ⟨⟩ rfl
    exact h

@[simp]
theorem dues_freshOrder {ok : String → Unit → Prop} :
    Abides (.dues clock P) (liftM freshOrder) ok fail () ↔ ∀ order, ok order () :=
  abides_freshOrder.trans
    ⟨fun h order => h.2 order () trivial, fun h => ⟨trivial, fun order _ _ => h order⟩⟩

@[simp]
theorem dues_schedule {ok : Unit → Unit → Prop} (n : Notification) (due : Instant) :
    Abides (.dues clock P) (liftM (schedule n due)) ok fail () ↔ P due ∧ ok () () :=
  (abides_schedule n due).trans
    (and_congr_right fun _ => ⟨fun h => h () trivial, fun h _ _ => h⟩)

@[simp]
theorem dues_cancel {ok : Bool → Unit → Prop} (n : Notification) :
    Abides (.dues clock P) (liftM (cancel n)) ok fail () ↔ ∀ waiting, ok waiting () :=
  (abides_cancel n).trans
    ⟨fun h waiting => h.2 waiting () trivial, fun h => ⟨trivial, fun waiting _ _ => h waiting⟩⟩

@[simp]
theorem dues_score {ok : CreditScore → Unit → Prop} (user : String) (limit : Deadline) :
    Abides (.dues clock P) (score user limit) ok fail () ↔ (∀ a, ok a ()) ∧ fail () := by
  rw [abides_score]
  constructor
  · rintro ⟨-, hok, hfail⟩
    exact ⟨fun a => hok a () trivial, hfail .timeout () trivial⟩
  · rintro ⟨hok, hfail⟩
    exact ⟨trivial, fun a _ _ => hok a, fun _ _ _ => hfail⟩

-- the type of the result is a case of `StoreCall.Result`, by which `simp` could not find the rule
@[simp]
theorem dues_call (c : StoreCall) {ok : c.Result → Unit → Prop} :
    @Abides _ (no_index c.Result) (.dues clock P) (call c) ok fail () ↔
      (∀ a, ok a ()) ∧ fail () := by
  rw [abides_call]
  constructor
  · rintro ⟨-, hok, hfail⟩
    exact ⟨fun a => hok a () trivial, hfail .timeout () trivial⟩
  · rintro ⟨hok, hfail⟩
    exact ⟨trivial, fun a _ _ => hok a, fun _ _ _ => hfail⟩

@[simp]
theorem dues_check {ok : Unit → Unit → Prop} (limit : Deadline) :
    Abides (.dues clock P) (check limit) ok fail () ↔ fail () ∧ ok () () := by
  rw [abides_check]
  constructor
  · rintro ⟨-, h⟩
    exact ⟨(h true () trivial).1 rfl, (h false () trivial).2 rfl⟩
  · rintro ⟨hfail, hok⟩
    exact ⟨trivial, fun _ _ _ => ⟨fun _ => hfail, fun _ => hok⟩⟩

@[simp]
theorem dues_boundedCall (limit : Deadline) (c : StoreCall) {ok : c.Result → Unit → Prop} :
    @Abides _ (no_index c.Result) (.dues clock P) (boundedCall limit c) ok fail () ↔
      (∀ a, ok a ()) ∧ fail () := by
  simp only [boundedCall, abides_bind, dues_check, dues_call]
  exact and_iff_right_of_imp And.right

@[simp]
theorem dues_locked (key : LockKey) (limit : Deadline) (body : Operation α) :
    Abides (.dues clock P) (locked key limit body) ok fail () ↔
      fail () ∧ Abides (.dues clock P) body ok fail () := by
  simp only [abides_locked]
  constructor
  · intro h
    refine ⟨(h.2 false () trivial).1 rfl, ((h.2 true () trivial).2 rfl).mono ?_ ?_⟩
    · exact fun _ _ hreleased => hreleased.2 () trivial
    · exact fun _ hreleased => hreleased.2 () trivial
  · rintro ⟨hfail, hbody⟩
    refine ⟨trivial, fun granted _ _ => ⟨fun _ => hfail, fun _ => hbody.mono ?_ ?_⟩⟩
    · exact fun _ _ hok => ⟨trivial, fun _ _ => hok⟩
    · exact fun _ hfail => ⟨trivial, fun _ _ => hfail⟩

end Operation

namespace Engine

open Operation

variable {policy : Policy} {limit : Deadline} {clock : Instant} {P : Instant → Prop}

/-! ## Calls -/

theorem apply_dues (request : ApplicationRequest) : Dues clock P (apply policy request limit) := by
  simp [Dues, apply]

theorem getApplication_dues (id : ApplicationId) : Dues clock P (getApplication id limit) := by
  simp [Dues, getApplication]

theorem applicationsOfUser_dues (user : String) : Dues clock P (applicationsOfUser user limit) := by
  simp [Dues, applicationsOfUser]

theorem decideApplication_dues (id : ApplicationId) :
    Dues clock P (decideApplication policy id limit) := by
  simp [Dues, decideApplication, getApplication, verdict]

/-- The settlement of a payment is due one delay after the moment at which it is made. -/
theorem pay_dues (hP : P (clock.add policy.delayMillis)) (request : PaymentRequest) :
    Dues clock P (pay policy request limit) := by
  simp [Dues, pay, getApplication, checkCredit, settledTotal, hP]

theorem abides_paymentDetails {ok : PaymentDetails → Unit → Prop} {fail : Unit → Prop}
    (hok : ∀ details, ok details ()) (hfail : fail ()) (id : PaymentId) :
    Abides (.dues clock P) (paymentDetails id limit) ok fail () := by
  simp [paymentDetails, hok, hfail]

theorem paymentDetails_dues (id : PaymentId) : Dues clock P (paymentDetails id limit) :=
  abides_paymentDetails (fun _ => trivial) trivial id

theorem payments_dues : Dues clock P (payments limit) := by
  simp [Dues, payments]

theorem allPaymentDetails_dues : Dues clock P (allPaymentDetails limit) := by
  have hall : ∀ (all : List Payment) (ok : List PaymentDetails → Unit → Prop),
      (∀ details, ok details ()) → Abides (.dues clock P)
        (all.mapM fun payment => paymentDetails payment.id limit) ok (fun _ => True) () := by
    intro all
    induction all with
    | nil => exact fun ok hok => hok []
    | cons p rest ih =>
      intro ok hok
      rw [List.mapM_cons, abides_bind]
      refine abides_paymentDetails (fun details => ?_) trivial p.id
      rw [abides_bind]
      exact ih _ fun others => hok _
  simp only [Dues, allPaymentDetails, payments, abides_bind, dues_boundedCall]
  exact ⟨fun all => hall all _ fun _ => trivial, trivial⟩

theorem abides_settlePayment {ok : Unit → Unit → Prop} {fail : Unit → Prop} {id : PaymentId}
    (hok : ok () ()) (hfail : fail ()) (payment : Payment) :
    Abides (.dues clock P) (settlePayment policy id payment limit) ok fail () := by
  simp [settlePayment, getApplication, checkCredit, settledTotal, writeSchedule, removeSchedule,
    hok, hfail]

theorem deliverPayment_dues (id : PaymentId) (token : String) :
    Dues clock P (deliverPayment policy id token limit) := by
  simp only [Dues, deliverPayment, abides_bind, abides_require, dues_locked, dues_boundedCall,
    abides_found]
  refine ⟨fun next _ => ⟨trivial, fun found => ?_, trivial⟩, fun _ _ => trivial⟩
  refine ⟨fun p _ => ⟨fun transition _ => ?_, fun _ _ => trivial⟩, fun _ => trivial⟩
  cases transition with
  | unchanged => trivial
  | applied =>
    cases next with
    | successful =>
      rw [abides_bind]
      apply abides_settlePayment
      · simp only [abides_bind, dues_cancel, abides_pure]
        simp
      · trivial
    | pending | failed =>
      simp [failPayment]

theorem deliverInstallment_dues (id : InstallmentId) (token : String) :
    Dues clock P (deliverInstallment id token limit) := by
  simp only [Dues, deliverInstallment, getInstallment, abides_bind, abides_require, dues_locked,
    dues_boundedCall, abides_found, abides_ite, abides_throw]
  refine ⟨fun next _ => ⟨trivial, ⟨fun found => ?_, trivial⟩⟩, fun _ _ => trivial⟩
  refine ⟨fun entry _ => ⟨fun _ => trivial, fun _ => ⟨fun transition _ => ?_, fun _ _ => trivial⟩⟩,
    fun _ => trivial⟩
  cases transition with
  | unchanged => trivial
  | applied =>
    simp

/-- And so is the collection of an installment. -/
theorem collect_dues (hP : P (clock.add policy.delayMillis)) (id : InstallmentId) :
    Dues clock P (collect policy id limit) := by
  simp [Dues, collect, getInstallment, hP]

theorem fileLoan_dues (request : LoanRequest) : Dues clock P (fileLoan policy request limit) := by
  simp [Dues, fileLoan]

theorem decideLoan_dues (id : LoanId) : Dues clock P (decideLoan policy id limit) := by
  simp [Dues, decideLoan, getLoan, verdict]

theorem activateLoan_dues (id : LoanId) : Dues clock P (activateLoan policy id limit) := by
  simp [Dues, activateLoan, getLoan, writeSchedule, removeSchedule]

theorem repayLoan_dues (id : LoanId) (request : RepaymentRequest) :
    Dues clock P (repayLoan policy id request limit) := by
  simp [Dues, repayLoan, getLoan, scheduleOf, revertEntries, writeEntries]

theorem defaultLoan_dues (id : LoanId) : Dues clock P (defaultLoan id limit) := by
  simp [Dues, defaultLoan, getLoan, scheduleOf, revertEntries, writeEntries]

theorem loanDetails_dues (id : LoanId) : Dues clock P (loanDetails id limit) := by
  simp [Dues, loanDetails, getLoan, scheduleOf]

theorem repaymentsOf_dues (id : LoanId) : Dues clock P (repaymentsOf id limit) := by
  simp [Dues, repaymentsOf, getLoan]

theorem loansOfUser_dues (user : String) : Dues clock P (loansOfUser user limit) := by
  simp [Dues, loansOfUser]

/-! ## Deliveries -/

theorem deliver_dues (n : Notification) : Dues clock P (deliver policy n) := by
  cases n with
  | paymentSettled id => exact deliverPayment_dues id _
  | installmentCollected id => exact deliverInstallment_dues id _

/-- Deliveries schedule nothing. -/
theorem deliverAll_dues (ns : List Notification) :
    (deliverAll policy ns).Dues clock fun _ => False := by
  induction ns with
  | nil => trivial
  | cons n rest ih =>
    refine (Program.abides_bind (deliver policy n).run _).mpr ((deliver_dues n).program.mono ?_)
    rintro outcome ⟨⟩ -
    refine (Program.abides_bind (deliverAll policy rest) _).mpr (ih.mono ?_)
    exact fun _ _ _ => trivial

end Engine

/-- Whatever a call schedules is due one settlement delay after the moment of the call. -/
theorem EngineCall.dues {policy : Policy} {clock : Instant} {P : Instant → Prop}
    (hP : P (clock.add policy.delayMillis)) (call : EngineCall) (limit : Deadline) :
    Operation.Dues clock P (call.program policy limit) := by
  cases call with
  | apply request => exact Engine.apply_dues request
  | decideApplication id => exact Engine.decideApplication_dues id
  | getApplication id => exact Engine.getApplication_dues id
  | applicationsOfUser user => exact Engine.applicationsOfUser_dues user
  | pay request => exact Engine.pay_dues hP request
  | paymentDetails id => exact Engine.paymentDetails_dues id
  | payments => exact Engine.payments_dues
  | allPaymentDetails => exact Engine.allPaymentDetails_dues
  | deliverPayment id token => exact Engine.deliverPayment_dues id token
  | deliverInstallment id token => exact Engine.deliverInstallment_dues id token
  | collect id => exact Engine.collect_dues hP id
  | fileLoan request => exact Engine.fileLoan_dues request
  | decideLoan id => exact Engine.decideLoan_dues id
  | activateLoan id => exact Engine.activateLoan_dues id
  | repayLoan id request => exact Engine.repayLoan_dues id request
  | defaultLoan id => exact Engine.defaultLoan_dues id
  | loanDetails id => exact Engine.loanDetails_dues id
  | repaymentsOf id => exact Engine.repaymentsOf_dues id
  | loansOfUser user => exact Engine.loansOfUser_dues user

/-! ## Runs -/

namespace World

variable {w : World} {clock : Instant} {P : Instant → Prop}

/-- The clock stands still, and everything that waits waits until an instant that `P` allows. -/
structure Expects (clock : Instant) (P : Instant → Prop) (w : World) : Prop where
  clock_eq : w.clock = clock
  still : w.clockRuns = false
  queue : w.queue.Sound
  dues : ∀ n due, w.queue.Waits n due → P due

/-- Time that passes does not change that, since the clock does not go on with it. -/
theorem Expects.passTo (h : w.Expects clock P) (time : Nat) : (w.passTo time).Expects clock P := by
  unfold World.passTo
  split
  · refine ⟨?_, h.still, h.queue, h.dues⟩
    simp only [h.still]
    exact h.clock_eq
  · exact h

theorem Expects.callStore (h : w.Expects clock P) (call : StoreCall) :
    (w.callStore call).2.Expects clock P := by
  simp only [World.callStore]
  cases w.outages.next call.method with
  | some fault => cases fault <;> exact ⟨h.clock_eq, h.still, h.queue, h.dues⟩
  | none => cases w.store.answer call <;> exact ⟨h.clock_eq, h.still, h.queue, h.dues⟩

/-- A request that may be made leads to no instant that is not allowed. -/
theorem Expects.answer (h : w.Expects clock P) {request : Request}
    (hmay : (Conduct.dues clock P).may () request) :
    (∀ answer, (w.answer request).1 = some answer →
        (Conduct.dues clock P).leads () request answer ()) ∧
      (w.answer request).2.Expects clock P := by
  cases request with
  | now =>
    refine ⟨?_, h⟩
    rintro _ ⟨⟩
    exact h.clock_eq
  | store call => exact ⟨fun _ _ => trivial, h.callStore call⟩
  | score user limit =>
    refine ⟨fun _ _ => trivial, ?_⟩
    have hpassed := h.passTo (limit.wait w.time w.scoreDelay).2
    simp only [World.answer, drawScore]
    split <;> exact ⟨hpassed.clock_eq, hpassed.still, hpassed.queue, hpassed.dues⟩
  | acquire key limit =>
    refine ⟨fun _ _ => trivial, ?_⟩
    simp only [World.answer]
    split <;> exact ⟨h.clock_eq, h.still, h.queue, h.dues⟩
  | schedule n due =>
    obtain ⟨hsound, hwaits⟩ := h.queue.schedule n due
    refine ⟨fun _ _ => trivial, h.clock_eq, h.still, hsound, fun m due' hwaiting => ?_⟩
    rcases (hwaits m due').mp hwaiting with ⟨-, rfl⟩ | ⟨-, hold⟩
    · exact hmay
    · exact h.dues m due' hold
  | cancel n =>
    obtain ⟨hsound, hwaits⟩ := h.queue.cancel n
    exact ⟨fun _ _ => trivial, h.clock_eq, h.still, hsound,
      fun m due hwaiting => h.dues m due ((hwaits m due).mp hwaiting).2⟩
  | takeDue now => exact hmay.elim
  | release _ | freshOrder | expired _ | pruneLocks =>
    exact ⟨fun _ _ => trivial, h.clock_eq, h.still, h.queue, h.dues⟩

/-- What waits after a run waits until an instant that is allowed. -/
theorem run_dues {α : Type} {p : Program α} (hp : p.Dues clock P) (h : w.Expects clock P) :
    (w.run p).2.Expects clock P := by
  obtain ⟨⟨⟩, hends, -⟩ := Program.Abides.run (I := fun w _ => w.Expects clock P)
    (fun w _ request hw hmay => ⟨(), hw.answer hmay⟩) hp h
  exact hends

/-- A drain at a clock at or after which nothing is due leaves nothing waiting. -/
theorem runDue_dues {policy : Policy} (h : w.Expects clock (· ≤ clock)) :
    (w.run (Engine.runDue policy)).2.Expects clock fun _ => False := by
  obtain ⟨hsound, hwaits⟩ := h.queue.takeDue w.clock
  have htaken : Expects clock (fun _ => False)
      { w with queue := (w.queue.takeDue w.clock).2 } := by
    refine ⟨h.clock_eq, h.still, hsound, fun n due hwaiting => ?_⟩
    obtain ⟨hold, hlater⟩ := (hwaits n due).mp hwaiting
    exact hlater (h.clock_eq.symm ▸ h.dues n due hold)
  have hprogram : Program.Dues clock (fun _ => False)
      ((Engine.deliverAll policy (w.queue.takeDue w.clock).1).bind fun outcomes =>
        .ask .pruneLocks fun _ => .done outcomes) := by
    refine (Program.abides_bind _ _).mpr ((Engine.deliverAll_dues _).mono fun _ _ _ => ?_)
    exact ⟨trivial, fun _ _ _ => trivial⟩
  have hends := run_dues hprogram htaken
  exact hends

end World

end Lending
