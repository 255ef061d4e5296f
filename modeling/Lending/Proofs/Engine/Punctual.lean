import Lending.Proofs.Engine.Atomicity
import Lending.Proofs.Store.Reopening

/-!
# Writes before the deadline

Time passes while a score is waited for, and beside other calls also while a lock is. A call that
has waited asks whether its deadline has expired before it begins to write. So no call asks for a
write at its deadline or later, however long it waits and whatever the store answers.

* `World.writes`: the writes that a run asks for, each with its time.
* `Program.Punctual`: writes are asked for only before the deadline.
* `Operation.Punctual`: the same for operations, with an equation for every part of an operation.
* `EngineCall.onTime`: every call is punctual.
* `EngineCall.writesBefore`: so whatever a run writes, it writes before its deadline.
-/

namespace Lending

/-! ## Reads -/

theorem Archive.reading_ok {α : Type} {s s' : Archive} {found : Except Failure α} {a : α}
    (h : s.reading found = .ok (a, s')) : s' = s := by
  cases found with
  | error cause => cases h
  | ok value =>
    obtain ⟨-, rfl⟩ := Prod.mk.inj (Except.ok.inj h)
    rfl

/-- A read leaves any store as it is. -/
theorem Store.answer_read {s s' : Store} {call : StoreCall} {result : call.Result}
    (hread : call.isRead = true) (h : s.answer call = .ok (result, s')) : s' = s := by
  cases s with
  | memory ledger =>
    obtain ⟨found, hanswer, -⟩ := ledger.answer_read hread
    rw [answer, hanswer] at h
    obtain ⟨-, rfl⟩ := Prod.mk.inj (Except.ok.inj h)
    rfl
  | durable archive =>
    cases hanswer : archive.answer call with
    | error cause =>
      rw [answer, hanswer] at h
      cases h
    | ok answered =>
      have hsame : answered.2 = archive := by
        cases call <;> first
          | exact Archive.reading_ok hanswer
          | cases hread
      rw [answer, hanswer] at h
      obtain ⟨-, rfl⟩ := Prod.mk.inj (Except.ok.inj h)
      rw [hsame]

/-! ## Writes of a run -/

/-- The write that a request asks for, if it does. -/
def Request.write? : Request → Option StoreCall
  | .store call => if call.isRead then none else some call
  | _ => none

namespace World

variable {α : Type}

/-- The writes that a run asks for, each with the time at which it does so. -/
def writes : Program α → World → List (Nat × StoreCall)
  | .done _, _ => []
  | .ask request next, w =>
    (request.write?.map fun call => (w.time, call)).toList ++
      match w.answer request with
      | (some answer, w') => writes (next answer) w'
      | (none, _) => []

/-- A request that asks for no write leaves the store as it is. -/
theorem answer_store_of_write?_none {w : World} {request : Request}
    (h : request.write? = none) : (w.answer request).2.store = w.store := by
  cases request with
  | store call =>
    have hread : call.isRead = true := by
      by_contra hwrite
      rw [Request.write?, if_neg hwrite] at h
      cases h
    simp only [answer, callStore]
    cases w.outages.next call.method with
    | some fault => cases fault <;> rfl
    | none =>
      cases hanswer : w.store.answer call with
      | error cause => rfl
      | ok answered => exact Store.answer_read hread hanswer
  | score user limit =>
    simp only [answer, drawScore, passTo]
    split <;> split <;> rfl
  | acquire key limit =>
    simp only [answer]
    split <;> rfl
  | schedule _ _ | cancel _ | takeDue _ => rfl
  | release _ | expired _ | now | freshOrder | pruneLocks => rfl

/-- A run that asks for no write leaves the store as it is. -/
theorem store_of_writes_nil {p : Program α} {w : World} (h : w.writes p = []) :
    (w.run p).2.store = w.store := by
  induction p generalizing w with
  | done value => rfl
  | ask request next ih =>
    rw [writes, List.append_eq_nil_iff] at h
    obtain ⟨hrequest, hrest⟩ := h
    have hnone : request.write? = none := by simpa using hrequest
    have hstore := answer_store_of_write?_none (w := w) hnone
    rw [run]
    rcases hanswer : w.answer request with ⟨_ | answer, w'⟩ <;> rw [hanswer] at hstore hrest
    · exact hstore
    · exact (ih answer hrest).trans hstore

/-! ### Time -/

theorem time_passTo (w : World) (time : Nat) : (w.passTo time).time = max w.time time := by
  unfold passTo
  split <;> simp <;> omega

theorem time_drawScore (w : World) (inTime : Bool) (user : String) :
    (w.drawScore inTime user).2.time = w.time := by
  unfold drawScore
  split <;> rfl

/-- Time passes only while a score is waited for. -/
theorem time_answer {w : World} {request : Request}
    (h : ∀ user limit, request ≠ .score user limit) :
    (w.answer request).2.time = w.time := by
  cases request with
  | score user limit => exact absurd rfl (h user limit)
  | store call =>
    simp only [answer, callStore]
    cases w.outages.next call.method with
    | some fault => cases fault <;> rfl
    | none => cases w.store.answer call <;> rfl
  | acquire key limit =>
    simp only [answer]
    split <;> rfl
  | schedule _ _ | cancel _ | takeDue _ => rfl
  | release _ | expired _ | now | freshOrder | pruneLocks => rfl

/-- It never goes back. -/
theorem time_le_answer (w : World) (request : Request) :
    w.time ≤ (w.answer request).2.time := by
  cases request with
  | score user limit =>
    simp only [answer, time_drawScore, time_passTo]
    exact Nat.le_max_left _ _
  | store _ | acquire _ _ | release _ | expired _ | now | freshOrder | schedule _ _ | cancel _
  | takeDue _ | pruneLocks => exact Nat.le_of_eq (time_answer fun _ _ => Request.noConfusion).symm

theorem time_le_writes {p : Program α} {w : World} :
    ∀ write ∈ w.writes p, w.time ≤ write.1 := by
  induction p generalizing w with
  | done value => exact fun _ h => absurd h List.not_mem_nil
  | ask request next ih =>
    intro write hwrite
    rw [writes, List.mem_append] at hwrite
    rcases hwrite with hfirst | hrest
    · rw [Option.mem_toList, Option.map_eq_some_iff] at hfirst
      obtain ⟨call, -, rfl⟩ := hfirst
      exact Nat.le_refl _
    · have hlater := time_le_answer w request
      rcases hanswer : w.answer request with ⟨_ | answer, w'⟩ <;> rw [hanswer] at hlater hrest
      · cases hrest
      · exact Nat.le_trans hlater (ih answer write hrest)

end World

/-! ## Programs -/

namespace Program

variable {α β : Type}

/-- Begun at a time, the program asks for writes only while the deadline has not expired, however
long it waits for scores and locks and whatever it is answered, and ends with a result and at a time
that satisfy `Q`. -/
def Punctual (limit : Deadline) (Q : α → Nat → Prop) : Program α → Nat → Prop
  | .done value, now => Q value now
  | .ask (.store call) next, now =>
    (call.isRead = false → limit.isExpired now = false) ∧
      ∀ answer, (next answer).Punctual limit Q now
  | .ask (.score _ _) next, now | .ask (.acquire _ _) next, now =>
    ∀ later, now ≤ later → ∀ answer, (next answer).Punctual limit Q later
  | .ask (.expired d) next, now => (next (d.isExpired now)).Punctual limit Q now
  | .ask _ next, now => ∀ answer, (next answer).Punctual limit Q now

theorem punctual_bind {limit : Deadline} {Q : β → Nat → Prop} (p : Program α)
    (f : α → Program β) (now : Nat) :
    (p.bind f).Punctual limit Q now ↔
      p.Punctual limit (fun a later => (f a).Punctual limit Q later) now := by
  induction p generalizing now with
  | done value => rfl
  | ask request next ih =>
    cases request with
    | store call => exact and_congr_right fun _ => forall_congr' fun answer => ih answer now
    | score _ _ | acquire _ _ =>
      exact forall_congr' fun later => imp_congr_right fun _ => forall_congr' fun answer =>
        ih answer later
    | expired d => exact ih _ now
    | release _ | now | freshOrder | schedule _ _ | cancel _ | takeDue _
    | pruneLocks => exact forall_congr' fun answer => ih answer now

/-- A punctual program asks for no write at its deadline or later. -/
theorem Punctual.writes {limit : Deadline} {Q : α → Nat → Prop} {p : Program α} {w : World}
    (hp : p.Punctual limit Q w.time) : ∀ write ∈ w.writes p, limit.isExpired write.1 = false := by
  induction p generalizing w with
  | done value => exact fun _ h => absurd h List.not_mem_nil
  | ask request next ih =>
    intro write hwrite
    rw [World.writes, List.mem_append] at hwrite
    rcases hwrite with hfirst | hrest
    · rw [Option.mem_toList, Option.map_eq_some_iff] at hfirst
      obtain ⟨call, hcall, rfl⟩ := hfirst
      cases request with
      | store asked =>
        rw [Request.write?, Option.ite_none_left_eq_some] at hcall
        exact hp.1 (by simpa using hcall.1)
      | acquire _ _ | release _ | score _ _ | expired _ | now | freshOrder | schedule _ _
      | cancel _ | takeDue _ | pruneLocks => cases hcall
    · -- the answer is one of those for which the rest is punctual
      have hnext : ∀ answer, (w.answer request).1 = some answer →
          (next answer).Punctual limit Q (w.answer request).2.time := by
        intro answer hanswer
        cases request with
        | score user d => exact hp _ (World.time_le_answer w (.score user d)) answer
        | acquire key d => exact hp _ (World.time_le_answer w (.acquire key d)) answer
        | store call =>
          rw [World.time_answer fun _ _ => Request.noConfusion]
          exact hp.2 answer
        | expired d =>
          obtain rfl := Option.some.inj hanswer
          exact hp
        | release _ | now | freshOrder | schedule _ _ | cancel _ | takeDue _ | pruneLocks =>
          rw [World.time_answer fun _ _ => Request.noConfusion]
          exact hp answer
      rcases hanswer : w.answer request with ⟨_ | answer, w'⟩ <;> rw [hanswer] at hrest hnext
      · cases hrest
      · exact ih answer (hnext answer rfl) write hrest

end Program

/-! ## Operations -/

namespace Operation

variable {α β : Type}

/-- The same of an operation, which ends with a value at a time that satisfy `ok`, or fails at a
time that satisfies `fail`. -/
def Punctual (limit : Deadline) (op : Operation α) (ok : α → Nat → Prop) (fail : Nat → Prop)
    (now : Nat) : Prop :=
  Program.Punctual limit (fun
    | .ok a => ok a
    | .error _ => fail) op.run now

variable {limit : Deadline} {ok : α → Nat → Prop} {fail : Nat → Prop} {now : Nat}

theorem punctual_pure (a : α) : Punctual limit (pure a) ok fail now ↔ ok a now := Iff.rfl

theorem punctual_throw (cause : Failure) :
    Punctual limit (throw cause : Operation α) ok fail now ↔ fail now := Iff.rfl

theorem punctual_bind {ok : β → Nat → Prop} (op : Operation α) (f : α → Operation β) :
    Punctual limit (op >>= f) ok fail now ↔
      Punctual limit op (fun a => Punctual limit (f a) ok fail) fail now := by
  refine (Program.punctual_bind _ _ now).trans (iff_of_eq ?_)
  refine congrArg (fun Q => Program.Punctual limit Q op.run now) ?_
  funext result later
  cases result <;> rfl

theorem punctual_map (f : β → α) (op : Operation β) :
    Punctual limit (f <$> op) ok fail now ↔ Punctual limit op (fun a => ok (f a)) fail now := by
  rw [map_eq_pure_bind, punctual_bind]
  rfl

theorem punctual_lift (p : Program α) :
    Punctual limit (liftM p : Operation α) ok fail now ↔ p.Punctual limit ok now :=
  Program.punctual_bind _ _ now

theorem punctual_ite (c : Prop) [Decidable c] (x y : Operation α) :
    Punctual limit (if c then x else y) ok fail now ↔
      (c → Punctual limit x ok fail now) ∧ (¬c → Punctual limit y ok fail now) := by
  split <;> simp [*]

/-! ### Requests and parts -/

theorem punctual_now {ok : Instant → Nat → Prop} :
    Punctual limit (liftM Operation.now) ok fail now ↔ ∀ t, ok t now := punctual_lift _

theorem punctual_freshOrder {ok : String → Nat → Prop} :
    Punctual limit (liftM freshOrder) ok fail now ↔ ∀ order, ok order now := punctual_lift _

theorem punctual_expired {ok : Bool → Nat → Prop} (d : Deadline) :
    Punctual limit (liftM (expired d)) ok fail now ↔ ok (d.isExpired now) now := punctual_lift _

theorem punctual_schedule {ok : Unit → Nat → Prop} (n : Notification) (due : Instant) :
    Punctual limit (liftM (schedule n due)) ok fail now ↔ ok () now :=
  (punctual_lift _).trans ⟨fun h => h (), fun h _ => h⟩

theorem punctual_cancel {ok : Bool → Nat → Prop} (n : Notification) :
    Punctual limit (liftM (cancel n)) ok fail now ↔ ∀ waiting, ok waiting now := punctual_lift _

theorem punctual_score {ok : CreditScore → Nat → Prop} (user : String) (d : Deadline) :
    Punctual limit (score user d) ok fail now ↔
      ∀ later, now ≤ later → (∀ s, ok s later) ∧ fail later := by
  refine forall_congr' fun later => imp_congr_right fun _ => ?_
  constructor
  · intro h
    exact ⟨fun s => h (.ok s), h (.error .timeout)⟩
  · rintro ⟨hok, hfail⟩ (cause | s)
    · exact hfail
    · exact hok s

-- the type of the result is a case of `StoreCall.Result`, by which `simp` could not find the rule
theorem punctual_call (c : StoreCall) {ok : c.Result → Nat → Prop} :
    @Punctual (no_index c.Result) limit (call c) ok fail now ↔
      (c.isRead = false → limit.isExpired now = false) ∧ (∀ result, ok result now) ∧ fail now := by
  refine and_congr_right fun _ => ?_
  constructor
  · intro h
    exact ⟨fun result => h (.ok result), h (.error .timeout)⟩
  · rintro ⟨hok, hfail⟩ (cause | result)
    · exact hfail
    · exact hok result

theorem punctual_require (result : Except Failure α) :
    Punctual limit (require result) ok fail now ↔
      (∀ a, result = .ok a → ok a now) ∧ ∀ cause, result = .error cause → fail now := by
  cases result with
  | error cause =>
    constructor
    · intro h
      refine ⟨?_, fun _ _ => h⟩
      rintro _ ⟨⟩
    · intro h
      exact h.2 cause rfl
  | ok a =>
    constructor
    · intro h
      refine ⟨?_, ?_⟩ <;> rintro _ ⟨⟩
      exact h
    · intro h
      exact h.1 a rfl

theorem punctual_check {ok : Unit → Nat → Prop} (d : Deadline) :
    Punctual limit (check d) ok fail now ↔
      (d.isExpired now = true → fail now) ∧ (d.isExpired now = false → ok () now) := by
  simp only [check, punctual_bind, punctual_expired, punctual_ite, punctual_throw, punctual_pure,
    Bool.not_eq_true]

theorem punctual_boundedCall (d : Deadline) (c : StoreCall) {ok : c.Result → Nat → Prop} :
    @Punctual (no_index c.Result) limit (boundedCall d c) ok fail now ↔
      (d.isExpired now = true → fail now) ∧ (d.isExpired now = false →
        (c.isRead = false → limit.isExpired now = false) ∧
          (∀ result, ok result now) ∧ fail now) := by
  simp only [boundedCall, punctual_bind, punctual_check, punctual_call]

theorem punctual_found {e : Entity} (id : Id e) (row : Option α) :
    Punctual limit (found id row) ok fail now ↔
      (∀ a, row = some a → ok a now) ∧ (row = none → fail now) := by
  unfold found
  rw [punctual_require]
  cases row <;> simp

theorem punctual_locked (key : LockKey) (d : Deadline) (body : Operation α) :
    Punctual limit (locked key d body) ok fail now ↔
      ∀ later, now ≤ later → fail later ∧ Punctual limit body ok fail later := by
  refine forall_congr' fun later => imp_congr_right fun _ => ?_
  have hbody : (body.run.bind fun result => .ask (.release key) fun _ => .done result).Punctual
      limit (fun
        | .ok a => ok a
        | .error _ => fail) later ↔ Punctual limit body ok fail later := by
    rw [Program.punctual_bind]
    refine iff_of_eq (congrArg (fun Q => Program.Punctual limit Q body.run later) ?_)
    funext result time
    exact propext ⟨fun h => h (), fun h _ => h⟩
  rw [← hbody]
  constructor
  · intro h
    exact ⟨h false, h true⟩
  · rintro ⟨hlate, hgranted⟩ (_ | _)
    · exact hlate
    · exact hgranted

theorem punctual_compensated (write : Operation α) (undo : Operation β) :
    Punctual limit (compensated write undo) ok fail now ↔
      Punctual limit write ok (Punctual limit undo (fun _ => fail) fail) now := by
  refine (Program.punctual_bind _ _ now).trans (iff_of_eq ?_)
  refine congrArg (fun Q => Program.Punctual limit Q write.run now) ?_
  funext result later
  cases result with
  | error cause =>
    refine propext ((Program.punctual_bind _ _ later).trans (iff_of_eq ?_))
    refine congrArg (fun Q => Program.Punctual limit Q undo.run later) ?_
    funext result time
    cases result <;> rfl
  | ok a => rfl

/-- Begun at a time, the operation asks for writes only while the deadline has not expired. -/
def OnTime (limit : Deadline) (op : Operation α) (now : Nat) : Prop :=
  Punctual limit op (fun _ _ => True) (fun _ => True) now

/-- No write of an operation that is on time is asked for at the deadline or later. -/
theorem OnTime.writes {op : Operation α} {w : World} (h : OnTime limit op w.time) :
    ∀ write ∈ w.writes op.run, limit.isExpired write.1 = false :=
  Program.Punctual.writes h

end Operation

namespace Engine

open Operation

variable {policy : Policy} {limit : Deadline} {now : Nat}

attribute [local simp] StoreCall.isRead

/-! ## Calls -/

theorem apply_onTime (request : ApplicationRequest) :
    OnTime limit (apply policy request limit) now := by
  simp only [OnTime, apply, punctual_bind, punctual_require, punctual_check, punctual_now,
    punctual_call, punctual_pure]
  simp +contextual

theorem getApplication_onTime (id : ApplicationId) :
    OnTime limit (getApplication id limit) now := by
  simp only [OnTime, getApplication, punctual_bind, punctual_boundedCall, punctual_found]
  simp

theorem applicationsOfUser_onTime (user : String) :
    OnTime limit (applicationsOfUser user limit) now := by
  simp only [OnTime, applicationsOfUser, punctual_boundedCall]
  simp

/-- The score takes time, so the deadline is checked again before the verdict is written. -/
theorem decideApplication_onTime (id : ApplicationId) :
    OnTime limit (decideApplication policy id limit) now := by
  simp only [OnTime, decideApplication, getApplication, verdict, punctual_locked, punctual_bind,
    punctual_boundedCall, punctual_found, punctual_ite, punctual_throw, punctual_score,
    punctual_require, punctual_check, punctual_now, punctual_call, punctual_pure]
  simp +contextual

theorem pay_onTime (request : PaymentRequest) :
    OnTime limit (pay policy request limit) now := by
  simp only [OnTime, pay, getApplication, checkCredit, settledTotal, punctual_locked,
    punctual_bind, punctual_boundedCall, punctual_found, punctual_ite, punctual_throw,
    punctual_require, punctual_check, punctual_now, punctual_freshOrder, punctual_call,
    punctual_schedule, punctual_pure]
  simp +contextual

theorem punctual_paymentDetails {ok : PaymentDetails → Nat → Prop} {fail : Nat → Prop}
    (hok : ∀ details, ok details now) (hfail : fail now) (id : PaymentId) :
    Punctual limit (paymentDetails id limit) ok fail now := by
  simp only [paymentDetails, punctual_bind, punctual_boundedCall, punctual_found, punctual_pure]
  simp [hok, hfail]

theorem paymentDetails_onTime (id : PaymentId) : OnTime limit (paymentDetails id limit) now :=
  punctual_paymentDetails (fun _ => trivial) trivial id

theorem payments_onTime : OnTime limit (payments limit) now := by
  simp only [OnTime, payments, punctual_boundedCall]
  simp

theorem allPaymentDetails_onTime : OnTime limit (allPaymentDetails limit) now := by
  have hall : ∀ (all : List Payment) (ok : List PaymentDetails → Nat → Prop),
      (∀ details, ok details now) →
        Punctual limit (all.mapM fun payment => paymentDetails payment.id limit) ok
          (fun _ => True) now := by
    intro all
    induction all with
    | nil => exact fun ok hok => hok []
    | cons p rest ih =>
      intro ok hok
      rw [List.mapM_cons, punctual_bind]
      refine punctual_paymentDetails (fun details => ?_) trivial p.id
      rw [punctual_bind]
      exact ih _ fun others => hok _
  simp only [OnTime, allPaymentDetails, payments, punctual_bind, punctual_boundedCall]
  refine ⟨fun _ => trivial, fun _ => ⟨?_, fun all => hall all _ fun _ => trivial, trivial⟩⟩
  rintro ⟨⟩

theorem punctual_settlePayment {ok : Unit → Nat → Prop} {fail : Nat → Prop} {id : PaymentId}
    (hok : ∀ later, ok () later) (hfail : ∀ later, fail later) (payment : Payment) :
    Punctual limit (settlePayment policy id payment limit) ok fail now := by
  simp only [settlePayment, getApplication, checkCredit, settledTotal, writeSchedule,
    removeSchedule, punctual_locked, punctual_bind, punctual_boundedCall, punctual_found,
    punctual_ite, punctual_throw, punctual_require, punctual_check, punctual_now, punctual_call,
    punctual_compensated, punctual_pure]
  simp +contextual [hok, hfail]

theorem deliverPayment_onTime (id : PaymentId) (token : String) :
    OnTime limit (deliverPayment policy id token limit) now := by
  simp only [OnTime, deliverPayment, punctual_bind, punctual_require, punctual_locked,
    punctual_boundedCall, punctual_found]
  refine ⟨fun next _ later _ => ?_, fun _ _ => trivial⟩
  refine ⟨trivial, fun _ => trivial, fun _ => ⟨?_, fun found => ?_, trivial⟩⟩
  · rintro ⟨⟩
  refine ⟨fun p _ => ⟨fun transition _ => ?_, fun _ _ => trivial⟩, fun _ => trivial⟩
  cases transition with
  | unchanged => trivial
  | applied =>
    cases next with
    | successful =>
      rw [punctual_bind]
      apply punctual_settlePayment
      · simp only [punctual_bind, punctual_cancel, punctual_pure]
        simp
      · exact fun _ => trivial
    | pending | failed =>
      simp only [failPayment, punctual_bind, punctual_check, punctual_call, punctual_cancel,
        punctual_pure]
      simp +contextual

theorem deliverInstallment_onTime (id : InstallmentId) (token : String) :
    OnTime limit (deliverInstallment id token limit) now := by
  simp only [OnTime, deliverInstallment, getInstallment, punctual_bind, punctual_require,
    punctual_locked, punctual_boundedCall, punctual_found, punctual_ite, punctual_throw]
  refine ⟨fun next _ later _ => ?_, fun _ _ => trivial⟩
  refine ⟨trivial, fun _ => trivial, fun _ => ⟨?_, fun found => ?_, trivial⟩⟩
  · rintro ⟨⟩
  refine ⟨fun entry _ => ⟨fun _ => trivial, fun _ => ⟨fun transition _ => ?_, fun _ _ => trivial⟩⟩,
    fun _ => trivial⟩
  cases transition with
  | unchanged => trivial
  | applied =>
    simp only [punctual_bind, punctual_check, punctual_call, punctual_cancel, punctual_pure]
    simp +contextual

theorem collect_onTime (id : InstallmentId) : OnTime limit (collect policy id limit) now := by
  simp only [OnTime, collect, getInstallment, punctual_locked, punctual_bind,
    punctual_boundedCall, punctual_found, punctual_ite, punctual_throw, punctual_now,
    punctual_schedule, punctual_pure]
  simp

theorem fileLoan_onTime (request : LoanRequest) :
    OnTime limit (fileLoan policy request limit) now := by
  simp only [OnTime, fileLoan, punctual_bind, punctual_require, punctual_check, punctual_now,
    punctual_call, punctual_pure]
  simp +contextual

theorem decideLoan_onTime (id : LoanId) : OnTime limit (decideLoan policy id limit) now := by
  simp only [OnTime, decideLoan, getLoan, verdict, punctual_locked, punctual_bind,
    punctual_boundedCall, punctual_found, punctual_ite, punctual_throw, punctual_score,
    punctual_require, punctual_check, punctual_map, punctual_now, punctual_call, punctual_pure]
  simp +contextual

theorem activateLoan_onTime (id : LoanId) : OnTime limit (activateLoan policy id limit) now := by
  simp only [OnTime, activateLoan, getLoan, writeSchedule, removeSchedule, punctual_locked,
    punctual_bind, punctual_boundedCall, punctual_found, punctual_ite, punctual_throw,
    punctual_require, punctual_check, punctual_now, punctual_call, punctual_compensated,
    punctual_pure]
  simp +contextual

theorem repayLoan_onTime (id : LoanId) (request : RepaymentRequest) :
    OnTime limit (repayLoan policy id request limit) now := by
  simp only [OnTime, repayLoan, getLoan, scheduleOf, revertEntries, writeEntries,
    punctual_locked, punctual_bind, punctual_boundedCall, punctual_found, punctual_ite,
    punctual_throw, punctual_require, punctual_check, punctual_now, punctual_call,
    punctual_compensated, punctual_pure]
  simp +contextual

theorem defaultLoan_onTime (id : LoanId) : OnTime limit (defaultLoan id limit) now := by
  simp only [OnTime, defaultLoan, getLoan, scheduleOf, revertEntries, writeEntries,
    punctual_locked, punctual_bind, punctual_boundedCall, punctual_found, punctual_ite,
    punctual_require, punctual_check, punctual_call, punctual_compensated, punctual_pure]
  simp +contextual

theorem loanDetails_onTime (id : LoanId) : OnTime limit (loanDetails id limit) now := by
  simp only [OnTime, loanDetails, getLoan, scheduleOf, punctual_bind, punctual_boundedCall,
    punctual_found, punctual_pure]
  simp

theorem repaymentsOf_onTime (id : LoanId) : OnTime limit (repaymentsOf id limit) now := by
  simp only [OnTime, repaymentsOf, getLoan, punctual_bind, punctual_boundedCall, punctual_found]
  simp

theorem loansOfUser_onTime (user : String) : OnTime limit (loansOfUser user limit) now := by
  simp only [OnTime, loansOfUser, punctual_boundedCall]
  simp

end Engine

/-- Every call asks for writes only while its deadline has not expired. -/
theorem EngineCall.onTime (policy : Policy) (limit : Deadline) (now : Nat) (call : EngineCall) :
    Operation.OnTime limit (call.program policy limit) now := by
  cases call with
  | apply request => exact Engine.apply_onTime request
  | decideApplication id => exact Engine.decideApplication_onTime id
  | getApplication id => exact Engine.getApplication_onTime id
  | applicationsOfUser user => exact Engine.applicationsOfUser_onTime user
  | pay request => exact Engine.pay_onTime request
  | paymentDetails id => exact Engine.paymentDetails_onTime id
  | payments => exact Engine.payments_onTime
  | allPaymentDetails => exact Engine.allPaymentDetails_onTime
  | deliverPayment id token => exact Engine.deliverPayment_onTime id token
  | deliverInstallment id token => exact Engine.deliverInstallment_onTime id token
  | collect id => exact Engine.collect_onTime id
  | fileLoan request => exact Engine.fileLoan_onTime request
  | decideLoan id => exact Engine.decideLoan_onTime id
  | activateLoan id => exact Engine.activateLoan_onTime id
  | repayLoan id request => exact Engine.repayLoan_onTime id request
  | defaultLoan id => exact Engine.defaultLoan_onTime id
  | loanDetails id => exact Engine.loanDetails_onTime id
  | repaymentsOf id => exact Engine.repaymentsOf_onTime id
  | loansOfUser user => exact Engine.loansOfUser_onTime user

/-! ## Worlds -/

/-- A run with a deadline at `moment`: all that it writes is asked for between its beginning and the
deadline, and nothing if it begins no sooner than that. Where the rows have changed, something was
written. -/
structure World.WritesBefore {α : Type} (w : World) (p : Program α) (moment : Nat) : Prop where
  before : ∀ write ∈ w.writes p, w.time ≤ write.1 ∧ write.1 < moment
  changes : (w.run p).2.store ≠ w.store → w.writes p ≠ []
  expired : moment ≤ w.time → w.writes p = [] ∧ (w.run p).2.store = w.store

theorem EngineCall.writesBefore (policy : Policy) (w : World) (call : EngineCall) (moment : Nat) :
    w.WritesBefore (call.program policy ⟨some moment⟩).run moment := by
  have hbefore : ∀ write ∈ w.writes (call.program policy ⟨some moment⟩).run,
      w.time ≤ write.1 ∧ write.1 < moment := by
    intro write hwrite
    have hlimit := (call.onTime policy ⟨some moment⟩ w.time).writes write hwrite
    exact ⟨World.time_le_writes write hwrite, by simpa [Deadline.isExpired] using hlimit⟩
  refine ⟨hbefore, fun hchanged hnone => hchanged (World.store_of_writes_nil hnone), ?_⟩
  intro hlate
  have hnone : w.writes (call.program policy ⟨some moment⟩).run = [] := by
    refine List.eq_nil_iff_forall_not_mem.mpr fun write hwrite => ?_
    have hwindow := hbefore write hwrite
    omega
  exact ⟨hnone, World.store_of_writes_nil hnone⟩

end Lending
