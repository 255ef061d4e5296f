import Lending.Proofs.Engine.LoanRetries
import Lending.Proofs.Text.Digits

/-!
# Calls that fail leave nothing behind

Where every lock is free and the store works, a call that fails has not written anything: all that
it can fail for is asked before its first write, and the writes themselves find their rows and
their new order references. Nor has it drawn a reference, moved a notification or used up a score.

* `OrderSource.reference_injective`: no reference is given twice.
* `Scene.Calm`: the store is in order, its references are old, the clock stands, and scores neither
  take time nor change. Kept by every call that succeeds.
* `Scene.Spares`: an operation that fails ends where it began, with a rule for every part of an
  operation.
* `Scene.Calm.spares`: every call does so, whatever its deadline.
* `Scene.Calm.runDue`: so a drain leaves a calm scene, whatever it cannot deliver.
-/

namespace Lending

/-! ## References -/

namespace OrderSource

/-- The parts of a reference are the digits of its number. -/
theorem eq_of_parts_eq {x y : List Char} (hx : 18 ≤ x.length) (hy : 18 ≤ y.length)
    (h : x.take 8 ++ '-' :: (x.drop 8).take 4 ++ '-' :: '4' :: (x.drop 12).take 3 ++
        '-' :: '8' :: (x.drop 15).take 3 ++ '-' :: x.drop 18 =
      y.take 8 ++ '-' :: (y.drop 8).take 4 ++ '-' :: '4' :: (y.drop 12).take 3 ++
        '-' :: '8' :: (y.drop 15).take 3 ++ '-' :: y.drop 18) : x = y := by
  simp only [List.append_assoc, List.cons_append] at h
  obtain ⟨hfirst, h⟩ := List.append_inj h (by simp; omega)
  obtain ⟨hsecond, h⟩ := List.append_inj (List.cons.inj h).2 (by simp; omega)
  obtain ⟨hthird, h⟩ := List.append_inj (List.cons.inj (List.cons.inj h).2).2 (by simp; omega)
  obtain ⟨hfourth, h⟩ := List.append_inj (List.cons.inj (List.cons.inj h).2).2 (by simp; omega)
  have hparts : ∀ z : List Char, z = z.take 8 ++ ((z.drop 8).take 4 ++ ((z.drop 12).take 3 ++
      ((z.drop 15).take 3 ++ z.drop 18))) := by
    intro z
    rw [show z.drop 18 = (z.drop 15).drop 3 by simp, List.take_append_drop,
      show z.drop 15 = (z.drop 12).drop 3 by simp, List.take_append_drop,
      show z.drop 12 = (z.drop 8).drop 4 by simp, List.take_append_drop, List.take_append_drop]
  rw [hparts x, hparts y, hfirst, hsecond, hthird, hfourth, (List.cons.inj h).2]

theorem reference_injective {n m : Nat} (h : reference n = reference m) : n = m := by
  have hlength : ∀ k, 18 ≤ (List.replicate (30 - (Nat.toDigits 16 k).length) '0' ++
      Nat.toDigits 16 k).length := by
    intro k
    rw [List.length_append, List.length_replicate]
    omega
  have hdigits := eq_of_parts_eq (hlength n) (hlength m) (String.ofList_injective h)
  have hn := Text.hexadecimal?_replicate_append (30 - (Nat.toDigits 16 n).length) n
  rw [hdigits, Text.hexadecimal?_replicate_append] at hn
  exact (Option.some.inj hn).symm

/-- The source will give this reference, at once or later. -/
def Gives (s : OrderSource) (order : String) : Prop := ∃ k, order = reference (s.number + k)

theorem number_next (s : OrderSource) : s.next.2.number = s.number + 1 := by
  simp only [number, next, Nat.add_assoc]

theorem Gives.of_next {s : OrderSource} {order : String} (h : s.next.2.Gives order) :
    s.Gives order := by
  obtain ⟨k, rfl⟩ := h
  exact ⟨1 + k, by rw [number_next, Nat.add_assoc]⟩

theorem gives_next (s : OrderSource) : s.Gives s.next.1 := ⟨0, by simp only [next, Nat.add_zero]⟩

/-- A reference that was given is not given again. -/
theorem not_gives_next (s : OrderSource) : ¬s.next.2.Gives s.next.1 := by
  rintro ⟨k, heq⟩
  have hnumber : s.number = s.next.2.number + k := reference_injective heq
  rw [number_next] at hnumber
  omega

end OrderSource

/-- What takes no time is waited for in no time. -/
theorem Deadline.wait_zero (limit : Deadline) (now : Nat) : (limit.wait now 0).2 = now := by
  unfold wait isExpired
  cases limit.moment with
  | none => rfl
  | some moment =>
    by_cases hlate : moment ≤ now
    · simp [hlate]
    · have hin : now ≤ moment := by omega
      simp [hlate, hin]

namespace Scene

open Operation

/-! ## Calm scenes -/

/-- The store is in order, no payment has a reference that will be given, the clock is moved by
hand, and scores take no time and leave the scorer as it is. -/
structure Calm (s : Scene) : Prop where
  ordered : s.books.ledger.Ordered
  fresh : ∀ p ∈ s.books.ledger.payments.values, ¬s.around.orders.Gives p.order
  steady : ∀ user, (s.around.scorer.score user).2 = s.around.scorer
  prompt : s.around.scoreDelay = 0
  still : s.around.clockRuns = false

section Calm

variable {s : Scene}

/-- New books whose payments have the references of old ones. -/
theorem Calm.books (h : s.Calm) {b : Books} (hordered : b.ledger.Ordered)
    (horders : ∀ p ∈ b.ledger.payments.values,
      ∃ old ∈ s.books.ledger.payments.values, old.order = p.order) :
    Calm { s with books := b } where
  ordered := hordered
  fresh p hp := by
    obtain ⟨old, hold, horder⟩ := horders p hp
    exact horder ▸ h.fresh old hold
  steady := h.steady
  prompt := h.prompt
  still := h.still

/-- A store call that leaves the payments alone, and any change of the queue. -/
theorem Calm.answer (h : s.Calm) {c : StoreCall} {result : c.Result} {l : Ledger}
    (hanswer : s.books.ledger.answer c = .ok (result, l))
    (hpayments : l.payments = s.books.ledger.payments) (queue : Queue) :
    Calm { s with books := { ledger := l, queue } } :=
  h.books (h.ordered.answer hanswer) fun p hp => ⟨p, hpayments ▸ hp, rfl⟩

theorem Calm.queue (h : s.Calm) (queue : Queue) :
    Calm { s with books := { s.books with queue } } :=
  h.books h.ordered fun p hp => ⟨p, hp, rfl⟩

/-- A payment is written again, with its reference. -/
theorem Calm.updatePayment (h : s.Calm) {old : Payment} (new : Payment)
    (hold : s.books.ledger.payments.get? old.id = some old) (hid : new.id = old.id)
    (horder : new.order = old.order) :
    ∃ l, s.books.ledger.answer (.updatePayment new) = .ok ((), l) ∧
      ∀ queue, Calm { s with books := { ledger := l, queue } } := by
  have hanswer := Ledger.answer_updatePayment (Option.isSome_of_eq_some (hid ▸ hold))
  refine ⟨_, hanswer, fun queue => h.books (h.ordered.answer hanswer) fun p hp => ?_⟩
  rcases h.ordered.payments.mem_values_insert.mp hp with rfl | ⟨-, hrest⟩
  · exact ⟨old, h.ordered.payments.mem_values.mpr hold, horder.symm⟩
  · exact ⟨p, hrest, rfl⟩

/-- A loan is written again. -/
theorem Calm.updateLoan (h : s.Calm) {old : Loan} (new : Loan)
    (hold : s.books.ledger.loans.get? old.id = some old) (hid : new.id = old.id) :
    ∃ l, s.books.ledger.answer (.updateLoan new) = .ok ((), l) ∧
      ∀ queue, Calm { s with books := { ledger := l, queue } } := by
  have hanswer := Ledger.answer_updateLoan (Option.isSome_of_eq_some (hid ▸ hold))
  exact ⟨_, hanswer, h.answer (c := .updateLoan new) hanswer rfl⟩

/-- A repayment is recorded with the loan. -/
theorem Calm.recordRepayment (h : s.Calm) {old : Loan} (new : Loan) (r : Repayment)
    (hold : s.books.ledger.loans.get? old.id = some old) (hid : new.id = old.id) :
    ∃ recorded l, s.books.ledger.answer (.recordRepayment new r) = .ok (recorded, l) ∧
      ∀ queue, Calm { s with books := { ledger := l, queue } } := by
  have hanswer := Ledger.answer_recordRepayment (r := r) (Option.isSome_of_eq_some (hid ▸ hold))
  exact ⟨_, _, hanswer, h.answer (c := .recordRepayment new r) hanswer rfl⟩

/-- The reference of a new payment is the one that was just given, so its row is created. -/
theorem Calm.createPayment (h : s.Calm) (p : Payment) (horder : p.order = s.around.orders.next.1) :
    ∃ created l, s.books.ledger.answer (.createPayment p) = .ok (created, l) ∧ ∀ queue,
      Calm ⟨{ ledger := l, queue }, { s.around with orders := s.around.orders.next.2 }⟩ := by
  have hnew : ∀ other ∈ s.books.ledger.payments.values, other.order ≠ p.order := by
    intro other hother heq
    exact h.fresh other hother (heq.trans horder ▸ s.around.orders.gives_next)
  have hanswer : s.books.ledger.answer (.createPayment p) = .ok _ :=
    Ledger.createPayment_ok.mpr ⟨hnew, rfl, rfl⟩
  refine ⟨_, _, hanswer, fun queue =>
    ⟨h.ordered.answer hanswer, ?_, h.steady, h.prompt, h.still⟩⟩
  intro q hq hgives
  rcases h.ordered.payments.mem_values_insert.mp hq with rfl | ⟨-, hold⟩
  · exact s.around.orders.not_gives_next (horder ▸ hgives)
  · exact h.fresh q hold hgives.of_next

theorem Calm.marked (h : s.Calm) (status : InstallmentStatus) (entries : List Installment) :
    Calm { s with books := { s.books with ledger := s.books.ledger.marked status entries } } :=
  h.books { h.ordered with installments := Ledger.insertBatch_booked h.ordered.installments _ }
    fun p hp => ⟨p, hp, rfl⟩

end Calm

/-! ## Operations that fail where they began -/

variable {α β : Type}

/-- Begun in `s`, the operation ends with a value and a scene that satisfy `ok`, or fails and ends
in the scene `origin`. -/
def Spares (origin : Scene) (op : Operation α) (ok : α → Scene → Prop) (s : Scene) : Prop :=
  match s.perform op with
  | (.ok a, s') => ok a s'
  | (.error _, s') => s' = origin

section Rules

variable {origin s : Scene} {ok : α → Scene → Prop}

theorem spares_of_eq {op : Operation α} {a : α} {s' : Scene} (h : s.perform op = (.ok a, s')) :
    Spares origin op ok s ↔ ok a s' := by
  rw [Spares, h]

theorem Spares.mono {ok' : α → Scene → Prop} {op : Operation α} (h : Spares origin op ok s)
    (hok : ∀ a s', ok a s' → ok' a s') : Spares origin op ok' s := by
  unfold Spares at h ⊢
  rcases hrun : s.perform op with ⟨cause | a, s'⟩ <;> rw [hrun] at h
  · exact h
  · exact hok a s' h

theorem spares_pure (a : α) : Spares origin (pure a) ok s ↔ ok a s := Iff.rfl

theorem spares_throw (cause : Failure) :
    Spares origin (throw cause : Operation α) ok s ↔ s = origin := Iff.rfl

theorem spares_bind {ok : β → Scene → Prop} (op : Operation α) (f : α → Operation β) :
    Spares origin (op >>= f) ok s ↔ Spares origin op (fun a => Spares origin (f a) ok) s := by
  unfold Spares
  rw [perform_bind]
  rcases s.perform op with ⟨cause | a, s'⟩ <;> rfl

theorem spares_map (f : β → α) (op : Operation β) :
    Spares origin (f <$> op) ok s ↔ Spares origin op (fun a => ok (f a)) s := by
  rw [map_eq_pure_bind, spares_bind]
  rfl

theorem spares_ite (c : Prop) [Decidable c] (x y : Operation α) :
    Spares origin (if c then x else y) ok s ↔
      (c → Spares origin x ok s) ∧ (¬c → Spares origin y ok s) := by
  split <;> simp [*]

theorem spares_now {ok : Instant → Scene → Prop} :
    Spares origin (liftM now) ok s ↔ ok s.around.clock s := spares_of_eq (perform_now s)

theorem spares_freshOrder {ok : String → Scene → Prop} :
    Spares origin (liftM freshOrder) ok s ↔ ok s.around.orders.next.1
      { s with around := { s.around with orders := s.around.orders.next.2 } } :=
  spares_of_eq (perform_freshOrder s)

theorem spares_schedule {ok : Unit → Scene → Prop} (n : Notification) (due : Instant) :
    Spares origin (liftM (schedule n due)) ok s ↔
      ok () { s with books := { s.books with queue := s.books.queue.schedule n due } } :=
  spares_of_eq (perform_schedule s n due)

theorem spares_cancel {ok : Bool → Scene → Prop} (n : Notification) :
    Spares origin (liftM (cancel n)) ok s ↔ ok (s.books.queue.cancel n).1
      { s with books := { s.books with queue := (s.books.queue.cancel n).2 } } := Iff.rfl

-- the type of the result is a case of `StoreCall.Result`, by which `simp` could not find the rules
theorem spares_write {c : StoreCall} {result : c.Result} {l : Ledger}
    (h : s.books.ledger.answer c = .ok (result, l)) {ok : c.Result → Scene → Prop} :
    @Spares (no_index c.Result) origin (call c) ok s ↔
      ok result { s with books := { s.books with ledger := l } } :=
  spares_of_eq (by rw [perform_call, h])

theorem spares_look {c : StoreCall} {found : Ledger → c.Result}
    (h : ∀ l : Ledger, l.answer c = .ok (found l, l)) {ok : c.Result → Scene → Prop} :
    @Spares (no_index c.Result) origin (call c) ok s ↔ ok (found s.books.ledger) s :=
  spares_of_eq (perform_look s h)

theorem spares_require (result : Except Failure α) :
    Spares origin (require result) ok s ↔
      (∀ a, result = .ok a → ok a s) ∧ ∀ cause, result = .error cause → s = origin := by
  unfold Spares
  rw [perform_require]
  cases result <;> simp

theorem spares_found {e : Entity} (id : Id e) (row : Option α) :
    Spares origin (found id row) ok s ↔
      (∀ a, row = some a → ok a s) ∧ (row = none → s = origin) := by
  unfold found
  rw [spares_require]
  cases row <;> simp

theorem spares_check {ok : Unit → Scene → Prop} (limit : Deadline) :
    Spares origin (check limit) ok s ↔
      (limit.isExpired s.around.time = true → s = origin) ∧
        (limit.isExpired s.around.time = false → ok () s) := by
  unfold Spares
  cases hlimit : limit.isExpired s.around.time with
  | true =>
    rw [perform_check_late hlimit]
    simp
  | false =>
    rw [perform_check hlimit]
    simp

theorem spares_boundedLook {limit : Deadline} {c : StoreCall} {found : Ledger → c.Result}
    (h : ∀ l : Ledger, l.answer c = .ok (found l, l)) {ok : c.Result → Scene → Prop} :
    @Spares (no_index c.Result) origin (boundedCall limit c) ok s ↔
      (limit.isExpired s.around.time = true → s = origin) ∧
        (limit.isExpired s.around.time = false → ok (found s.books.ledger) s) := by
  rw [boundedCall, spares_bind, spares_check]
  exact and_congr_right fun _ => imp_congr_right fun _ => spares_look h

theorem spares_locked (key : LockKey) (limit : Deadline) (body : Operation α) :
    Spares origin (locked key limit body) ok s ↔
      (limit.isExpired s.around.time = true → s = origin) ∧
        (limit.isExpired s.around.time = false → Spares origin body ok s) := by
  cases hlimit : limit.isExpired s.around.time with
  | true =>
    unfold Spares
    rw [perform_locked_late hlimit]
    simp
  | false =>
    unfold Spares
    rw [perform_locked hlimit]
    simp

/-- A write that leaves the payments alone. -/
theorem Calm.spares_write (h : s.Calm) {c : StoreCall} {result : c.Result} {l : Ledger}
    (hanswer : s.books.ledger.answer c = .ok (result, l))
    (hpayments : l.payments = s.books.ledger.payments) :
    @Spares (no_index c.Result) origin (call c) (fun _ => Calm) s :=
  (Scene.spares_write hanswer).mpr (h.answer hanswer hpayments _)

/-- A write that succeeds is not undone. -/
theorem spares_compensated {write : Operation α} {a : α} {s' : Scene}
    (h : s.perform write = (.ok a, s')) (undo : Operation β) :
    Spares origin (compensated write undo) ok s ↔ ok a s' :=
  spares_of_eq (by rw [perform_compensated, h])

/-- A score that takes no time and does not change the scorer changes nothing. -/
theorem spares_score (h : s.Calm) {ok : CreditScore → Scene → Prop} {user : String}
    {limit : Deadline} (hok : ∀ score, ok score s) (horigin : s = origin) :
    Spares origin (score user limit) ok s := by
  have hscene : (s.answer (.score user limit)).2 = s := by
    have htime : (limit.wait s.around.time s.around.scoreDelay).2 = s.around.time := by
      rw [h.prompt]
      exact Deadline.wait_zero limit s.around.time
    have hpass : s.around.passTo (limit.wait s.around.time s.around.scoreDelay).2 = s.around :=
      World.passTo_of_le (Nat.le_of_eq htime)
    simp only [answer, hpass, World.drawScore]
    split
    · simp only [h.steady]
    · rfl
  have hrun : s.perform (score user limit) = s.answer (.score user limit) := rfl
  unfold Spares
  rw [hrun]
  rcases hanswer : s.answer (.score user limit) with ⟨cause | found, s'⟩ <;> rw [hanswer] at hscene
  · exact hscene.trans horigin
  · obtain rfl : s' = s := hscene
    exact hok found

end Rules

/-! ## Calls -/

section Calls

open Engine

variable {s : Scene} {policy : Policy} {limit : Deadline}

theorem spares_getApplication {origin : Scene} {id : ApplicationId}
    {ok : Application → Scene → Prop} :
    Spares origin (getApplication id limit) ok s ↔
      (limit.isExpired s.around.time = true → s = origin) ∧
        (limit.isExpired s.around.time = false →
          (∀ a, s.books.ledger.applications.get? id = some a → ok a s) ∧
            (s.books.ledger.applications.get? id = none → s = origin)) := by
  unfold getApplication
  rw [spares_bind, spares_boundedLook (c := .getApplication id) (fun _ => rfl)]
  exact and_congr_right fun _ => imp_congr_right fun _ => spares_found id _

theorem apply_spares (h : s.Calm) (r : ApplicationRequest) :
    Spares s (apply policy r limit) (fun _ => Calm) s := by
  simp only [apply, spares_bind, spares_require, spares_check, spares_now, implies_true, true_and,
    and_true]
  rintro ⟨amount, currency⟩ - -
  exact h.spares_write (c := .createApplication _) rfl rfl

theorem decideApplication_spares (h : s.Calm) (id : ApplicationId) :
    Spares s (decideApplication policy id limit) (fun _ => Calm) s := by
  simp only [decideApplication, spares_locked, spares_bind, spares_getApplication, spares_ite,
    spares_throw, implies_true, true_and, and_true]
  intro _ _ a ha _
  obtain rfl := h.ordered.applications.id_of_get? ha
  simp only [verdict, spares_bind]
  refine spares_score h (fun score => ?_) rfl
  simp only [spares_pure, spares_bind, spares_require, spares_check, spares_now, implies_true,
    true_and, and_true]
  intro _ _ _
  exact h.spares_write (c := .updateApplication _)
    (Ledger.answer_updateApplication (Option.isSome_of_eq_some ha)) rfl

theorem spares_checkCredit {id : ApplicationId} {granted amount : Amount}
    {ok : Unit → Scene → Prop} (hok : ok () s) :
    Spares s (checkCredit id granted amount limit) ok s := by
  simp only [checkCredit, settledTotal, spares_bind, spares_check,
    spares_look (c := .paymentsOfApplication id) (fun _ => rfl), spares_require, spares_ite,
    spares_throw, spares_pure, implies_true, and_true, hok]

theorem pay_spares (h : s.Calm) (r : PaymentRequest) :
    Spares s (pay policy r limit) (fun _ => Calm) s := by
  simp only [pay, spares_bind, spares_require, implies_true, and_true]
  rintro ⟨amount, currency, method⟩ -
  simp only [spares_locked, spares_bind, spares_getApplication, spares_require, implies_true,
    true_and, and_true]
  intro _ _ a _ _ _
  refine spares_checkCredit ?_
  simp only [spares_bind, spares_check, spares_now, spares_freshOrder, implies_true, true_and]
  intro _
  obtain ⟨created, l, hanswer, hcalm⟩ := h.createPayment
    { id := .unassigned, application := r.application, user := r.user
      order := s.around.orders.next.1, amount, currency, method, status := .pending
      createdAt := s.around.clock, settledAt := none } rfl
  rw [spares_write (s := { s with around := { s.around with orders := s.around.orders.next.2 } })
    (c := .createPayment _) hanswer]
  exact hcalm _

/-- A schedule is written as a whole or not at all. -/
theorem spares_writeSchedule {o : Obligation} {ok : List Installment → Scene → Prop}
    (hok : ∀ draft entries l, s.books.ledger.createBatch draft = .ok (entries, l) →
      ok entries { s with books := { s.books with ledger := l } }) :
    Spares s (writeSchedule policy o) ok s := by
  simp only [writeSchedule, spares_bind, spares_look (c := .installmentsOf o.owner) (fun _ => rfl),
    spares_ite, spares_throw, spares_require, implies_true, true_and, and_true]
  intro _ draft _
  unfold Spares
  rw [perform_call]
  cases hanswer : s.books.ledger.answer (.createBatch draft) with
  | error cause => rfl
  | ok answered => exact hok draft answered.1 answered.2 hanswer

theorem settlePayment_spares (h : s.Calm) {p : Payment}
    (hp : s.books.ledger.payments.get? p.id = some p) :
    Spares s (settlePayment policy p.id p limit) (fun _ => Calm) s := by
  simp only [settlePayment, spares_locked, spares_bind, spares_getApplication, implies_true,
    true_and, and_true]
  intro _ _ a _
  refine spares_checkCredit ?_
  simp only [spares_bind, spares_check, spares_now, implies_true, true_and]
  intro _
  refine spares_writeSchedule fun draft entries l hwritten => ?_
  obtain ⟨_, -, -, -, rfl⟩ := Ledger.createBatch_ok.mp hwritten
  have hscheduled := h.answer (c := .createBatch draft) hwritten rfl s.books.queue
  obtain ⟨l, hanswer, hcalm⟩ := hscheduled.updatePayment
    { p with status := .successful, settledAt := some s.around.clock } hp rfl rfl
  rw [spares_compensated (by rw [perform_call, hanswer])]
  exact hcalm _

theorem failPayment_spares (h : s.Calm) {p : Payment}
    (hp : s.books.ledger.payments.get? p.id = some p) :
    Spares s (failPayment p limit) (fun _ => Calm) s := by
  simp only [failPayment, spares_bind, spares_check, implies_true, true_and]
  intro _
  obtain ⟨l, hanswer, hcalm⟩ := h.updatePayment { p with status := .failed } hp rfl rfl
  rw [spares_write (c := .updatePayment _) hanswer]
  exact hcalm _

theorem deliverPayment_spares (h : s.Calm) (id : PaymentId) (token : String) :
    Spares s (deliverPayment policy id token limit) (fun _ => Calm) s := by
  simp only [deliverPayment, spares_bind, spares_require, spares_locked,
    spares_boundedLook (c := .getPayment id) (fun _ => rfl), spares_found, implies_true, true_and,
    and_true]
  intro next _ _ _ p hp transition _
  obtain rfl := h.ordered.payments.id_of_get? hp
  cases transition with
  | unchanged => exact h
  | applied =>
    have hcancelled : ∀ op : Operation Unit, Spares s op (fun _ => Calm) s →
        Spares s (do op; let _ ← cancel (.paymentSettled p.id); pure Ack.applied) (fun _ => Calm)
          s := by
      intro op hop
      rw [spares_bind]
      refine hop.mono fun _ _ hcalm => ?_
      simp only [spares_bind, spares_cancel, spares_pure]
      exact hcalm.queue _
    cases next with
    | successful => exact hcancelled _ (settlePayment_spares h hp)
    | _ => exact hcancelled _ (failPayment_spares h hp)

theorem spares_getInstallment {origin : Scene} {id : InstallmentId}
    {ok : Installment → Scene → Prop} :
    Spares origin (getInstallment id limit) ok s ↔
      (limit.isExpired s.around.time = true → s = origin) ∧
        (limit.isExpired s.around.time = false →
          (∀ e, s.books.ledger.installments.get? id = some e → ok e s) ∧
            (s.books.ledger.installments.get? id = none → s = origin)) := by
  unfold getInstallment
  rw [spares_bind, spares_boundedLook (c := .getInstallment id) (fun _ => rfl)]
  exact and_congr_right fun _ => imp_congr_right fun _ => spares_found id _

theorem collect_spares (h : s.Calm) (id : InstallmentId) :
    Spares s (collect policy id limit) (fun _ => Calm) s := by
  simp only [collect, spares_locked, spares_bind, spares_getInstallment, spares_ite, spares_throw,
    spares_now, spares_schedule, spares_pure, implies_true, true_and, and_true]
  intro _ _ _ _ _
  exact h.queue _

theorem deliverInstallment_spares (h : s.Calm) (id : InstallmentId) (token : String) :
    Spares s (deliverInstallment id token limit) (fun _ => Calm) s := by
  simp only [deliverInstallment, spares_bind, spares_require, spares_locked, spares_getInstallment,
    spares_ite, spares_throw, implies_true, true_and, and_true]
  intro next _ _ _ e he _ transition _
  obtain rfl := h.ordered.installments.id_of_get? he
  cases transition with
  | unchanged => exact h
  | applied =>
    have hwrite := Ledger.answer_updateInstallment (l := s.books.ledger)
      (e := { e with status := next }) (Option.isSome_of_eq_some he)
    simp only [spares_bind, spares_check, implies_true, true_and]
    intro _
    rw [spares_write (c := .updateInstallment _) hwrite]
    exact h.answer (c := .updateInstallment _) hwrite rfl _

theorem fileLoan_spares (h : s.Calm) (r : LoanRequest) :
    Spares s (fileLoan policy r limit) (fun _ => Calm) s := by
  simp only [fileLoan, spares_bind, spares_require, spares_check, spares_now, implies_true,
    true_and, and_true]
  rintro ⟨amount, currency⟩ - -
  exact h.spares_write (c := .createLoan _) rfl rfl

theorem spares_getLoan {origin : Scene} {id : LoanId} {ok : Loan → Scene → Prop} :
    Spares origin (getLoan id limit) ok s ↔
      (limit.isExpired s.around.time = true → s = origin) ∧
        (limit.isExpired s.around.time = false →
          (∀ loan, s.books.ledger.loans.get? id = some loan → ok loan s) ∧
            (s.books.ledger.loans.get? id = none → s = origin)) := by
  unfold getLoan
  rw [spares_bind, spares_boundedLook (c := .getLoan id) (fun _ => rfl)]
  exact and_congr_right fun _ => imp_congr_right fun _ => spares_found id _

theorem decideLoan_spares (h : s.Calm) (id : LoanId) :
    Spares s (decideLoan policy id limit) (fun _ => Calm) s := by
  simp only [decideLoan, spares_locked, spares_bind, spares_getLoan, spares_ite,
    spares_throw, implies_true, true_and, and_true]
  intro _ _ loan hloan _
  obtain rfl := h.ordered.loans.id_of_get? hloan
  simp only [verdict, spares_bind]
  refine spares_score h (fun score => ?_) rfl
  have hwrite : ∀ new : Loan, new.id = loan.id →
      Spares s (Operation.call (.updateLoan new)) (fun _ => Calm) s := fun new hid =>
    h.spares_write (c := .updateLoan new)
      (Ledger.answer_updateLoan (Option.isSome_of_eq_some (hid ▸ hloan))) rfl
  simp only [spares_pure, spares_bind, spares_require, spares_check, spares_ite, spares_map,
    spares_now, implies_true, true_and, and_true]
  intro _ _ _
  exact ⟨fun _ => hwrite _ rfl, fun _ => hwrite _ rfl⟩

theorem activateLoan_spares (h : s.Calm) (id : LoanId) :
    Spares s (activateLoan policy id limit) (fun _ => Calm) s := by
  simp only [activateLoan, spares_locked, spares_bind, spares_getLoan, spares_require, spares_check,
    spares_now, implies_true, true_and, and_true]
  intro _ _ loan hloan _ _ _
  obtain rfl := h.ordered.loans.id_of_get? hloan
  refine spares_writeSchedule fun draft entries l hwritten => ?_
  obtain ⟨_, -, -, -, rfl⟩ := Ledger.createBatch_ok.mp hwritten
  have hscheduled := h.answer (c := .createBatch draft) hwritten rfl s.books.queue
  obtain ⟨l, hanswer, hcalm⟩ := hscheduled.updateLoan
    { loan with
      status := .active
      activatedAt := some s.around.clock
      nextPayment := entries.head?.map Installment.dueDate
      remainingTerm := UInt32.ofNat entries.length } hloan rfl
  rw [spares_bind, spares_compensated (by rw [perform_call, hanswer])]
  exact hcalm _

theorem repayLoan_spares (h : s.Calm) (id : LoanId) (r : RepaymentRequest) :
    Spares s (repayLoan policy id r limit) (fun _ => Calm) s := by
  simp only [repayLoan, spares_bind, spares_require, implies_true, and_true]
  rintro ⟨amount, method⟩ -
  simp only [spares_locked, spares_bind, spares_getLoan, spares_ite, spares_throw, scheduleOf,
    spares_boundedLook (c := .installmentsOf (.loan id)) (fun _ => rfl), spares_check,
    implies_true, true_and, and_true]
  intro _ _ loan hloan _ _ _ _
  obtain rfl := h.ordered.loans.id_of_get? hloan
  rw [Loan.repaid_snd, spares_of_eq (perform_writeEntries h.ordered .paid
    (s.books.ledger.mem_of_newlyCovered loan amount))]
  have hmarked := h.marked .paid
    (loan.newlyCovered (s.books.ledger.installmentsOf (.loan loan.id)) amount)
  obtain ⟨recorded, l, hanswer, hcalm⟩ := hmarked.recordRepayment
    (loan.repaid (s.books.ledger.installmentsOf (.loan loan.id)) amount).1
    { id := .unassigned, loan := loan.id, amount, method, paidAt := s.around.clock } hloan rfl
  simp only [spares_bind, spares_now]
  rw [spares_compensated (by rw [perform_call, hanswer])]
  exact hcalm _

theorem defaultLoan_spares (h : s.Calm) (id : LoanId) :
    Spares s (defaultLoan id limit) (fun _ => Calm) s := by
  simp only [defaultLoan, spares_locked, spares_bind, spares_getLoan, spares_ite, spares_require,
    scheduleOf, spares_boundedLook (c := .installmentsOf (.loan id)) (fun _ => rfl), spares_check,
    spares_pure, implies_true, true_and, and_true]
  intro _ _ loan hloan transition _ _
  obtain rfl := h.ordered.loans.id_of_get? hloan
  refine ⟨fun _ => h, fun _ _ => ?_⟩
  rw [spares_of_eq (perform_writeEntries h.ordered .failed
    (s.books.ledger.mem_of_pendingEntries (.loan loan.id)))]
  have hmarked := h.marked .failed
    (pendingEntries (s.books.ledger.installmentsOf (.loan loan.id)))
  cases transition with
  | unchanged => exact hmarked
  | applied =>
    obtain ⟨l, hanswer, hcalm⟩ := hmarked.updateLoan
      { loan with status := .defaulted, nextPayment := none } hloan rfl
    rw [if_pos rfl, spares_bind, spares_compensated (by rw [perform_call, hanswer])]
    exact hcalm _

/-! ### Reading -/

theorem getApplication_looks (id : ApplicationId) :
    Spares s (getApplication id limit) (fun _ s' => s' = s) s := by
  simp only [spares_getApplication, implies_true, and_true]

theorem applicationsOfUser_looks (user : String) :
    Spares s (applicationsOfUser user limit) (fun _ s' => s' = s) s := by
  simp only [applicationsOfUser, spares_boundedLook (c := .applicationsOfUser user) (fun _ => rfl),
    implies_true, and_true]

theorem paymentDetails_looks (id : PaymentId) :
    Spares s (paymentDetails id limit) (fun _ s' => s' = s) s := by
  simp only [paymentDetails, spares_bind, spares_boundedLook (c := .getPayment id) (fun _ => rfl),
    spares_boundedLook (c := .installmentsOf (.payment id)) (fun _ => rfl), spares_found,
    spares_pure, implies_true, and_true]

theorem payments_looks : Spares s (payments limit) (fun _ s' => s' = s) s := by
  simp only [payments, spares_boundedLook (c := .listPayments) (fun _ => rfl), implies_true,
    and_true]

theorem mapM_looks {f : α → Operation β} (h : ∀ a, Spares s (f a) (fun _ s' => s' = s) s)
    (all : List α) : Spares s (all.mapM f) (fun _ s' => s' = s) s := by
  induction all with
  | nil =>
    rw [List.mapM_nil]
    rfl
  | cons a rest ih =>
    simp only [List.mapM_cons, spares_bind]
    refine (h a).mono ?_
    rintro b _ rfl
    rw [spares_bind]
    exact ih

theorem allPaymentDetails_looks : Spares s (allPaymentDetails limit) (fun _ s' => s' = s) s := by
  rw [allPaymentDetails, spares_bind]
  refine payments_looks.mono ?_
  rintro all _ rfl
  exact mapM_looks (fun p => paymentDetails_looks p.id) all

theorem loanDetails_looks (id : LoanId) :
    Spares s (loanDetails id limit) (fun _ s' => s' = s) s := by
  simp only [loanDetails, scheduleOf, spares_bind, spares_getLoan,
    spares_boundedLook (c := .installmentsOf (.loan id)) (fun _ => rfl), spares_pure, implies_true,
    and_true]

theorem repaymentsOf_looks (id : LoanId) :
    Spares s (repaymentsOf id limit) (fun _ s' => s' = s) s := by
  simp only [repaymentsOf, spares_bind, spares_getLoan,
    spares_boundedLook (c := .repaymentsOf id) (fun _ => rfl), implies_true, and_true]

theorem loansOfUser_looks (user : String) :
    Spares s (loansOfUser user limit) (fun _ s' => s' = s) s := by
  simp only [loansOfUser, spares_boundedLook (c := .loansOfUser user) (fun _ => rfl), implies_true,
    and_true]

end Calls

/-- A call that fails in a calm scene leaves it as it was; one that succeeds leaves a calm one. -/
theorem Calm.spares {s : Scene} (h : s.Calm) (call : EngineCall) (policy : Policy)
    (limit : Deadline) : Spares s (call.program policy limit) (fun _ => Calm) s := by
  have hlooks : ∀ {α : Type} {op : Operation α}, Spares s op (fun _ s' => s' = s) s →
      Spares s op (fun _ => Calm) s := fun hop => hop.mono fun _ _ hsame => hsame ▸ h
  cases call with
  | apply request => exact apply_spares h request
  | decideApplication id => exact decideApplication_spares h id
  | getApplication id => exact hlooks (getApplication_looks id)
  | applicationsOfUser user => exact hlooks (applicationsOfUser_looks user)
  | pay request => exact pay_spares h request
  | paymentDetails id => exact hlooks (paymentDetails_looks id)
  | payments => exact hlooks payments_looks
  | allPaymentDetails => exact hlooks allPaymentDetails_looks
  | deliverPayment id token => exact deliverPayment_spares h id token
  | deliverInstallment id token => exact deliverInstallment_spares h id token
  | collect id => exact collect_spares h id
  | fileLoan request => exact fileLoan_spares h request
  | decideLoan id => exact decideLoan_spares h id
  | activateLoan id => exact activateLoan_spares h id
  | repayLoan id request => exact repayLoan_spares h id request
  | defaultLoan id => exact defaultLoan_spares h id
  | loanDetails id => exact hlooks (loanDetails_looks id)
  | repaymentsOf id => exact hlooks (repaymentsOf_looks id)
  | loansOfUser user => exact hlooks (loansOfUser_looks user)

theorem Spares.calm {s : Scene} {op : Operation α} (h : s.Calm)
    (hop : Spares s op (fun _ => Calm) s) : (s.perform op).2.Calm := by
  unfold Spares at hop
  rcases hrun : s.perform op with ⟨cause | a, s'⟩ <;> rw [hrun] at hop
  · exact hop ▸ h
  · exact hop

/-! ## Drains -/

theorem Calm.deliver {s : Scene} (h : s.Calm) (policy : Policy) (n : Notification) :
    (s.perform (Engine.deliver policy n)).2.Calm := by
  cases n with
  | paymentSettled id => exact (deliverPayment_spares h id _).calm h
  | installmentCollected id => exact (deliverInstallment_spares h id _).calm h

theorem Calm.deliverAll {s : Scene} (h : s.Calm) (policy : Policy) (ns : List Notification) :
    (s.run (Engine.deliverAll policy ns)).2.Calm := by
  induction ns generalizing s with
  | nil => exact h
  | cons n rest ih =>
    show (s.run ((Engine.deliver policy n).run.bind _)).2.Calm
    rw [run_bind]
    show (Scene.run _ ((Engine.deliverAll policy rest).bind _)).2.Calm
    rw [run_bind]
    exact ih (h.deliver policy n)

theorem Calm.runDue {s : Scene} (h : s.Calm) (policy : Policy) :
    (s.run (Engine.runDue policy)).2.Calm := by
  show (Scene.run _ ((Engine.deliverAll policy _).bind _)).2.Calm
  rw [run_bind]
  exact (h.queue _).deliverAll policy _

end Scene

end Lending
