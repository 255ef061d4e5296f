import Lending.Proofs.Engine.Schedules
import Lending.Proofs.Engine.Unhindered

/-!
# Payments and loans that nothing hinders

What admitting and settling a payment and activating a loan come to where every lock is free and the
store works. The credit that is left decides on a payment, and the check of it computes with words,
but neither their end nor their zero is ever reached. Whatever gets a schedule moreover needs a
calendar that reaches as far as its due dates, and no schedule that was left behind.

* `Obligation.draft_of_datable`: schedules whose due dates are in the calendar can be drawn up.
* `Scene.perform_checkCredit`: the check of the credit limit.
* `Scene.perform_pay`: a payment that is asked for properly.
* `Scene.perform_settlePayment`: a pending payment whose success is confirmed.
* `Scene.perform_activateLoan`: an approved loan that is activated.
-/

namespace Lending

/-! ## Words -/

/-- Amounts whose sum fits into a word can be added up. -/
theorem checkedTotal_of_lt {values : List UInt64}
    (h : (values.map UInt64.toNat).sum < UInt64.size) :
    ∃ total, checkedTotal values = .ok total := by
  have hfrom : ∀ (values : List UInt64) (start : UInt64),
      start.toNat + (values.map UInt64.toNat).sum < UInt64.size →
      ∃ total, values.foldlM (fun total value =>
        if total.toNat + value.toNat < UInt64.size then .ok (total + value)
        else (.error (.invalid .amountOverflow) : Except Failure UInt64)) start = .ok total := by
    intro values
    induction values with
    | nil => exact fun start _ => ⟨start, rfl⟩
    | cons value rest ih =>
      intro start hsum
      rw [List.map_cons, List.sum_cons] at hsum
      have hfits : start.toNat + value.toNat < UInt64.size := by omega
      have hadd : (start + value).toNat = start.toNat + value.toNat := by
        rw [UInt64.toNat_add, Nat.mod_eq_of_lt hfits]
      rw [List.foldlM_cons, if_pos hfits]
      exact ih (start + value) (by omega)
  exact hfrom values 0 (by simpa using h)

/-- What a limit leaves, in numbers. -/
theorem toNat_available (granted : Amount) (settled : UInt64) :
    (Engine.available granted settled).toNat = granted.toNat - settled.toNat := by
  unfold Engine.available
  split
  · rename_i hle
    rw [UInt64.toNat_sub_of_le _ _ hle]
    rfl
  · rename_i hlt
    rw [UInt64.le_iff_toNat_le] at hlt
    simp only [Amount.toNat, UInt64.toNat_zero]
    omega

/-! ## Drafts -/

namespace Obligation

variable {o : Obligation} {tiers : Tiers}

/-- The calendar reaches as far as the due dates of a schedule that begins at `moment`. -/
def Datable (tiers : Tiers) (o : Obligation) (moment : Instant) : Prop :=
  (o.count tiers).toNat ≤ moment.date.monthsLeft

instance (tiers : Tiers) (o : Obligation) (moment : Instant) :
    Decidable (o.Datable tiers moment) := inferInstanceAs (Decidable (_ ≤ _))

theorem count_payment_pos (tiers : Tiers) (p : Payment) :
    0 < ((payment p).count tiers).toNat := by
  rw [count, Strategy.toNat_count]
  exact Nat.lt_min.mpr ⟨p.amount.toNat_pos, tiers.countFor_pos p.amount⟩

theorem count_loan_pos (tiers : Tiers) {l : Loan} (hterm : l.term ≠ 0) :
    0 < ((loan l).count tiers).toNat := by
  rw [count, Strategy.toNat_count]
  refine Nat.lt_min.mpr ⟨l.principal.toNat_pos, Nat.pos_of_ne_zero fun hzero => hterm ?_⟩
  exact UInt32.toNat_inj.mp hzero

/-- A schedule whose due dates are in the calendar can be drawn up. -/
theorem draft_of_datable {moment : Instant} (hstarted : o.startedAt = some moment)
    (hpos : 0 < (o.count tiers).toNat) (hdatable : o.Datable tiers moment) :
    ∃ draft, o.draft tiers = .ok draft ∧ batchOwner draft = .ok o.owner := by
  have hle : (o.count tiers).toNat ≤ o.principal.toNat := by
    rw [count, Strategy.toNat_count]
    exact Nat.min_le_left ..
  obtain ⟨lines, hlines⟩ : ∃ lines,
      (o.strategy tiers).plan o.principal moment.date = .ok lines := by
    refine ⟨_, (dif_pos ⟨hpos, hle⟩).trans (if_pos hdatable)⟩
  have hdraft : o.draft tiers = .ok (lines.map (entryOf o.owner)) := by
    simp only [draft, start, hstarted, hlines, bind, Except.bind, pure, Except.pure]
  refine ⟨_, hdraft, ?_⟩
  have hlength := (plan_splits hlines).length
  rw [← Strategy.toNat_count] at hlength
  cases lines with
  | nil =>
    rw [List.length_nil] at hlength
    exact absurd hlength (Nat.ne_of_lt hpos)
  | cons line rest =>
    have hall : (rest.map (entryOf o.owner)).all (fun entry => entry.owner = o.owner) = true := by
      simp [entryOf]
    exact if_pos hall

end Obligation

/-! ## Rows that are known -/

section Updates

variable {l : Ledger}

theorem Ledger.answer_updateApplication {a : Application} (h : (l.applications.get? a.id).isSome) :
    l.answer (.updateApplication a) =
      .ok ((), { l with applications := l.applications.insert a.id a }) :=
  update_ok.mpr ⟨Option.isSome_iff_exists.mp h, rfl⟩

theorem Ledger.answer_updatePayment {p : Payment} (h : (l.payments.get? p.id).isSome) :
    l.answer (.updatePayment p) = .ok ((), { l with payments := l.payments.insert p.id p }) :=
  update_ok.mpr ⟨Option.isSome_iff_exists.mp h, rfl⟩

theorem Ledger.answer_updateInstallment {e : Installment} (h : (l.installments.get? e.id).isSome) :
    l.answer (.updateInstallment e) =
      .ok ((), { l with installments := l.installments.insert e.id e }) :=
  update_ok.mpr ⟨Option.isSome_iff_exists.mp h, rfl⟩

theorem Ledger.answer_updateLoan {loan : Loan} (h : (l.loans.get? loan.id).isSome) :
    l.answer (.updateLoan loan) = .ok ((), { l with loans := l.loans.insert loan.id loan }) :=
  update_ok.mpr ⟨Option.isSome_iff_exists.mp h, rfl⟩

end Updates

namespace Scene

open Engine

variable {s : Scene} {policy : Policy} {limit : Deadline}

/-! ## Credit -/

theorem perform_getApplication (hlimit : limit.isExpired s.around.time = false)
    {id : ApplicationId} {a : Application}
    (ha : s.books.ledger.applications.get? id = some a) :
    s.perform (getApplication id limit) = (.ok a, s) := by
  simp only [getApplication, perform_bind, perform_boundedCall hlimit,
    perform_look s (c := .getApplication id) (fun _ => rfl), perform_found, ha]

/-- An amount passes exactly if it fits into what is left. -/
theorem perform_checkCredit (hlimit : limit.isExpired s.around.time = false) {id : ApplicationId}
    {granted : Amount} (hkept : s.books.ledger.creditUsed id ≤ granted.toNat) (amount : Amount) :
    s.perform (checkCredit id granted amount limit) =
      (if s.books.ledger.creditUsed id + amount.toNat ≤ granted.toNat then .ok ()
        else .error (.insufficientCredit amount.value
          (UInt64.ofNat (granted.toNat - s.books.ledger.creditUsed id))), s) := by
  have hbound := granted.toNat_lt
  have hsum := sum_settled s.books.ledger id
  obtain ⟨settled, hsettled⟩ := checkedTotal_of_lt (by rw [hsum]; omega)
  have hused := checkedTotal_ok hsettled
  rw [hsum] at hused
  have hleft : available granted settled =
      UInt64.ofNat (granted.toNat - s.books.ledger.creditUsed id) := by
    apply UInt64.toNat_inj.mp
    rw [toNat_available, hused, UInt64.toNat_ofNat', Nat.mod_eq_of_lt]
    exact Nat.lt_of_le_of_lt (Nat.sub_le ..) hbound
  simp only [checkCredit, settledTotal, perform_bind, perform_check hlimit,
    perform_look s (c := .paymentsOfApplication id) (fun _ => rfl), perform_require, hsettled]
  have hfits : available granted settled < amount.value ↔
      ¬s.books.ledger.creditUsed id + amount.toNat ≤ granted.toNat := by
    rw [UInt64.lt_iff_toNat_lt, toNat_available, hused]
    simp only [Amount.toNat] at *
    omega
  by_cases h : s.books.ledger.creditUsed id + amount.toNat ≤ granted.toNat
  · rw [if_neg fun hlt => hfits.mp hlt h, if_pos h]
    rfl
  · rw [if_pos (hfits.mpr h), if_neg h, hleft]
    rfl

/-! ## Admitting -/

/-- A payment that is asked for properly is admitted exactly if it fits into the credit that is
left. -/
theorem perform_pay (hlimit : limit.isExpired s.around.time = false) {r : PaymentRequest}
    {a : Application} {amount : Amount} {currency : Currency} {method : PaymentMethod}
    (hread : readPayment policy r = .ok (amount, currency, method))
    (ha : s.books.ledger.applications.get? r.application = some a)
    (hdrawn : checkDrawn a r.application r.user currency = .ok ())
    (hkept : s.books.ledger.creditUsed r.application ≤ a.amount.toNat)
    (hfresh : ∀ p ∈ s.books.ledger.payments.values, p.order ≠ s.around.orders.next.1) :
    (s.perform (pay policy r limit)).1 =
      if s.books.ledger.creditUsed r.application + amount.toNat ≤ a.amount.toNat then
        .ok ⟨s.books.ledger.counters.payment + 1⟩
      else .error (.insufficientCredit amount.value
        (UInt64.ofNat (a.amount.toNat - s.books.ledger.creditUsed r.application))) := by
  have hcreate : ∀ p : Payment, p.order = s.around.orders.next.1 →
      s.books.ledger.answer (.createPayment p) = .ok _ := fun p horder =>
    Ledger.createPayment_ok.mpr ⟨fun other hother => horder ▸ hfresh other hother, rfl, rfl⟩
  by_cases hfits : s.books.ledger.creditUsed r.application + amount.toNat ≤ a.amount.toNat
  · simp only [pay, perform_bind, perform_require, hread, perform_locked hlimit,
      perform_getApplication hlimit ha, hdrawn, perform_checkCredit hlimit hkept, if_pos hfits,
      perform_check hlimit, perform_now, perform_freshOrder, perform_call, hcreate,
      perform_schedule, perform_pure]
  · simp only [pay, perform_bind, perform_require, hread, perform_locked hlimit,
      perform_getApplication hlimit ha, hdrawn, perform_checkCredit hlimit hkept, if_neg hfits]

/-! ## Schedules -/

/-- A schedule that can be drawn up is written, if its owner has none. -/
theorem perform_writeSchedule {o : Obligation} {draft : List Installment}
    (hdraft : o.draft policy.tiers = .ok draft) (howner : batchOwner draft = .ok o.owner)
    (hnone : s.books.ledger.installmentsOf o.owner = []) :
    ∃ entries l, s.books.ledger.createBatch draft = .ok (entries, l) ∧
      s.perform (writeSchedule policy o) =
        (.ok entries, { s with books := { s.books with ledger := l } }) := by
  have hnew : ∀ e ∈ s.books.ledger.installments.values, e.owner ≠ o.owner := by
    intro e he heq
    have hmem := Ledger.mem_installmentsOf.mpr ⟨he, heq⟩
    rw [hnone] at hmem
    cases hmem
  have hcreate := Ledger.createBatch_ok.mpr ⟨o.owner, howner, hnew, rfl, rfl⟩
  have hanswer : s.books.ledger.answer (.createBatch draft) = .ok _ := hcreate
  refine ⟨_, _, hcreate, ?_⟩
  simp only [writeSchedule, perform_bind,
    perform_look s (c := .installmentsOf o.owner) (fun _ => rfl), hnone, List.isEmpty_nil,
    Bool.not_true, Bool.false_eq_true, if_false, perform_require, hdraft, perform_call, hanswer]

/-- A schedule that was left behind is in the way of another. -/
theorem perform_writeSchedule_conflict {o : Obligation}
    (hsome : s.books.ledger.installmentsOf o.owner ≠ []) :
    s.perform (writeSchedule policy o) = (.error o.owner.alreadyScheduled, s) := by
  have hfull : (!(s.books.ledger.installmentsOf o.owner).isEmpty) = true := by
    simpa using hsome
  simp only [writeSchedule, perform_bind,
    perform_look s (c := .installmentsOf o.owner) (fun _ => rfl), hfull, if_true, perform_throw]

/-! ## Settling -/

/-- The pending payment `p` on the application `a`, which is not overdrawn. -/
structure Settles (s : Scene) (p : Payment) (a : Application) : Prop where
  known : s.books.ledger.payments.get? p.id = some p
  pending : p.status = .pending
  drawnOn : s.books.ledger.applications.get? p.application = some a
  kept : s.books.ledger.creditUsed p.application ≤ a.amount.toNat

variable {p : Payment} {a : Application}

theorem perform_settlePayment (hlimit : limit.isExpired s.around.time = false)
    (h : s.Settles p a) (hdatable : (Obligation.payment p).Datable policy.tiers s.around.clock)
    (hnone : s.books.ledger.installmentsOf (.payment p.id) = []) :
    (s.perform (settlePayment policy p.id p limit)).1 =
      if s.books.ledger.creditUsed p.application + p.amount.toNat ≤ a.amount.toNat then .ok ()
      else .error (.insufficientCredit p.amount.value
        (UInt64.ofNat (a.amount.toNat - s.books.ledger.creditUsed p.application))) := by
  by_cases hfits : s.books.ledger.creditUsed p.application + p.amount.toNat ≤ a.amount.toNat
  · obtain ⟨draft, hdraft, howner⟩ := Obligation.draft_of_datable
      (o := .payment { p with status := .successful, settledAt := some s.around.clock }) rfl
      (Obligation.count_payment_pos policy.tiers p) hdatable
    obtain ⟨entries, l, hcreate, hwritten⟩ := perform_writeSchedule hdraft howner hnone
    obtain ⟨_, -, -, -, rfl⟩ := Ledger.createBatch_ok.mp hcreate
    simp only [settlePayment, perform_locked hlimit, perform_bind,
      perform_getApplication hlimit h.drawnOn, perform_checkCredit hlimit h.kept, if_pos hfits,
      perform_check hlimit, perform_now, hwritten, perform_compensated, perform_call,
      Ledger.answer_updatePayment, h.known, Option.isSome_some]
  · simp only [settlePayment, perform_locked hlimit, perform_bind,
      perform_getApplication hlimit h.drawnOn, perform_checkCredit hlimit h.kept, if_neg hfits]

/-- Where a schedule was left behind, a payment that fits in cannot be settled. -/
theorem perform_settlePayment_conflict (hlimit : limit.isExpired s.around.time = false)
    (h : s.Settles p a)
    (hfits : s.books.ledger.creditUsed p.application + p.amount.toNat ≤ a.amount.toNat)
    (hsome : s.books.ledger.installmentsOf (.payment p.id) ≠ []) :
    (s.perform (settlePayment policy p.id p limit)).1 =
      .error (Owner.payment p.id).alreadyScheduled := by
  have hconflict : s.perform (writeSchedule policy
      (.payment { p with status := .successful, settledAt := some s.around.clock })) = _ :=
    perform_writeSchedule_conflict hsome
  simp only [settlePayment, perform_locked hlimit, perform_bind,
    perform_getApplication hlimit h.drawnOn, perform_checkCredit hlimit h.kept, if_pos hfits,
    perform_check hlimit, perform_now, hconflict]
  rfl

/-- The success of a pending payment is answered as its settlement ends. -/
theorem perform_deliverPayment (hlimit : limit.isExpired s.around.time = false)
    (hknown : s.books.ledger.payments.get? p.id = some p) (hpending : p.status = .pending)
    {token : String} (htoken : Lifecycle.ofToken PaymentStatus token = .ok .successful) :
    (s.perform (deliverPayment policy p.id token limit)).1 =
      (s.perform (settlePayment policy p.id p limit)).1.map fun _ => .applied := by
  have hadvance : Lifecycle.advance p.id.value p.status PaymentStatus.successful =
      .ok .applied := by rw [hpending]; rfl
  simp only [deliverPayment, perform_bind, perform_require, htoken, perform_locked hlimit,
    perform_boundedCall hlimit, perform_look s (c := .getPayment p.id) (fun _ => rfl),
    perform_found, hknown, hadvance]
  rcases s.perform (settlePayment policy p.id p limit) with ⟨cause | _, s'⟩
  · rfl
  · rfl

/-! ## Activating -/

section Loans

variable {loan : Loan}

theorem perform_getLoan (hlimit : limit.isExpired s.around.time = false) {id : LoanId}
    (hloan : s.books.ledger.loans.get? id = some loan) :
    s.perform (getLoan id limit) = (.ok loan, s) := by
  simp only [getLoan, perform_bind, perform_boundedCall hlimit,
    perform_look s (c := .getLoan id) (fun _ => rfl), perform_found, hloan]

variable (hlimit : limit.isExpired s.around.time = false)
  (hknown : s.books.ledger.loans.get? loan.id = some loan) (happroved : loan.status = .approved)

include hlimit hknown happroved

theorem perform_activateLoan (hterm : loan.term ≠ 0)
    (hdatable : (Obligation.loan loan).Datable policy.tiers s.around.clock)
    (hnone : s.books.ledger.installmentsOf (.loan loan.id) = []) :
    ∃ details, (s.perform (activateLoan policy loan.id limit)).1 = .ok details := by
  have hadvance : Lifecycle.advance loan.id.value loan.status LoanStatus.active =
      .ok .applied := by rw [happroved]; rfl
  obtain ⟨draft, hdraft, howner⟩ := Obligation.draft_of_datable
    (o := .loan { loan with status := .active, activatedAt := some s.around.clock }) rfl
    (Obligation.count_loan_pos policy.tiers hterm) hdatable
  obtain ⟨entries, l, hcreate, hwritten⟩ := perform_writeSchedule hdraft howner hnone
  obtain ⟨_, -, -, -, rfl⟩ := Ledger.createBatch_ok.mp hcreate
  simp only [activateLoan, perform_locked hlimit, perform_bind, perform_getLoan hlimit hknown,
    perform_require, hadvance, perform_check hlimit, perform_now, hwritten, perform_compensated,
    perform_call, Ledger.answer_updateLoan, hknown, Option.isSome_some, perform_pure]
  exact ⟨_, rfl⟩

/-- Where a schedule was left behind, an approved loan cannot be activated. -/
theorem perform_activateLoan_conflict
    (hsome : s.books.ledger.installmentsOf (.loan loan.id) ≠ []) :
    (s.perform (activateLoan policy loan.id limit)).1 =
      .error (Owner.loan loan.id).alreadyScheduled := by
  have hadvance : Lifecycle.advance loan.id.value loan.status LoanStatus.active =
      .ok .applied := by rw [happroved]; rfl
  have hconflict : s.perform (writeSchedule policy
      (.loan { loan with status := .active, activatedAt := some s.around.clock })) = _ :=
    perform_writeSchedule_conflict hsome
  simp only [activateLoan, perform_locked hlimit, perform_bind, perform_getLoan hlimit hknown,
    perform_require, hadvance, perform_check hlimit, perform_now, hconflict]
  rfl

end Loans

end Scene

end Lending
