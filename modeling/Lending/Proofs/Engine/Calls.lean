import Lending.Proofs.Engine.Effects
import Lending.Proofs.Schedule.Split
import Lending.Proofs.Store.Entries

/-!
# The calls, followed

Every call of the engine is followed once through all that its surroundings may answer. What is said
of a part of a call is what its callers need: `fail` where it gives up with the books unchanged, and
`ok` where it goes on.

* `checkCredit_ensures`: the check of the credit limit.
* `ensures_scheduled`, `ensures_marked`: a write that is undone when the next one breaks.
* `EngineCall.ensures`: a call has one of its effects or leaves one of its remnants.
-/

namespace Lending

namespace Engine

open Operation

variable {faults : Faults} {policy : Policy} {b : Books} {limit : Deadline}

theorem remnant_self {call : EngineCall} : Remnant faults policy b call b :=
  .nothing (.refl b) (.inr rfl)

theorem breaks_self {call : EngineCall} {c : StoreCall} :
    Breaks faults c (fun _ => Remnant faults policy b call) b := breaks_of fun _ => remnant_self

/-! ### Applications -/

theorem apply_ensures (request : ApplicationRequest) :
    Ensures faults (apply policy request limit) (fun a => Effect policy b (.apply request) a)
      (fun _ => Remnant faults policy b (.apply request)) b := by
  simp only [apply, ensures_bind, ensures_require, ensures_check, ensures_now, ensures_call,
    ensures_pure, remnant_self, breaks_self, implies_true, and_true, true_and]
  rintro ⟨amount, currency⟩ hread created a l hleft hanswer
  obtain ⟨rfl, rfl⟩ := Prod.mk.inj (Except.ok.inj hanswer)
  exact .applied hread hleft rfl

theorem ensures_getApplication {ok : Application → Books → Prop}
    {fail : Option Failure → Books → Prop} (id : ApplicationId) :
    Ensures faults (getApplication id limit) ok fail b ↔
      fail (some .timeout) b ∧ Breaks faults (.getApplication id) fail b ∧
        (∀ a, b.ledger.applications.get? id = some a → ok a b) ∧
        (b.ledger.applications.get? id = none →
          fail (some (.notFound .application id.value)) b) := by
  simp only [getApplication, ensures_bind, ensures_boundedCall, ensures_found,
    ensures_look (c := .getApplication id) (fun _ => rfl) fun _ => trivial]

theorem getApplication_ensures (id : ApplicationId) :
    Ensures faults (getApplication id limit)
      (fun a => Effect policy b (.getApplication id) a)
      (fun _ => Remnant faults policy b (.getApplication id)) b := by
  simp only [ensures_getApplication, remnant_self, breaks_self, implies_true, and_true, true_and]
  exact fun a _ => .unchanged not_false

theorem applicationsOfUser_ensures (user : String) :
    Ensures faults (applicationsOfUser user limit)
      (fun all => Effect policy b (.applicationsOfUser user) all)
      (fun _ => Remnant faults policy b (.applicationsOfUser user)) b := by
  simp only [applicationsOfUser, ensures_boundedCall, remnant_self, breaks_self, true_and,
    ensures_look (c := .applicationsOfUser user) (fun _ => rfl) fun _ => trivial]
  exact .unchanged not_false

/-- A move that is not refused and changes something goes to a successor. -/
theorem mem_successors {σ : Type} [Lifecycle σ] [DecidableEq σ] {id : UInt64} {current next : σ}
    (h : Lifecycle.advance id current next = .ok .applied) :
    next ∈ Lifecycle.successors current := by
  unfold Lifecycle.advance at h
  split at h
  · cases h
  · split at h
    · rename_i hmove
      exact of_decide_eq_true hmove
    · split at h <;> cases h

/-- Only pending payments move, and they move to an outcome. -/
theorem pending_of_payment_applied {id : UInt64} {current next : PaymentStatus}
    (h : Lifecycle.advance id current next = .ok .applied) :
    current = .pending ∧ next ≠ .pending := by
  have hsuccessor := mem_successors h
  cases current with
  | pending => exact ⟨rfl, by rintro rfl; simp [Lifecycle.successors] at hsuccessor⟩
  | successful | failed => cases hsuccessor

theorem pending_of_installment_applied {id : UInt64} {current next : InstallmentStatus}
    (h : Lifecycle.advance id current next = .ok .applied) : current = .pending := by
  have hsuccessor := mem_successors h
  cases current with
  | pending => rfl
  | paid | failed => cases hsuccessor

theorem decideApplication_ensures (hb : b.ledger.Sound) (id : ApplicationId) :
    Ensures faults (decideApplication policy id limit)
      (fun next => Effect policy b (.decideApplication id) next)
      (fun _ => Remnant faults policy b (.decideApplication id)) b := by
  simp only [decideApplication, verdict, ensures_locked, ensures_bind, ensures_getApplication,
    ensures_ite, ensures_throw, ensures_score, ensures_require, ensures_check, ensures_now,
    ensures_call, ensures_pure, remnant_self, breaks_self, implies_true, and_true, true_and]
  intro a hknown hpending score _ _ decided _ l _ hanswer
  obtain rfl := hb.applications.id_of_get? hknown
  obtain ⟨-, rfl⟩ := Ledger.update_ok.mp hanswer
  exact .decided hknown (not_not.mp hpending) (by simp)

/-! ### Credit -/

theorem checkedTotal_ok {values : List UInt64} {total : UInt64}
    (h : checkedTotal values = .ok total) : total.toNat = (values.map UInt64.toNat).sum := by
  have hfrom : ∀ (values : List UInt64) (start : UInt64), values.foldlM (fun total value =>
      if total.toNat + value.toNat < UInt64.size then .ok (total + value)
      else (.error (.invalid .amountOverflow) : Except Failure UInt64)) start = .ok total →
      total.toNat = start.toNat + (values.map UInt64.toNat).sum := by
    intro values
    induction values with
    | nil => rintro start ⟨⟩; rfl
    | cons value rest ih =>
      intro start hfold
      rw [List.foldlM_cons] at hfold
      split at hfold
      · rename_i hfits
        have hadd : (start + value).toNat = start.toNat + value.toNat := by
          rw [UInt64.toNat_add, Nat.mod_eq_of_lt hfits]
        rw [ih _ hfold, hadd, List.map_cons, List.sum_cons, Nat.add_assoc]
      · cases hfold
  simpa using hfrom values 0 h

/-- What the successful payments on an application add up to is the credit used. -/
theorem sum_settled (l : Ledger) (id : ApplicationId) :
    ((((l.payments.values.filter fun p => p.application = id).filter
      fun p => p.status = .successful).map fun p => p.amount.value).map UInt64.toNat).sum =
        l.creditUsed id := by
  rw [Ledger.creditUsed, List.filter_filter, List.map_map]
  simp only [Function.comp_def, Amount.toNat, Bool.decide_and, Bool.and_comm]

/-- What is left is what was granted without the credit used. -/
theorem fits_of_available {l : Ledger} {id : ApplicationId} {granted amount : Amount}
    {settled : UInt64}
    (htotal : checkedTotal (((l.payments.values.filter fun p => p.application = id).filter
      fun p => p.status = .successful).map fun p => p.amount.value) = .ok settled)
    (havailable : ¬available granted settled < amount.value) :
    l.creditUsed id + amount.toNat ≤ granted.toNat := by
  have hsettled : settled.toNat = l.creditUsed id := by
    rw [checkedTotal_ok htotal, sum_settled]
  rw [← hsettled]
  unfold available at havailable
  split at havailable
  · rename_i hle
    rw [UInt64.lt_iff_toNat_lt, UInt64.toNat_sub_of_le _ _ hle] at havailable
    rw [UInt64.le_iff_toNat_le] at hle
    simp only [Amount.toNat]
    omega
  · exact absurd amount.pos havailable

/-- The check passes only when the amount fits into what is left. -/
theorem checkCredit_ensures {ok : Unit → Books → Prop} {fail : Option Failure → Books → Prop}
    {id : ApplicationId} {granted amount : Amount} (hfail : ∀ cause, fail cause b)
    (hok : b.ledger.creditUsed id + amount.toNat ≤ granted.toNat → ok () b) :
    Ensures faults (checkCredit id granted amount limit) ok fail b := by
  simp only [checkCredit, settledTotal, ensures_bind, ensures_check, ensures_require, ensures_ite,
    ensures_throw, ensures_pure, hfail, breaks_of hfail, implies_true, and_true, true_and,
    ensures_look (c := .paymentsOfApplication id) (fun _ => rfl) fun _ => trivial]
  intro settled htotal havailable
  exact hok (fits_of_available htotal havailable)

/-! ### Payments -/

theorem pay_ensures (request : PaymentRequest) :
    Ensures faults (pay policy request limit) (fun id => Effect policy b (.pay request) id)
      (fun _ => Remnant faults policy b (.pay request)) b := by
  simp only [pay, ensures_bind, ensures_require, ensures_locked, ensures_getApplication,
    remnant_self, breaks_self, implies_true, and_true, true_and]
  rintro ⟨amount, currency, method⟩ hread a hknown ⟨⟩ hdrawn
  apply checkCredit_ensures fun _ => remnant_self
  intro hcredit
  simp only [ensures_check, ensures_now, ensures_freshOrder, ensures_call, ensures_schedule,
    ensures_pure, remnant_self, breaks_self, implies_true, true_and]
  intro created order p l hleft hanswer
  obtain ⟨hfresh, hp, rfl⟩ := Ledger.createPayment_ok.mp hanswer
  exact .paid hread hknown hdrawn hcredit hleft hfresh hp

theorem paymentDetails_ensures {ok : PaymentDetails → Books → Prop}
    {fail : Option Failure → Books → Prop} (hfail : ∀ cause, fail cause b) (id : PaymentId)
    (hok : ∀ details, ok details b) : Ensures faults (paymentDetails id limit) ok fail b := by
  simp only [paymentDetails, ensures_bind, ensures_boundedCall, ensures_found, ensures_pure, hfail,
    breaks_of hfail, hok, implies_true, and_true,
    ensures_look (c := .getPayment id) (fun _ => rfl) fun _ => trivial,
    ensures_look (c := .installmentsOf (.payment id)) (fun _ => rfl) fun _ => trivial]

theorem allPaymentDetails_ensures :
    Ensures faults (allPaymentDetails limit)
      (fun all => Effect policy b .allPaymentDetails all)
      (fun _ => Remnant faults policy b .allPaymentDetails) b := by
  have hall : ∀ (all : List Payment) (ok : List PaymentDetails → Books → Prop),
      (∀ details, ok details b) →
      Ensures faults (all.mapM fun payment => paymentDetails payment.id limit) ok
        (fun _ => Remnant faults policy b .allPaymentDetails) b := by
    intro all
    induction all with
    | nil => exact fun ok hok => hok []
    | cons p rest ih =>
      intro ok hok
      rw [List.mapM_cons]
      simp only [ensures_bind]
      apply paymentDetails_ensures fun _ => remnant_self
      intro details
      exact ih _ fun others => hok _
  simp only [allPaymentDetails, payments, ensures_bind, ensures_boundedCall, remnant_self,
    breaks_self, true_and, ensures_look (c := .listPayments) (fun _ => rfl) fun _ => trivial]
  exact hall _ _ fun _ => .unchanged not_false

/-! ### Schedules -/

theorem ensures_writeSchedule {o : Obligation} {ok : List Installment → Books → Prop}
    {fail : Option Failure → Books → Prop} (hfail : ∀ cause, fail cause b)
    (hok : ∀ entries c t, b.ledger.Schedules policy o entries c t →
      ok entries { b with ledger := { b.ledger with counters := c, installments := t } }) :
    Ensures faults (writeSchedule policy o) ok fail b := by
  unfold writeSchedule
  rw [ensures_bind, ensures_look (c := .installmentsOf o.owner) (fun _ => rfl) fun _ => trivial]
  simp only [ensures_bind, ensures_ite, ensures_throw, ensures_require, ensures_call, hfail,
    breaks_of hfail, implies_true, and_true, true_and]
  intro _ draft hdraft entries l hleft hanswer
  obtain ⟨_, _, _, rfl, rfl⟩ := Ledger.createBatch_ok.mp hanswer
  exact hok _ _ _ ⟨draft, hdraft, hleft, hanswer⟩

theorem batchOwner_draft {o : Obligation} {tiers : Tiers} {draft : List Installment}
    (h : o.draft tiers = .ok draft) {owner : Owner} (howner : batchOwner draft = .ok owner) :
    owner = o.owner := by
  obtain ⟨_, lines, -, -, rfl⟩ := Obligation.draft_ok h
  obtain ⟨hne, hall⟩ := Ledger.owner_of_batchOwner howner
  obtain ⟨entry, hentry⟩ := List.exists_mem_of_ne_nil _ hne
  obtain ⟨_, -, rfl⟩ := List.mem_map.mp hentry
  exact (hall _ hentry).symm

/-- A write that breaks leaves the books as they were. Only a crash has no cause. -/
theorem ensures_write {c : StoreCall} {ok : c.Result → Books → Prop}
    (hok : ∀ result ledger, b.ledger.counters.Left c → b.ledger.answer c = .ok (result, ledger) →
      ok result { b with ledger }) :
    @Ensures c.Result faults (call c) ok
      (fun cause after => after = b ∧ (cause = none → ∃ call, faults call .crash)) b := by
  apply (ensures_call c).mpr
  refine ⟨⟨?_, ?_⟩, ?_, hok⟩
  · intro _
    exact ⟨rfl, fun h => absurd h (Option.some_ne_none _)⟩
  · intro hcrash
    exact ⟨rfl, fun _ => ⟨c, hcrash⟩⟩
  · intro _ _
    exact ⟨rfl, fun h => absurd h (Option.some_ne_none _)⟩

/-- A write after a schedule was written. If it breaks, the schedule is removed again. -/
theorem ensures_scheduled {α : Type} {o : Obligation} {ok : α → Books → Prop}
    {fail : Option Failure → Books → Prop} (hb : b.ledger.Sound) {entries : List Installment}
    {c : Counters} {t : Table InstallmentId Installment}
    (hwritten : b.ledger.Schedules policy o entries c t) {b' : Books}
    (hb' : b' = { b with ledger := { b.ledger with counters := c, installments := t } })
    {write : Operation α}
    (hwrite : Ensures faults write ok
      (fun cause after => after = b' ∧ (cause = none → ∃ call, faults call .crash)) b')
    (hfail : ∀ cause after, b.Alike after → fail cause after)
    (hleft : faults.LeaveSchedules → ∀ cause, fail cause b') :
    Ensures faults (compensated write (removeSchedule o.owner)) ok fail b' := by
  rw [ensures_compensated]
  refine hwrite.mono (fun _ _ h => h) ?_
  rintro (_ | cause) after ⟨rfl, hcrash⟩
  · exact hleft (.inl (hcrash rfl)) none
  · simp only [Compensated, removeSchedule, ensures_call]
    refine ⟨⟨?_, ?_⟩, ?_, ?_⟩
    · intro hrefused
      exact hleft (.inr ⟨_, hrefused⟩) _
    · intro hcrashed
      exact hleft (.inl ⟨_, hcrashed⟩) _
    · rintro _ ⟨⟩
    · intro count l _ hanswer
      obtain ⟨draft, hdraft, hleft', hcreate⟩ := hwritten
      obtain ⟨owner, howner, -⟩ := Ledger.createBatch_ok.mp hcreate
      obtain rfl := batchOwner_draft hdraft howner
      have hremoved := Ledger.deleteInstallmentsOf_createBatch hb hleft' hcreate howner
      obtain ⟨-, rfl⟩ := Prod.mk.inj (Except.ok.inj hanswer)
      subst hb'
      exact hfail _ _ ⟨rfl, rfl, hremoved, rfl, rfl, rfl⟩

/-! ### Deliveries -/

theorem settlePayment_ensures (hb : b.ledger.Sound) {p : Payment}
    (hknown : b.ledger.payments.get? p.id = some p) (hpending : p.status = .pending)
    {token : String} {ok : Unit → Books → Prop} {fail : Option Failure → Books → Prop}
    (hfail : ∀ cause after, Remnant faults policy b (.deliverPayment p.id token) after →
      fail cause after)
    (hok : ∀ a p' moment entries c t,
      b.ledger.applications.get? p.application = some a →
      b.ledger.creditUsed p.application + p.amount.toNat ≤ a.amount.toNat →
      p' = { p with status := .successful, settledAt := some moment } →
      b.ledger.Schedules policy (.payment p') entries c t →
      ok () { b with
        ledger := { b.ledger with
          counters := c
          payments := b.ledger.payments.insert p.id p'
          installments := t } }) :
    Ensures faults (settlePayment policy p.id p limit) ok fail b := by
  have hself : ∀ cause, fail cause b := fun cause => hfail cause b remnant_self
  simp only [settlePayment, ensures_locked, ensures_bind, ensures_getApplication, hself,
    breaks_of hself, implies_true, and_true, true_and]
  intro a hdrawn
  apply checkCredit_ensures hself
  intro hcredit
  simp only [ensures_check, ensures_now, hself, true_and]
  intro moment
  apply ensures_writeSchedule hself
  intro entries c t hwritten
  refine ensures_scheduled hb hwritten rfl ?_ ?_ ?_
  · apply ensures_write
    intro _ l _ hanswer
    obtain ⟨-, rfl⟩ := Ledger.update_ok.mp hanswer
    exact hok a _ moment entries c t hdrawn hcredit rfl hwritten
  · intro cause after hafter
    exact hfail _ _ (.nothing hafter (.inl rfl))
  · intro hleave cause
    exact hfail _ _ (.settling hleave hknown hpending hwritten)

theorem deliverPayment_ensures (hb : b.ledger.Sound) (id : PaymentId) (token : String) :
    Ensures faults (deliverPayment policy id token limit)
      (fun ack => Effect policy b (.deliverPayment id token) ack)
      (fun _ => Remnant faults policy b (.deliverPayment id token)) b := by
  simp only [deliverPayment, ensures_bind, ensures_require, ensures_locked, ensures_boundedCall,
    ensures_found, remnant_self, breaks_self, implies_true, and_true, true_and,
    ensures_look (c := .getPayment id) (fun _ => rfl) fun _ => trivial]
  intro next houtcome p hknown transition hadvance
  obtain rfl := hb.payments.id_of_get? hknown
  cases transition with
  | unchanged => exact .unchanged (by rintro ⟨⟩)
  | applied =>
    obtain ⟨hpending, hmoves⟩ := pending_of_payment_applied hadvance
    cases next with
    | pending => exact absurd rfl hmoves
    | successful =>
      simp only [ensures_bind]
      apply settlePayment_ensures hb hknown hpending fun _ _ h => h
      intro a p' moment entries c t hdrawn hcredit hp' hwritten
      simp only [ensures_cancel, ensures_pure]
      exact .settled houtcome hknown hpending hdrawn hcredit hp' hwritten
    | failed =>
      simp only [failPayment, ensures_bind, ensures_check, ensures_call, ensures_cancel,
        ensures_pure, remnant_self, breaks_self, implies_true, true_and]
      intro _ l _ hanswer
      obtain ⟨-, rfl⟩ := Ledger.update_ok.mp hanswer
      exact .paymentFailed houtcome hknown hpending

theorem ensures_getInstallment {ok : Installment → Books → Prop}
    {fail : Option Failure → Books → Prop} (id : InstallmentId) :
    Ensures faults (getInstallment id limit) ok fail b ↔
      fail (some .timeout) b ∧ Breaks faults (.getInstallment id) fail b ∧
        (∀ entry, b.ledger.installments.get? id = some entry → ok entry b) ∧
        (b.ledger.installments.get? id = none →
          fail (some (.notFound .installment id.value)) b) := by
  simp only [getInstallment, ensures_bind, ensures_boundedCall, ensures_found,
    ensures_look (c := .getInstallment id) (fun _ => rfl) fun _ => trivial]

theorem deliverInstallment_ensures (hb : b.ledger.Sound) (id : InstallmentId) (token : String) :
    Ensures faults (deliverInstallment id token limit)
      (fun ack => Effect policy b (.deliverInstallment id token) ack)
      (fun _ => Remnant faults policy b (.deliverInstallment id token)) b := by
  simp only [deliverInstallment, ensures_bind, ensures_require, ensures_locked,
    ensures_getInstallment, ensures_ite, ensures_throw, remnant_self, breaks_self, implies_true,
    and_true, true_and]
  intro next houtcome entry hknown howner transition hadvance
  obtain rfl := hb.installments.id_of_get? hknown
  cases transition with
  | unchanged => exact .unchanged (by rintro ⟨⟩)
  | applied =>
    have hpending := pending_of_installment_applied hadvance
    simp only [ensures_bind, ensures_check, ensures_call, ensures_cancel, ensures_pure,
      remnant_self, breaks_self, implies_true, true_and]
    intro _ l _ hanswer
    obtain ⟨-, rfl⟩ := Ledger.update_ok.mp hanswer
    exact .collected houtcome hknown howner hpending

theorem collect_ensures (hb : b.ledger.Sound) (id : InstallmentId) :
    Ensures faults (collect policy id limit) (fun due => Effect policy b (.collect id) due)
      (fun _ => Remnant faults policy b (.collect id)) b := by
  simp only [collect, ensures_bind, ensures_locked, ensures_getInstallment, ensures_ite,
    ensures_throw, ensures_now, ensures_schedule, ensures_pure, remnant_self, breaks_self,
    implies_true, and_true, true_and]
  intro entry hknown hcollectible asked
  obtain rfl := hb.installments.id_of_get? hknown
  simp only [not_or, not_not] at hcollectible
  exact .collectionAsked hknown hcollectible.2 hcollectible.1

/-! ### Loans -/

theorem fileLoan_ensures (request : LoanRequest) :
    Ensures faults (fileLoan policy request limit)
      (fun id => Effect policy b (.fileLoan request) id)
      (fun _ => Remnant faults policy b (.fileLoan request)) b := by
  simp only [fileLoan, ensures_bind, ensures_require, ensures_check, ensures_now, ensures_call,
    ensures_pure, remnant_self, breaks_self, implies_true, and_true, true_and]
  rintro ⟨principal, currency⟩ hread created loan l hleft hanswer
  obtain ⟨rfl, rfl⟩ := Prod.mk.inj (Except.ok.inj hanswer)
  exact .filed hread hleft rfl

theorem ensures_getLoan {ok : Loan → Books → Prop} {fail : Option Failure → Books → Prop}
    (id : LoanId) :
    Ensures faults (getLoan id limit) ok fail b ↔
      fail (some .timeout) b ∧ Breaks faults (.getLoan id) fail b ∧
        (∀ loan, b.ledger.loans.get? id = some loan → ok loan b) ∧
        (b.ledger.loans.get? id = none → fail (some (.notFound .loan id.value)) b) := by
  simp only [getLoan, ensures_bind, ensures_boundedCall, ensures_found,
    ensures_look (c := .getLoan id) (fun _ => rfl) fun _ => trivial]

theorem ensures_scheduleOf {ok : List Installment → Books → Prop}
    {fail : Option Failure → Books → Prop} (id : LoanId) :
    Ensures faults (scheduleOf id limit) ok fail b ↔
      fail (some .timeout) b ∧ Breaks faults (.installmentsOf (.loan id)) fail b ∧
        ok (b.ledger.installmentsOf (.loan id)) b := by
  simp only [scheduleOf, ensures_boundedCall,
    ensures_look (c := .installmentsOf (.loan id)) (fun _ => rfl) fun _ => trivial]

theorem decideLoan_ensures (hb : b.ledger.Sound) (id : LoanId) :
    Ensures faults (decideLoan policy id limit)
      (fun next => Effect policy b (.decideLoan id) next)
      (fun _ => Remnant faults policy b (.decideLoan id)) b := by
  simp only [decideLoan, verdict, ensures_locked, ensures_bind, ensures_getLoan, ensures_ite,
    ensures_throw, ensures_score, ensures_require, ensures_check, ensures_map, ensures_now,
    ensures_call, ensures_pure, remnant_self, breaks_self, implies_true, and_true, true_and]
  intro loan hknown hpending score _ _
  obtain rfl := hb.loans.id_of_get? hknown
  constructor
  · intro hreaches moment _ l _ hanswer
    obtain ⟨-, rfl⟩ := Ledger.update_ok.mp hanswer
    rw [if_pos hreaches]
    exact .loanDecided hknown (not_not.mp hpending) (if_pos (of_decide_eq_true hreaches)).symm rfl
  · intro hbelow _ l _ hanswer
    obtain ⟨-, rfl⟩ := Ledger.update_ok.mp hanswer
    have hlow : ¬policy.approvalThreshold ≤ score.value := fun h => hbelow (decide_eq_true h)
    rw [if_neg hbelow]
    exact .loanDecided hknown (not_not.mp hpending) (if_neg hlow).symm rfl

theorem activateLoan_ensures (hb : b.ledger.Sound) (id : LoanId) :
    Ensures faults (activateLoan policy id limit)
      (fun details => Effect policy b (.activateLoan id) details)
      (fun _ => Remnant faults policy b (.activateLoan id)) b := by
  simp only [activateLoan, ensures_locked, ensures_bind, ensures_getLoan, ensures_require,
    ensures_check, ensures_now, ensures_pure, remnant_self, breaks_self, implies_true, and_true,
    true_and]
  intro loan hknown transition hadvance moment
  obtain rfl := hb.loans.id_of_get? hknown
  have happroved : loan.status = .approved := by
    cases hstatus : loan.status <;> rw [hstatus] at hadvance <;> first | rfl | cases hadvance
  apply ensures_writeSchedule fun _ => remnant_self
  intro entries c t hwritten
  refine ensures_scheduled hb hwritten rfl ?_ ?_ ?_
  · apply ensures_write
    intro _ l _ hanswer
    obtain ⟨-, rfl⟩ := Ledger.update_ok.mp hanswer
    exact .activated hknown happroved rfl hwritten rfl
  · intro cause after hafter
    exact .nothing hafter (.inl rfl)
  · intro hleave cause
    exact .activating hleave hknown happroved hwritten

/-! ### Entries of loans -/

theorem coverEntries_snd (paid sum : Nat) (schedule : List Installment) :
    (coverEntries paid sum schedule).2 = withStatus .paid (coveredEntries paid sum schedule) := by
  induction schedule generalizing sum with
  | nil => rfl
  | cons entry rest ih =>
    simp only [coverEntries, coveredEntries]
    split
    · simp only [withStatus, List.map_cons] at ih ⊢
      rw [ih]
    · exact ih _

theorem mem_coveredEntries {paid sum : Nat} {schedule : List Installment} {e : Installment}
    (h : e ∈ coveredEntries paid sum schedule) : e ∈ schedule ∧ e.status = .pending := by
  induction schedule generalizing sum with
  | nil => cases h
  | cons entry rest ih =>
    simp only [coveredEntries] at h
    split at h
    · rename_i hcovered
      rcases List.mem_cons.mp h with rfl | hrest
      · exact ⟨List.mem_cons_self, hcovered.2⟩
      · exact (ih hrest).imp_left (List.mem_cons_of_mem _)
    · exact (ih h).imp_left (List.mem_cons_of_mem _)

theorem mem_pendingEntries {schedule : List Installment} {e : Installment}
    (h : e ∈ pendingEntries schedule) : e ∈ schedule ∧ e.status = .pending := by
  simpa [pendingEntries] using h

theorem ensures_writeEntries {entries : List Installment} {ok : Unit → Books → Prop}
    {fail : Option Failure → Books → Prop}
    (hbreaks : Breaks faults (.updateBatch entries) fail b)
    (hunknown : ∀ cause, b.ledger.updateBatch entries = .error cause → fail (some cause) b)
    (hok : ok () { b with
      ledger := { b.ledger with
        installments := Ledger.insertBatch b.ledger.installments entries } }) :
    Ensures faults (writeEntries entries) ok fail b := by
  cases entries with
  | nil => exact hok
  | cons entry rest =>
    simp only [writeEntries, List.isEmpty_cons, Bool.false_eq_true, if_false, ensures_call]
    refine ⟨hbreaks, hunknown, ?_⟩
    intro _ l _ hanswer
    obtain ⟨-, rfl⟩ := Ledger.updateBatch_ok.mp hanswer
    exact hok

/-- A write after pending entries were given another status. If it breaks, they are put back. -/
theorem ensures_marked {α : Type} {ok : α → Books → Prop} {fail : Option Failure → Books → Prop}
    (hb : b.ledger.Sound) {entries : List Installment} {status : InstallmentStatus}
    (hentries : ∀ e ∈ entries, e ∈ b.ledger.installments.values ∧ e.status = .pending)
    {b' : Books}
    (hb' : b' = { b with
      ledger := { b.ledger with
        installments := Ledger.insertBatch b.ledger.installments (withStatus status entries) } })
    {write : Operation α}
    (hwrite : Ensures faults write ok
      (fun cause after => after = b' ∧ (cause = none → ∃ call, faults call .crash)) b')
    (hfail : ∀ cause, fail cause b) (hleave : faults.LeaveStatuses → ∀ cause, fail cause b') :
    Ensures faults (compensated write (revertEntries (withStatus status entries))) ok fail b' := by
  have hback : withStatus .pending (withStatus status entries) = entries := by
    rw [withStatus, withStatus, List.map_map]
    refine (List.map_congr_left fun e he => ?_).trans (List.map_id' entries)
    have hpending := (hentries e he).2
    cases e
    simp_all
  have hmem : ∀ e ∈ entries, e ∈ b.ledger.installments.values := fun e he => (hentries e he).1
  rw [ensures_compensated]
  refine hwrite.mono (fun _ _ h => h) ?_
  rintro (_ | cause) after ⟨rfl, hcrash⟩
  · exact hleave (.inl (hcrash rfl)) none
  · simp only [Compensated, revertEntries, hback]
    refine ensures_writeEntries ⟨?_, ?_⟩ ?_ ?_
    · intro hrefused
      exact hleave (.inr ⟨entries, fun e he => (hentries e he).2, hrefused⟩) _
    · intro hcrashed
      exact hleave (.inl ⟨_, hcrashed⟩) _
    · -- the entries are all still there, so that they can be written again
      intro _ hunknown
      subst hb'
      rw [Ledger.updateBatch_ok.mpr ⟨fun e he => ?_, rfl⟩] at hunknown
      · cases hunknown
      · have hget := hb.installments.mem_values.mp (hmem e he)
        simp only [Ledger.get?_insertBatch, hget]
        cases List.find? _ (withStatus status entries).reverse with
        | none => exact ⟨e, rfl⟩
        | some written => exact ⟨written, rfl⟩
    · subst hb'
      have hreverted := Ledger.insertBatch_revert hb.installments status hmem
      simp only [withStatus, hreverted]
      exact hfail _

theorem repayLoan_ensures (hb : b.ledger.Sound) (id : LoanId) (request : RepaymentRequest) :
    Ensures faults (repayLoan policy id request limit)
      (fun loan => Effect policy b (.repayLoan id request) loan)
      (fun _ => Remnant faults policy b (.repayLoan id request)) b := by
  simp only [repayLoan, ensures_bind, ensures_require, ensures_locked, ensures_getLoan,
    ensures_scheduleOf, ensures_ite, ensures_throw, ensures_check, remnant_self, breaks_self,
    implies_true, and_true, true_and]
  rintro ⟨amount, method⟩ hread loan hknown hactive henough
  obtain rfl := hb.loans.id_of_get? hknown
  have hnewly : (loan.repaid (b.ledger.installmentsOf (.loan loan.id)) amount).2 =
      withStatus .paid (loan.newlyCovered (b.ledger.installmentsOf (.loan loan.id)) amount) :=
    coverEntries_snd _ _ _
  have hentries : ∀ e ∈ loan.newlyCovered (b.ledger.installmentsOf (.loan loan.id)) amount,
      e ∈ b.ledger.installments.values ∧ e.status = .pending := by
    intro e he
    obtain ⟨hmem, hpending⟩ := mem_coveredEntries he
    exact ⟨(Ledger.mem_installmentsOf.mp hmem).1, hpending⟩
  have hle : amount.value ≤ loan.remaining := UInt64.not_lt.mp henough
  rw [hnewly]
  refine ensures_writeEntries breaks_self (fun _ _ => remnant_self) ?_
  simp only [ensures_now]
  intro moment
  refine ensures_marked hb hentries rfl ?_ (fun _ => remnant_self) ?_
  · apply ensures_write
    intro r l hleft hanswer
    obtain ⟨-, rfl, rfl⟩ := Ledger.recordRepayment_ok.mp hanswer
    exact .repaid hread hknown (not_not.mp hactive) hle rfl hleft rfl
  · intro hleave _
    exact .repaying hleave hread hknown (not_not.mp hactive) hle

theorem defaultLoan_ensures (hb : b.ledger.Sound) (id : LoanId) :
    Ensures faults (defaultLoan id limit) (fun ack => Effect policy b (.defaultLoan id) ack)
      (fun _ => Remnant faults policy b (.defaultLoan id)) b := by
  simp only [defaultLoan, ensures_bind, ensures_require, ensures_locked, ensures_getLoan,
    ensures_scheduleOf, ensures_ite, ensures_pure, ensures_check, remnant_self, breaks_self,
    implies_true, and_true, true_and]
  intro loan hknown transition hadvance
  obtain rfl := hb.loans.id_of_get? hknown
  refine ⟨fun _ => .unchanged (by rintro ⟨⟩), ?_⟩
  intro _
  have hentries : ∀ e ∈ pendingEntries (b.ledger.installmentsOf (.loan loan.id)),
      e ∈ b.ledger.installments.values ∧ e.status = .pending := by
    intro e he
    obtain ⟨hmem, hpending⟩ := mem_pendingEntries he
    exact ⟨(Ledger.mem_installmentsOf.mp hmem).1, hpending⟩
  refine ensures_writeEntries breaks_self (fun _ _ => remnant_self) ?_
  cases transition with
  | unchanged =>
    have hbefore : loan.status = .defaulted := by
      cases hstatus : loan.status <;> rw [hstatus] at hadvance <;> first | rfl | cases hadvance
    exact ⟨fun h => absurd h (by decide), fun _ => .defaultedAgain hknown hbefore⟩
  | applied =>
    have hactive : loan.status = .active := by
      cases hstatus : loan.status <;> rw [hstatus] at hadvance <;> first | rfl | cases hadvance
    refine ⟨?_, fun h => absurd rfl h⟩
    intro _
    refine ensures_marked hb hentries rfl ?_ (fun _ => remnant_self) ?_
    · apply ensures_write
      intro _ l _ hanswer
      obtain ⟨-, rfl⟩ := Ledger.update_ok.mp hanswer
      exact .defaulted hknown hactive
    · intro hleave _
      exact .defaulting hleave hknown hactive

/-! ### Lists -/

theorem payments_ensures :
    Ensures faults (payments limit) (fun all => Effect policy b .payments all)
      (fun _ => Remnant faults policy b .payments) b := by
  simp only [payments, ensures_boundedCall, remnant_self, breaks_self, true_and,
    ensures_look (c := .listPayments) (fun _ => rfl) fun _ => trivial]
  exact .unchanged not_false

theorem loanDetails_ensures (id : LoanId) :
    Ensures faults (loanDetails id limit) (fun details => Effect policy b (.loanDetails id) details)
      (fun _ => Remnant faults policy b (.loanDetails id)) b := by
  simp only [loanDetails, ensures_bind, ensures_getLoan, ensures_scheduleOf, ensures_pure,
    remnant_self, breaks_self, implies_true, and_true, true_and]
  exact fun _ _ => .unchanged not_false

theorem repaymentsOf_ensures (id : LoanId) :
    Ensures faults (repaymentsOf id limit) (fun all => Effect policy b (.repaymentsOf id) all)
      (fun _ => Remnant faults policy b (.repaymentsOf id)) b := by
  simp only [repaymentsOf, ensures_bind, ensures_getLoan, ensures_boundedCall, remnant_self,
    breaks_self, implies_true, and_true, true_and,
    ensures_look (c := .repaymentsOf id) (fun _ => rfl) fun _ => trivial]
  exact fun _ _ => .unchanged not_false

theorem loansOfUser_ensures (user : String) :
    Ensures faults (loansOfUser user limit) (fun all => Effect policy b (.loansOfUser user) all)
      (fun _ => Remnant faults policy b (.loansOfUser user)) b := by
  simp only [loansOfUser, ensures_boundedCall, remnant_self, breaks_self, true_and,
    ensures_look (c := .loansOfUser user) (fun _ => rfl) fun _ => trivial]
  exact .unchanged not_false

end Engine

/-- However its requests are answered, a call that succeeds has one of its effects and a call that
fails leaves one of its remnants. -/
theorem EngineCall.ensures {faults : Faults} {policy : Policy} {b : Books} (hb : b.ledger.Sound)
    (call : EngineCall) (limit : Deadline) :
    Operation.Ensures faults (call.program policy limit) (Effect policy b call)
      (fun _ => Remnant faults policy b call) b := by
  cases call with
  | apply request => exact Engine.apply_ensures request
  | decideApplication id => exact Engine.decideApplication_ensures hb id
  | getApplication id => exact Engine.getApplication_ensures id
  | applicationsOfUser user => exact Engine.applicationsOfUser_ensures user
  | pay request => exact Engine.pay_ensures request
  | paymentDetails id =>
    exact Engine.paymentDetails_ensures (fun _ => Engine.remnant_self) id fun _ =>
      .unchanged not_false
  | payments => exact Engine.payments_ensures
  | allPaymentDetails => exact Engine.allPaymentDetails_ensures
  | deliverPayment id token => exact Engine.deliverPayment_ensures hb id token
  | deliverInstallment id token => exact Engine.deliverInstallment_ensures hb id token
  | collect id => exact Engine.collect_ensures hb id
  | fileLoan request => exact Engine.fileLoan_ensures request
  | decideLoan id => exact Engine.decideLoan_ensures hb id
  | activateLoan id => exact Engine.activateLoan_ensures hb id
  | repayLoan id request => exact Engine.repayLoan_ensures hb id request
  | defaultLoan id => exact Engine.defaultLoan_ensures hb id
  | loanDetails id => exact Engine.loanDetails_ensures id
  | repaymentsOf id => exact Engine.repaymentsOf_ensures id
  | loansOfUser user => exact Engine.loansOfUser_ensures user

end Lending
