import Lending.Proofs.Engine.Workload
import Lending.Proofs.Engine.Writes

/-!
# Work on payments

Payments, decisions on applications, deliveries and drains at work at once. A delivery holds the
lock of its payment, and one that settles the payment that of the application, too; payments and
decisions hold the lock of the application alone. This is enough: none of them changes what the
locks of the others protect.

* `Engine.settlePayment_respects`: the check of the limit, the schedule, the outcome, and what is
  undone when they come apart.
* `Engine.deliverPayment_respects`: a delivery writes an outcome exactly when it is applied.
* `Job.respects`: the jobs respect the locks of one another.
-/

namespace Lending

/-! ## Locks given back -/

/-- Nothing is held, and these are the outcomes that were written. -/
def Wrote (won : List PaymentId) : Standing := fun held won' _ => held = [] ∧ won' = won

namespace Engine

open Operation

variable {α : Type} {faults : Faults} {policy : Policy} {used : Tiers → Prop} {limit : Deadline}
  {key : LockKey} {held : List LockKey} {won : List PaymentId} {l : Ledger}

/-- A lock may be given back while what holds as long as it is free. -/
theorem released {Q : Standing} (hfree : l.Free used key)
    (hQ : ∀ l', l.Waits (key :: held) l' → Q held won l') :
    Released used key Q (key :: held) won l := by
  intro l' hwaits
  exact ⟨hfree.changes hwaits.toChanges List.mem_cons_self, held, rfl, hQ l' hwaits⟩

theorem released_wrote (hfree : l.Free used key) : Released used key (Wrote won) [key] won l :=
  released hfree fun _ _ => ⟨rfl, rfl⟩

/-- A call that takes one lock and gives it back. -/
theorem locked_respects {body : Operation α} {wrote : α → List PaymentId}
    (hbody : ∀ l', l'.Free used key → Respects faults used body
      (fun a => Released used key (Wrote (wrote a))) (Released used key (Wrote won)) [key] won l') :
    Respects faults used (locked key limit body) (fun a => Wrote (wrote a)) (Wrote won) [] won l :=
  (respects_locked key limit body).mpr fun l' _ =>
    ⟨⟨rfl, rfl⟩, fun _ hfree => hbody l' hfree⟩

/-! ## Parts -/

theorem getApplication_respects {ok : Application → Standing} {fail : Standing}
    {id : ApplicationId} (hfail : ∀ l', l.Waits held l' → fail held won l')
    (hok : ∀ l' a, l.Waits held l' → l'.applications.get? id = some a → ok a held won l') :
    Respects faults used (getApplication id limit) ok fail held won l := by
  unfold getApplication
  rw [respects_bind]
  apply respects_boundedLook (c := .getApplication id) (fun _ => rfl) (fun _ => trivial) rfl _ hfail
  intro l' hwaits
  exact (respects_found id _).mpr ⟨fun a ha => hok l' a hwaits ha, fun _ => hfail l' hwaits⟩

/-- The check passes only when the amount fits into what is left. -/
theorem checkCredit_respects {ok : Unit → Standing} {fail : Standing} {id : ApplicationId}
    {granted amount : Amount} (hfail : ∀ l', l.Waits held l' → fail held won l')
    (hok : ∀ l', l.Waits held l' → l'.creditUsed id + amount.toNat ≤ granted.toNat →
      ok () held won l') :
    Respects faults used (checkCredit id granted amount limit) ok fail held won l := by
  simp only [checkCredit, settledTotal, respects_bind, respects_check, respects_require,
    respects_ite, respects_throw, respects_pure,
    respects_look (c := .paymentsOfApplication id) (fun _ => rfl) (fun _ => trivial) rfl]
  intro l₁ hwaits₁
  refine ⟨hfail l₁ hwaits₁, fun l₂ hwaits₂ => ?_⟩
  have hwaits := hwaits₁.trans hwaits₂
  refine ⟨fun _ => hfail l₂ hwaits, ?_, fun _ _ => hfail l₂ hwaits⟩
  intro settled htotal
  exact ⟨fun _ => hfail l₂ hwaits, fun havailable =>
    hok l₂ hwaits (fits_of_available htotal havailable)⟩

/-! ## Settling a payment -/

/-- How a pending payment is recorded that succeeds. -/
structure Settles (p p' : Payment) : Prop where
  pending : p.status = .pending
  id : p'.id = p.id
  application : p'.application = p.application
  successful : p'.status = .successful

section Settling

variable {p p' : Payment} {lines : List Line} {fail : Standing}

/-- The payment gets the schedule that it must have before it is recorded. -/
theorem writeSchedule_respects {ok : List Installment → Standing} (hused : used policy.tiers)
    (hstands : l.Stands p []) (hsettles : Settles p p') (haffords : l.Affords p')
    (hheld : .payment p.id ∈ held) (hgranted : .application p'.application ∈ held)
    (hfail : ∀ l', l'.Stands p [] → fail held won l')
    (hok : ∀ l' entries lines, l'.Stands p lines → l'.Affords p' →
      (Obligation.payment p').Scheduled used lines → ok entries held won l') :
    Respects faults used (writeSchedule policy (.payment p')) ok fail held won l := by
  unfold writeSchedule
  rw [respects_bind, respects_look (c := .installmentsOf (Obligation.payment p').owner)
    (fun _ => rfl) (fun _ => trivial) rfl]
  simp only [respects_bind, respects_ite, respects_throw, respects_require, respects_call]
  intro l₁ hwaits₁
  have hstands₁ := hstands.changes hwaits₁.toChanges hheld
  have hfail₁ := hfail l₁ hstands₁
  refine ⟨fun _ => hfail₁, fun _ => hfail₁, fun _ => ⟨?_, fun _ _ => hfail₁⟩⟩
  intro draft hdraft l₂ hwaits₂
  have hstands₂ := hstands₁.changes hwaits₂.toChanges hheld
  have hfail₂ := hfail l₂ hstands₂
  refine ⟨fun _ => hfail₂, fun _ _ => hfail₂, ?_⟩
  intro entries l₃ hleft hanswer
  refine ⟨Ledger.writes_createBatch hwaits₂.sound hwaits₂.credit hdraft (hsettles.id ▸ hheld) hleft
    hanswer, ?_⟩
  have haffords₂ := haffords.changes (hwaits₁.trans hwaits₂).toChanges hgranted
  obtain ⟨_, -, -, -, hafter⟩ := Ledger.createBatch_ok.mp hanswer
  have hwritten : l₂.Schedules policy (.payment p') entries l₃.counters l₃.installments :=
    ⟨draft, hdraft, hleft, hanswer.trans (by rw [hafter])⟩
  have hentries := (hwritten.installmentsOf hwaits₂.sound rfl _).trans
    (if_pos (congrArg Owner.payment hsettles.id.symm))
  obtain ⟨hne, moment, hsplits⟩ := hwritten.splits
  refine hok l₃ entries _ ⟨?_, congrArg (List.map Installment.line) hentries⟩ ?_ ?_
  · rw [hafter]
    exact hstands₂.known
  · rw [hafter]
    exact haffords₂
  · exact ⟨⟨fun _ => hsettles.successful, fun _ => hne⟩, fun _ => ⟨_, moment, hused, hsplits⟩⟩

/-- A schedule is removed whatever happens, unless a fault keeps it. -/
theorem removeSchedule_respects (hfaults : ¬faults.LeaveSchedules) (hstands : l.Stands p lines)
    (hheld : .payment p.id ∈ held) (hfail : ∀ l', l'.Stands p [] → fail held won l') :
    Respects faults used (removeSchedule (.payment p.id)) (fun _ => fail) fail held won l := by
  refine (respects_call _).mpr fun l' hwaits => ⟨?_, ?_, ?_⟩
  · intro hrefused
    exact absurd (.inr ⟨_, hrefused⟩) hfaults
  · rintro _ ⟨⟩
  · intro count l'' _ hanswer
    obtain ⟨-, rfl⟩ := Prod.mk.inj (Except.ok.inj hanswer)
    refine ⟨Ledger.writes_deleteInstallmentsOf hwaits.sound hwaits.credit hheld, hfail _ ⟨?_, ?_⟩⟩
    · exact (hstands.changes hwaits.toChanges hheld).known
    · exact (Ledger.linesOf_deleteInstallmentsOf l' _ _).trans (if_pos rfl)

/-- A payment whose schedule was written succeeds, or the schedule is removed again. -/
theorem updateScheduled_respects {ok : Unit → Standing} (hfaults : ¬faults.LeaveSchedules)
    (hstands : l.Stands p lines) (hsettles : Settles p p') (haffords : l.Affords p')
    (hheld : .payment p.id ∈ held) (hgranted : .application p'.application ∈ held)
    (hfail : ∀ l', l'.Stands p [] → fail held won l')
    (hok : ∀ l', l'.Stands p' lines → ok () held (p.id :: won) l') :
    Respects faults used (compensated (call (.updatePayment p')) (removeSchedule (.payment p.id)))
      ok fail held won l := by
  have hdecided : p'.status ≠ .pending := by
    rw [hsettles.successful]
    nofun
  refine (respects_compensated _ _).mpr ((respects_call _).mpr fun l₁ hwaits => ?_)
  have hstands₁ := hstands.changes hwaits.toChanges hheld
  have haffords₁ := haffords.changes hwaits.toChanges hgranted
  have hundone : Respects faults used (removeSchedule (.payment p.id)) (fun _ => fail) fail held
      won l₁ := removeSchedule_respects hfaults hstands₁ hheld hfail
  refine ⟨fun _ => hundone, fun _ _ => hundone, ?_⟩
  intro _ l₂ _ hanswer
  obtain ⟨hwrites, hafter⟩ := Ledger.writes_updatePayment hwaits.sound hwaits.credit
    hstands₁.known hsettles.pending hheld hanswer hsettles.id hsettles.application hdecided
    fun _ => ⟨hgranted, haffords₁⟩
  rw [StoreCall.concludes, hsettles.id]
  exact ⟨hwrites, hok l₂ (hafter lines hstands₁.lines)⟩

/-- A payment that succeeds gets its schedule, and one that cannot be settled has none. -/
theorem settlePayment_respects {ok : Unit → Standing} (hfaults : ¬faults.LeaveSchedules)
    (hused : used policy.tiers) (hstands : l.Stands p []) (hpending : p.status = .pending)
    (hheld : .payment p.id ∈ held) (hfail : ∀ l', l'.Stands p [] → fail held won l')
    (hok : ∀ l' p' lines, p'.id = p.id → l'.Stands p' lines →
      (Obligation.payment p').Scheduled used lines → ok () held (p.id :: won) l') :
    Respects faults used (settlePayment policy p.id p limit) ok fail held won l := by
  have hkey : .payment p.id ∈ LockKey.application p.application :: held :=
    List.mem_cons_of_mem _ hheld
  have hgives : ∀ l', l'.Stands p [] → Released used (.application p.application) fail
      (.application p.application :: held) won l' := fun l₁ hstands₁ =>
    released trivial fun l₂ hwaits₂ => hfail l₂ (hstands₁.changes hwaits₂.toChanges hkey)
  unfold settlePayment
  rw [respects_locked]
  intro l₁ hwaits₁
  have hstands₁ := hstands.changes hwaits₁.toChanges hheld
  refine ⟨hfail l₁ hstands₁, fun _ _ => ?_⟩
  rw [respects_bind]
  apply getApplication_respects
  · exact fun l₂ hwaits₂ => hgives l₂ (hstands₁.changes hwaits₂.toChanges hkey)
  intro l₂ a hwaits₂ ha
  have hstands₂ := hstands₁.changes hwaits₂.toChanges hkey
  rw [respects_bind]
  apply checkCredit_respects
  · exact fun l₃ hwaits₃ => hgives l₃ (hstands₂.changes hwaits₃.toChanges hkey)
  intro l₃ hwaits₃ hfits
  have hstands₃ := hstands₂.changes hwaits₃.toChanges hkey
  have haffords₃ : l₃.Affords p :=
    ⟨a, (hwaits₃.applications _ List.mem_cons_self).trans ha, hfits⟩
  simp only [respects_bind, respects_check, respects_now]
  intro l₄ hwaits₄
  have hstands₄ := hstands₃.changes hwaits₄.toChanges hkey
  refine ⟨hgives l₄ hstands₄, fun l₅ hwaits₅ settled => ?_⟩
  have hstands₅ := hstands₄.changes hwaits₅.toChanges hkey
  have haffords₅ := haffords₃.changes (hwaits₄.trans hwaits₅).toChanges List.mem_cons_self
  obtain ⟨p', hp'⟩ : ∃ p', p' = { p with status := .successful, settledAt := some settled } :=
    ⟨_, rfl⟩
  have hsettles : Settles p p' := by
    rw [hp']
    exact ⟨hpending, rfl, rfl, rfl⟩
  have haffords' : l₅.Affords p' := by
    rw [hp']
    exact haffords₅
  have hgranted : .application p'.application ∈ LockKey.application p.application :: held :=
    hsettles.application ▸ List.mem_cons_self
  rw [← hp']
  apply writeSchedule_respects hused hstands₅ hsettles haffords' hkey hgranted hgives
  intro l₆ entries lines hstands₆ haffords₆ hscheduled
  apply updateScheduled_respects hfaults hstands₆ hsettles haffords₆ hkey hgranted hgives
  intro l₇ hstands₇
  exact released trivial fun l₈ hwaits₈ => hok l₈ p' lines hsettles.id
    (hstands₇.changes hwaits₈.toChanges (hsettles.id ▸ hkey)) hscheduled

/-- A payment that is known to be pending fails. -/
theorem failPayment_respects {ok : Unit → Standing} (hstands : l.Stands p [])
    (hpending : p.status = .pending) (hheld : .payment p.id ∈ held)
    (hfail : ∀ l', l'.Stands p [] → fail held won l')
    (hok : ∀ l', l'.Stands { p with status := .failed } [] → ok () held (p.id :: won) l') :
    Respects faults used (failPayment p limit) ok fail held won l := by
  simp only [failPayment, respects_bind, respects_check, respects_call]
  intro l₁ hwaits₁
  have hstands₁ := hstands.changes hwaits₁.toChanges hheld
  refine ⟨hfail l₁ hstands₁, fun l₂ hwaits₂ => ?_⟩
  have hstands₂ := hstands₁.changes hwaits₂.toChanges hheld
  refine ⟨fun _ => hfail l₂ hstands₂, fun _ _ => hfail l₂ hstands₂, ?_⟩
  intro _ l₃ _ hanswer
  obtain ⟨hwrites, hafter⟩ := Ledger.writes_updatePayment hwaits₂.sound hwaits₂.credit
    hstands₂.known hpending hheld hanswer rfl rfl (by rintro ⟨⟩) (by rintro ⟨⟩)
  exact ⟨hwrites, hok l₃ (hafter [] hstands₂.lines)⟩

/-- Once an outcome was written, the queue forgets what it was to confirm. -/
theorem cancelSettlement_respects {id : PaymentId} (hfree : l.Free used (.payment id)) :
    Respects faults used (do let _ ← cancel (.paymentSettled id); pure Ack.applied)
      (fun ack => Released used (.payment id) (Wrote (if ack = .applied then id :: won else won)))
      (Released used (.payment id) (Wrote won)) [.payment id] (id :: won) l := by
  simp only [respects_bind, respects_cancel, respects_pure]
  intro l' hwaits _
  exact released_wrote (hfree.changes hwaits.toChanges List.mem_cons_self)

end Settling

/-! ## Calls -/

/-- A delivery writes an outcome exactly when it is applied. -/
theorem deliverPayment_respects (hfaults : ¬faults.LeaveSchedules) (hused : used policy.tiers)
    (id : PaymentId) (token : String) :
    Respects faults used (deliverPayment policy id token limit)
      (fun ack => Wrote (if ack = .applied then id :: won else won)) (Wrote won) [] won l := by
  unfold deliverPayment
  rw [respects_bind, respects_require]
  refine ⟨fun next _ => locked_respects fun l₁ hfree₁ => ?_, fun _ _ => ⟨rfl, rfl⟩⟩
  rw [respects_bind]
  apply respects_boundedLook (c := .getPayment id) (fun _ => rfl) (fun _ => trivial) rfl
  · exact fun l₂ hwaits₂ => released_wrote (hfree₁.changes hwaits₂.toChanges List.mem_cons_self)
  intro l₂ hwaits₂
  have hfree₂ := hfree₁.changes hwaits₂.toChanges List.mem_cons_self
  have hgives₂ : Released used (.payment id) (Wrote won) [.payment id] won l₂ :=
    released_wrote hfree₂
  simp only [respects_bind, respects_found, respects_require]
  refine ⟨?_, fun _ => hgives₂⟩
  intro p hknown
  obtain rfl := hwaits₂.sound.payments.id_of_get? hknown
  refine ⟨?_, fun _ _ => hgives₂⟩
  intro transition hadvance
  cases transition with
  | unchanged => exact hgives₂
  | applied =>
    obtain ⟨hpending, hmoves⟩ := pending_of_payment_applied hadvance
    have hstands := hfree₂.stands hknown hpending
    have hgives : ∀ l₃, l₃.Stands p [] →
        Released used (.payment p.id) (Wrote won) [.payment p.id] won l₃ := by
      intro l₃ hstands₃
      have hnone := Obligation.not_begun_of_pending hpending
      exact released_wrote (hstands₃.free (Obligation.scheduled_nil hnone))
    cases next with
    | pending => exact absurd rfl hmoves
    | successful =>
      refine (respects_bind _ _).mpr (settlePayment_respects hfaults hused hstands hpending
        List.mem_cons_self hgives ?_)
      intro l₃ p' lines hid hstands₃ hscheduled
      exact cancelSettlement_respects (hid ▸ hstands₃.free hscheduled)
    | failed =>
      refine (respects_bind _ _).mpr (failPayment_respects hstands hpending List.mem_cons_self
        hgives ?_)
      intro l₃ hstands₃
      exact cancelSettlement_respects (hstands₃.free (Obligation.scheduled_nil (by rintro ⟨⟩)))

/-- A payment is recorded on an application that stays approved while its lock is held. -/
theorem pay_respects (request : PaymentRequest) :
    Respects faults used (pay policy request limit) (fun _ => Wrote won) (Wrote won) [] won l := by
  unfold pay
  rw [respects_bind, respects_require]
  refine ⟨?_, fun _ _ => ⟨rfl, rfl⟩⟩
  rintro ⟨amount, currency, method⟩ _
  refine locked_respects fun l₁ _ => ?_
  have hgives : ∀ l', Released used (.application request.application) (Wrote won)
      [.application request.application] won l' := fun _ => released_wrote trivial
  rw [respects_bind]
  apply getApplication_respects fun l₂ _ => hgives l₂
  intro l₂ a hwaits₂ hknown
  rw [respects_bind, respects_require]
  refine ⟨?_, fun _ _ => hgives l₂⟩
  intro _ hdrawn
  have happroved := approved_of_checkDrawn hdrawn
  rw [respects_bind]
  apply checkCredit_respects fun l₃ _ => hgives l₃
  intro l₃ hwaits₃ _
  simp only [respects_bind, respects_check, respects_now, respects_freshOrder, respects_call,
    respects_schedule, respects_pure]
  intro l₄ hwaits₄
  refine ⟨hgives l₄, fun l₅ hwaits₅ created l₆ hwaits₆ order l₇ hwaits₇ => ?_⟩
  refine ⟨fun _ => hgives l₇, fun _ _ => hgives l₇, ?_⟩
  intro p l₈ hleft hanswer
  have hwaits := (((hwaits₃.trans hwaits₄).trans hwaits₅).trans hwaits₆).trans hwaits₇
  have hknown₇ := (hwaits.applications _ List.mem_cons_self).trans hknown
  exact ⟨Ledger.writes_createPayment hwaits₇.sound hwaits₇.credit hleft rfl
    ⟨a, hknown₇, happroved⟩ hanswer, fun l₉ _ _ => hgives l₉⟩

/-- An application that is pending stays so while its lock is held. -/
theorem decideApplication_respects (id : ApplicationId) :
    Respects faults used (decideApplication policy id limit) (fun _ => Wrote won) (Wrote won) []
      won l := by
  refine locked_respects fun l₁ _ => ?_
  have hgives : ∀ l', Released used (.application id) (Wrote won) [.application id] won l' :=
    fun _ => released_wrote trivial
  rw [respects_bind]
  apply getApplication_respects fun l₂ _ => hgives l₂
  intro l₂ a hwaits₂ hknown
  obtain rfl := hwaits₂.sound.applications.id_of_get? hknown
  simp only [verdict, respects_bind, respects_ite, respects_throw, respects_score, respects_pure,
    respects_require, respects_check, respects_now, respects_call]
  refine ⟨fun _ => hgives l₂, fun hpending l₃ hwaits₃ => ⟨fun score => ⟨?_, fun _ _ => hgives l₃⟩,
    hgives l₃⟩⟩
  intro transition _ l₄ hwaits₄
  refine ⟨hgives l₄, fun l₅ hwaits₅ decided l₆ hwaits₆ => ?_⟩
  refine ⟨fun _ => hgives l₆, fun _ _ => hgives l₆, ?_⟩
  intro _ l₇ _ hanswer
  have hwaits := ((hwaits₃.trans hwaits₄).trans hwaits₅).trans hwaits₆
  have hknown₆ := (hwaits.applications _ List.mem_cons_self).trans hknown
  exact ⟨Ledger.writes_updateApplication hwaits₆.credit hknown₆ (not_not.mp hpending) rfl
    List.mem_cons_self hanswer, hgives l₇⟩

/-- An entry may be written again, whatever happens to its schedule. -/
theorem deliverInstallment_respects (id : InstallmentId) (token : String) :
    Respects faults used (deliverInstallment id token limit) (fun _ => Wrote won) (Wrote won) []
      won l := by
  unfold deliverInstallment
  rw [respects_bind, respects_require]
  refine ⟨fun next _ => locked_respects fun l₁ _ => ?_, fun _ _ => ⟨rfl, rfl⟩⟩
  have hgives : ∀ l', Released used (.installment id) (Wrote won) [.installment id] won l' :=
    fun _ => released_wrote trivial
  unfold getInstallment
  rw [respects_bind, respects_bind]
  apply respects_boundedLook (c := .getInstallment id) (fun _ => rfl) (fun _ => trivial) rfl
  · exact fun l₂ _ => hgives l₂
  intro l₂ hwaits₂
  simp only [respects_bind, respects_found, respects_ite, respects_throw, respects_require]
  refine ⟨?_, fun _ => hgives l₂⟩
  intro e hknown
  obtain rfl := hwaits₂.sound.installments.id_of_get? hknown
  refine ⟨fun _ => hgives l₂, fun _ => ⟨?_, fun _ _ => hgives l₂⟩⟩
  intro transition _
  cases transition with
  | unchanged => exact hgives l₂
  | applied =>
    simp only [respects_bind, respects_check, respects_call, respects_cancel, respects_pure]
    intro l₃ hwaits₃
    refine ⟨hgives l₃, fun l₄ hwaits₄ => ⟨fun _ => hgives l₄, fun _ _ => hgives l₄, ?_⟩⟩
    intro _ l₅ _ hanswer
    refine ⟨Ledger.writes_updateInstallment hwaits₄.sound hwaits₄.credit ?_ hanswer,
      fun l₆ _ _ => hgives l₆⟩
    -- others keep the terms of the entry, and its number is not given again
    intro current hcurrent
    have hold : e.id.value ≤ l₂.counters.installment :=
      hwaits₂.sound.upToInstallment _ (hwaits₂.sound.installments.ascending.get?_eq_some.mp hknown)
    obtain ⟨e', hget, hterms⟩ := (hwaits₃.trans hwaits₄).entries e.id current hold hcurrent
    obtain rfl := Option.some.inj (hknown.symm.trans hget)
    exact hterms

/-! ## Drains -/

/-- A delivery from the queue. -/
theorem deliver_respects (hfaults : ¬faults.LeaveSchedules) (hused : used policy.tiers)
    (n : Notification) :
    Respects faults used (deliver policy n)
      (fun ack held won' _ => held = [] ∧ ∀ id, won.count id +
        (if n = .paymentSettled id ∧ ack = .applied then 1 else 0) ≤ won'.count id)
      (Wrote won) [] won l := by
  cases n with
  | paymentSettled other =>
    refine (deliverPayment_respects hfaults hused other _).mono ?_ fun _ _ _ h => h
    rintro ack _ _ _ ⟨rfl, rfl⟩
    refine ⟨rfl, fun id => ?_⟩
    by_cases happlied : ack = .applied <;> simp [happlied, List.count_cons]
  | installmentCollected other =>
    refine (deliverInstallment_respects other _).mono ?_ fun _ _ _ h => h
    rintro ack _ _ _ ⟨rfl, rfl⟩
    exact ⟨rfl, fun id => by simp⟩

theorem deliverAll_respects (hfaults : ¬faults.LeaveSchedules) (hused : used policy.tiers)
    (ns : List Notification) :
    (deliverAll policy ns).Respects faults used
      (fun outcomes held won' _ => held = [] ∧ ∀ id, won.count id +
        outcomes.count (.paymentSettled id, .ok .applied) ≤ won'.count id) [] won l := by
  induction ns generalizing won l with
  | nil => exact ⟨rfl, fun id => by simp⟩
  | cons n rest ih =>
    refine (Program.respects_bind _ _).mpr (Program.Respects.mono ?_
      (deliver_respects hfaults hused n))
    rintro (cause | ack) _ won₁ l₁ hend
    · obtain ⟨rfl, rfl⟩ := hend
      refine (Program.respects_bind _ _).mpr (Program.Respects.mono ?_ ih)
      rintro outcomes _ won₂ l₂ ⟨rfl, hrest⟩
      refine ⟨rfl, fun id => ?_⟩
      simpa [List.count_cons] using hrest id
    · obtain ⟨rfl, hfirst⟩ := hend
      refine (Program.respects_bind _ _).mpr (Program.Respects.mono ?_ ih)
      rintro outcomes _ won₂ l₂ ⟨rfl, hrest⟩
      refine ⟨rfl, fun id => ?_⟩
      have hcount := hfirst id
      have hlater := hrest id
      simp only [List.count_cons, beq_iff_eq, Prod.mk.injEq, Except.ok.injEq]
      omega

theorem runDue_respects (hfaults : ¬faults.LeaveSchedules) (hused : used policy.tiers) :
    (runDue policy).Respects faults used
      (fun outcomes held won' _ => held = [] ∧ ∀ id, won.count id +
        outcomes.count (.paymentSettled id, .ok .applied) ≤ won'.count id) [] won l := by
  intro l₁ _ now l₂ _ due
  refine (Program.respects_bind (deliverAll policy due) _).mpr
    ((deliverAll_respects hfaults hused due).mono ?_)
  rintro outcomes _ won' l₃ ⟨rfl, hcount⟩ l₄ _ _
  exact ⟨rfl, hcount⟩

end Engine

/-! ## Jobs -/

/-- A payment, a decision on an application, a delivery to a payment, or a drain of the queue. -/
def Job.worksOnPayments : Job → Bool
  | .call (.pay _) _ | .call (.decideApplication _) _ | .call (.deliverPayment _ _) _ | .drain =>
    true
  | _ => false

/-- How many deliveries to the payment are answered that its outcome was applied. -/
def Job.applied (id : PaymentId) : (job : Job) → job.Result → Nat
  | .call (.deliverPayment other _) _, result =>
    if other = id ∧ result = .ok .applied then 1 else 0
  | .drain, outcomes => outcomes.count (.paymentSettled id, .ok .applied)
  | _, _ => 0

/-- A job that has ended holds nothing, and wrote the outcomes that it says were applied. -/
def Job.Ended (job : Job) (result : job.Result) : Standing := fun held won _ =>
  held = [] ∧ ∀ id, job.applied id result ≤ won.count id

/-- Jobs that work on payments respect the locks of one another. -/
theorem Job.respects {faults : Faults} {policy : Policy} {used : Tiers → Prop} {l : Ledger}
    (hfaults : ¬faults.LeaveSchedules) (hused : used policy.tiers) {job : Job}
    (hjob : job.worksOnPayments) :
    (job.program policy).Respects faults used job.Ended [] [] l := by
  match job with
  | .drain =>
    refine Program.Respects.mono ?_ (Engine.runDue_respects hfaults hused)
    rintro outcomes held won l ⟨rfl, hcount⟩
    exact ⟨rfl, fun id => by simpa [Job.applied] using hcount id⟩
  | .call (.deliverPayment id token) limit =>
    refine Program.Respects.mono ?_ (Engine.deliverPayment_respects hfaults hused id token)
    rintro (cause | ack) held won l hend
    · obtain ⟨rfl, rfl⟩ := hend
      exact ⟨rfl, fun id => by simp [Job.applied]⟩
    · obtain ⟨rfl, rfl⟩ := hend
      refine ⟨rfl, fun other => ?_⟩
      by_cases happlied : ack = .applied <;> simp [Job.applied, happlied, List.count_cons]
  | .call (.pay request) limit =>
    refine Program.Respects.mono ?_ (Engine.pay_respects request)
    rintro (cause | result) held won l ⟨rfl, rfl⟩ <;> exact ⟨rfl, fun _ => Nat.le_refl _⟩
  | .call (.decideApplication id) limit =>
    refine Program.Respects.mono ?_ (Engine.decideApplication_respects id)
    rintro (cause | result) held won l ⟨rfl, rfl⟩ <;> exact ⟨rfl, fun _ => Nat.le_refl _⟩

end Lending
