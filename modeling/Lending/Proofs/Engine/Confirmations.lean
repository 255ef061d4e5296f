import Lending.Proofs.Engine.CreditExact
import Lending.Proofs.Engine.Moments
import Lending.Proofs.Engine.Waiting
import Lending.Proofs.Engine.Writes

/-!
# Every pending payment is confirmed or does not fit

A notification leaves the queue before it is delivered and is not scheduled again. Nevertheless no
payment is left pending without one, unless it is larger than what its application has left, and
then it stays larger. Nor does a notification outlive what it confirms.

* `Attended`: the queue and the rows agree, but for what a drain has taken and not yet delivered.
* `Effect.attended`: every call keeps that.
* `World.Proceeds`: what happens to an engine whose store works.
* `World.Proceeds.nothingStranded`: the queue and the rows in all states of such an engine.
-/

namespace Lending

open Lifecycle (Steps Lasts)

/-! ## Credit that is left -/

namespace Ledger

variable {l l' : Ledger}

/-- The credit used never shrinks. -/
theorem Onward.creditUsed_le (h : l.Onward Lasts l') (hl : l.Ordered) (hl' : l'.Ordered)
    (id : ApplicationId) : l.creditUsed id ≤ l'.creditUsed id := by
  let drawn (l : Ledger) : List (PaymentId × Nat) :=
    (l.payments.values.filter fun p => p.application = id ∧ p.status = .successful).map
      fun p => (p.id, p.amount.toNat)
  have hsum : ∀ l : Ledger, l.creditUsed id = ((drawn l).map Prod.snd).sum := by
    intro l
    simp only [drawn, creditUsed, List.map_map, Function.comp_def]
  have hnodup : (drawn l).Nodup := by
    refine List.Nodup.of_map Prod.fst ?_
    simp only [drawn, List.map_map, Function.comp_def]
    exact hl.payments.nodup_ids.sublist (List.filter_sublist.map Payment.id)
  -- a payment that has succeeded is the same in all that matters
  have hsubset : drawn l ⊆ drawn l' := by
    intro entry hentry
    obtain ⟨p, hp, rfl⟩ := List.mem_map.mp hentry
    obtain ⟨hmem, happlies⟩ := List.mem_filter.mp hp
    obtain ⟨happlication, hsuccessful⟩ := of_decide_eq_true happlies
    obtain ⟨p', hget', honward⟩ := h.payments p.id p (hl.payments.mem_values.mp hmem)
    have hstatus : p'.status = p.status := honward.status (by rw [hsuccessful]; rfl)
    have hterms := honward.terms
    simp only [Payment.terms, Prod.mk.injEq] at hterms
    obtain ⟨hid, happlication', -, -, hamount, -⟩ := hterms
    have hmem' : p' ∈ l'.payments.values := hl'.payments.mem_values.mpr (hid ▸ hget')
    refine List.mem_map.mpr ⟨p', List.mem_filter.mpr ⟨hmem', ?_⟩, by rw [hid, hamount]⟩
    exact decide_eq_true ⟨happlication'.trans happlication, hstatus.trans hsuccessful⟩
  obtain ⟨same, hperm, hsublist⟩ := hnodup.subperm hsubset
  rw [hsum, hsum, ← (hperm.map Prod.snd).sum_eq]
  exact (hsublist.map Prod.snd).sum_le_sum fun _ _ => Nat.zero_le _

/-- A payment that fits into what is left has fitted in before. -/
theorem Onward.affords {p : Payment} (h : l.Onward Lasts l') (hl : l.Ordered) (hl' : l'.Ordered)
    (hknown : ∃ a, l.applications.get? p.application = some a) (haffords : l'.Affords p) :
    l.Affords p := by
  obtain ⟨a, ha⟩ := hknown
  obtain ⟨a', ha', hfits⟩ := haffords
  obtain ⟨a'', ha'', honward⟩ := h.applications _ a ha
  obtain rfl := Option.some.inj (ha'.symm.trans ha'')
  have hamount : a'.amount = a.amount := congrArg (fun terms => terms.2.2.1) honward.terms
  refine ⟨a, ha, ?_⟩
  rw [hamount] at hfits
  exact Nat.le_trans (Nat.add_le_add_right (h.creditUsed_le hl hl' _) _) hfits

/-! ## Entries that stay -/

/-- The entries before a new schedule are as they were. -/
theorem Schedules.get?_known {policy : Policy} {o : Obligation} {entries : List Installment}
    {c : Counters} {t : Table InstallmentId Installment} (h : l.Schedules policy o entries c t)
    (hl : l.Sound) {id : InstallmentId} {e : Installment} (he : l.installments.get? id = some e) :
    t.get? id = some e := by
  obtain ⟨draft, -, hleft, hcreate⟩ := h
  have hvalues := values_createBatch hl hleft hcreate
  have hanswer : l.answer (.createBatch draft) =
    .ok (entries, { l with counters := c, installments := t }) := hcreate
  have hbooked : t.Booked Installment.id := (hl.toOrdered.answer hanswer).installments
  obtain rfl := hl.installments.id_of_get? he
  rw [← hl.installments.mem_values] at he
  rw [← hbooked.mem_values]
  exact hvalues ▸ List.mem_append_left _ he

/-- Entries of other owners are as they were when some get another status. -/
theorem get?_withStatus_other (h : l.Ordered) {status : InstallmentStatus}
    {entries : List Installment} {owner : Owner}
    (hmem : ∀ e ∈ entries, e ∈ l.installmentsOf owner) {id : InstallmentId} {e : Installment}
    (he : l.installments.get? id = some e) (hother : e.owner ≠ owner) :
    (insertBatch l.installments (withStatus status entries)).get? id = some e := by
  have hvalues : ∀ e ∈ entries, e ∈ l.installments.values := fun e he =>
    (mem_installmentsOf.mp (hmem e he)).1
  have hnot : e ∉ entries := fun hin => hother (mem_installmentsOf.mp (hmem e hin)).2
  rw [withStatus, insertBatch_restatus h.installments status hvalues, get?_restatus, he]
  simp [hnot]

end Ledger

/-! ## The queue and the rows -/

/-- What waits names a pending payment, or a pending entry of a payment's schedule, and waits as
long as it must. A pending payment waits in the queue or among those that are about to be delivered,
or it does not fit into the credit that is left. -/
structure Attended (policy : Policy) (due : List Notification) (b : Books) : Prop where
  queue : b.queue.Sound
  settlements : ∀ id moment, b.queue.Waits (.paymentSettled id) moment →
    ∃ p, b.ledger.payments.get? id = some p ∧ p.status = .pending ∧
      moment = p.createdAt.add policy.delayMillis
  collections : ∀ id moment, b.queue.Waits (.installmentCollected id) moment →
    ∃ e, b.ledger.installments.get? id = some e ∧ e.status = .pending ∧
      e.owner.entity = .payment
  pending : ∀ p ∈ b.ledger.payments.values, p.status = .pending →
    (∃ moment, b.queue.Waits (.paymentSettled p.id) moment) ∨ .paymentSettled p.id ∈ due ∨
      ¬b.ledger.Affords p

namespace Attended

variable {policy : Policy} {due : List Notification} {b b' : Books}

theorem empty : Attended policy [] { ledger := {}, queue := {} } where
  queue := Queue.sound_empty
  settlements _ _ h := nomatch h.choose_spec
  collections _ _ h := nomatch h.choose_spec
  pending _ h := nomatch h

/-- A step that leaves the queue, the payments and the entries of payments alone. -/
theorem frame (h : Attended policy due b) (hqueue : b'.queue = b.queue)
    (hpayments : b'.ledger.payments = b.ledger.payments)
    (hentries : ∀ id e, b.ledger.installments.get? id = some e → e.owner.entity = .payment →
      b'.ledger.installments.get? id = some e)
    (haffords : ∀ p ∈ b.ledger.payments.values, b'.ledger.Affords p → b.ledger.Affords p) :
    Attended policy due b' where
  queue := hqueue ▸ h.queue
  settlements := by
    rw [hqueue, hpayments]
    exact h.settlements
  collections := by
    rw [hqueue]
    intro id moment hwaits
    obtain ⟨e, he, hpending, howner⟩ := h.collections id moment hwaits
    exact ⟨e, hentries id e he howner, hpending, howner⟩
  pending := by
    rw [hqueue, hpayments]
    intro p hp hpending
    exact (h.pending p hp hpending).imp_right (Or.imp_right (mt (haffords p hp)))

/-- A pending payment gets its outcome, and its notification is withdrawn. -/
theorem decided (h : Attended policy due b) (hbooked : b.ledger.payments.Booked Payment.id)
    {p p' : Payment} (hid : p'.id = p.id) (hdecided : p'.status ≠ .pending)
    (hqueue : b'.queue = (b.queue.cancel (.paymentSettled p.id)).2)
    (hpayments : b'.ledger.payments = b.ledger.payments.insert p'.id p')
    (hentries : ∀ id e, b.ledger.installments.get? id = some e →
      b'.ledger.installments.get? id = some e)
    (haffords : ∀ p ∈ b.ledger.payments.values, b'.ledger.Affords p → b.ledger.Affords p) :
    Attended policy due b' := by
  obtain ⟨hsound, hwaits⟩ := h.queue.cancel (.paymentSettled p.id)
  rw [← hqueue] at hsound hwaits
  refine ⟨hsound, ?_, ?_, ?_⟩
  · intro id moment hwaiting
    obtain ⟨hother, hold⟩ := (hwaits _ _).mp hwaiting
    obtain ⟨q, hq, hrest⟩ := h.settlements id moment hold
    refine ⟨q, ?_, hrest⟩
    rw [hpayments, Table.get?_insert, if_neg, hq]
    rintro rfl
    exact hother (by rw [hid])
  · intro id moment hwaiting
    obtain ⟨e, he, hrest⟩ := h.collections id moment ((hwaits _ _).mp hwaiting).2
    exact ⟨e, hentries id e he, hrest⟩
  · intro q hq hpending
    rw [hpayments, hbooked.mem_values_insert] at hq
    rcases hq with rfl | ⟨hne, hq⟩
    · exact absurd hpending hdecided
    · refine (h.pending q hq hpending).imp ?_ (Or.imp_right (mt (haffords q hq)))
      rintro ⟨moment, hold⟩
      refine ⟨moment, (hwaits _ _).mpr ⟨fun heq => hne ?_, hold⟩⟩
      exact (Notification.paymentSettled.inj heq).trans hid.symm

/-- What is due is taken from the queue. -/
theorem taken (h : Attended policy [] b) (now : Instant) :
    Attended policy (b.queue.takeDue now).1
      { b with queue := (b.queue.takeDue now).2 } := by
  obtain ⟨hsound, hwaits⟩ := h.queue.takeDue now
  refine ⟨hsound, ?_, ?_, ?_⟩
  · exact fun id moment hwaiting => h.settlements id moment ((hwaits _ _).mp hwaiting).1
  · exact fun id moment hwaiting => h.collections id moment ((hwaits _ _).mp hwaiting).1
  · intro p hp hpending
    rcases h.pending p hp hpending with ⟨moment, hold⟩ | hnone | hlarge
    · by_cases hdue : moment ≤ now
      · exact .inr (.inl (h.queue.mem_takeDue.mpr ⟨moment, hold, hdue⟩))
      · exact .inl ⟨moment, (hwaits _ _).mpr ⟨hold, hdue⟩⟩
    · cases hnone
    · exact .inr (.inr hlarge)

/-- A pending payment with a new number, whose settlement is scheduled. -/
theorem admitted (h : Attended policy due b) (hsound : b.ledger.Sound) {p : Payment}
    (hnew : b.ledger.counters.payment < p.id.value) (hpending : p.status = .pending)
    (hqueue : b'.queue =
      b.queue.schedule (.paymentSettled p.id) (p.createdAt.add policy.delayMillis))
    (hpayments : b'.ledger.payments = b.ledger.payments.insert p.id p)
    (hinstallments : b'.ledger.installments = b.ledger.installments)
    (haffords : ∀ p ∈ b.ledger.payments.values, b'.ledger.Affords p → b.ledger.Affords p) :
    Attended policy due b' := by
  obtain ⟨hqueued, hwaits⟩ :=
    h.queue.schedule (.paymentSettled p.id) (p.createdAt.add policy.delayMillis)
  rw [← hqueue] at hqueued hwaits
  have hnone : b.ledger.payments.get? p.id = none := hsound.upToPayment.get?_eq_none hnew
  refine ⟨hqueued, ?_, ?_, ?_⟩
  · intro id moment hwaiting
    rw [hpayments]
    rcases (hwaits _ _).mp hwaiting with ⟨heq, rfl⟩ | ⟨-, hold⟩
    · obtain rfl := Notification.paymentSettled.inj heq
      exact ⟨p, by rw [Table.get?_insert, if_pos rfl], hpending, rfl⟩
    · obtain ⟨q, hq, hrest⟩ := h.settlements id moment hold
      refine ⟨q, ?_, hrest⟩
      rw [Table.get?_insert, if_neg, hq]
      rintro rfl
      rw [hnone] at hq
      cases hq
  · intro id moment hwaiting
    rw [hinstallments]
    rcases (hwaits _ _).mp hwaiting with ⟨heq, -⟩ | ⟨-, hold⟩
    · cases heq
    · exact h.collections id moment hold
  · intro q hq hqpending
    rw [hpayments, hsound.payments.mem_values_insert] at hq
    rcases hq with rfl | ⟨hne, hq⟩
    · exact .inl ⟨_, (hwaits _ _).mpr (.inl ⟨rfl, rfl⟩)⟩
    · refine (h.pending q hq hqpending).imp ?_ (Or.imp_right (mt (haffords q hq)))
      rintro ⟨moment, hold⟩
      refine ⟨moment, (hwaits _ _).mpr (.inr ⟨fun heq => hne ?_, hold⟩)⟩
      exact Notification.paymentSettled.inj heq

/-- An entry of a payment gets its outcome, and its notification is withdrawn. -/
theorem collected (h : Attended policy due b) {e : Installment} (status : InstallmentStatus)
    (hqueue : b'.queue = (b.queue.cancel (.installmentCollected e.id)).2)
    (hpayments : b'.ledger.payments = b.ledger.payments)
    (hinstallments : b'.ledger.installments =
      b.ledger.installments.insert e.id { e with status })
    (haffords : ∀ p ∈ b.ledger.payments.values, b'.ledger.Affords p → b.ledger.Affords p) :
    Attended policy due b' := by
  obtain ⟨hsound, hwaits⟩ := h.queue.cancel (.installmentCollected e.id)
  rw [← hqueue] at hsound hwaits
  refine ⟨hsound, ?_, ?_, ?_⟩
  · intro id moment hwaiting
    rw [hpayments]
    exact h.settlements id moment ((hwaits _ _).mp hwaiting).2
  · intro id moment hwaiting
    obtain ⟨hother, hold⟩ := (hwaits _ _).mp hwaiting
    obtain ⟨e', he', hrest⟩ := h.collections id moment hold
    refine ⟨e', ?_, hrest⟩
    rw [hinstallments, Table.get?_insert, if_neg, he']
    rintro rfl
    exact hother rfl
  · intro p hp hpending
    rw [hpayments] at hp
    refine (h.pending p hp hpending).imp ?_ (Or.imp_right (mt (haffords p hp)))
    rintro ⟨moment, hold⟩
    exact ⟨moment, (hwaits _ _).mpr ⟨nofun, hold⟩⟩

/-- The collection of a pending entry of a payment is scheduled. -/
theorem collectionAsked (h : Attended policy due b) {e : Installment} {moment : Instant}
    (hknown : b.ledger.installments.get? e.id = some e) (hpending : e.status = .pending)
    (howner : e.owner.entity = .payment)
    (hqueue : b'.queue = b.queue.schedule (.installmentCollected e.id) moment)
    (hledger : b'.ledger = b.ledger) : Attended policy due b' := by
  obtain ⟨hsound, hwaits⟩ := h.queue.schedule (.installmentCollected e.id) moment
  rw [← hqueue] at hsound hwaits
  refine ⟨hsound, ?_, ?_, ?_⟩ <;> rw [hledger]
  · intro id moment' hwaiting
    rcases (hwaits _ _).mp hwaiting with ⟨heq, -⟩ | ⟨-, hold⟩
    · cases heq
    · exact h.settlements id moment' hold
  · intro id moment' hwaiting
    rcases (hwaits _ _).mp hwaiting with ⟨heq, -⟩ | ⟨-, hold⟩
    · obtain rfl := Notification.installmentCollected.inj heq
      exact ⟨e, hknown, hpending, howner⟩
    · exact h.collections id moment' hold
  · intro p hp hppending
    refine (h.pending p hp hppending).imp_left ?_
    rintro ⟨moment', hold⟩
    exact ⟨moment', (hwaits _ _).mpr (.inr ⟨nofun, hold⟩)⟩

end Attended

/-! ## Calls -/

section Calls

variable {policy : Policy} {due : List Notification} {b b' : Books} {call : EngineCall}

/-- Every call that succeeds keeps the agreement of the queue and the rows. -/
theorem Effect.attended {result : call.Result} (heffect : Effect policy b call result b')
    (hsound : b.ledger.Sound) (hsound' : b'.ledger.Ordered) (hb : b.ledger.Balanced)
    (hcredit : CreditKept b.ledger) (h : Attended policy due b) : Attended policy due b' := by
  have honward := (heffect.onward hsound hb).lasts
  have haffords : ∀ p ∈ b.ledger.payments.values, b'.ledger.Affords p → b.ledger.Affords p := by
    intro p hp
    obtain ⟨a, ha, -⟩ := hcredit.drawn p hp
    exact honward.affords hsound.toOrdered hsound' ⟨a, ha⟩
  have hloan : ∀ {loan : Loan} {entries : List Installment} {status : InstallmentStatus},
      (∀ e ∈ entries, e ∈ b.ledger.installmentsOf (.loan loan.id)) → ∀ id e,
      b.ledger.installments.get? id = some e → e.owner.entity = .payment →
      (Ledger.insertBatch b.ledger.installments (withStatus status entries)).get? id = some e := by
    intro loan entries status hmem id e he howner
    refine Ledger.get?_withStatus_other hsound.toOrdered hmem he ?_
    intro heq
    rw [heq] at howner
    cases howner
  cases heffect with
  | unchanged => exact h
  | applied | decided | filed | loanDecided =>
    exact h.frame rfl rfl (fun _ _ he _ => he) haffords
  | @paid _ _ _ _ _ _ _ p _ _ _ _ left _ new =>
    have hnew : b.ledger.counters.payment < p.id.value := by
      rw [new]
      exact lt_succ left
    exact h.admitted hsound hnew (by rw [new]) (by rw [new]) rfl rfl haffords
  | @settled _ p p' _ _ _ _ _ _ _ _ _ _ new written =>
    have hid : p'.id = p.id := by rw [new]
    exact h.decided hsound.payments hid (by rw [new]; nofun) rfl (by rw [hid])
      (fun _ _ he => written.get?_known hsound he) haffords
  | @paymentFailed _ p =>
    have hid : ({ p with status := .failed } : Payment).id = p.id := rfl
    exact h.decided hsound.payments hid nofun rfl rfl (fun _ _ he => he) haffords
  | @collected _ entry next => exact h.collected next rfl rfl rfl haffords
  | collectionAsked known owner pending =>
    exact h.collectionAsked known pending owner rfl rfl
  | activated _ _ _ written =>
    exact h.frame rfl rfl (fun _ _ he _ => written.get?_known hsound he) haffords
  | @repaid loan _ _ _ schedule _ _ _ _ _ _ owed =>
    exact h.frame rfl rfl (hloan fun e he => owed ▸ (Engine.mem_coveredEntries he).1) haffords
  | @defaulted loan | @defaultedAgain loan =>
    exact h.frame rfl rfl (hloan fun e he => (Engine.mem_pendingEntries he).1) haffords

/-- So does every call that fails, where the store works. -/
theorem Remnant.attended (hremnant : Remnant Faults.none policy b call b')
    (h : Attended policy due b) : Attended policy due b' := by
  cases hremnant with
  | nothing alike =>
    refine h.frame alike.queue alike.payments (fun _ _ he _ => alike.installments ▸ he) ?_
    intro p _ ⟨a, ha, hfits⟩
    rw [alike.applications] at ha
    rw [Ledger.creditUsed, alike.payments] at hfits
    exact ⟨a, ha, hfits⟩
  | settling may | activating may => exact absurd may Faults.none_leaveSchedules
  | repaying may | defaulting may => exact absurd may Faults.none_leaveStatuses

/-- Books whose queue is attended to, with what that rests on. -/
structure Tended (policy : Policy) (due : List Notification) (b : Books) : Prop where
  sound : b.ledger.Sound
  balanced : b.ledger.Balanced
  credit : CreditKept b.ledger
  schedules : SchedulesKept (fun _ => True) b.ledger
  attended : Attended policy due b

theorem Tended.empty : Tended policy [] { ledger := {}, queue := {} } where
  sound := Ledger.sound_empty
  balanced _ h := nomatch h
  credit := creditKept_empty
  schedules := schedulesKept_empty
  attended := .empty

/-- However a call ends, the books stay tended, and the rows moved onward. -/
theorem EngineCall.always_tended (h : Tended policy due b) (call : EngineCall) (limit : Deadline) :
    (call.program policy limit).run.Always Faults.none
      (fun _ b' => Tended policy due b' ∧ b.ledger.Onward Steps b'.ledger) b := by
  have hcredit := creditKept_invariant Faults.none policy
  have hschedules : Books.Invariant Faults.none policy fun b =>
      SchedulesKept (fun _ => True) b.ledger :=
    schedulesKept_invariant Faults.none_leaveSchedules (fun _ => True) trivial
  have honward : (call.program policy limit).run.Always Faults.none _ b :=
    EngineCall.always_onward h.sound h.balanced policy call limit
  have hends : (call.program policy limit).run.Always Faults.none _ b :=
    Program.Always.sound (call.ensures h.sound limit) h.sound
  refine Program.Always.mono ?_ (honward.and hends)
  rintro result b' ⟨⟨hbalanced', honward'⟩, hsound', hend⟩
  refine ⟨?_, honward'⟩
  have hremnant : Remnant Faults.none policy b call b' → Tended policy due b' := fun hremnant =>
    ⟨hsound', hbalanced', hcredit h.sound h.credit (.remnant hremnant),
      hschedules h.sound h.schedules (.remnant hremnant), hremnant.attended h.attended⟩
  rcases result with _ | cause | result
  · exact hremnant hend
  · exact hremnant hend
  · exact ⟨hsound', hbalanced', hcredit h.sound h.credit (.effect hend),
      hschedules h.sound h.schedules (.effect hend),
      hend.attended h.sound hsound'.toOrdered h.balanced h.credit h.attended⟩

theorem deliver_always_tended (h : Tended policy due b) (n : Notification) :
    (Engine.deliver policy n).run.Always Faults.none
      (fun _ b' => Tended policy due b' ∧ b.ledger.Onward Steps b'.ledger) b := by
  cases n with
  | paymentSettled id =>
    exact EngineCall.always_tended h (Notification.paymentSettled id).call .unbounded
  | installmentCollected id =>
    exact EngineCall.always_tended h (Notification.installmentCollected id).call .unbounded

/-- What was delivered need not be remembered, if it is answered by what decides its payment. -/
theorem Attended.delivered {n : Notification} (h : Attended policy (n :: due) b)
    (hdone : ∀ p ∈ b.ledger.payments.values, n = .paymentSettled p.id → p.status = .pending →
      ¬b.ledger.Affords p) : Attended policy due b where
  queue := h.queue
  settlements := h.settlements
  collections := h.collections
  pending := by
    intro p hp hpending
    rcases h.pending p hp hpending with hwaits | hdue | hlarge
    · exact .inl hwaits
    · rcases List.mem_cons.mp hdue with heq | hdue
      · exact .inr (.inr (hdone p hp heq.symm hpending))
      · exact .inr (.inl hdue)
    · exact .inr (.inr hlarge)

end Calls

/-- A payment that is pending was pending before. -/
theorem Payment.pending_of_onward {p p' : Payment} (h : p.Onward Lasts p')
    (hpending : p'.status = .pending) : p.status = .pending := by
  cases hstatus : p.status with
  | pending => rfl
  | successful | failed =>
    have hstays := h.status (by rw [hstatus]; rfl)
    rw [hpending, hstatus] at hstays
    cases hstays

/-! ## Drains -/

theorem Tended.tidy {policy : Policy} {due : List Notification} {w : World} {b : Books}
    (h : Tended policy due b) (hshows : w.Shows b) (hidle : w.locks.Idle) : w.Tidy b :=
  ⟨⟨hshows, h.sound, h.credit, hidle⟩, h.schedules⟩

/-- The success of a pending payment that fits into what is left is applied. -/
theorem World.Tidy.applied_of_affords {policy : Policy} {w : World} {b : Books} (h : w.Tidy b)
    {p : Payment} (hknown : b.ledger.payments.get? p.id = some p) (hpending : p.status = .pending)
    (haffords : b.ledger.Affords p)
    (hdatable : (Obligation.payment p).Datable policy.tiers w.clock)
    (hfollows : w.Follows Faults.none
      (Engine.deliverPayment policy p.id "SUCCESSFUL" .unbounded).run) :
    (w.run (Engine.deliverPayment policy p.id "SUCCESSFUL" .unbounded).run).1 =
      some (.ok .applied) := by
  obtain ⟨a, ha, hfits⟩ := haffords
  have haid := h.sound.applications.id_of_get? ha
  have hle : p.amount.value.toNat ≤ a.amount.toNat - b.ledger.creditUsed a.id := by
    rw [← haid] at hfits
    simp only [Amount.toNat] at hfits ⊢
    omega
  have hsettle := h.settle (haid ▸ ha) rfl hknown hpending haid.symm
    (h.unscheduled hknown hpending) hdatable hfollows
  obtain ⟨_, rfl, happlied⟩ := hsettle.succeeds.mpr hle
  exact happlied

/-- The due dates of the payment that is confirmed, if any, are in the calendar, counted from the
instant at which the delivery begins. -/
def Delivery.inCalendar (policy : Policy) (d : Delivery) : Bool :=
  match d.notification with
  | .paymentSettled id =>
    match d.before.store.look (.getPayment id) with
    | .ok (some p) => (Obligation.payment p).Datable policy.tiers d.before.clock
    | _ => true
  | .installmentCollected _ => true

theorem Delivery.datable {policy : Policy} {d : Delivery} (h : d.inCalendar policy = true)
    {p : Payment} (hn : d.notification = .paymentSettled p.id)
    (hlook : d.before.store.look (.getPayment p.id) = .ok (some p)) :
    (Obligation.payment p).Datable policy.tiers d.before.clock := by
  simp only [inCalendar, hn, hlook] at h
  exact of_decide_eq_true h

/-- The due dates are in the calendar, counted from a moment at which all of the delivery may have
been made. There always is such a moment (`World.Drains.atOnce`). -/
def Delivery.StaysInCalendar (policy : Policy) (d : Delivery) : Prop :=
  ∃ clock, (d.begunAt clock).AtOnce Faults.none policy ∧
    (d.begunAt clock).inCalendar policy = true

namespace World

variable {policy : Policy} {due : List Notification} {w w' : World} {b b' : Books}

/-- One delivery of a drain. A payment that is pending afterwards, although its success was
confirmed, does not fit into what is left. -/
theorem deliver_tended {n : Notification} {outcome : Option (Except Failure Engine.Ack)}
    (h : Tended policy (n :: due) b) (hshows : w.Shows b) (hidle : w.locks.Idle)
    (hknown : ∀ id, n = .paymentSettled id → ∃ p, b.ledger.payments.get? id = some p)
    (hruns : w.Runs Faults.none (Engine.deliver policy n).run outcome w')
    (hdatable : Delivery.StaysInCalendar policy ⟨w, n, outcome, w'⟩) :
    ∃ b', w'.Shows b' ∧ Tended policy due b' ∧ b.ledger.Onward Steps b'.ledger := by
  have hdecides : (n.recipient.deliver policy n.token .unbounded).run.Always Faults.none _ b :=
    Recipient.deliver_decides h.sound
  rw [← n.deliver_eq] at hdecides
  obtain ⟨b', hshows', -, ⟨htended, honward⟩, hdecided⟩ :=
    hruns.shows ((deliver_always_tended h n).and hdecides) hshows h.sound
  refine ⟨b', hshows', { htended with attended := htended.attended.delivered ?_ }, honward⟩
  rintro p hp rfl hpending haffords
  -- the payment was pending before, and on the same terms
  obtain ⟨before, hbefore⟩ := hknown _ rfl
  obtain ⟨p', hp', hgoes⟩ := honward.payments _ _ hbefore
  obtain rfl : p' = p := Option.some.inj (hp'.symm.trans (htended.sound.payments.mem_values.mp hp))
  have hpending₀ := Payment.pending_of_onward hgoes.lasts hpending
  have hterms := hgoes.terms
  simp only [Payment.terms, Prod.mk.injEq] at hterms
  obtain ⟨hid, happlication, -, -, hamount, -⟩ := hterms
  rw [hid] at hbefore hdatable hdecided
  have hread : w.store.look (.getPayment before.id) = .ok (some before) :=
    (hshows.1.look h.sound.toOrdered (.getPayment before.id) rfl).trans (congrArg _ hbefore)
  -- so it fitted in before, and its success was applied, at whatever moment that was
  obtain ⟨a, ha, -⟩ := h.credit.drawn before (h.sound.payments.mem_values.mpr hbefore)
  have hafforded := honward.lasts.affords h.sound.toOrdered htended.sound.toOrdered
    (happlication.symm ▸ ⟨a, ha⟩) haffords
  simp only [Ledger.Affords, happlication, hamount] at hafforded
  obtain ⟨clock, ⟨hfollows, hresult⟩, hcalendar⟩ := hdatable
  have htidy : World.Tidy { w with clock } b := h.tidy hshows hidle
  have happlied := htidy.applied_of_affords hbefore hpending₀ hafforded
    (Delivery.datable hcalendar rfl hread) hfollows
  obtain ⟨q, hq, hterminal, -⟩ := hdecided (hresult.symm.trans happlied)
  obtain rfl := Option.some.inj (hq.symm.trans (hid ▸ hp'))
  rw [hpending] at hterminal
  cases hterminal

/-- The deliveries of a drain. -/
theorem Delivers.tended {ns : List Notification} {ds : List Delivery}
    (hdelivers : w.Delivers Faults.none policy ns ds w')
    (hdatable : ∀ d ∈ ds, d.StaysInCalendar policy) (h : Tended policy ns b)
    (hshows : w.Shows b) (hidle : w.locks.Idle)
    (hknown : ∀ id, .paymentSettled id ∈ ns → ∃ p, b.ledger.payments.get? id = some p) :
    ∃ b', w'.Shows b' ∧ Tended policy [] b' ∧ b.ledger.Onward Lasts b'.ledger := by
  induction hdelivers generalizing b with
  | nil => exact ⟨b, hshows, h, (Ledger.Onward.refl b.ledger).lasts⟩
  | @next w between _ n rest outcome ds runs _ ih =>
    rw [List.forall_mem_cons] at hdatable
    obtain ⟨b₁, hshows₁, htended₁, honward₁⟩ := deliver_tended h hshows hidle
      (fun id hid => hknown id (hid ▸ List.mem_cons_self)) runs hdatable.1
    have hknown₁ : ∀ id, .paymentSettled id ∈ rest →
        ∃ p, b₁.ledger.payments.get? id = some p := by
      intro id hid
      obtain ⟨p, hp⟩ := hknown id (List.mem_cons_of_mem _ hid)
      obtain ⟨p', hp', -⟩ := honward₁.payments id p hp
      exact ⟨p', hp'⟩
    have hidle₁ := runs.idle (Engine.deliver_returns policy n).run hidle
    obtain ⟨b₂, hshows₂, htended₂, honward₂⟩ := ih hdatable.2 htended₁ hshows₁ hidle₁ hknown₁
    exact ⟨b₂, hshows₂, htended₂, honward₁.lasts.trans honward₂⟩
  | crash runs =>
    obtain ⟨_, hnone⟩ := runs.isSome fun _ => not_false
    cases hnone

/-- A drain takes what is due from the queue and delivers all of it. -/
theorem Drains.tended {ds : List Delivery} (hdrains : w.Drains Faults.none policy ds w')
    (hdatable : ∀ d ∈ ds, d.StaysInCalendar policy) (h : Tended policy [] b)
    (hshows : w.Shows b) (hidle : w.locks.Idle) :
    ∃ b', w'.Shows b' ∧ Tended policy [] b' ∧ b.ledger.Onward Lasts b'.ledger := by
  have hends : ∀ {seen begun last : World}, w.Lapses seen → seen.Lapses begun →
      (begun.taken seen.clock).Delivers Faults.none policy (begun.queue.takeDue seen.clock).1 ds
        last →
      ∃ b', last.Shows b' ∧ Tended policy [] b' ∧ b.ledger.Onward Lasts b'.ledger := by
    intro seen begun last looks takes delivers
    have hbegun := takes.shows (looks.shows hshows)
    rw [hbegun.2] at delivers
    let taken : Books := { b with queue := (b.queue.takeDue seen.clock).2 }
    have htended : Tended policy (b.queue.takeDue seen.clock).1 taken :=
      ⟨h.sound, h.balanced, h.credit, h.schedules, h.attended.taken seen.clock⟩
    have hknown : ∀ id, .paymentSettled id ∈ (b.queue.takeDue seen.clock).1 →
        ∃ p, b.ledger.payments.get? id = some p := by
      intro id hid
      obtain ⟨moment, hwaits, -⟩ := h.attended.queue.mem_takeDue.mp hid
      obtain ⟨p, hp, -⟩ := h.attended.settlements id moment hwaits
      exact ⟨p, hp⟩
    have hidle' : (begun.taken seen.clock).locks.Idle := by
      rw [show (begun.taken seen.clock).locks = w.locks from takes.locks.trans looks.locks]
      exact hidle
    have hshows' : (begun.taken seen.clock).Shows taken :=
      takes.shows_taken (looks.shows hshows) seen.clock
    obtain ⟨b', hlast, htended', honward⟩ :=
      delivers.tended hdatable htended hshows' hidle' hknown
    exact ⟨b', hlast, htended', honward⟩
  cases hdrains with
  | @ended seen begun last later _ looks takes delivers delivered prunes =>
    obtain ⟨b', hshows', hrest⟩ := hends looks takes delivers
    exact ⟨b', prunes.shows hshows', hrest⟩
  | crashed looks takes delivers crashed => exact hends looks takes delivers

/-! ## Runs -/

/-- One thing that happens to an engine whose store works: a call with any deadline, a drain whose
deliveries stay in the calendar, or a change of the surroundings, as of the clock. Time may go by
before each request that a call or a drain makes. -/
inductive Proceeds (policy : Policy) (w : World) : World → Prop
  | call {w' : World} (call : EngineCall) (limit : Deadline) {result : _}
      (runs : w.Runs Faults.none (call.program policy limit).run result w') :
    Proceeds policy w w'
  | drain {ds : List Delivery} {w' : World} (drains : w.Drains Faults.none policy ds w')
      (datable : ∀ d ∈ ds, d.StaysInCalendar policy) : Proceeds policy w w'
  | surroundings {w' : World} (store : w'.store = w.store) (queue : w'.queue = w.queue)
      (locks : w'.locks = w.locks) : Proceeds policy w w'

theorem Proceeds.tended (hproceeds : w.Proceeds policy w') (h : Tended policy [] b)
    (hshows : w.Shows b) (hidle : w.locks.Idle) :
    ∃ b', w'.Shows b' ∧ Tended policy [] b' ∧ w'.locks.Idle ∧
      b.ledger.Onward Lasts b'.ledger := by
  cases hproceeds with
  | call call limit runs =>
    obtain ⟨b', hshows', -, htended', honward⟩ :=
      runs.shows (EngineCall.always_tended h call limit) hshows h.sound
    exact ⟨b', hshows', htended', runs.idle (call.returns policy limit).run hidle, honward.lasts⟩
  | drain drains datable =>
    obtain ⟨b', hshows', htended', honward⟩ := drains.tended datable h hshows hidle
    have hruns := runs_runDue.mpr ⟨_, drains, rfl⟩
    exact ⟨b', hshows', htended', hruns.idle (Engine.runDue_returns policy) hidle, honward⟩
  | surroundings store queue locks =>
    exact ⟨b, ⟨store ▸ hshows.1, queue.trans hshows.2⟩, h, locks ▸ hidle,
      (Ledger.Onward.refl b.ledger).lasts⟩

open Relation (ReflTransGen) in
theorem tended_of_proceeds {w' : World} (hrun : ReflTransGen (Proceeds policy) w w')
    (h : Tended policy [] b) (hshows : w.Shows b) (hidle : w.locks.Idle) :
    ∃ b', w'.Shows b' ∧ Tended policy [] b' ∧ w'.locks.Idle ∧
      b.ledger.Onward Lasts b'.ledger := by
  induction hrun with
  | refl => exact ⟨b, hshows, h, hidle, (Ledger.Onward.refl b.ledger).lasts⟩
  | tail _ hproceeds ih =>
    obtain ⟨b₁, hshows₁, htended₁, hidle₁, honward₁⟩ := ih
    obtain ⟨b₂, hshows₂, htended₂, hidle₂, honward₂⟩ :=
      hproceeds.tended htended₁ hshows₁ hidle₁
    exact ⟨b₂, hshows₂, htended₂, hidle₂, honward₁.trans honward₂⟩

/-- A pending payment that does not wait is larger than what is left, in all that may follow. -/
theorem larger_of_attended {w' : World} (hrun : Relation.ReflTransGen (Proceeds policy) w w')
    (h : Tended policy [] b) (hshows : w.Shows b) (hidle : w.locks.Idle) {p : Payment}
    (hp : p ∈ b.ledger.payments.values) (hlarge : ¬b.ledger.Affords p) :
    ∃ a left, a.id = p.application ∧ w'.store.Leaves a left ∧ left < p.amount.toNat := by
  obtain ⟨b', hshows', htended', hidle', honward⟩ := tended_of_proceeds hrun h hshows hidle
  obtain ⟨a, ha, -⟩ := h.credit.drawn p hp
  obtain ⟨a', ha', -⟩ := honward.applications _ a ha
  have haid := htended'.sound.applications.id_of_get? ha'
  have hlarge' : ¬b'.ledger.Affords p := fun haffords =>
    hlarge (honward.affords h.sound.toOrdered htended'.sound.toOrdered ⟨a, ha⟩ haffords)
  have hkept := htended'.credit.kept _ a' ha'
  refine ⟨a', _, haid, (htended'.tidy hshows' hidle').leaves (haid ▸ ha'), ?_⟩
  rw [haid]
  by_contra hfits
  exact hlarge' ⟨a', ha', by omega⟩

/-- The queue and the rows of a store agree. A pending payment that does not wait is larger than
what is left of its credit in all worlds that satisfy `later`. -/
structure Confirms (policy : Policy) (later : World → Prop) (w : World) : Prop where
  /-- Every payment that waits to be settled is pending, and waits as long as it must. -/
  settlements : ∀ id due, w.queue.Waits (.paymentSettled id) due →
    ∃ p, w.store.look (.getPayment id) = .ok (some p) ∧ p.status = .pending ∧
      due = p.createdAt.add policy.delayMillis
  /-- Every entry that waits to be collected is a pending one of a payment. -/
  collections : ∀ id due, w.queue.Waits (.installmentCollected id) due →
    ∃ e, w.store.look (.getInstallment id) = .ok (some e) ∧ e.status = .pending ∧
      e.owner.entity = .payment
  /-- What waits is what the index of the queue tells. -/
  index : ∀ n, w.queue.isPending n = true ↔ ∃ due, w.queue.Waits n due
  /-- No payment is stranded. -/
  pending : ∀ p, w.store.look (.getPayment p.id) = .ok (some p) → p.status = .pending →
    (∃ due, w.queue.Waits (.paymentSettled p.id) due) ∨
      ∀ w', later w' →
        ∃ a left, a.id = p.application ∧ w'.store.Leaves a left ∧ left < p.amount.toNat

open Relation (ReflTransGen) in
/-- In all states that an engine comes to whose store works, a notification waits exactly for each
pending payment that may still fit into its credit, and for nothing that was decided already. -/
theorem Proceeds.nothingStranded {w₀ : World} (hempty : w₀.IsEmpty) (hlocks : w₀.locks = {})
    (hrun : ReflTransGen (Proceeds policy) w₀ w) :
    w.Confirms policy (ReflTransGen (Proceeds policy) w) := by
  have hidle₀ : w₀.locks.Idle := hlocks ▸ LockTable.idle_empty
  obtain ⟨b, hshows, h, hidle, -⟩ := tended_of_proceeds hrun .empty hempty.shows hidle₀
  have hlook := hshows.1.look h.sound.toOrdered
  constructor
  · intro id due hwaits
    obtain ⟨p, hp, hrest⟩ := h.attended.settlements id due (hshows.2 ▸ hwaits)
    exact ⟨p, (hlook (.getPayment id) rfl).trans (congrArg _ hp), hrest⟩
  · intro id due hwaits
    obtain ⟨e, he, hrest⟩ := h.attended.collections id due (hshows.2 ▸ hwaits)
    exact ⟨e, (hlook (.getInstallment id) rfl).trans (congrArg _ he), hrest⟩
  · rw [hshows.2]
    exact h.attended.queue.isPending_iff
  · intro p hp hpending
    have hget : b.ledger.payments.get? p.id = some p :=
      Except.ok.inj ((hlook (.getPayment p.id) rfl).symm.trans hp)
    have hmem := h.sound.payments.mem_values.mpr hget
    rw [hshows.2]
    rcases h.attended.pending p hmem hpending with hwaits | hnone | hlarge
    · exact .inl hwaits
    · cases hnone
    · exact .inr fun w' hlater => larger_of_attended hlater h hshows hidle hmem hlarge

/-! ### Steps in no time -/

theorem proceeds_afterCalls {calls : List EngineCall}
    (hfollows : w.FollowsCalls Faults.none policy calls) :
    Relation.ReflTransGen (Proceeds policy) w (w.afterCalls policy calls) := by
  induction calls generalizing w with
  | nil => exact .refl
  | cons call rest ih =>
    obtain ⟨result, hresult⟩ := isSome_run (fun _ => not_false) hfollows.1
    have hfirst := Proceeds.call call .unbounded hfollows.1.runs
    rw [after_eq hresult] at hfirst
    exact .head hfirst (ih hfollows.2)

theorem proceeds_drain (hfollows : w.Follows Faults.none (Engine.runDue policy))
    (hdatable : ∀ d ∈ w.drain policy, d.inCalendar policy = true) :
    Proceeds policy w (w.run (Engine.runDue policy)).2 := by
  obtain ⟨hdrains, hatOnce⟩ := hfollows.drains fun _ => not_false
  exact .drain hdrains fun d hd => ⟨d.before.clock, hatOnce d hd, hdatable d hd⟩

/-- A payment that could not be settled in time has left the queue, another one waits there, and so
does an entry of a schedule. -/
def declined : World :=
  World.afterCalls {} (World.run (Engine.runDue {})
      { drawnUpon with clock := Instant.epoch.add 60000 }).2
    [.pay { application := ⟨1⟩, user := "alice", amount := 400, currency := "USD",
            method := "card" },
      .collect ⟨1⟩]

/-- The payment of 600 is the one that does not wait, and no more than 400 will ever be left. So it
is, too, when a collection has run out of time while it had the lock of its entry. -/
theorem declined_confirms :
    let collecting := ((EngineCall.collect ⟨2⟩).program {} ⟨some 5⟩).run
    [.paymentSettled ⟨2⟩, .paymentSettled ⟨3⟩, .installmentCollected ⟨1⟩].map
        declined.queue.isPending = [false, true, true] ∧
      declined.Confirms {} (Relation.ReflTransGen (Proceeds {}) declined) ∧
      ∃ w', declined.Runs Faults.none collecting (some (.error .timeout)) w' ∧
        w'.Confirms {} (Relation.ReflTransGen (Proceeds {}) w') := by
  intro collecting
  have hdrawn : Relation.ReflTransGen (Proceeds {}) sample drawnUpon :=
    proceeds_afterCalls (by decide +kernel)
  have hwaited : Proceeds {} drawnUpon { drawnUpon with clock := Instant.epoch.add 60000 } :=
    .surroundings rfl rfl rfl
  have hdrained := (hdrawn.tail hwaited).tail
    (proceeds_drain (by decide +kernel) (by decide +kernel))
  have hrun : Relation.ReflTransGen (Proceeds {}) sample declined :=
    hdrained.trans (proceeds_afterCalls (by decide +kernel))
  have hlate : declined.Runs Faults.none collecting (some (.error .timeout)) _ :=
    .ask (.refl _) trivial rfl (.ask ⟨5, .epoch, by decide, rfl⟩ trivial rfl
      (Follows.runs (by decide +kernel)))
  have hrun' := hrun.tail (.call _ _ hlate)
  refine ⟨by decide +kernel, Proceeds.nothingStranded ⟨.inl rfl, rfl⟩ rfl hrun, _, hlate, ?_⟩
  exact Proceeds.nothingStranded ⟨.inl rfl, rfl⟩ rfl hrun'

end World

end Lending
