import Lending.Proofs.Engine.Interference

/-!
# What single writes change

The writes that payments and their settlement consist of, each with the locks under which it spares
what the locks of others protect.

* `Ledger.Stands`, `Ledger.Affords`: what a task that holds the locks of a payment and of its
  application can rely on.
* `Ledger.writes_updatePayment`: the outcome of a payment.
* `Ledger.writes_createBatch`, `Ledger.writes_deleteInstallmentsOf`: its schedule.
-/

namespace Lending

namespace Ledger

variable {l l' : Ledger} {spared : LockKey → Prop} {held : List LockKey}

/-! ## Kinds of changes -/

/-- Only entries of schedules change. -/
theorem changes_installments (happlications : l'.applications = l.applications)
    (hpayments : l'.payments = l.payments)
    (hlines : ∀ id, spared (.payment id) → l'.linesOf (.payment id) = l.linesOf (.payment id))
    (hnumbers : l.counters.installment ≤ l'.counters.installment)
    (hentries : ∀ id e', id.value ≤ l.counters.installment → l'.installments.get? id = some e' →
      ∃ e, l.installments.get? id = some e ∧ e'.terms = e.terms) : l.Changes spared l' where
  applications _ _ := by rw [happlications]
  creditUsed _ _ := by
    rw [creditUsed, hpayments]
    rfl
  payments _ _ := .inl (by rw [hpayments])
  lines := hlines
  numbers := hnumbers
  entries := hentries
  concluded _ h := by
    rw [Concluded, hpayments]
    exact h

/-- Only rows of applications and payments change. -/
theorem changes_rows (hinstallments : l'.installments = l.installments)
    (hnumbers : l'.counters.installment = l.counters.installment)
    (happlications : ∀ id, spared (.application id) →
      l'.applications.get? id = l.applications.get? id)
    (hcredit : ∀ id, spared (.application id) → l'.creditUsed id = l.creditUsed id)
    (hpayments : ∀ id, spared (.payment id) → l'.payments.get? id = l.payments.get? id ∨
      l.payments.get? id = none ∧ ∃ p, l'.payments.get? id = some p ∧ p.status = .pending)
    (hconcluded : ∀ id, l.Concluded id → l'.Concluded id) : l.Changes spared l' where
  applications := happlications
  creditUsed := hcredit
  payments := hpayments
  lines _ _ := linesOf_congr hinstallments _
  numbers := hnumbers ▸ UInt64.le_refl _
  entries _ e _ he := ⟨e, hinstallments ▸ he, rfl⟩
  concluded := hconcluded

/-! ## What locks let a task rely on -/

/-- The payment is on record, and these are the lines of its schedule. -/
structure Stands (l : Ledger) (p : Payment) (lines : List Line) : Prop where
  known : l.payments.get? p.id = some p
  lines : l.linesOf (.payment p.id) = lines

theorem Stands.changes {p : Payment} {lines : List Line} (h : l.Stands p lines)
    (hchanges : l.Changes spared l') (hkey : spared (.payment p.id)) : l'.Stands p lines :=
  ⟨hchanges.payment hkey h.known, (hchanges.lines _ hkey).trans h.lines⟩

/-- A pending payment that was left by others has no schedule. -/
theorem Free.stands {used : Tiers → Prop} {p : Payment} (h : l.Free used (.payment p.id))
    (hknown : l.payments.get? p.id = some p) (hpending : p.status = .pending) : l.Stands p [] :=
  ⟨hknown, (h.1 p hknown).eq_nil (Obligation.not_begun_of_pending hpending)⟩

/-- A payment with the schedule that it must have may be left to others. -/
theorem Stands.free {used : Tiers → Prop} {p : Payment} {lines : List Line} (h : l.Stands p lines)
    (hscheduled : (Obligation.payment p).Scheduled used lines) :
    l.Free used (.payment p.id) := by
  constructor
  · intro q hq
    rw [h.known] at hq
    obtain rfl := Option.some.inj hq
    rw [h.lines]
    exact hscheduled
  · intro hnone
    rw [h.known] at hnone
    cases hnone

/-- The payment fits into what its application has left. -/
def Affords (l : Ledger) (p : Payment) : Prop :=
  ∃ a, l.applications.get? p.application = some a ∧
    l.creditUsed p.application + p.amount.toNat ≤ a.amount.toNat

theorem Affords.changes {p : Payment} (h : l.Affords p) (hchanges : l.Changes spared l')
    (hkey : spared (.application p.application)) : l'.Affords p := by
  obtain ⟨a, hget, hfits⟩ := h
  refine ⟨a, (hchanges.applications _ hkey).trans hget, ?_⟩
  rw [hchanges.creditUsed _ hkey]
  exact hfits

/-! ## Applications -/

/-- A pending application is decided under its lock. -/
theorem writes_updateApplication (hcredit : CreditKept l) {a a' : Application}
    (hknown : l.applications.get? a.id = some a) (hpending : a.status = .pending)
    (hid : a'.id = a.id) (hheld : .application a.id ∈ held)
    (hanswer : l.answer (.updateApplication a') = .ok ((), l')) :
    l.Writes held (.updateApplication a') l' := by
  obtain ⟨-, rfl⟩ := update_ok.mp hanswer
  refine ⟨changes_rows rfl rfl ?_ (fun _ _ => rfl) (fun _ _ => .inl rfl) fun _ h => h, ?_, nofun⟩
  · intro id hspared
    rw [Table.get?_insert, if_neg]
    rintro rfl
    exact hspared (hid ▸ hheld)
  · refine hcredit.insert_application ?_ rfl rfl
    intro old hold
    rw [hid, hknown] at hold
    obtain rfl := Option.some.inj hold
    exact hpending

/-! ## Payments -/

/-- A pending payment may be added on an approved application. -/
theorem writes_createPayment (hl : l.Sound) (hcredit : CreditKept l) {p created : Payment}
    (hleft : l.counters.Left (.createPayment p)) (hpending : p.status = .pending)
    (happroved : ∃ a, l.applications.get? p.application = some a ∧ a.status = .approved)
    (hanswer : l.answer (.createPayment p) = .ok (created, l')) :
    l.Writes held (.createPayment p) l' := by
  obtain ⟨-, hcreated, rfl⟩ := createPayment_ok.mp hanswer
  have hstatus : created.status = .pending := by rw [hcreated, hpending]
  have hnew : l.counters.payment < created.id.value := by
    rw [hcreated]
    exact lt_succ hleft
  have hnone : l.payments.get? created.id = none := hl.upToPayment.get?_eq_none hnew
  refine ⟨changes_rows rfl rfl (fun _ _ => rfl) ?_ ?_ ?_, ?_, nofun⟩
  · intro id _
    exact creditUsed_append (Table.values_insert_last hl.upToPayment hnew created) hstatus id
  · intro id _
    by_cases heq : created.id = id
    · subst heq
      exact .inr ⟨hnone, created, by rw [Table.get?_insert, if_pos rfl], hstatus⟩
    · exact .inl (by rw [Table.get?_insert, if_neg heq])
  · rintro id ⟨q, hq, hdecided⟩
    refine ⟨q, ?_, hdecided⟩
    rw [Table.get?_insert, if_neg, hq]
    rintro rfl
    rw [hnone] at hq
    cases hq
  · refine hcredit.append_payment hl hnew hstatus ?_ rfl rfl
    rw [hcreated]
    exact happroved

/-- An outcome keeps the credit limit, if the payment fits in when it succeeds. -/
theorem creditKept_updatePayment (hl : l.Sound) (hcredit : CreditKept l) {p p' : Payment}
    (hknown : l.payments.get? p.id = some p) (hpending : p.status = .pending)
    (happlication : p'.application = p.application)
    (hfits : p'.status = .successful → l.Affords p')
    (happlications : l'.applications = l.applications)
    (hpayments : l'.payments = l.payments.insert p.id p') : CreditKept l' := by
  refine hcredit.insert_payment hl.payments p' hknown happlication ?_ happlications hpayments
  intro a ha
  rw [Payment.drawn_of_pending hpending, Nat.add_zero]
  by_cases hsuccessful : p'.status = .successful
  · obtain ⟨a', ha', hle⟩ := hfits hsuccessful
    rw [happlication] at ha' hle
    obtain rfl := Option.some.inj (ha.symm.trans ha')
    rw [Payment.drawn, if_pos ⟨happlication, hsuccessful⟩]
    exact hle
  · have hdrawn : p'.drawn p.application = 0 := if_neg fun h => hsuccessful h.2
    rw [hdrawn]
    exact hcredit.kept _ a ha

/-- A pending payment gets its outcome under its lock, and success under that of its application,
too, if the payment fits in there. -/
theorem writes_updatePayment (hl : l.Sound) (hcredit : CreditKept l) {p p' : Payment}
    (hknown : l.payments.get? p.id = some p) (hpending : p.status = .pending)
    (hheld : .payment p.id ∈ held) (hanswer : l.answer (.updatePayment p') = .ok ((), l'))
    (hid : p'.id = p.id) (happlication : p'.application = p.application)
    (hdecided : p'.status ≠ .pending)
    (hsuccess : p'.status = .successful → .application p'.application ∈ held ∧ l.Affords p') :
    l.Writes held (.updatePayment p') l' ∧
      ∀ lines, l.linesOf (.payment p.id) = lines → l'.Stands p' lines := by
  obtain ⟨-, hafter⟩ := update_ok.mp hanswer
  have hpayments : l'.payments = l.payments.insert p.id p' := by rw [hafter, hid]
  have happlications : l'.applications = l.applications := by rw [hafter]
  have hinstallments : l'.installments = l.installments := by rw [hafter]
  have hself : l'.payments.get? p.id = some p' := by rw [hpayments, Table.get?_insert, if_pos rfl]
  have hothers : ∀ id, p.id ≠ id → l'.payments.get? id = l.payments.get? id := fun id hne => by
    rw [hpayments, Table.get?_insert, if_neg hne]
  refine ⟨⟨changes_rows hinstallments (by rw [hafter]) (fun id _ => by rw [happlications]) ?_ ?_ ?_,
    ?_, ?_⟩, ?_⟩
  · intro id hspared
    have hdrawn : p'.drawn id = 0 := by
      refine if_neg ?_
      rintro ⟨rfl, hsuccessful⟩
      exact hspared (hsuccess hsuccessful).1
    have hchange := creditUsed_insert_known hl.payments hpayments hknown id
    rw [Payment.drawn_of_pending hpending, hdrawn] at hchange
    exact hchange
  · intro id hspared
    refine .inl (hothers id ?_)
    rintro rfl
    exact hspared hheld
  · rintro id ⟨q, hq, hstatus⟩
    by_cases heq : p.id = id
    · exact ⟨p', heq ▸ hself, hdecided⟩
    · exact ⟨q, (hothers id heq).trans hq, hstatus⟩
  · exact creditKept_updatePayment hl hcredit hknown hpending happlication
      (fun hsuccessful => (hsuccess hsuccessful).2) happlications hpayments
  · intro id hconcluded
    obtain rfl := List.mem_singleton.mp hconcluded
    rw [hid]
    refine ⟨?_, p', hself, hdecided⟩
    rintro ⟨q, hq, hstatus⟩
    obtain rfl := Option.some.inj (hknown.symm.trans hq)
    exact hstatus hpending
  · intro lines hlines
    rw [← hid] at hself hlines
    exact ⟨hself, (linesOf_congr hinstallments _).trans hlines⟩

/-! ## Schedules -/

/-- A schedule is written under the lock of its payment. -/
theorem writes_createBatch (hl : l.Sound) (hcredit : CreditKept l) {policy : Policy} {p : Payment}
    {draft entries : List Installment}
    (hdraft : (Obligation.payment p).draft policy.tiers = .ok draft)
    (hheld : .payment p.id ∈ held) (hleft : l.counters.Left (.createBatch draft))
    (hanswer : l.answer (.createBatch draft) = .ok (entries, l')) :
    l.Writes held (.createBatch draft) l' := by
  have hordered := hl.toOrdered.answer hanswer
  obtain ⟨_, -, -, hnumbered, hafter⟩ := createBatch_ok.mp hanswer
  have hwritten : l.Schedules policy (.payment p) entries l'.counters l'.installments :=
    ⟨draft, hdraft, hleft, hanswer.trans (by rw [hafter])⟩
  have hnumbers : l'.counters.installment = (numberBatch l.counters.installment draft).2 := by
    rw [hafter]
  refine ⟨changes_installments (by rw [hafter]) (by rw [hafter]) ?_ ?_ ?_,
    hcredit.congr (by rw [hafter]) (by rw [hafter]), nofun⟩
  · intro id hspared
    rw [linesOf, hwritten.installmentsOf hl rfl, if_neg]
    · rfl
    · rintro ⟨⟩
      exact hspared hheld
  · rw [hnumbers, UInt64.le_iff_toNat_le, toNat_numberBatch_snd hleft]
    exact Nat.le_add_right _ _
  · intro id e hid hget
    obtain rfl := hordered.installments.id_of_get? hget
    have hmem := hordered.installments.mem_values.mpr hget
    rw [values_createBatch hl hleft hanswer] at hmem
    rcases List.mem_append.mp hmem with hold | hnew
    · exact ⟨e, hl.installments.mem_values.mp hold, rfl⟩
    · -- the numbers of the new entries are above the old counter
      have hlt := ((numberBatch_ascending hleft).1 e (hnumbered ▸ hnew)).1
      exact absurd hid (UInt64.not_le.mpr hlt)

theorem linesOf_deleteInstallmentsOf (l : Ledger) (owner other : Owner) :
    (l.deleteInstallmentsOf owner).2.linesOf other =
      if other = owner then [] else l.linesOf other := by
  simp only [linesOf, installmentsOf, deleteInstallmentsOf, Table.values_filterRows,
    List.filter_filter]
  split
  · rename_i heq
    subst heq
    simp [bySequence]
  · rename_i hne
    congr 2
    refine List.filter_congr fun e _ => ?_
    by_cases howner : e.owner = other <;> simp [howner, hne]

/-- A schedule is removed under the lock of its payment. -/
theorem writes_deleteInstallmentsOf (hl : l.Sound) (hcredit : CreditKept l) {id : PaymentId}
    (hheld : .payment id ∈ held) :
    l.Writes held (.deleteInstallmentsOf (.payment id))
      (l.deleteInstallmentsOf (.payment id)).2 := by
  refine ⟨changes_installments rfl rfl ?_ (UInt64.le_refl _) ?_, hcredit.congr rfl rfl, nofun⟩
  · intro other hspared
    rw [linesOf_deleteInstallmentsOf, if_neg]
    rintro ⟨⟩
    exact hspared hheld
  · intro other e _ hget
    have hrow := (hl.installments.filterRows _).ascending.get?_eq_some.mp hget
    exact ⟨e, hl.installments.ascending.get?_eq_some.mpr (List.mem_filter.mp hrow).1, rfl⟩

/-- An entry that was read earlier gets another status. -/
theorem writes_updateInstallment (hl : l.Sound) (hcredit : CreditKept l) {e : Installment}
    (hread : ∀ current, l.installments.get? e.id = some current → current.terms = e.terms)
    (hanswer : l.answer (.updateInstallment e) = .ok ((), l')) :
    l.Writes held (.updateInstallment e) l' := by
  obtain ⟨⟨current, hcurrent⟩, rfl⟩ := update_ok.mp hanswer
  have hid : e.id = current.id := (hl.installments.id_of_get? hcurrent).symm
  have hrestatus : e = { current with status := e.status } := by
    have hterms := hread current hcurrent
    simp only [Installment.terms, Prod.mk.injEq] at hterms
    cases e
    cases current
    simp_all
  have hmem : ∀ known ∈ [current], known ∈ l.installments.values := by
    intro known hknown
    rw [List.mem_singleton.mp hknown, hl.installments.mem_values]
    exact hid ▸ hcurrent
  have htable : l.installments.insert e.id e =
      insertBatch l.installments (withStatus e.status [current]) := by
    rw [← insert_withStatus, ← hrestatus, ← hid]
  refine ⟨changes_installments rfl rfl ?_ (UInt64.le_refl _) ?_, hcredit.congr rfl rfl,
    by rintro _ ⟨⟩⟩
  · intro id _
    exact linesOf_withStatus hl.toOrdered hmem htable _
  · intro id other _ hget
    rw [Table.get?_insert] at hget
    split at hget
    · rename_i heq
      subst heq
      obtain rfl := Option.some.inj hget
      exact ⟨current, hcurrent, (hread current hcurrent).symm⟩
    · exact ⟨other, hget, rfl⟩

end Ledger

end Lending
