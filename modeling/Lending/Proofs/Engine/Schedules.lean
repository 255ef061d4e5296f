import Lending.Proofs.Engine.Runs

/-!
# Schedules and their owners

A schedule is written before the row of its owner, and the two writes can come apart. As long as a
schedule that was written in vain can be removed again, they do not: an owner has a schedule exactly
when it has begun, a payment when it is successful and a loan when it was activated, and then the
schedule splits its principal exactly.

* `Obligation.Scheduled`: the lines are those that an obligation must have.
* `SchedulesKept`: the invariant. It says, too, that no entry is without an owner.
* `Reached.schedulesExact`: the schedules in all states that an engine comes to.
-/

namespace Lending

/-! ## Obligations -/

namespace Obligation

/-- The payment succeeded, or the loan was activated. -/
def Begun : Obligation → Prop
  | .payment p => p.status = .successful
  | .loan l => l.status = .active ∨ l.status = .paid ∨ l.status = .defaulted

/-- There are no lines before the obligation has begun, and then they split its principal over the
months that its kind asks for, a payment by tiers in use. -/
structure Scheduled (used : Tiers → Prop) (o : Obligation) (lines : List Line) : Prop where
  begun : lines ≠ [] ↔ o.Begun
  splits : lines ≠ [] → ∃ tiers moment, used tiers ∧ o.startedAt = some moment ∧
    Splits o.principal ((o.strategy tiers).wanted o.principal) moment.date lines

variable {used : Tiers → Prop} {o o' : Obligation} {lines : List Line}

theorem not_begun_of_pending {p : Payment} (h : p.status = .pending) : ¬(payment p).Begun := by
  rw [Begun, h]
  rintro ⟨⟩

theorem scheduled_nil (h : ¬o.Begun) : o.Scheduled used [] :=
  ⟨⟨fun hne => absurd rfl hne, fun hbegun => absurd hbegun h⟩, fun hne => absurd rfl hne⟩

theorem Scheduled.eq_nil (h : o.Scheduled used lines) (hbegun : ¬o.Begun) : lines = [] :=
  not_not.mp fun hne => hbegun (h.begun.mp hne)

/-- The same of entries with these lines. -/
theorem Scheduled.entries {entries : List Installment}
    (h : o.Scheduled used (entries.map Installment.line)) :
    (entries ≠ [] ↔ o.Begun) ∧ (entries ≠ [] → ∃ tiers moment, used tiers ∧
      o.startedAt = some moment ∧ Splits o.principal ((o.strategy tiers).wanted o.principal)
        moment.date (entries.map Installment.line)) := by
  obtain ⟨hbegun, hsplits⟩ := h
  rw [ne_eq, List.map_eq_nil_iff] at hbegun hsplits
  exact ⟨hbegun, hsplits⟩

/-- A loan keeps its schedule as long as it goes on. -/
theorem Scheduled.loan {loan loan' : Loan} (h : (Obligation.loan loan).Scheduled used lines)
    (hbegun : (Obligation.loan loan).Begun ↔ (Obligation.loan loan').Begun)
    (hprincipal : loan'.principal = loan.principal) (hterm : loan'.term = loan.term)
    (hactivated : loan'.activatedAt = loan.activatedAt) :
    (Obligation.loan loan').Scheduled used lines := by
  refine ⟨h.begun.trans hbegun, ?_⟩
  intro hne
  obtain ⟨tiers, moment, hused, hstarted, hsplits⟩ := h.splits hne
  refine ⟨tiers, moment, hused, hactivated.trans hstarted, ?_⟩
  simpa only [principal, strategy, hprincipal, hterm] using hsplits

end Obligation

namespace Ledger

variable {l l' : Ledger}

/-- The obligation is a row of the ledger. -/
def Owes (l : Ledger) : Obligation → Prop
  | .payment p => p ∈ l.payments.values
  | .loan loan => loan ∈ l.loans.values

theorem owes_congr (hpayments : l'.payments = l.payments) (hloans : l'.loans = l.loans)
    (o : Obligation) : l'.Owes o ↔ l.Owes o := by
  cases o <;> simp only [Owes, hpayments, hloans]

theorem owes_insert_payment (h : l.payments.Booked Payment.id) {p : Payment}
    (hpayments : l'.payments = l.payments.insert p.id p) (hloans : l'.loans = l.loans)
    (o : Obligation) :
    l'.Owes o ↔ o = .payment p ∨ o.owner ≠ (Obligation.payment p).owner ∧ l.Owes o := by
  cases o with
  | payment q => simp [Owes, hpayments, h.mem_values_insert, Obligation.owner]
  | loan loan => simp [Owes, hloans, Obligation.owner]

theorem owes_insert_loan (h : l.loans.Booked Loan.id) {loan : Loan}
    (hpayments : l'.payments = l.payments) (hloans : l'.loans = l.loans.insert loan.id loan)
    (o : Obligation) :
    l'.Owes o ↔ o = .loan loan ∨ o.owner ≠ (Obligation.loan loan).owner ∧ l.Owes o := by
  cases o with
  | payment p => simp [Owes, hpayments, Obligation.owner]
  | loan other => simp [Owes, hloans, h.mem_values_insert, Obligation.owner]

/-! ## Writing a schedule -/

section Schedules

variable {policy : Policy} {o : Obligation} {entries : List Installment} {c : Counters}
  {t : Table InstallmentId Installment}

/-- A schedule that was written has the lines of an exact split. -/
theorem Schedules.splits (h : l.Schedules policy o entries c t) :
    entries.map Installment.line ≠ [] ∧ ∃ moment, o.startedAt = some moment ∧
      Splits o.principal ((o.strategy policy.tiers).wanted o.principal) moment.date
        (entries.map Installment.line) := by
  obtain ⟨draft, hdraft, -, hcreate⟩ := h
  obtain ⟨moment, lines, hstarted, hplan, rfl⟩ := Obligation.draft_ok hdraft
  obtain ⟨owner, howner, -⟩ := createBatch_ok.mp hcreate
  have hlines : entries.map Installment.line = lines := by
    rw [map_createBatch hcreate fun _ _ => rfl, List.map_map]
    exact List.map_id' lines
  rw [hlines]
  refine ⟨fun hnil => (owner_of_batchOwner howner).1 ?_, moment, hstarted, plan_splits hplan⟩
  rw [hnil]
  rfl

theorem Schedules.pending (h : l.Schedules policy o entries c t) :
    ∀ e ∈ entries, e.status = .pending := by
  obtain ⟨draft, hdraft, -, hcreate⟩ := h
  obtain ⟨_, lines, -, -, rfl⟩ := Obligation.draft_ok hdraft
  have hstatuses := map_createBatch hcreate (f := Installment.status) fun _ _ => rfl
  intro e he
  have hmem := List.mem_map_of_mem (f := Installment.status) he
  rw [hstatuses, List.map_map] at hmem
  obtain ⟨_, -, hpending⟩ := List.mem_map.mp hmem
  exact hpending.symm

/-- The schedules after one was written: the others are as they were. -/
theorem Schedules.installmentsOf (h : l.Schedules policy o entries c t) (hl : l.Sound)
    (hinstallments : l'.installments = t) (owner : Owner) :
    l'.installmentsOf owner = if owner = o.owner then entries else l.installmentsOf owner := by
  obtain ⟨draft, hdraft, hleft, hcreate⟩ := h
  obtain ⟨owner', howner, -⟩ := createBatch_ok.mp hcreate
  have hwritten := hcreate
  obtain rfl := Engine.batchOwner_draft hdraft howner
  obtain ⟨moment, lines, -, hplan, rfl⟩ := Obligation.draft_ok hdraft
  have hsorted : (lines.map (Obligation.entryOf o.owner)).Pairwise
      fun a b => a.sequence ≤ b.sequence := by
    have hsequences : (lines.map fun line => line.sequence.toNat).Pairwise (· < ·) := by
      rw [(plan_splits hplan).sequences]
      exact List.pairwise_lt_range'
    rw [List.pairwise_map] at hsequences ⊢
    exact hsequences.imp fun hlt => UInt32.le_iff_toNat_le.mpr (Nat.le_of_lt hlt)
  rw [← installmentsOf_createBatch hl hleft hwritten howner hsorted owner]
  exact installmentsOf_congr hinstallments owner

end Schedules

end Ledger

/-! ## The invariant -/

/-- Every payment and every loan has the schedule that it must have, and every schedule has an
owner. -/
structure SchedulesKept (used : Tiers → Prop) (l : Ledger) : Prop where
  scheduled : ∀ o, l.Owes o → o.Scheduled used (l.linesOf o.owner)
  owned : ∀ owner, l.linesOf owner ≠ [] → ∃ o, l.Owes o ∧ o.owner = owner

theorem schedulesKept_empty {used : Tiers → Prop} : SchedulesKept used {} :=
  ⟨fun o ho => (by cases o <;> exact nomatch ho), fun _ hne => absurd rfl hne⟩

namespace SchedulesKept

variable {used : Tiers → Prop} {l l' : Ledger}

theorem congr (h : SchedulesKept used l) (howes : ∀ o, l'.Owes o ↔ l.Owes o)
    (hlines : ∀ owner, l'.linesOf owner = l.linesOf owner) : SchedulesKept used l' := by
  constructor
  · intro o ho
    rw [hlines]
    exact h.scheduled o ((howes o).mp ho)
  · intro owner hne
    rw [hlines] at hne
    obtain ⟨o, ho, howner⟩ := h.owned owner hne
    exact ⟨o, (howes o).mpr ho, howner⟩

/-- A row may be written with the schedule that it must have. -/
theorem write (h : SchedulesKept used l) {o : Obligation}
    (howes : ∀ o', l'.Owes o' ↔ o' = o ∨ o'.owner ≠ o.owner ∧ l.Owes o')
    (hothers : ∀ owner, owner ≠ o.owner → l'.linesOf owner = l.linesOf owner)
    (hown : o.Scheduled used (l'.linesOf o.owner)) : SchedulesKept used l' := by
  constructor
  · intro o' ho'
    rcases (howes o').mp ho' with rfl | ⟨hother, hold⟩
    · exact hown
    · rw [hothers _ hother]
      exact h.scheduled o' hold
  · intro owner hne
    by_cases heq : owner = o.owner
    · exact ⟨o, (howes o).mpr (.inl rfl), heq.symm⟩
    · rw [hothers owner heq] at hne
      obtain ⟨o', ho', howner⟩ := h.owned owner hne
      exact ⟨o', (howes o').mpr (.inr ⟨fun h => heq (howner.symm.trans h), ho'⟩), howner⟩

/-- A number that no payment has yet has no schedule. -/
theorem linesOf_payment_eq_nil (h : SchedulesKept used l) (hl : l.Sound) {id : PaymentId}
    (hnone : l.payments.get? id = none) : l.linesOf (.payment id) = [] := by
  by_contra hne
  obtain ⟨p | loan, ho, howner⟩ := h.owned _ hne
  · have hget := hl.payments.mem_values.mp ho
    rw [Owner.payment.inj howner, hnone] at hget
    cases hget
  · cases howner

/-- A number that no loan has yet has no schedule. -/
theorem linesOf_loan_eq_nil (h : SchedulesKept used l) (hl : l.Sound) {id : LoanId}
    (hnone : l.loans.get? id = none) : l.linesOf (.loan id) = [] := by
  by_contra hne
  obtain ⟨p | loan, ho, howner⟩ := h.owned _ hne
  · cases howner
  · have hget := hl.loans.mem_values.mp ho
    rw [Owner.loan.inj howner, hnone] at hget
    cases hget

/-- Schedules are numbered from 1. -/
theorem sequences (h : SchedulesKept used l) {o : Obligation} (ho : l.Owes o) :
    ((l.installmentsOf o.owner).map fun e => e.sequence.toNat) =
      List.range' 1 (l.installmentsOf o.owner).length := by
  by_cases hnil : l.installmentsOf o.owner = []
  · rw [hnil]
    rfl
  · obtain ⟨_, _, -, -, hsplits⟩ := (h.scheduled o ho).splits fun hlines =>
      hnil (List.map_eq_nil_iff.mp hlines)
    simpa [Ledger.linesOf, Function.comp_def, Installment.line] using hsplits.sequences

/-- The other schedules stay when one is written. -/
theorem write_schedule (h : SchedulesKept used l) (hl : l.Sound) {policy : Policy}
    {o : Obligation} (o' : Obligation) {entries : List Installment} {c : Counters}
    {t : Table InstallmentId Installment} (hwritten : l.Schedules policy o entries c t)
    (hinstallments : l'.installments = t) (howner : o'.owner = o.owner)
    (howes : ∀ other, l'.Owes other ↔ other = o' ∨ other.owner ≠ o'.owner ∧ l.Owes other)
    (hown : o'.Scheduled used (entries.map Installment.line)) : SchedulesKept used l' := by
  have hlines : ∀ owner, l'.linesOf owner =
      if owner = o.owner then entries.map Installment.line else l.linesOf owner := by
    intro owner
    rw [Ledger.linesOf, hwritten.installmentsOf hl hinstallments, apply_ite (List.map _)]
    rfl
  apply h.write howes
  · intro owner hne
    rw [hlines, if_neg (howner ▸ hne)]
  · rw [hlines, if_pos howner]
    exact hown

end SchedulesKept

section Statuses

variable {l l' : Ledger} {status : InstallmentStatus} {entries : List Installment}

theorem Ledger.insert_withStatus (t : Table InstallmentId Installment) (entry : Installment)
    (status : InstallmentStatus) :
    t.insert entry.id { entry with status } = insertBatch t (withStatus status [entry]) := rfl

/-- The schedules after entries were written with another status. -/
theorem Ledger.installmentsOf_withStatus (h : l.Ordered)
    (hmem : ∀ e ∈ entries, e ∈ l.installments.values)
    (hinstallments : l'.installments = insertBatch l.installments (withStatus status entries))
    (owner : Owner) :
    l'.installmentsOf owner = (l.installmentsOf owner).map fun e =>
      { e with status := if e ∈ entries then status else e.status } := by
  apply installmentsOf_restatus
  rw [hinstallments]
  exact insertBatch_restatus h.installments status hmem

theorem Ledger.linesOf_withStatus (h : l.Ordered) (hmem : ∀ e ∈ entries, e ∈ l.installments.values)
    (hinstallments : l'.installments = insertBatch l.installments (withStatus status entries))
    (owner : Owner) : l'.linesOf owner = l.linesOf owner := by
  apply linesOf_restatus
  rw [hinstallments]
  exact insertBatch_restatus h.installments status hmem

/-- The schedules of other owners stay. -/
theorem Ledger.installmentsOf_withStatus_other (h : l.Ordered)
    (hmem : ∀ e ∈ entries, e ∈ l.installments.values)
    (hinstallments : l'.installments = insertBatch l.installments (withStatus status entries))
    {owner : Owner} (hother : ∀ e ∈ entries, e.owner ≠ owner) :
    l'.installmentsOf owner = l.installmentsOf owner := by
  rw [installmentsOf_withStatus h hmem hinstallments]
  refine (List.map_congr_left fun e he => ?_).trans (List.map_id' _)
  rw [if_neg fun hwritten => hother e hwritten (mem_installmentsOf.mp he).2]

end Statuses

section Steps

variable {used : Tiers → Prop} {l l' : Ledger}

/-- The row of a payment that has no schedule. -/
theorem SchedulesKept.write_payment (h : SchedulesKept used l) (hl : l.Sound) (p : Payment)
    (hnew : l.linesOf (.payment p.id) = []) (hstatus : p.status ≠ .successful)
    (hpayments : l'.payments = l.payments.insert p.id p) (hloans : l'.loans = l.loans)
    (hinstallments : l'.installments = l.installments) : SchedulesKept used l' := by
  refine h.write (Ledger.owes_insert_payment hl.payments hpayments hloans)
    (fun owner _ => Ledger.linesOf_congr hinstallments owner) ?_
  rw [Ledger.linesOf_congr hinstallments]
  exact hnew ▸ Obligation.scheduled_nil hstatus

/-- The row of a loan that has no schedule. -/
theorem SchedulesKept.write_loan (h : SchedulesKept used l) (hl : l.Sound) (loan : Loan)
    (hnew : l.linesOf (.loan loan.id) = []) (hstatus : ¬(Obligation.loan loan).Begun)
    (hpayments : l'.payments = l.payments) (hloans : l'.loans = l.loans.insert loan.id loan)
    (hinstallments : l'.installments = l.installments) : SchedulesKept used l' := by
  refine h.write (Ledger.owes_insert_loan hl.loans hpayments hloans)
    (fun owner _ => Ledger.linesOf_congr hinstallments owner) ?_
  rw [Ledger.linesOf_congr hinstallments]
  exact hnew ▸ Obligation.scheduled_nil hstatus

/-- A loan that goes on while entries get another status. -/
theorem SchedulesKept.write_begun (h : SchedulesKept used l) (hl : l.Sound) {loan : Loan}
    (loan' : Loan) (hget : l.loans.get? loan.id = some loan) (hactive : loan.status = .active)
    {status : InstallmentStatus} {entries : List Installment}
    (hmem : ∀ e ∈ entries, e ∈ l.installments.values) (hid : loan'.id = loan.id)
    (hbegun : (Obligation.loan loan').Begun) (hprincipal : loan'.principal = loan.principal)
    (hterm : loan'.term = loan.term) (hactivated : loan'.activatedAt = loan.activatedAt)
    (hpayments : l'.payments = l.payments) (hloans : l'.loans = l.loans.insert loan'.id loan')
    (hinstallments : l'.installments =
      Ledger.insertBatch l.installments (withStatus status entries)) : SchedulesKept used l' := by
  have hlines := Ledger.linesOf_withStatus hl.toOrdered hmem hinstallments
  apply h.write (Ledger.owes_insert_loan hl.loans hpayments hloans) fun owner _ => hlines owner
  have hold := h.scheduled (.loan loan) (hl.loans.mem_values.mpr hget)
  rw [hlines]
  simp only [Obligation.owner, hid] at hold ⊢
  exact hold.loan ⟨fun _ => hbegun, fun _ => .inl hactive⟩ hprincipal hterm hactivated

end Steps

/-- Every step keeps the schedules, unless a fault leaves one that was written in vain. -/
theorem schedulesKept_invariant {faults : Faults} (hfaults : ¬faults.LeaveSchedules)
    {policy : Policy} (used : Tiers → Prop) (hused : used policy.tiers) :
    Books.Invariant faults policy fun b => SchedulesKept used b.ledger := by
  intro b b' hsound hb hstep
  have howed : ∀ {owner : Owner} {e : Installment}, e ∈ b.ledger.installmentsOf owner →
      e ∈ b.ledger.installments.values := fun he => (Ledger.mem_installmentsOf.mp he).1
  cases hstep with
  | taken now => exact hb
  | withdrawn n => exact hb
  | remnant remnant =>
    cases remnant with
    | nothing alike =>
      exact hb.congr (Ledger.owes_congr alike.payments alike.loans)
        (Ledger.linesOf_congr alike.installments)
    | settling may | activating may => exact absurd may hfaults
    -- only statuses are left changed, and the lines do not show them
    | repaying =>
      exact hb.congr (Ledger.owes_congr rfl rfl) (Ledger.linesOf_withStatus hsound.toOrdered
        (fun e he => howed (Engine.mem_coveredEntries he).1) rfl)
    | defaulting =>
      exact hb.congr (Ledger.owes_congr rfl rfl) (Ledger.linesOf_withStatus hsound.toOrdered
        (fun e he => howed (Engine.mem_pendingEntries he).1) rfl)
  | effect effect =>
    cases effect with
    | unchanged => exact hb
    | applied | decided | collectionAsked =>
      exact hb.congr (Ledger.owes_congr rfl rfl) (Ledger.linesOf_congr rfl)
    | @paid _ _ _ _ _ _ _ p _ _ _ _ left _ new =>
      have hnone : b.ledger.payments.get? p.id = none :=
        hsound.upToPayment.get?_eq_none (by rw [new]; exact lt_succ left)
      exact hb.write_payment hsound p (hb.linesOf_payment_eq_nil hsound hnone) (by rw [new]; nofun)
        rfl rfl rfl
    | @settled _ p p' _ _ _ _ _ _ _ _ _ _ new written =>
      obtain ⟨hne, moment, hsplits⟩ := written.splits
      have hid : p'.id = p.id := by rw [new]
      refine hb.write_schedule hsound (.payment p') written rfl rfl
        (Ledger.owes_insert_payment hsound.payments (by rw [hid]) rfl) ?_
      exact ⟨⟨fun _ => by rw [new]; rfl, fun _ => hne⟩, fun _ => ⟨_, moment, hused, hsplits⟩⟩
    | @paymentFailed _ p _ known pending =>
      have hold := hb.scheduled (.payment p) (hsound.payments.mem_values.mpr known)
      have hnil := hold.eq_nil (Obligation.not_begun_of_pending pending)
      exact hb.write_payment hsound { p with status := .failed } hnil nofun rfl rfl rfl
    | @collected _ entry next _ known =>
      have hmem : ∀ e ∈ [entry], e ∈ b.ledger.installments.values := fun e he => by
        rw [List.mem_singleton.mp he]
        exact hsound.installments.mem_values.mpr known
      exact hb.congr (Ledger.owes_congr rfl rfl)
        (Ledger.linesOf_withStatus hsound.toOrdered hmem (Ledger.insert_withStatus _ entry next))
    | @filed _ _ _ _ loan _ left new =>
      have hnone : b.ledger.loans.get? loan.id = none :=
        hsound.upToLoan.get?_eq_none (by rw [new]; exact lt_succ left)
      refine hb.write_loan hsound loan (hb.linesOf_loan_eq_nil hsound hnone) ?_ rfl rfl rfl
      rw [new]
      rintro (h | h | h) <;> cases h
    | @loanDecided loan next _ approvedAt known pending verdict =>
      have hold := hb.scheduled (.loan loan) (hsound.loans.mem_values.mpr known)
      have hnil := hold.eq_nil (by simp [Obligation.Begun, pending])
      refine hb.write_loan hsound { loan with status := next, approvedAt } hnil ?_ rfl rfl rfl
      rw [verdict]
      split <;> rintro (h | h | h) <;> cases h
    | @activated loan started loan' _ _ _ _ _ _ start written new =>
      obtain ⟨hne, moment, hsplits⟩ := written.splits
      have hid : loan'.id = loan.id := by rw [new, start]
      refine hb.write_schedule hsound (.loan loan') written rfl (by rw [new]; rfl)
        (Ledger.owes_insert_loan hsound.loans rfl (by rw [hid])) ?_
      rw [new]
      exact ⟨⟨fun _ => .inl (by rw [start]), fun _ => hne⟩, fun _ => ⟨_, moment, hused, hsplits⟩⟩
    | @repaid loan _ amount _ schedule _ _ _ known active _ owed =>
      refine hb.write_begun hsound (loan.repaid schedule amount).1 known active
        (fun e he => ?_) rfl ?_ rfl rfl rfl rfl rfl rfl
      · exact howed (owed ▸ (Engine.mem_coveredEntries he).1)
      · simp only [Loan.repaid, Obligation.Begun, active]
        split <;> simp
    | @defaulted loan known active =>
      exact hb.write_begun hsound { loan with status := .defaulted, nextPayment := none } known
        active (fun e he => howed (Engine.mem_pendingEntries he).1) rfl (.inr (.inr rfl)) rfl
        rfl rfl rfl rfl rfl
    | defaultedAgain =>
      exact hb.congr (Ledger.owes_congr rfl rfl) (Ledger.linesOf_withStatus hsound.toOrdered
        (fun e he => howed (Engine.mem_pendingEntries he).1) rfl)

/-! ## Schedules in the store -/

/-- Payments have schedules exactly when they are successful and loans when they were activated. The
schedules split their amounts and principals exactly, from the date on which they began. -/
def Store.SchedulesExact (tiers : Tiers) (s : Store) : Prop :=
  ∃ payments loans, s.look .listPayments = .ok payments ∧ s.look .listLoans = .ok loans ∧
    (∀ p ∈ payments, ∃ entries, s.look (.installmentsOf (.payment p.id)) = .ok entries ∧
      (entries ≠ [] ↔ p.status = .successful) ∧
      (entries ≠ [] → ∃ moment, p.settledAt = some moment ∧
        Splits p.amount (tiers.countFor p.amount) moment.date (entries.map Installment.line))) ∧
    ∀ loan ∈ loans, ∃ entries, s.look (.installmentsOf (.loan loan.id)) = .ok entries ∧
      (entries ≠ [] ↔ loan.status = .active ∨ loan.status = .paid ∨ loan.status = .defaulted) ∧
      (entries ≠ [] → ∃ moment, loan.activatedAt = some moment ∧
        Splits loan.principal loan.term moment.date (entries.map Installment.line))

/-- The schedules are exact in all states that an engine comes to. Any call may be refused but the
removal of a schedule. -/
theorem Reached.schedulesExact {policy : Policy} {w : World}
    (h : Reached Faults.sparingRemoval policy w) : w.store.SchedulesExact policy.tiers := by
  have hinvariant := schedulesKept_invariant Faults.sparingRemoval_leaveSchedules
    (· = policy.tiers) rfl
  obtain ⟨b, hshows, hsound, hkept⟩ := h.books hinvariant schedulesKept_empty
  have hlook := fun owner => hshows.1.look hsound.toOrdered (.installmentsOf owner) rfl
  refine ⟨b.ledger.payments.values, b.ledger.loans.values, ?_, ?_, ?_, ?_⟩
  · exact hshows.1.look hsound.toOrdered .listPayments rfl
  · exact hshows.1.look hsound.toOrdered .listLoans rfl
  · intro p hp
    obtain ⟨hbegun, hsplits⟩ := (hkept.scheduled (.payment p) hp).entries
    refine ⟨_, hlook _, hbegun, ?_⟩
    intro hne
    obtain ⟨_, moment, rfl, hstarted⟩ := hsplits hne
    exact ⟨moment, hstarted⟩
  · intro loan hloan
    obtain ⟨hbegun, hsplits⟩ := (hkept.scheduled (.loan loan) hloan).entries
    refine ⟨_, hlook _, hbegun, ?_⟩
    intro hne
    obtain ⟨_, moment, -, hstarted⟩ := hsplits hne
    exact ⟨moment, hstarted⟩

/-- A payment of 700, and a loan of 703 for four months. Each begins when it is tried again, after
its row could not be written and its schedule was removed. A part of the loan is repaid. -/
def World.begunAgain : World :=
  { World.sample with
    outages := (Outages.set {} .updatePayment 0 1 .refusal).set .updateLoan 1 1
      .refusal }.afterCalls {}
    [.apply { user := "alice", amount := 1000, currency := "USD" },
      .decideApplication ⟨1⟩,
      .pay { application := ⟨1⟩, user := "alice", amount := 700, currency := "USD",
             method := "card" },
      .deliverPayment ⟨1⟩ "SUCCESSFUL",
      .deliverPayment ⟨1⟩ "SUCCESSFUL",
      .fileLoan { user := "bob", principal := 703, currency := "USD", term := 4 },
      .decideLoan ⟨1⟩,
      .activateLoan ⟨1⟩,
      .activateLoan ⟨1⟩,
      .repayLoan ⟨1⟩ { amount := 200, method := "card" }]

theorem World.begunAgain_schedulesExact :
    (begunAgain.store.look (.installmentsOf (.loan ⟨1⟩))).map
      (fun all => all.map fun e => (e.amount.value, e.status)) =
        .ok [(175, .paid), (175, .pending), (175, .pending), (178, .pending)] ∧
    begunAgain.store.SchedulesExact .standard :=
  ⟨by decide +kernel,
    Reached.schedulesExact (Reached.afterCalls (.start ⟨.inl rfl, rfl⟩) (by decide +kernel))⟩

end Lending
