import Lending.Proofs.Engine.Covering
import Lending.Proofs.Engine.Schedules

/-!
# The accounts of loans

The money of a loan is kept in five places: its counters, its repayments, the statuses of its
entries, its remaining term and the date of its next payment. They are changed in separate writes
and agree nevertheless, as long as a write that was made in vain can be undone.

* `Loan.Consistent`: the five views of a loan agree.
* `AccountsKept`: the invariant. It says, too, that repayments are made on loans that exist.
* `History.loansConsistent`: the accounts in all states that engines come to.
-/

namespace Lending

/-- The accounts of a loan agree with its schedule and with the sum of its repayments. -/
structure Loan.Consistent (loan : Loan) (schedule : List Installment) (repaid : Nat) : Prop where
  balance : loan.totalPaid.toNat + loan.remaining.toNat = loan.principal.toNat
  history : loan.totalPaid.toNat = repaid
  unstarted : ¬(Obligation.loan loan).Begun → loan.totalPaid = 0
  covered : loan.status = .active ∨ loan.status = .paid →
    CoveredUpTo loan.totalPaid.toNat .pending schedule
  remainingTerm : loan.status = .active ∨ loan.status = .paid →
    loan.remainingTerm.toNat = (pendingEntries schedule).length
  nextPayment : loan.status = .active ∨ loan.status = .paid →
    loan.nextPayment = (pendingEntries schedule).head?.map Installment.dueDate
  paid : loan.status = .active ∨ loan.status = .paid → (loan.status = .paid ↔ loan.remaining = 0)
  defaulted : loan.status = .defaulted → 0 < loan.remaining ∧
    CoveredUpTo loan.totalPaid.toNat .failed schedule ∧ loan.nextPayment = none

namespace Loan.Consistent

variable {loan : Loan} {schedule : List Installment} {repaid : Nat}

/-- A loan that has not begun owes all its principal, whatever else is said of it. -/
theorem of_unstarted (hbegun : ¬(Obligation.loan loan).Begun) (hpaid : loan.totalPaid = 0)
    (hremaining : loan.remaining = loan.principal.value) : loan.Consistent schedule 0 where
  balance := by
    rw [hpaid, hremaining]
    exact Nat.zero_add _
  history := by
    rw [hpaid]
    rfl
  unstarted := fun _ => hpaid
  covered := fun h => absurd (h.imp_right .inl) hbegun
  remainingTerm := fun h => absurd (h.imp_right .inl) hbegun
  nextPayment := fun h => absurd (h.imp_right .inl) hbegun
  paid := fun h => absurd (h.imp_right .inl) hbegun
  defaulted := fun h => absurd (.inr (.inr h)) hbegun

/-- What is said of the accounts of a loan that has not begun. -/
theorem unstarted_eq (h : loan.Consistent schedule repaid)
    (hbegun : ¬(Obligation.loan loan).Begun) :
    loan.totalPaid = 0 ∧ loan.remaining = loan.principal.value ∧ repaid = 0 := by
  have hpaid := h.unstarted hbegun
  have hbalance := h.balance
  have hhistory := h.history
  rw [hpaid] at hbalance hhistory
  rw [UInt64.toNat_zero, Nat.zero_add] at hbalance
  exact ⟨hpaid, UInt64.toNat_inj.mp hbalance, hhistory.symm⟩

/-- Activating: all entries are pending. -/
theorem afterActivation (h : loan.Consistent schedule repaid)
    (hbegun : ¬(Obligation.loan loan).Begun) (moment : Instant)
    {entries : List Installment} (hpending : ∀ e ∈ entries, e.status = .pending)
    (hlength : entries.length < UInt32.size) :
    Loan.Consistent
      { loan with
        status := .active
        activatedAt := some moment
        nextPayment := entries.head?.map Installment.dueDate
        remainingTerm := UInt32.ofNat entries.length } entries repaid := by
  obtain ⟨hpaid, hremaining, rfl⟩ := h.unstarted_eq hbegun
  have hall : pendingEntries entries = entries :=
    List.filter_eq_self.mpr fun e he => decide_eq_true (hpending e he)
  refine ⟨h.balance, h.history, fun hnot => absurd (.inl rfl) hnot, ?_, ?_, ?_, ?_, nofun⟩
  · intro _
    rw [hpaid]
    exact coveredUpTo_iff.mpr (coveredFrom_zero hpending)
  · intro _
    rw [hall]
    exact Nat.mod_eq_of_lt hlength
  · intro _
    rw [hall]
  · intro _
    refine ⟨nofun, ?_⟩
    intro hzero
    have hpos := loan.principal.pos
    rw [← hremaining, hzero] at hpos
    cases hpos

/-- Repaying: neither counter wraps, and the entries that are covered by then are paid. -/
theorem afterRepayment (h : loan.Consistent schedule repaid) (hactive : loan.status = .active)
    {amount : Amount} (henough : amount.value ≤ loan.remaining) (hnodup : schedule.Nodup)
    (htotal : (schedule.map fun e => e.amount.toNat).sum = loan.principal.toNat)
    (hlength : schedule.length < UInt32.size) :
    (loan.repaid schedule amount).1.Consistent (loan.scheduleAfter schedule amount)
      (repaid + amount.toNat) := by
  have hbound := loan.principal.toNat_lt
  have hbalance := h.balance
  obtain ⟨henough', hpaid, hremaining⟩ := Loan.Balanced.counters hbalance henough
  have hcovered : CoveredUpTo (loan.totalPaid + amount.value).toNat .pending
      (loan.scheduleAfter schedule amount) := by
    have hbefore := coveredUpTo_iff.mp (h.covered (.inl hactive))
    exact coveredUpTo_iff.mpr (coveredFrom_coverEntries hbefore (by omega) (by omega))
  have hpending : (pendingEntries (loan.scheduleAfter schedule amount)).length < UInt32.size := by
    refine Nat.lt_of_le_of_lt (List.length_filter_le ..) ?_
    rw [loan.scheduleAfter_eq hnodup, List.length_map]
    exact hlength
  have hstatus : (loan.repaid schedule amount).1.status =
      if loan.remaining - amount.value = 0 then .paid else .active := by
    rw [← hactive]
    rfl
  refine ⟨?_, ?_, ?_, fun _ => hcovered, fun _ => Nat.mod_eq_of_lt hpending, fun _ => rfl, ?_, ?_⟩
  · simp only [Loan.repaid, hpaid, hremaining]
    omega
  · simp only [Loan.repaid, hpaid, h.history]
  · intro hnot
    refine absurd ?_ hnot
    rw [Obligation.Begun, hstatus]
    split <;> simp
  · intro _
    rw [hstatus]
    split <;> simp_all [Loan.repaid]
  · intro hdefaulted
    rw [hstatus] at hdefaulted
    split at hdefaulted <;> cases hdefaulted

/-- Giving up: the entries that were pending fail. -/
theorem afterDefault (h : loan.Consistent schedule repaid) (hactive : loan.status = .active) :
    Loan.Consistent { loan with status := .defaulted, nextPayment := none }
      (schedule.map fun e =>
        { e with status := if e ∈ pendingEntries schedule then .failed else e.status })
      repaid := by
  have hpending : ∀ e ∈ schedule, (e ∈ pendingEntries schedule ↔ e.status = .pending) := by
    intro e he
    simp [pendingEntries, he]
  have hover : ¬(LoanStatus.defaulted = .active ∨ LoanStatus.defaulted = .paid) := by decide
  refine ⟨h.balance, h.history, fun hnot => absurd (.inr (.inr rfl)) hnot,
    fun hgoes => absurd hgoes hover, fun hgoes => absurd hgoes hover,
    fun hgoes => absurd hgoes hover, fun hgoes => absurd hgoes hover, fun _ => ⟨?_, ?_, rfl⟩⟩
  · apply UInt64.pos_iff_ne_zero.mpr
    intro hzero
    have hpaid := (h.paid (.inl hactive)).mpr hzero
    rw [hactive] at hpaid
    cases hpaid
  · rw [List.map_congr_left fun e he => by rw [if_congr (hpending e he) rfl rfl]]
    exact coveredUpTo_iff.mpr (coveredFrom_failed (coveredUpTo_iff.mp (h.covered (.inl hactive))))

end Loan.Consistent

/-! ## The invariant -/

/-- The sum of the repayments on a loan. -/
def Ledger.repaidOn (l : Ledger) (id : LoanId) : Nat :=
  ((l.repayments.values.filter fun r => r.loan = id).map fun r => r.amount.toNat).sum

/-- The accounts of every loan agree, and every repayment is made on a loan that exists. -/
structure AccountsKept (l : Ledger) : Prop where
  consistent : ∀ loan ∈ l.loans.values,
    loan.Consistent (l.installmentsOf (.loan loan.id)) (l.repaidOn loan.id)
  recorded : ∀ r ∈ l.repayments.values, ∃ loan, l.loans.get? r.loan = some loan

theorem accountsKept_empty : AccountsKept {} := ⟨fun _ h => (nomatch h), fun _ h => (nomatch h)⟩

namespace Ledger

variable {l l' : Ledger}

theorem repaidOn_congr (h : l'.repayments = l.repayments) (id : LoanId) :
    l'.repaidOn id = l.repaidOn id := by
  rw [repaidOn, h]
  rfl

/-- A new repayment is added to those on its loan. -/
theorem repaidOn_append {r : Repayment} (h : l'.repayments.values = l.repayments.values ++ [r])
    (id : LoanId) : l'.repaidOn id = l.repaidOn id + if r.loan = id then r.amount.toNat else 0 := by
  rw [repaidOn, repaidOn, h, List.filter_append, List.map_append, List.sum_append]
  by_cases heq : r.loan = id <;> simp [heq]

theorem repaidOn_eq_zero {id : LoanId} (h : ∀ r ∈ l.repayments.values, r.loan ≠ id) :
    l.repaidOn id = 0 := by
  rw [repaidOn, List.filter_eq_nil_iff.mpr fun r hr => by simpa using h r hr]
  rfl

end Ledger

namespace AccountsKept

variable {l l' : Ledger}

theorem congr (h : AccountsKept l) (hloans : l'.loans = l.loans)
    (hrepayments : l'.repayments = l.repayments)
    (hschedules : ∀ id, l'.installmentsOf (.loan id) = l.installmentsOf (.loan id)) :
    AccountsKept l' := by
  constructor
  · intro loan hloan
    rw [hschedules, Ledger.repaidOn_congr hrepayments]
    exact h.consistent loan (hloans ▸ hloan)
  · rw [hrepayments, hloans]
    exact h.recorded

/-- A loan may be written with accounts that agree. -/
theorem write (h : AccountsKept l) (hl : l.Sound) (loan : Loan)
    (hloans : l'.loans = l.loans.insert loan.id loan)
    (hrepayments : ∀ r ∈ l'.repayments.values, r ∈ l.repayments.values ∨ r.loan = loan.id)
    (hothers : ∀ id, id ≠ loan.id → l'.installmentsOf (.loan id) = l.installmentsOf (.loan id) ∧
      l'.repaidOn id = l.repaidOn id)
    (hown : loan.Consistent (l'.installmentsOf (.loan loan.id)) (l'.repaidOn loan.id)) :
    AccountsKept l' := by
  constructor
  · intro other hother
    rw [hloans, hl.loans.mem_values_insert] at hother
    rcases hother with rfl | ⟨hne, hother⟩
    · exact hown
    · obtain ⟨hschedule, hrepaid⟩ := hothers other.id hne
      rw [hschedule, hrepaid]
      exact h.consistent other hother
  · intro r hr
    rw [hloans, Table.get?_insert]
    split
    · exact ⟨loan, rfl⟩
    · rename_i hne
      rcases hrepayments r hr with hold | hnew
      · exact h.recorded r hold
      · exact absurd hnew.symm hne

/-- A loan without repayments that has not begun. -/
theorem write_unstarted (h : AccountsKept l) (hl : l.Sound) (loan : Loan)
    (hbegun : ¬(Obligation.loan loan).Begun) (hpaid : loan.totalPaid = 0)
    (hremaining : loan.remaining = loan.principal.value) (hrepaid : l.repaidOn loan.id = 0)
    (hloans : l'.loans = l.loans.insert loan.id loan) (hrepayments : l'.repayments = l.repayments)
    (hinstallments : l'.installments = l.installments) : AccountsKept l' := by
  apply h.write hl loan hloans fun r hr => .inl (hrepayments ▸ hr)
  · intro id _
    exact ⟨Ledger.installmentsOf_congr hinstallments _, Ledger.repaidOn_congr hrepayments id⟩
  · rw [Ledger.repaidOn_congr hrepayments, hrepaid]
    exact .of_unstarted hbegun hpaid hremaining

end AccountsKept

/-- A schedule that splits a principal exactly. -/
theorem SchedulesKept.schedule_facts {used : Tiers → Prop} {l : Ledger} (h : SchedulesKept used l)
    {loan : Loan} (hloan : loan ∈ l.loans.values) (hbegun : (Obligation.loan loan).Begun)
    {schedule : List Installment} (hschedule : schedule = l.installmentsOf (.loan loan.id)) :
    schedule.Nodup ∧ (schedule.map fun e => e.amount.toNat).sum = loan.principal.toNat ∧
      schedule.length < UInt32.size := by
  obtain ⟨hiff, hsplits⟩ := h.scheduled (.loan loan) hloan
  obtain ⟨_, _, -, -, hsequences, htotal, -, hlength⟩ := hsplits (hiff.mpr hbegun)
  simp only [Obligation.owner, Ledger.linesOf, ← hschedule, List.length_map, List.map_map]
    at hsequences htotal hlength
  refine ⟨?_, htotal, ?_⟩
  · have hdistinct := List.pairwise_map.mp (hsequences ▸ List.nodup_range')
    refine hdistinct.imp ?_
    rintro e _ hne rfl
    exact hne rfl
  · have hbound := loan.term.toNat_lt
    exact Nat.lt_of_le_of_lt (hlength ▸ Nat.min_le_right ..) hbound

namespace AccountsKept

variable {l l' : Ledger} {loan : Loan}

/-- The loan that was activated has pending entries only. -/
theorem afterActivation (h : AccountsKept l) (hl : l.Sound)
    (hknown : l.loans.get? loan.id = some loan) (happroved : loan.status = .approved)
    {policy : Policy} {moment : Instant} {entries : List Installment} {c : Counters}
    {t : Table InstallmentId Installment}
    (hwritten : l.Schedules policy
      (.loan { loan with status := .active, activatedAt := some moment }) entries c t)
    {loan' : Loan}
    (hnew : loan' = { loan with
      status := .active
      activatedAt := some moment
      nextPayment := entries.head?.map Installment.dueDate
      remainingTerm := UInt32.ofNat entries.length })
    (hinstallments : l'.installments = t) (hloans : l'.loans = l.loans.insert loan.id loan')
    (hrepayments : l'.repayments = l.repayments) : AccountsKept l' := by
  have hold := h.consistent loan (hl.loans.mem_values.mpr hknown)
  have hbegun : ¬(Obligation.loan loan).Begun := by simp [Obligation.Begun, happroved]
  have hschedules : ∀ id, l'.installmentsOf (.loan id) =
      if id = loan.id then entries else l.installmentsOf (.loan id) := by
    intro id
    rw [hwritten.installmentsOf hl hinstallments]
    exact if_congr (Owner.loan.injEq id loan.id ▸ Iff.rfl) rfl rfl
  have hlength : entries.length < UInt32.size := by
    obtain ⟨-, _, -, hsplits⟩ := hwritten.splits
    have hlines := hsplits.length
    rw [List.length_map] at hlines
    exact Nat.lt_of_le_of_lt (hlines ▸ Nat.min_le_right ..) loan.term.toNat_lt
  have hid : loan'.id = loan.id := by rw [hnew]
  rw [← hid] at hloans
  apply h.write hl loan' hloans fun r hr => .inl (hrepayments ▸ hr)
  · intro id hne
    refine ⟨?_, Ledger.repaidOn_congr hrepayments id⟩
    rw [hschedules, if_neg (hid ▸ hne)]
  · rw [hschedules, if_pos hid, Ledger.repaidOn_congr hrepayments, hid, hnew]
    exact hold.afterActivation hbegun moment hwritten.pending hlength

/-- A loan whose entries get another status, with the repayments on it afterwards. -/
theorem write_withStatus (h : AccountsKept l) (hl : l.Sound) (loan loan' : Loan)
    (hid : loan'.id = loan.id) {status : InstallmentStatus} {entries : List Installment}
    (hmem : ∀ e ∈ entries, e ∈ l.installmentsOf (.loan loan.id))
    (hinstallments : l'.installments =
      Ledger.insertBatch l.installments (withStatus status entries))
    (hloans : l'.loans = l.loans.insert loan.id loan')
    (hrepayments : ∀ r ∈ l'.repayments.values, r ∈ l.repayments.values ∨ r.loan = loan.id)
    (hrepaid : ∀ id, id ≠ loan.id → l'.repaidOn id = l.repaidOn id)
    (hown : loan'.Consistent
      ((l.installmentsOf (.loan loan.id)).map fun e =>
        { e with status := if e ∈ entries then status else e.status })
      (l'.repaidOn loan.id)) : AccountsKept l' := by
  have hmem' : ∀ e ∈ entries, e ∈ l.installments.values ∧ e.owner = .loan loan.id :=
    fun e he => Ledger.mem_installmentsOf.mp (hmem e he)
  rw [← hid] at hloans hrepayments hrepaid
  apply h.write hl loan' hloans hrepayments
  · intro id hne
    refine ⟨?_, hrepaid id hne⟩
    refine Ledger.installmentsOf_withStatus_other hl.toOrdered (fun e he => (hmem' e he).1)
      hinstallments fun e he howner => ?_
    rw [(hmem' e he).2, ← hid] at howner
    exact hne (Owner.loan.inj howner).symm
  · rw [Ledger.installmentsOf_withStatus hl.toOrdered (fun e he => (hmem' e he).1) hinstallments,
      hid]
    exact hown

end AccountsKept

/-- Every step keeps the accounts, unless a fault leaves a write that was made in vain. -/
theorem accountsKept_invariant {faults : Faults} (hschedules : ¬faults.LeaveSchedules)
    (hstatuses : ¬faults.LeaveStatuses) (policy : Policy) :
    Books.Invariant faults policy fun b =>
      SchedulesKept (fun _ => True) b.ledger ∧ AccountsKept b.ledger := by
  intro b b' hsound ⟨hkept, hb⟩ hstep
  refine ⟨schedulesKept_invariant hschedules _ trivial hsound hkept hstep, ?_⟩
  cases hstep with
  | taken now => exact hb
  | withdrawn n => exact hb
  | remnant remnant =>
    cases remnant with
    | nothing alike =>
      exact hb.congr alike.loans alike.repayments fun _ =>
        Ledger.installmentsOf_congr alike.installments _
    | settling may | activating may => exact absurd may hschedules
    | repaying may | defaulting may => exact absurd may hstatuses
  | effect effect =>
    cases effect with
    | unchanged => exact hb
    | applied | decided | paid | paymentFailed | collectionAsked =>
      exact hb.congr rfl rfl fun _ => Ledger.installmentsOf_congr rfl _
    | settled _ _ _ _ _ _ written =>
      exact hb.congr rfl rfl fun _ => by
        rw [written.installmentsOf hsound rfl, if_neg (by nofun)]
    | @collected _ entry next _ known owner =>
      have hmem : ∀ e ∈ [entry], e ∈ b.ledger.installments.values := fun e he => by
        rw [List.mem_singleton.mp he]
        exact hsound.installments.mem_values.mpr known
      refine hb.congr rfl rfl fun id => Ledger.installmentsOf_withStatus_other hsound.toOrdered hmem
        (Ledger.insert_withStatus _ entry next) fun e he howner => owner ?_
      rw [← List.mem_singleton.mp he, howner]
      rfl
    | @filed _ _ _ _ loan _ left new =>
      have hnone : b.ledger.loans.get? loan.id = none :=
        hsound.upToLoan.get?_eq_none (by rw [new]; exact lt_succ left)
      have hrepaid : b.ledger.repaidOn loan.id = 0 := by
        apply Ledger.repaidOn_eq_zero
        intro r hr heq
        obtain ⟨old, hget⟩ := hb.recorded r hr
        rw [heq, hnone] at hget
        cases hget
      refine hb.write_unstarted hsound loan ?_ (by rw [new]; rfl) (by rw [new]; rfl) hrepaid rfl rfl
        rfl
      rw [new]
      rintro (h | h | h) <;> cases h
    | @loanDecided loan next _ approvedAt known pending verdict =>
      have hbefore : ¬(Obligation.loan loan).Begun := by simp [Obligation.Begun, pending]
      have hold := hb.consistent loan (hsound.loans.mem_values.mpr known)
      obtain ⟨hpaid, hremaining, hrepaid⟩ := hold.unstarted_eq hbefore
      refine hb.write_unstarted hsound { loan with status := next, approvedAt } ?_ hpaid hremaining
        hrepaid rfl rfl rfl
      rw [verdict]
      split <;> rintro (h | h | h) <;> cases h
    | @activated loan _ _ moment _ _ _ known approved start written new =>
      subst start
      exact hb.afterActivation hsound known approved written new rfl rfl rfl
    | @repaid loan _ amount _ schedule r _ _ known active enough owed left new =>
      subst owed
      have hloan := hsound.loans.mem_values.mpr known
      obtain ⟨hnodup, htotal, hlength⟩ := hkept.schedule_facts hloan (.inl active) rfl
      have hlast : b.ledger.counters.repayment < r.id.value := by
        rw [new]
        exact lt_succ left
      have hvalues := Table.values_insert_last hsound.upToRepayment hlast r
      have honLoan : r.loan = loan.id := by rw [new]
      have hamount : r.amount = amount := by rw [new]
      have hmem : ∀ e ∈ loan.newlyCovered (b.ledger.installmentsOf (.loan loan.id)) amount,
          e ∈ b.ledger.installmentsOf (.loan loan.id) :=
        fun e he => (Engine.mem_coveredEntries he).1
      refine hb.write_withStatus hsound loan (loan.repaid _ amount).1 rfl hmem rfl rfl ?_ ?_ ?_
      · intro q hq
        rcases List.mem_append.mp (hvalues ▸ hq) with hold | hnew
        · exact .inl hold
        · rw [List.mem_singleton.mp hnew]
          exact .inr honLoan
      · intro id hne
        rw [Ledger.repaidOn_append hvalues, honLoan, if_neg hne.symm, Nat.add_zero]
      · rw [Ledger.repaidOn_append hvalues, if_pos honLoan, hamount, ← loan.scheduleAfter_eq hnodup]
        exact (hb.consistent loan hloan).afterRepayment active enough hnodup htotal hlength
    | @defaulted loan known active =>
      have hold := hb.consistent loan (hsound.loans.mem_values.mpr known)
      exact hb.write_withStatus hsound loan { loan with status := .defaulted, nextPayment := none }
        rfl (fun e he => (Engine.mem_pendingEntries he).1) rfl rfl (fun r hr => .inl hr)
        (fun _ _ => rfl) (hold.afterDefault active)
    | @defaultedAgain loan known before =>
      have hold := hb.consistent loan (hsound.loans.mem_values.mpr known)
      obtain ⟨-, hcovered, -⟩ := hold.defaulted before
      rw [pendingEntries_eq_nil (coveredUpTo_iff.mp hcovered)]
      exact hb

/-! ## Accounts in the store -/

/-- The accounts of every loan in the store agree. Its schedule is listed by sequence. -/
def Store.LoansConsistent (s : Store) : Prop :=
  ∃ loans, s.look .listLoans = .ok loans ∧ ∀ loan ∈ loans, ∃ schedule repayments,
    s.look (.installmentsOf (.loan loan.id)) = .ok schedule ∧
      (schedule.map fun e => e.sequence.toNat) = List.range' 1 schedule.length ∧
        s.look (.repaymentsOf loan.id) = .ok repayments ∧
          loan.Consistent schedule (repayments.map fun r => r.amount.toNat).sum

/-- The accounts agree in all states that engines come to. Any call may be refused but those that
undo a write. -/
theorem History.loansConsistent {policy : Policy} {w : World}
    (h : History Faults.sparingUndo policy w) : w.store.LoansConsistent := by
  obtain ⟨b, hshows, hsound, hschedules, hkept⟩ := h.books
    (accountsKept_invariant Faults.sparingUndo_leaveSchedules Faults.sparingUndo_leaveStatuses)
    ⟨schedulesKept_empty, accountsKept_empty⟩
    fun {b} ⟨hschedules, haccounts⟩ =>
      ⟨hschedules.congr (Ledger.owes_congr rfl rfl) (Ledger.linesOf_congr rfl),
        haccounts.congr rfl rfl fun _ => Ledger.installmentsOf_congr rfl _⟩
  refine ⟨b.ledger.loans.values, hshows.1.look hsound.toOrdered .listLoans rfl, ?_⟩
  intro loan hloan
  have hsequences := hschedules.sequences (o := .loan loan) hloan
  exact ⟨_, _, hshows.1.look hsound.toOrdered (.installmentsOf _) rfl, hsequences,
    hshows.1.look hsound.toOrdered (.repaymentsOf _) rfl, hkept.consistent loan hloan⟩

/-- Two loans of 703 for four months, each with a repayment that ends inside the third entry. The
repayment on the first was tried again after it could not be recorded. The second loan is given
up. -/
def World.partlyRepaid : World :=
  { World.sample with outages := Outages.set {} .recordRepayment 1 1 .refusal }.afterCalls {}
    [.fileLoan { user := "alice", principal := 703, currency := "USD", term := 4 },
      .fileLoan { user := "bob", principal := 703, currency := "USD", term := 4 },
      .decideLoan ⟨1⟩,
      .decideLoan ⟨2⟩,
      .activateLoan ⟨1⟩,
      .activateLoan ⟨2⟩,
      .repayLoan ⟨1⟩ { amount := 175, method := "card" },
      .repayLoan ⟨1⟩ { amount := 200, method := "card" },
      .repayLoan ⟨1⟩ { amount := 200, method := "card" },
      .repayLoan ⟨2⟩ { amount := 375, method := "card" },
      .defaultLoan ⟨2⟩]

theorem World.partlyRepaid_loansConsistent :
    (partlyRepaid.store.look .listLoans).map
      (fun all => all.map fun loan => (loan.status, loan.totalPaid, loan.remainingTerm)) =
        .ok [(.active, 375, 2), (.defaulted, 375, 2)] ∧
    (partlyRepaid.store.look (.installmentsOf (.loan ⟨2⟩))).map
      (fun all => all.map Installment.status) = .ok [.paid, .paid, .failed, .failed] ∧
    partlyRepaid.store.LoansConsistent :=
  ⟨by decide +kernel, by decide +kernel,
    History.loansConsistent
      (Reached.afterCalls (.start ⟨.inl rfl, rfl⟩) (by decide +kernel)).history⟩

end Lending
