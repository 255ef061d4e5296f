import Lending.Proofs.Engine.Onward

/-!
# Stamps agree with statuses

The moments at which a row was decided, settled, approved or activated, and the score by which it
was decided, are fields of their own beside the status. They are set together with it: a row is
changed as a copy, and no part of the copy reaches the store before the whole of it does. So a row
has a stamp exactly if its status says so, whatever fails, and also after what a failed call has
left half done.

* `Application.Stamped`, `Payment.Stamped`, `Loan.Stamped`: the stamps of a row are those of its
  status.
* `stamped_invariant`: every step keeps that of all rows.
* `Reached.stamped`: so it holds in all states that an engine comes to.
-/

namespace Lending

/-! ## Rows -/

/-- An application has both the moment of its decision and a score once it is decided, and neither
before. It is the score that decides. -/
structure Application.Stamped (policy : Policy) (a : Application) : Prop where
  undecided : a.status = .pending ↔ a.decidedAt = none ∧ a.creditScore = none
  decided : a.status ≠ .pending → ∃ moment score, a.decidedAt = some moment ∧
    a.creditScore = some score ∧ (a.status = .approved ↔ policy.approvalThreshold ≤ score)

/-- A payment has the moment of its settlement exactly if it has succeeded. -/
structure Payment.Stamped (p : Payment) : Prop where
  settled : p.settledAt.isSome ↔ p.status = .successful

/-- A loan has the moment of its approval exactly if it was approved, and that of its activation
exactly if it was activated, whatever became of it then. -/
structure Loan.Stamped (loan : Loan) : Prop where
  approved : loan.approvedAt.isSome ↔ loan.status ∈ [.approved, .active, .paid, .defaulted]
  activated : loan.activatedAt.isSome ↔ loan.status ∈ [.active, .paid, .defaulted]

/-- An application that is decided gets its stamps. -/
theorem Application.stamped_decided (policy : Policy) (a : Application) (moment : Instant)
    (score : UInt16) :
    Application.Stamped policy { a with
      status := if policy.approvalThreshold ≤ score then .approved else .rejected
      decidedAt := some moment
      creditScore := some score } := by
  by_cases hreached : policy.approvalThreshold ≤ score
  · simp only [if_pos hreached]
    exact ⟨by simp, fun _ => ⟨moment, score, rfl, rfl, by simp [hreached]⟩⟩
  · simp only [if_neg hreached]
    exact ⟨by simp, fun _ => ⟨moment, score, rfl, rfl, by simp [hreached]⟩⟩

namespace Loan.Stamped

variable {loan : Loan}

/-- A pending loan that is approved gets a stamp, and one that is rejected gets none. -/
theorem decided (h : loan.Stamped) (hpending : loan.status = .pending) {next : LoanStatus}
    (hnext : next = .approved ∨ next = .rejected) {approvedAt : Option Instant}
    (hstamp : if next = .approved then approvedAt.isSome else approvedAt = loan.approvedAt) :
    Loan.Stamped { loan with status := next, approvedAt } := by
  have happroved : loan.approvedAt.isSome = false := by simpa [hpending] using h.approved
  have hactivated : loan.activatedAt.isSome = false := by simpa [hpending] using h.activated
  rcases hnext with rfl | rfl
  · rw [if_pos rfl] at hstamp
    exact ⟨by simp [hstamp], by simp [hactivated]⟩
  · rw [if_neg (by decide)] at hstamp
    exact ⟨by simp [hstamp, happroved], by simp [hactivated]⟩

/-- An active loan that is paid or given up keeps its stamps, and so does one that stays active. -/
theorem ended (h : loan.Stamped) (hactive : loan.status = .active) {loan' : Loan}
    (happroved : loan'.approvedAt = loan.approvedAt)
    (hactivated : loan'.activatedAt = loan.activatedAt)
    (hstatus : loan'.status ∈ [.active, .paid, .defaulted]) : loan'.Stamped := by
  have hboth : loan.approvedAt.isSome ∧ loan.activatedAt.isSome := by
    simp [h.approved, h.activated, hactive]
  refine ⟨?_, ?_⟩
  · rw [happroved]
    exact iff_of_true hboth.1 (List.mem_cons_of_mem _ hstatus)
  · rw [hactivated]
    exact iff_of_true hboth.2 hstatus

end Loan.Stamped

/-! ## Steps -/

/-- The stamps of all rows are those of their statuses. -/
structure Ledger.Stamped (policy : Policy) (l : Ledger) : Prop where
  applications : ∀ a ∈ l.applications.values, a.Stamped policy
  payments : ∀ p ∈ l.payments.values, p.Stamped
  loans : ∀ loan ∈ l.loans.values, loan.Stamped

theorem Ledger.stamped_empty (policy : Policy) : ({} : Ledger).Stamped policy where
  applications _ h := nomatch h
  payments _ h := nomatch h
  loans _ h := nomatch h

section Calls

variable {faults : Faults} {policy : Policy} {b b' : Books} {call : EngineCall}

/-- A call that succeeds stamps what it changes. -/
theorem Effect.keepsStamps {result : call.Result} (heffect : Effect policy b call result b')
    (hsound : b.ledger.Sound) (h : b.ledger.Stamped policy) : b'.ledger.Stamped policy := by
  have hloan : ∀ {loan : Loan}, b.ledger.loans.get? loan.id = some loan → loan.Stamped :=
    fun hknown => h.loans _ (hsound.loans.mem_values.mpr hknown)
  cases heffect with
  | unchanged | collected | collectionAsked | defaultedAgain => exact { h with }
  | @applied _ _ _ _ a _ _ new =>
    refine { h with applications := hsound.applications.forall_values_insert h.applications ?_ }
    rw [new]
    exact ⟨by simp [Application.new], by simp [Application.new]⟩
  | @decided a _ score moment _ _ verdict =>
    have hnew := a.stamped_decided policy moment score.value
    rw [← verdict] at hnew
    exact { h with applications := hsound.applications.forall_values_insert h.applications hnew }
  | @paid _ _ _ _ _ _ _ p _ _ _ _ _ _ new =>
    refine { h with payments := hsound.payments.forall_values_insert h.payments ?_ }
    rw [new]
    exact ⟨by simp⟩
  | @settled _ p p' _ moment _ _ _ _ known _ _ _ new =>
    have hid : p'.id = p.id := by rw [new]
    refine { h with payments := ?_ }
    rw [← hid]
    refine hsound.payments.forall_values_insert h.payments ?_
    rw [new]
    exact ⟨by simp⟩
  | @paymentFailed _ p _ known pending =>
    have hold := (h.payments p (hsound.payments.mem_values.mpr known)).settled
    have hnew : Payment.Stamped { p with status := .failed } := ⟨by simpa [pending] using hold⟩
    exact { h with payments := hsound.payments.forall_values_insert h.payments hnew }
  | @filed _ _ _ _ loan _ _ new =>
    refine { h with loans := hsound.loans.forall_values_insert h.loans ?_ }
    rw [new]
    exact ⟨by simp [Loan.new], by simp [Loan.new]⟩
  | @loanDecided loan next score approvedAt known pending verdict stamp =>
    have hnext : next = .approved ∨ next = .rejected := by
      rw [verdict]
      split <;> simp
    have hnew : Loan.Stamped { loan with status := next, approvedAt } :=
      (hloan known).decided pending hnext stamp
    exact { h with loans := hsound.loans.forall_values_insert h.loans hnew }
  | @activated loan started loan' moment _ _ _ known approved start _ new =>
    have hid : loan'.id = loan.id := by rw [new, start]
    have hold : loan.approvedAt.isSome := by simp [(hloan known).approved, approved]
    refine { h with loans := ?_ }
    rw [← hid]
    refine hsound.loans.forall_values_insert h.loans ?_
    rw [new, start]
    exact ⟨by simp [hold], by simp⟩
  | @repaid loan _ amount _ schedule _ _ _ known active =>
    have hstatus : (loan.repaid schedule amount).1.status ∈
        [LoanStatus.active, .paid, .defaulted] := by
      simp only [Loan.repaid, active]
      split <;> simp
    have hnew : (loan.repaid schedule amount).1.Stamped :=
      (hloan known).ended active rfl rfl hstatus
    exact { h with loans := hsound.loans.forall_values_insert h.loans hnew }
  | @defaulted loan known active =>
    have hnew : Loan.Stamped { loan with status := .defaulted, nextPayment := none } :=
      (hloan known).ended active rfl rfl (by simp)
    exact { h with loans := hsound.loans.forall_values_insert h.loans hnew }

/-- A call that fails leaves applications, payments and loans as they were. -/
theorem Remnant.keepsStamps (hremnant : Remnant faults policy b call b')
    (h : b.ledger.Stamped policy) : b'.ledger.Stamped policy := by
  cases hremnant with
  | nothing alike =>
    refine ⟨?_, ?_, ?_⟩
    · exact alike.applications ▸ h.applications
    · exact alike.payments ▸ h.payments
    · exact alike.loans ▸ h.loans
  | settling | activating | repaying | defaulting => exact { h with }

end Calls

/-- Every step keeps the stamps. -/
theorem stamped_invariant (faults : Faults) (policy : Policy) :
    Books.Invariant faults policy fun b => b.ledger.Stamped policy := by
  intro b b' hsound h hstep
  cases hstep with
  | effect effect => exact effect.keepsStamps hsound h
  | remnant remnant => exact remnant.keepsStamps h
  | taken | withdrawn => exact h

/-! ## Stores -/

/-- Every row that a look-up finds has the stamps of its status. -/
structure Store.Stamped (policy : Policy) (s : Store) : Prop where
  applications : ∀ id, ∃ found, s.look (.getApplication id) = .ok found ∧
    ∀ a ∈ found, a.Stamped policy
  payments : ∀ id, ∃ found, s.look (.getPayment id) = .ok found ∧ ∀ p ∈ found, p.Stamped
  loans : ∀ id, ∃ found, s.look (.getLoan id) = .ok found ∧ ∀ loan ∈ found, loan.Stamped

theorem Ledger.Stamped.store {policy : Policy} {s : Store} {l : Ledger} (h : l.Stamped policy)
    (hkeeps : s.Keeps l) (hl : l.Ordered) : s.Stamped policy := by
  constructor
  · intro id
    refine ⟨l.applications.get? id, hkeeps.look hl (.getApplication id) rfl, fun a ha => ?_⟩
    obtain rfl := hl.applications.id_of_get? ha
    exact h.applications a (hl.applications.mem_values.mpr ha)
  · intro id
    refine ⟨l.payments.get? id, hkeeps.look hl (.getPayment id) rfl, fun p hp => ?_⟩
    obtain rfl := hl.payments.id_of_get? hp
    exact h.payments p (hl.payments.mem_values.mpr hp)
  · intro id
    refine ⟨l.loans.get? id, hkeeps.look hl (.getLoan id) rfl, fun loan hloan => ?_⟩
    obtain rfl := hl.loans.id_of_get? hloan
    exact h.loans loan (hl.loans.mem_values.mpr hloan)

/-- In all states that an engine comes to from empty books, the rows have the stamps of their
statuses. Any store call may fail or crash, undoing writes included, and a crash before a store call
leaves the state that the call would have met. -/
theorem Reached.stamped {policy : Policy} {w : World} (h : Reached Faults.any policy w) :
    w.store.Stamped policy := by
  obtain ⟨b, hshows, hsound, hstamped⟩ :=
    h.books (stamped_invariant Faults.any policy) (Ledger.stamped_empty policy)
  exact hstamped.store hshows.1 hsound.toOrdered

namespace World

/-- Rows in every status. An activation was undone, a default could at first neither be written nor
undone, and a settlement crashed before the payment was written. -/
def stamps : World :=
  { sample with
    scorer := .byUser [("carol", 400)] 700
    outages := ((Outages.set {} .updateLoan 8 2 .refusal).set .updateBatch 2 1 .refusal).set
      .updatePayment 2 1 .crash }.afterCalls {} <|
    List.flatten [
      [.apply { user := "alice", amount := 1000, currency := "USD" },
        .apply { user := "carol", amount := 500, currency := "EUR" },
        .apply { user := "alice", amount := 70, currency := "USD" },
        .decideApplication ⟨1⟩,
        .decideApplication ⟨2⟩],
      ["alice", "carol", "alice", "alice", "alice", "alice"].map fun user =>
        .fileLoan { user, principal := 90, currency := "USD", term := 2 },
      [2, 3, 4, 5, 6].map fun n => .decideLoan ⟨n⟩,
      [4, 5, 6, 3].map fun n => .activateLoan ⟨n⟩,
      [.repayLoan ⟨5⟩ { amount := 90, method := "card" },
        .defaultLoan ⟨6⟩,
        .defaultLoan ⟨6⟩],
      [500, 300, 200].map fun amount =>
        .pay { application := ⟨1⟩, user := "alice", amount, currency := "USD", method := "card" },
      [.deliverPayment ⟨2⟩ "SUCCESSFUL",
        .deliverPayment ⟨3⟩ "FAILED",
        .deliverPayment ⟨1⟩ "SUCCESSFUL"]]

theorem stamps_stamped :
    ([1, 2, 3].map fun n => (stamps.store.look (.getApplication ⟨n⟩)).map
      fun found => found.map Application.status) =
        [.ok (some .approved), .ok (some .rejected), .ok (some .pending)] ∧
    ([1, 2, 3].map fun n => (stamps.store.look (.getPayment ⟨n⟩)).map
      fun found => found.map Payment.status) =
        [.ok (some .pending), .ok (some .successful), .ok (some .failed)] ∧
    ([1, 2, 3, 4, 5, 6].map fun n => (stamps.store.look (.getLoan ⟨n⟩)).map
      fun found => found.map Loan.status) =
        [.ok (some .pending), .ok (some .rejected), .ok (some .approved), .ok (some .active),
          .ok (some .paid), .ok (some .defaulted)] ∧
    stamps.store.Stamped {} :=
  ⟨by decide +kernel, by decide +kernel, by decide +kernel,
    Reached.stamped (Reached.afterCalls (.start ⟨.inl rfl, rfl⟩) (by decide +kernel))⟩

end World

end Lending
