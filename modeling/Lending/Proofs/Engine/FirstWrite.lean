import Lending.Proofs.Engine.PaymentWork
import Lending.Proofs.Engine.Orderly

/-!
# The first write wins

Any number of payments, decisions on applications, deliveries and drains, each of which goes on by
one request at a time, in any order. Every store call may be refused but the removal of a schedule.

* `Program.Respects.ends`: a program that respects the locks can always end without writing another
  outcome.
* `Workload.Acked`: the deliveries that are answered so that an outcome was applied.
* `History.steady`, `Reached.steady`: what holds of an engine before the jobs begin.
* `Workload.firstWrite`: the credit limit, the deliveries that are applied and the schedules in
  every state that the jobs come to.
-/

namespace Lending

/-! ## Answers to come -/

/-- A program can always end without writing another outcome: it gets no more locks, and the store
refuses every call but the removal of a schedule. -/
theorem Program.Respects.ends {α : Type} {used : Tiers → Prop} {held : List LockKey}
    {won : List PaymentId} {l : Ledger} {Q : α → Standing} {P : α → Prop} {p : Program α}
    (h : p.Respects Faults.sparingRemoval used Q held won l) (hl : l.Sound)
    (hcredit : CreditKept l) (hends : p.Ends P) : ∃ a held' l', P a ∧ Q a held' won l' := by
  induction p generalizing held l with
  | done value => exact ⟨value, held, l, hends, h⟩
  | ask request next ih =>
    have hwaits : l.Waits held l := ⟨.refl l, hl, hcredit⟩
    cases request with
    | acquire key limit => exact ih false (h l hwaits).1 hl hcredit (hends false)
    | release key =>
      obtain ⟨-, rest, -, hnext⟩ := h l hwaits
      exact ih () hnext hl hcredit (hends ())
    | store call =>
      obtain ⟨hrefused, -, hok⟩ := h l hwaits
      cases hremoves : call.removes with
      | false => exact ih _ (hrefused ⟨rfl, hremoves⟩) hl hcredit (hends _)
      | true =>
        cases call <;> cases hremoves
        rename_i owner
        obtain ⟨hwrites, hnext⟩ := hok _ _ trivial rfl
        have hsound := @Ledger.Sound.answer l _ hl (.deleteInstallmentsOf owner) _ trivial rfl
        exact ih _ hnext hsound hwrites.credit (hends _)
    | score _ _ => exact ih (.error .timeout) (h l hwaits _) hl hcredit (hends _)
    | expired _ | cancel _ => exact ih false (h l hwaits _) hl hcredit (hends _)
    | now => exact ih .epoch (h l hwaits _) hl hcredit (hends _)
    | freshOrder => exact ih "" (h l hwaits _) hl hcredit (hends _)
    | takeDue _ => exact ih [] (h l hwaits _) hl hcredit (hends _)
    | schedule _ _ | pruneLocks => exact ih () (h l hwaits _) hl hcredit (hends _)

/-- However the tasks go on, each of them answers at least so many deliveries to the payment that
its outcome was applied. -/
def Workload.Acked (s : Workload) (id : PaymentId) (counts : List Nat) : Prop :=
  List.Forall₂ (fun task n => task.rest.Ends fun result => n ≤ task.job.applied id result)
    s.tasks counts

/-- How many deliveries to the payment a task has answered so that has ended. -/
def Task.acked (id : PaymentId) (task : Task) : Nat :=
  match task.rest with
  | .done result => task.job.applied id result
  | .ask _ _ => 0

theorem Program.ends_of_forall {α : Type} {P : α → Prop} (h : ∀ a, P a) (p : Program α) :
    p.Ends P := by
  induction p with
  | done value => exact h value
  | ask request next ih => exact ih

theorem Workload.acked_ended (s : Workload) (id : PaymentId) :
    s.Acked id (s.tasks.map (Task.acked id)) := by
  refine List.forall₂_map_right_iff.mpr (List.forall₂_same.mpr fun task _ => ?_)
  obtain ⟨job, _ | ⟨request, next⟩⟩ := task
  · exact Nat.le_refl _
  · exact Program.ends_of_forall (fun _ => Nat.zero_le _) (.ask request next)

/-! ## Before and after -/

/-- Every payment whose lock nobody holds has a schedule exactly when it is successful, and the
schedule splits its amount exactly, by tiers in use. -/
def World.FreeScheduled (used : Tiers → Prop) (w : World) : Prop :=
  ∃ payments, w.store.look .listPayments = .ok payments ∧
    ∀ p ∈ payments, w.locks.isHeld (.payment p.id) = false →
      ∃ entries, w.store.look (.installmentsOf (.payment p.id)) = .ok entries ∧
        (entries ≠ [] ↔ p.status = .successful) ∧
        (entries ≠ [] → ∃ tiers moment, used tiers ∧ p.settledAt = some moment ∧
          Splits p.amount (tiers.countFor p.amount) moment.date (entries.map Installment.line))

section Start

variable {used : Tiers → Prop} {policy : Policy} {w : World} {b : Books}

theorem World.Steady.freeScheduled (h : w.Steady used b) : w.FreeScheduled used := by
  refine ⟨b.ledger.payments.values, ?_, ?_⟩
  · exact h.shows.1.look h.sound.toOrdered .listPayments rfl
  · intro p hp hfree
    have hnot : .payment p.id ∉ w.locks.held := fun hheld => by
      rw [h.locks.isHeld_iff.mpr hheld] at hfree
      cases hfree
    have hscheduled := (h.free _ hnot).1 p (h.sound.payments.mem_values.mp hp)
    exact ⟨_, h.shows.1.look h.sound.toOrdered (.installmentsOf _) rfl, hscheduled.entries⟩

/-- What calls keep that are made one after another. -/
theorem kept_invariant (used : Tiers → Prop) (hused : used policy.tiers) :
    Books.Invariant Faults.sparingRemoval policy fun b =>
      SchedulesKept used b.ledger ∧ CreditKept b.ledger := by
  rintro b b' hsound ⟨hschedules, hcredit⟩ hstep
  exact ⟨schedulesKept_invariant Faults.sparingRemoval_leaveSchedules used hused hsound hschedules
    hstep, creditKept_invariant _ policy hsound hcredit hstep⟩

/-- While no lock is held, all payments have the schedules that they must have. -/
theorem World.Shows.steady (hshows : w.Shows b) (hsound : b.ledger.Sound)
    (hkept : SchedulesKept used b.ledger ∧ CreditKept b.ledger) (hidle : w.locks.Idle) :
    w.Steady used b := by
  refine ⟨hshows, hsound, hkept.2, hidle.1, ?_⟩
  intro key _
  cases key with
  | application _ | installment _ | loan _ => trivial
  | payment id =>
    refine ⟨fun p hp => ?_, hkept.1.linesOf_payment_eq_nil hsound⟩
    obtain rfl := hsound.payments.id_of_get? hp
    exact hkept.1.scheduled (.payment p) (hsound.payments.mem_values.mpr hp)

theorem Reached.steady (h : Reached Faults.sparingRemoval policy w) (hidle : w.locks.Idle) :
    ∃ b, w.Steady (· = policy.tiers) b := by
  obtain ⟨b, hshows, hsound, hkept⟩ := h.books (kept_invariant (· = policy.tiers) rfl)
    ⟨schedulesKept_empty, creditKept_empty⟩
  exact ⟨b, hshows.steady hsound hkept hidle⟩

theorem History.steady (h : History Faults.sparingRemoval policy w) (hidle : w.locks.Idle) :
    ∃ b, w.Steady (fun _ => True) b := by
  obtain ⟨b, hshows, hsound, hkept⟩ := h.books (fun _ => kept_invariant (fun _ => True) trivial)
    ⟨schedulesKept_empty, creditKept_empty⟩ fun hb =>
      ⟨hb.1.congr (Ledger.owes_congr rfl rfl) (Ledger.linesOf_congr rfl), hb.2.congr rfl rfl⟩
  exact ⟨b, hshows.steady hsound hkept hidle⟩

end Start

namespace Workload

variable {used : Tiers → Prop} {policy : Policy} {w : World} {jobs : List Job} {s : Workload}

/-- The deliveries that are answered so wrote their outcomes. -/
theorem Orderly.acked {opening : Ledger} {actors : List Actor} {b : Books}
    (h : s.Orderly Faults.sparingRemoval used Job.Ended opening actors b) {id : PaymentId}
    {counts : List Nat} (hcounts : s.Acked id counts) :
    opening.outcomes id + counts.sum ≤ b.ledger.outcomes id := by
  rw [Acked, ← h.tasks, List.forall₂_map_left_iff, List.forall₂_iff_zip] at hcounts
  obtain ⟨hlength, hends⟩ := hcounts
  have hwon : List.Forall₂ (fun a n => n ≤ a.won.count id) actors counts := by
    refine List.forall₂_iff_zip.mpr ⟨hlength, fun hmem => ?_⟩
    have hrespects := h.respects _ (List.of_mem_zip hmem).1
    obtain ⟨_, _, _, hle, -, hwrote⟩ :=
      hrespects.ends h.steady.sound h.steady.credit (hends hmem)
    exact Nat.le_trans hle (hwrote id)
  have hsum := (List.forall₂_map_right_iff.mpr hwon.flip).sum_le_sum
  exact Nat.le_trans (Nat.add_le_add_left hsum _) (h.won id)

/-- Jobs on payments that begin together stay in order. -/
theorem orderly_of_steps {b : Books} (hw : w.Steady used b) (hused : used policy.tiers)
    (hidle : w.locks.Idle) (hjobs : ∀ job ∈ jobs, job.worksOnPayments)
    (hsteps : Relation.ReflTransGen (Step Faults.sparingRemoval) (start policy w jobs) s) :
    ∃ actors b', s.Orderly Faults.sparingRemoval used Job.Ended b.ledger actors b' := by
  have hstart := Orderly.start hw hidle.2 fun job hjob =>
    Job.respects Faults.sparingRemoval_leaveSchedules hused (hjobs job hjob)
  exact hstart.steps (fun _ _ _ _ _ _ hended _ => hended) hsteps

/-- The first write to a payment wins, whatever else is under way. No application is overdrawn; one
delivery to a payment at most is answered that its outcome was applied, and none if the payment had
an outcome before; and payments whose locks nobody holds have the schedules that they must have, by
the tiers of the engine if it is the first on its store. -/
theorem firstWrite (hw : History Faults.sparingRemoval policy w) (hidle : w.locks.Idle)
    (hjobs : ∀ job ∈ jobs, job.worksOnPayments)
    (hsteps : Relation.ReflTransGen (Step Faults.sparingRemoval) (start policy w jobs) s) :
    s.world.store.CreditLimited ∧
      (∀ id counts, s.Acked id counts → counts.sum ≤ 1 ∧
        ∀ p, w.store.look (.getPayment id) = .ok (some p) → p.status ≠ .pending →
          counts.sum = 0) ∧
      s.world.FreeScheduled (fun _ => True) ∧
      (Reached Faults.sparingRemoval policy w → s.world.FreeScheduled (· = policy.tiers)) := by
  obtain ⟨b₀, hsteady⟩ := hw.steady hidle
  obtain ⟨actors, b, h⟩ := orderly_of_steps hsteady trivial hidle hjobs hsteps
  refine ⟨h.steady.credit.limited h.steady.shows.1 h.steady.sound, ?_, h.steady.freeScheduled, ?_⟩
  · intro id counts hcounts
    have hacked := h.acked hcounts
    have hone := b.ledger.outcomes_le_one id
    refine ⟨by omega, fun p hp hdecided => ?_⟩
    have hlook := hsteady.shows.1.look hsteady.sound.toOrdered (.getPayment id) rfl
    have hconcluded : b₀.ledger.Concluded id :=
      ⟨p, Except.ok.inj (hlook.symm.trans hp), hdecided⟩
    have hbefore := Ledger.outcomes_of_concluded hconcluded
    omega
  · intro hreached
    obtain ⟨b₁, hsteady₁⟩ := hreached.steady hidle
    obtain ⟨_, _, h₁⟩ := orderly_of_steps hsteady₁ rfl hidle hjobs hsteps
    exact h₁.steady.freeScheduled

end Workload

/-- A pending payment of 900 on a credit of 1000. -/
def World.awaiting : World :=
  World.sample.afterCalls {}
    [.apply { user := "alice", amount := 1000, currency := "USD" },
      .decideApplication ⟨1⟩,
      .pay { application := ⟨1⟩, user := "alice", amount := 900, currency := "USD",
             method := "card" }]

/-- The payment is due to be settled, while its row cannot be written once. -/
def World.contested : World :=
  { World.awaiting with
    clock := Instant.epoch.add 60000
    locks := {}
    outages := Outages.set {} .updatePayment 0 1 .refusal }

/-- A gateway confirms the payment, the queue does, and the gateway says that it failed, while
another payment is made. -/
def World.contestants : List Job :=
  [.call (.deliverPayment ⟨1⟩ "SUCCESSFUL") .unbounded,
    .drain,
    .call (.deliverPayment ⟨1⟩ "FAILED") .unbounded,
    .call (.pay { application := ⟨1⟩, user := "alice", amount := 200, currency := "USD",
                  method := "card" }) .unbounded]

/-- Whose turn it is. -/
def World.contest : List Nat :=
  List.replicate 7 3 ++ List.replicate 3 0 ++ List.replicate 2 1 ++ List.replicate 4 3 ++
    List.replicate 13 0 ++ List.replicate 16 1 ++ List.replicate 4 2 ++ [1]

/-- The gateway's confirmation waits for the credit while the new payment is made, then its outcome
cannot be written, and its schedule is removed. The queue's confirmation is applied, and what the
gateway says last is refused. -/
theorem World.contested_firstWrite :
    ∃ s, (Workload.start {} contested contestants).turns? Faults.sparingRemoval contest = some s ∧
      (s.world.store.look .listPayments).map (fun all => all.map Payment.status) =
        .ok [.successful, .pending] ∧
      s.tasks.map (Task.acked ⟨1⟩) = [0, 1, 0, 0] ∧
      (s.tasks.map (Task.acked ⟨1⟩)).sum ≤ 1 ∧
      s.world.store.CreditLimited ∧ s.world.FreeScheduled (· = .standard) := by
  have hawaiting : Reached Faults.sparingRemoval {} awaiting :=
    Reached.afterCalls (.start ⟨.inl rfl, rfl⟩) (by decide +kernel)
  have hreached : Reached Faults.sparingRemoval {} contested :=
    hawaiting.move (.surroundings rfl rfl)
  have hends : ((Workload.start {} contested contestants).turns? Faults.sparingRemoval contest).map
      (fun s => ((s.world.store.look .listPayments).map (fun all => all.map Payment.status),
        s.tasks.map (Task.acked ⟨1⟩))) =
      some (.ok [.successful, .pending], [0, 1, 0, 0]) := by
    decide +kernel
  obtain ⟨s, hturns, hsees⟩ := Option.map_eq_some_iff.mp hends
  obtain ⟨hstatuses, hacks⟩ := Prod.mk.inj hsees
  obtain ⟨hlimited, hacked, -, hscheduled⟩ := Workload.firstWrite hreached.history
    LockTable.idle_empty (by decide) (Workload.turns?_steps hturns)
  exact ⟨s, hturns, hstatuses, hacks, (hacked ⟨1⟩ _ (s.acked_ended ⟨1⟩)).1, hlimited,
    hscheduled hreached⟩

end Lending
