import Lending.Proofs.Engine.Covering
import Lending.Proofs.Engine.CreditExact

/-!
# Repayments and defaults that are tried again

A repayment and a default write entries before the loan, and what an attempt that fails has written
may stay. The next attempt finds it. It computes the same loan from the entries that are paid or
failed already, and leaves the others as the first attempt would have.

* `Ledger.repay`, `Ledger.giveUp`: what the calls come to where nothing hinders them.
* `Ledger.Halfway`: what failed attempts may leave, which more of them do not add to.
* `Ledger.Halfway.repay`, `Ledger.Halfway.giveUp`: from there the calls come to the same.
* `World.Attempts`: any number of attempts that fail.
* `Transcript.repairs`: attempts that fail, and one that does not.
-/

namespace Lending

/-! ## Covering again -/

section Covering

variable {paid sum : Nat} {schedule : List Installment}

/-- What was covered is not covered again. -/
theorem coveredEntries_coverEntries :
    coveredEntries paid sum (coverEntries paid sum schedule).1 = [] := by
  induction schedule generalizing sum with
  | nil => rfl
  | cons entry rest ih =>
    simp only [coverEntries]
    split
    · simp only [coveredEntries, reduceCtorEq, and_false, if_false]
      exact ih
    · rename_i hnot
      rw [coveredEntries, if_neg hnot]
      exact ih

theorem coverEntries_of_nil (h : coveredEntries paid sum schedule = []) :
    coverEntries paid sum schedule = (schedule, []) := by
  induction schedule generalizing sum with
  | nil => rfl
  | cons entry rest ih =>
    simp only [coveredEntries] at h
    split at h
    · cases h
    · rename_i hnot
      simp only [coverEntries, ih h, if_neg hnot]

end Covering

/-! ## What the calls come to -/

/-- The entries that a repayment pays are those that it covers. -/
theorem Loan.repaid_snd (loan : Loan) (schedule : List Installment) (amount : Amount) :
    (loan.repaid schedule amount).2 = withStatus .paid (loan.newlyCovered schedule amount) :=
  Engine.coverEntries_snd _ _ _

namespace Ledger

/-- Entries were given another status. -/
def marked (l : Ledger) (status : InstallmentStatus) (entries : List Installment) : Ledger :=
  { l with installments := insertBatch l.installments (withStatus status entries) }

/-- The entries that a repayment on a loan covers were paid. -/
def covered (l : Ledger) (loan : Loan) (amount : Amount) : Ledger :=
  l.marked .paid (loan.newlyCovered (l.installmentsOf (.loan loan.id)) amount)

/-- The pending entries of an owner failed. -/
def forfeited (l : Ledger) (owner : Owner) : Ledger :=
  l.marked .failed (pendingEntries (l.installmentsOf owner))

/-- The ledger after a repayment on a loan. -/
def recorded (l : Ledger) (loan : Loan) (amount : Amount) (method : PaymentMethod)
    (moment : Instant) : Ledger :=
  let r : Repayment :=
    { id := ⟨l.counters.repayment + 1⟩, loan := loan.id, amount, method, paidAt := moment }
  { l.covered loan amount with
    counters := { l.counters with repayment := l.counters.repayment + 1 }
    loans := l.loans.insert loan.id
      (loan.repaid (l.installmentsOf (.loan loan.id)) amount).1
    repayments := l.repayments.insert r.id r }

/-- A repayment that nothing hinders: its result, and the ledger afterwards. -/
def repay (policy : Policy) (l : Ledger) (id : LoanId) (r : RepaymentRequest) (moment : Instant) :
    Except Failure Loan × Ledger :=
  match Engine.readRepayment policy r with
  | .error cause => (.error cause, l)
  | .ok (amount, method) =>
    match l.loans.get? id with
    | none => (.error (.notFound .loan id.value), l)
    | some loan =>
      if loan.status ≠ .active then
        (.error (.invalidState .loan id.value (Lifecycle.text loan.status) .repay), l)
      else if loan.remaining < amount.value then
        (.error (.invalid (.repaymentTooLarge amount.value loan.remaining)), l)
      else
        (.ok (loan.repaid (l.installmentsOf (.loan loan.id)) amount).1,
          l.recorded loan amount method moment)

/-- A default that nothing hinders. -/
def giveUp (l : Ledger) (id : LoanId) : Except Failure Engine.Ack × Ledger :=
  match l.loans.get? id with
  | none => (.error (.notFound .loan id.value), l)
  | some loan =>
    match Lifecycle.advance loan.id.value loan.status LoanStatus.defaulted with
    | .error cause => (.error cause, l)
    | .ok .unchanged =>
      if pendingEntries (l.installmentsOf (.loan loan.id)) = [] then (.ok .duplicate, l)
      else (.ok .applied, l.forfeited (.loan loan.id))
    | .ok .applied =>
      (.ok .applied, { l.forfeited (.loan loan.id) with
        loans := l.loans.insert loan.id { loan with status := .defaulted, nextPayment := none } })

variable {l : Ledger}

theorem answer_recordRepayment {loan : Loan} {r : Repayment}
    (h : (l.loans.get? loan.id).isSome) :
    l.answer (.recordRepayment loan r) = .ok ({ r with id := ⟨l.counters.repayment + 1⟩ },
      { l with
        counters := { l.counters with repayment := l.counters.repayment + 1 }
        loans := l.loans.insert loan.id loan
        repayments := l.repayments.insert ⟨l.counters.repayment + 1⟩
          { r with id := ⟨l.counters.repayment + 1⟩ } }) :=
  recordRepayment_ok.mpr ⟨Option.isSome_iff_exists.mp h, rfl, rfl⟩

theorem mem_of_newlyCovered (l : Ledger) (loan : Loan) (amount : Amount) :
    ∀ e ∈ loan.newlyCovered (l.installmentsOf (.loan loan.id)) amount, e ∈ l.installments.values :=
  fun _ he => (mem_installmentsOf.mp (Engine.mem_coveredEntries he).1).1

theorem mem_of_pendingEntries (l : Ledger) (owner : Owner) :
    ∀ e ∈ pendingEntries (l.installmentsOf owner), e ∈ l.installments.values :=
  fun _ he => (mem_installmentsOf.mp (Engine.mem_pendingEntries he).1).1

end Ledger

namespace Scene

open Engine

variable {s : Scene} {policy : Policy} {limit : Deadline}

/-- Entries of the ledger are written with another status. -/
theorem perform_writeEntries (h : s.books.ledger.Ordered) (status : InstallmentStatus)
    {entries : List Installment} (hmem : ∀ e ∈ entries, e ∈ s.books.ledger.installments.values) :
    s.perform (writeEntries (withStatus status entries)) = (.ok (), { s with
      books := { s.books with ledger := s.books.ledger.marked status entries } }) := by
  cases entries with
  | nil => rfl
  | cons entry rest =>
    have hknown : ∀ e ∈ withStatus status (entry :: rest),
        ∃ old, s.books.ledger.installments.get? e.id = some old := by
      intro e he
      obtain ⟨old, hold, rfl⟩ := List.mem_map.mp he
      exact ⟨old, h.installments.mem_values.mp (hmem old hold)⟩
    have hanswer : s.books.ledger.answer (.updateBatch (withStatus status (entry :: rest))) =
        .ok ((), s.books.ledger.marked status (entry :: rest)) :=
      Ledger.updateBatch_ok.mpr ⟨hknown, rfl⟩
    have hrun : s.perform (writeEntries (withStatus status (entry :: rest))) =
        s.perform (Operation.call (.updateBatch (withStatus status (entry :: rest)))) := rfl
    rw [hrun, perform_call, hanswer]

theorem perform_repayLoan (hlimit : limit.isExpired s.around.time = false)
    (hsound : s.books.ledger.Sound) (id : LoanId) (r : RepaymentRequest) :
    s.perform (repayLoan policy id r limit) =
      ((s.books.ledger.repay policy id r s.around.clock).1, { s with
        books := { s.books with
          ledger := (s.books.ledger.repay policy id r s.around.clock).2 } }) := by
  simp only [repayLoan, perform_bind, perform_require, Ledger.repay]
  cases hread : readRepayment policy r with
  | error cause => rfl
  | ok read =>
    obtain ⟨amount, method⟩ := read
    simp only [perform_locked hlimit, perform_bind, getLoan, perform_boundedCall hlimit,
      perform_look s (c := .getLoan id) (fun _ => rfl), perform_found]
    cases hknown : s.books.ledger.loans.get? id with
    | none => rfl
    | some loan =>
      obtain rfl := hsound.loans.id_of_get? hknown
      have hwrite := perform_writeEntries hsound.toOrdered .paid
        (s.books.ledger.mem_of_newlyCovered loan amount)
      have hid : ∀ schedule, (loan.repaid schedule amount).1.id = loan.id := fun _ => rfl
      have hknown' : ((s.books.ledger.marked .paid (loan.newlyCovered
          (s.books.ledger.installmentsOf (.loan loan.id)) amount)).loans.get? loan.id).isSome :=
        Option.isSome_of_eq_some hknown
      simp only
      split
      · rfl
      · split
        · rfl
        · simp only [scheduleOf, perform_bind, perform_boundedCall hlimit,
            perform_look s (c := .installmentsOf (.loan loan.id)) (fun _ => rfl),
            perform_check hlimit, Loan.repaid_snd, hwrite, perform_now, perform_compensated,
            perform_call, Ledger.answer_recordRepayment, hid, hknown', perform_pure]
          rfl

theorem perform_defaultLoan (hlimit : limit.isExpired s.around.time = false)
    (hsound : s.books.ledger.Sound) (id : LoanId) :
    s.perform (defaultLoan id limit) =
      ((s.books.ledger.giveUp id).1, { s with
        books := { s.books with ledger := (s.books.ledger.giveUp id).2 } }) := by
  simp only [defaultLoan, Ledger.giveUp, perform_locked hlimit, perform_bind, getLoan,
    perform_boundedCall hlimit, perform_look s (c := .getLoan id) (fun _ => rfl), perform_found]
  cases hknown : s.books.ledger.loans.get? id with
  | none => rfl
  | some loan =>
    obtain rfl := hsound.loans.id_of_get? hknown
    have hwrite := perform_writeEntries hsound.toOrdered .failed
      (s.books.ledger.mem_of_pendingEntries (.loan loan.id))
    simp only [perform_require]
    cases Lifecycle.advance loan.id.value loan.status LoanStatus.defaulted with
    | error cause => rfl
    | ok transition =>
      simp only [scheduleOf, perform_boundedCall hlimit,
        perform_look s (c := .installmentsOf (.loan loan.id)) (fun _ => rfl)]
      have hempty : (withStatus .failed (pendingEntries
          (s.books.ledger.installmentsOf (.loan loan.id)))).isEmpty = true ↔
            pendingEntries (s.books.ledger.installmentsOf (.loan loan.id)) = [] := by
        rw [List.isEmpty_iff, withStatus, List.map_eq_nil_iff]
      cases transition with
      | unchanged =>
        simp only [true_and, hempty]
        split
        · rfl
        · simp only [reduceCtorEq, if_false, perform_bind, perform_check hlimit, hwrite,
            perform_pure]
          rfl
      | applied =>
        have hknown' : ((s.books.ledger.marked .failed (pendingEntries
            (s.books.ledger.installmentsOf (.loan loan.id)))).loans.get? loan.id).isSome :=
          Option.isSome_of_eq_some hknown
        simp only [reduceCtorEq, false_and, if_false, if_true, perform_bind, perform_check hlimit,
          hwrite, perform_compensated, perform_call, Ledger.answer_updateLoan, hknown',
          perform_pure]
        rfl

end Scene

/-! ## What is left halfway -/

/-- What attempts at a repayment or a default may leave that fail. -/
inductive Ledger.Halfway (policy : Policy) (l : Ledger) : EngineCall → Ledger → Prop
  | untouched {call : EngineCall} : Halfway policy l call l
  /-- The entries are paid, and the repayment is not recorded. -/
  | covered {loan : Loan} {r : RepaymentRequest} {amount : Amount} {method : PaymentMethod}
      (read : Engine.readRepayment policy r = .ok (amount, method))
      (known : l.loans.get? loan.id = some loan) (active : loan.status = .active)
      (enough : amount.value ≤ loan.remaining) :
    Halfway policy l (.repayLoan loan.id r) (l.covered loan amount)
  /-- The entries have failed, and the loan is still active. -/
  | forfeited {loan : Loan} (known : l.loans.get? loan.id = some loan)
      (active : loan.status = .active) :
    Halfway policy l (.defaultLoan loan.id) (l.forfeited (.loan loan.id))

namespace Ledger

variable {policy : Policy} {l l' : Ledger}

theorem marked_nil (l : Ledger) (status : InstallmentStatus) : l.marked status [] = l := rfl

/-- The schedule in which the covered entries are paid is the one after the repayment. -/
theorem installmentsOf_covered (h : l.Ordered) (loan : Loan) (amount : Amount) :
    (l.covered loan amount).installmentsOf (.loan loan.id) =
      loan.scheduleAfter (l.installmentsOf (.loan loan.id)) amount := by
  rw [Loan.scheduleAfter_eq _ (nodup_installmentsOf h _)]
  exact installmentsOf_withStatus h (l.mem_of_newlyCovered loan amount) rfl _

/-- Nothing is left for another repayment to cover. -/
theorem covered_covered (h : l.Ordered) (loan : Loan) (amount : Amount) :
    (l.covered loan amount).covered loan amount = l.covered loan amount := by
  have hnone : loan.newlyCovered ((l.covered loan amount).installmentsOf (.loan loan.id)) amount =
      [] := by
    rw [installmentsOf_covered h]
    exact coveredEntries_coverEntries
  rw [covered, hnone, marked_nil]

/-- A loan is repaid alike from the schedule whose entries are paid already. -/
theorem repaid_covered (h : l.Ordered) (loan : Loan) (amount : Amount) :
    (loan.repaid ((l.covered loan amount).installmentsOf (.loan loan.id)) amount).1 =
      (loan.repaid (l.installmentsOf (.loan loan.id)) amount).1 := by
  rw [installmentsOf_covered h]
  simp only [Loan.repaid, Loan.scheduleAfter, coverEntries_of_nil coveredEntries_coverEntries]

/-- Nothing is left to fail. -/
theorem pendingEntries_forfeited (h : l.Ordered) (owner : Owner) :
    pendingEntries ((l.forfeited owner).installmentsOf owner) = [] := by
  have hschedule : (l.forfeited owner).installmentsOf owner = _ :=
    installmentsOf_withStatus h (l.mem_of_pendingEntries owner) rfl owner
  rw [hschedule, pendingEntries, List.filter_eq_nil_iff]
  intro e he
  obtain ⟨old, hold, rfl⟩ := List.mem_map.mp he
  by_cases hpending : old ∈ pendingEntries (l.installmentsOf owner)
  · simp [hpending]
  · have hstatus : old.status ≠ .pending := fun hstatus =>
      hpending (List.mem_filter.mpr ⟨hold, decide_eq_true hstatus⟩)
    simpa [hpending] using hstatus

theorem forfeited_forfeited (h : l.Ordered) (owner : Owner) :
    (l.forfeited owner).forfeited owner = l.forfeited owner := by
  rw [forfeited, pendingEntries_forfeited h, marked_nil]

/-- The repayment is recorded alike. -/
theorem Halfway.repay {id : LoanId} {r : RepaymentRequest} (hl : l.Ordered)
    (h : l.Halfway policy (.repayLoan id r) l') (moment : Instant) :
    l'.repay policy id r moment = l.repay policy id r moment := by
  cases h with
  | untouched => rfl
  | @covered loan _ amount method read known active enough =>
    have known' : (l.covered loan amount).loans.get? loan.id = some loan := known
    have hrecorded : (l.covered loan amount).recorded loan amount method moment =
        l.recorded loan amount method moment := by
      rw [recorded, covered_covered hl, repaid_covered hl]
      rfl
    simp only [Ledger.repay, read, known, known', active, ne_eq, not_true_eq_false, if_false,
      if_neg (UInt64.not_lt.mpr enough), repaid_covered hl, hrecorded]

/-- The loan is given up alike. -/
theorem Halfway.giveUp {id : LoanId} (hl : l.Ordered) (h : l.Halfway policy (.defaultLoan id) l') :
    l'.giveUp id = l.giveUp id := by
  cases h with
  | untouched => rfl
  | @forfeited loan known active =>
    have known' : (l.forfeited (.loan loan.id)).loans.get? loan.id = some loan := known
    have hadvance : Lifecycle.advance loan.id.value loan.status LoanStatus.defaulted =
        .ok .applied := by rw [active]; rfl
    simp only [Ledger.giveUp, known, known', hadvance, forfeited_forfeited hl]
    rfl

end Ledger

/-! ## Attempts -/

/-- The calls that write entries before a loan. -/
def EngineCall.changesEntries : EngineCall → Bool
  | .repayLoan _ _ | .defaultLoan _ => true
  | _ => false

/-- Another attempt that fails leaves no more. -/
theorem Ledger.Halfway.remnant {policy : Policy} {faults : Faults} {call : EngineCall}
    {l l' : Ledger} {queue : Queue} {b : Books} (hcall : call.changesEntries = true)
    (hl : l.Ordered) (h : l.Halfway policy call l')
    (hremnant : Remnant faults policy ⟨l', queue⟩ call b) :
    l.Halfway policy call b.ledger ∧ b.queue = queue := by
  cases hremnant with
  | nothing alike numbers =>
    have hsame : call.schedules = false := by
      cases call <;> first | rfl | cases hcall
    obtain rfl := alike.eq (numbers.resolve_left (by simp [hsame]))
    exact ⟨h, rfl⟩
  | settling | activating => cases hcall
  | @repaying loan r amount method _ read known active enough =>
    refine ⟨?_, rfl⟩
    show l.Halfway policy (.repayLoan loan.id r) (l'.covered loan amount)
    generalize hsame : EngineCall.repayLoan loan.id r = call at h
    cases h with
    | untouched => exact hsame ▸ .covered read known active enough
    | @covered loan' r' amount' method' read' known' active' enough' =>
      obtain ⟨hid, rfl⟩ := EngineCall.repayLoan.inj hsame
      obtain rfl : loan = loan' := Option.some.inj (known.symm.trans (hid ▸ known'))
      obtain ⟨rfl, rfl⟩ := Prod.mk.inj (Except.ok.inj (read.symm.trans read'))
      rw [covered_covered hl]
      exact .covered read known' active enough
    | forfeited => cases hsame
  | @defaulting loan _ known active =>
    refine ⟨?_, rfl⟩
    show l.Halfway policy (.defaultLoan loan.id) (l'.forfeited (.loan loan.id))
    generalize hsame : EngineCall.defaultLoan loan.id = call at h
    cases h with
    | untouched => exact hsame ▸ .forfeited known active
    | covered => cases hsame
    | @forfeited loan' known' active' =>
      rw [EngineCall.defaultLoan.inj hsame, forfeited_forfeited hl]
      exact .forfeited known' active'

/-- The worlds that attempts at a call lead to if all of them fail, by any faults and deadlines,
while time goes by. Clocks, scorers, outages and the source of references may change between them in
any way. -/
inductive World.Attempts (policy : Policy) (call : EngineCall) (w : World) : World → Prop
  | start : Attempts policy call w w
  | attempt {w' w'' : World} (before : Attempts policy call w w') (limit : Deadline)
      {result : Option (Except Failure call.Result)}
      (runs : w'.Runs Faults.any (call.program policy limit).run result w'')
      (failed : ∀ value, result ≠ some (.ok value)) : Attempts policy call w w''
  | surroundings {w' w'' : World} (before : Attempts policy call w w')
      (store : w''.store = w'.store) (queue : w''.queue = w'.queue)
      (locks : w''.locks = w'.locks) : Attempts policy call w w''

/-- An attempt that fails without a crash. -/
theorem World.Attempts.fails {policy : Policy} {call : EngineCall} {w w' : World}
    (h : w.Attempts policy call w') {limit : Deadline}
    (follows : w'.Follows Faults.any (call.program policy limit).run) {cause : Failure}
    (failed : (w'.run (call.program policy limit).run).1 = some (.error cause)) :
    w.Attempts policy call (w'.run (call.program policy limit).run).2 := by
  rw [← World.after_eq failed]
  exact h.attempt limit (follows.runsTo failed) nofun

/-- Books that attempts were made on. -/
structure World.Halfway (policy : Policy) (call : EngineCall) (b : Books) (w w' : World)
    (l : Ledger) : Prop where
  halfway : b.ledger.Halfway policy call l
  shows : w'.Shows ⟨l, b.queue⟩
  sound : l.Sound
  idle : w'.locks.Idle
  kind : w'.store.isDurable = w.store.isDurable

section

variable {policy : Policy} {w w' : World} {b : Books} {call : EngineCall}

/-- What a call leaves that fails, by a crash or not. -/
theorem World.Shows.remnant {faults : Faults} {limit : Deadline} (hshows : w.Shows b)
    (hsound : b.ledger.Sound) {result : Option (Except Failure call.Result)}
    (hruns : w.Runs faults (call.program policy limit).run result w')
    (hfailed : ∀ value, result ≠ some (.ok value)) :
    ∃ b', w'.Shows b' ∧ b'.ledger.Sound ∧ Remnant faults policy b call b' := by
  obtain ⟨b', hshows', hsound', hend⟩ := hruns.shows (call.ensures hsound limit) hshows hsound
  refine ⟨b', hshows', hsound', ?_⟩
  rcases result with _ | cause | value
  · exact hend
  · exact hend
  · exact absurd rfl (hfailed value)

/-- By induction on the attempts: none of them leaves more than the first. -/
theorem World.AtRest.attempts (h : w.AtRest b) (hcall : call.changesEntries = true)
    (hattempts : w.Attempts policy call w') : ∃ l, World.Halfway policy call b w w' l := by
  induction hattempts with
  | start => exact ⟨b.ledger, .untouched, h.shows, h.sound, h.idle, rfl⟩
  | attempt before limit runs failed ih =>
    obtain ⟨l, hl⟩ := ih
    obtain ⟨b', hshows', hsound', hremnant⟩ := hl.shows.remnant hl.sound runs failed
    obtain ⟨hhalfway, hqueue⟩ := hl.halfway.remnant hcall h.sound.toOrdered hremnant
    exact ⟨b'.ledger, hhalfway, ⟨hshows'.1, hqueue ▸ hshows'.2⟩, hsound',
      runs.idle (call.returns policy limit).run hl.idle, runs.isDurable.trans hl.kind⟩
  | surroundings before store queue locks ih =>
    obtain ⟨l, hl⟩ := ih
    refine ⟨l, hl.halfway, ⟨?_, queue.trans hl.shows.2⟩, hl.sound, locks ▸ hl.idle,
      (congrArg _ store).trans hl.kind⟩
    rw [store]
    exact hl.shows.1

end

/-! ## Trying again -/

/-- The operation ends with the same result in both worlds, and leaves the same rows, the same
numbers and the same queue. -/
structure World.EndsAlike {α : Type} (w w' : World) (op : Operation α) : Prop where
  result : ∃ result, (w.run op.run).1 = some result ∧ (w'.run op.run).1 = some result
  store : (w'.run op.run).2.store = (w.run op.run).2.store
  queue : (w'.run op.run).2.queue = (w.run op.run).2.queue

/-- The loan allows the repayment that is asked for. -/
structure Store.Allows (policy : Policy) (s : Store) (id : LoanId) (r : RepaymentRequest)
    (loan : Loan) (amount : Amount) (method : PaymentMethod) : Prop where
  row : s.look (.getLoan id) = .ok (some loan)
  active : loan.status = .active
  read : Engine.readRepayment policy r = .ok (amount, method)
  enough : amount.value ≤ loan.remaining

/-- Between two stores, one repayment on a loan was recorded. -/
structure Store.RecordsOnce (s s' : Store) (loan : Loan) (amount : Amount) (method : PaymentMethod)
    (moment : Instant) : Prop where
  entries : ∃ schedule, s.look (.installmentsOf (.loan loan.id)) = .ok schedule ∧
    s'.look (.installmentsOf (.loan loan.id)) = .ok (loan.scheduleAfter schedule amount) ∧
      s'.look (.getLoan loan.id) = .ok (some (loan.repaid schedule amount).1)
  history : ∃ before id, s.look (.repaymentsOf loan.id) = .ok before ∧
    s'.look (.repaymentsOf loan.id) =
      .ok (before ++ [{ id, loan := loan.id, amount, method, paidAt := moment }])

theorem Ledger.recorded_ordered {l : Ledger} (h : l.Ordered) (loan : Loan) (amount : Amount)
    (method : PaymentMethod) (moment : Instant) :
    (l.recorded loan amount method moment).Ordered :=
  { h with
    installments := insertBatch_booked h.installments _
    loans := h.loans.insert (loan.repaid (l.installmentsOf (.loan loan.id)) amount).1
    repayments := h.repayments.insert _ }

theorem Ledger.recorded_once {l : Ledger} (h : l.Sound)
    (hleft : l.counters.repayment.toNat + 1 < UInt64.size) {s s' : Store} {loan : Loan}
    {amount : Amount} {method : PaymentMethod} {moment : Instant} (hs : s.Keeps l)
    (hs' : s'.Keeps (l.recorded loan amount method moment)) :
    s.RecordsOnce s' loan amount method moment := by
  have hlook := hs.look h.toOrdered
  have hlook' := hs'.look (recorded_ordered h.toOrdered loan amount method moment)
  constructor
  · refine ⟨_, hlook (.installmentsOf (.loan loan.id)) rfl, ?_, ?_⟩
    · rw [hlook' (.installmentsOf (.loan loan.id)) rfl, ← installmentsOf_covered h.toOrdered]
      rfl
    · rw [hlook' (.getLoan loan.id) rfl]
      show Except.ok (Table.get? (Table.insert _ _ _) _) = _
      rw [Table.get?_insert, if_pos rfl]
  · refine ⟨_, ⟨l.counters.repayment + 1⟩, hlook (.repaymentsOf loan.id) rfl, ?_⟩
    rw [hlook' (.repaymentsOf loan.id) rfl]
    show Except.ok (List.filter _ (Table.values (Table.insert _ _ _))) = _
    rw [Table.values_insert_last h.upToRepayment (lt_succ hleft)]
    simp

section

variable {policy : Policy} {w w' : World} {b b' : Books} {limit : Deadline}

theorem Effect.left_repayment {id : LoanId} {r : RepaymentRequest} {loan : Loan}
    (h : Effect policy b (.repayLoan id r) loan b') :
    b.ledger.counters.repayment.toNat + 1 < UInt64.size := by
  cases h with
  | unchanged idle => exact absurd trivial idle
  | repaid _ _ _ _ _ left => exact left

/-- What is performed alike ends alike. -/
theorem World.Halfway.endsAlike {call : EngineCall} {l : Ledger} (hw : w.AtRest b)
    (h : World.Halfway policy call b w w' l) {α : Type} {op : Operation α} (hreturns : op.Returns)
    {result : Except Failure α} {after : Ledger}
    (hfollows : w.Follows Faults.none op.run) (hfollows' : w'.Follows Faults.none op.run)
    (hperform : Scene.perform ⟨b, w⟩ op = (result, ⟨⟨after, b.queue⟩, w⟩))
    (hperform' : Scene.perform ⟨⟨l, b.queue⟩, w'⟩ op = (result, ⟨⟨after, b.queue⟩, w'⟩)) :
    w.EndsAlike w' op ∧ (w'.run op.run).1 = some result ∧
      (w'.run op.run).2.store.Keeps after := by
  obtain ⟨hresult, ⟨hkeeps, hqueue⟩, -⟩ :=
    run_scene hreturns.run hw.idle hw.shows.stages hw.sound.toOrdered hfollows
  obtain ⟨hresult', ⟨hkeeps', hqueue'⟩, -⟩ :=
    run_scene hreturns.run h.idle h.shows.stages h.sound.toOrdered hfollows'
  rw [show Scene.run ⟨b, w⟩ op.run = _ from hperform] at hresult hkeeps hqueue
  rw [show Scene.run ⟨⟨l, b.queue⟩, w'⟩ op.run = _ from hperform'] at hresult' hkeeps' hqueue'
  refine ⟨⟨⟨result, hresult, hresult'⟩, hkeeps.eq hkeeps' ?_, hqueue'.trans hqueue.symm⟩, hresult',
    hkeeps'⟩
  rw [isDurable_run, isDurable_run, h.kind]

/-- What a repayment comes to that the loan allows. -/
theorem Ledger.repay_of_allows {s : Store} {l : Ledger} {id : LoanId} {r : RepaymentRequest}
    {loan : Loan} {amount : Amount} {method : PaymentMethod} (hs : s.Keeps l) (hl : l.Ordered)
    (h : s.Allows policy id r loan amount method) (moment : Instant) :
    l.repay policy id r moment = (.ok (loan.repaid (l.installmentsOf (.loan loan.id)) amount).1,
      l.recorded loan amount method moment) := by
  have hknown : l.loans.get? id = some loan :=
    Except.ok.inj ((hs.look hl (.getLoan id) rfl).symm.trans h.row)
  simp only [Ledger.repay, h.read, hknown, h.active, ne_eq, not_true_eq_false, if_false,
    if_neg (UInt64.not_lt.mpr h.enough)]

namespace World.AtRest

variable (hb : w.AtRest b) (hlimit : limit.isExpired w.time = false)
  (hlimit' : limit.isExpired w'.time = false)

include hb hlimit hlimit'

theorem repairs_repayLoan (hclock : w'.clock = w.clock) {id : LoanId} {r : RepaymentRequest}
    (hattempts : w.Attempts policy (.repayLoan id r) w')
    (hfollows : w.Follows Faults.none (Engine.repayLoan policy id r limit).run)
    (hfollows' : w'.Follows Faults.none (Engine.repayLoan policy id r limit).run) :
    w.EndsAlike w' (Engine.repayLoan policy id r limit) ∧
      (w'.run (Engine.repayLoan policy id r limit).run).1 =
        some (b.ledger.repay policy id r w.clock).1 ∧
      (w'.run (Engine.repayLoan policy id r limit).run).2.store.Keeps
        (b.ledger.repay policy id r w.clock).2 := by
  obtain ⟨l, hl⟩ := hb.attempts rfl hattempts
  have hperform : Scene.perform ⟨b, w⟩ (Engine.repayLoan policy id r limit) = _ :=
    Scene.perform_repayLoan hlimit hb.sound id r
  have hperform' : Scene.perform ⟨⟨l, b.queue⟩, w'⟩ (Engine.repayLoan policy id r limit) = _ :=
    Scene.perform_repayLoan hlimit' hl.sound id r
  simp only [hl.halfway.repay hb.sound.toOrdered, hclock] at hperform'
  exact hl.endsAlike hb (Engine.repayLoan_returns id r) hfollows hfollows' hperform hperform'

theorem repairs_defaultLoan {id : LoanId} (hattempts : w.Attempts policy (.defaultLoan id) w')
    (hfollows : w.Follows Faults.none (Engine.defaultLoan id limit).run)
    (hfollows' : w'.Follows Faults.none (Engine.defaultLoan id limit).run) :
    w.EndsAlike w' (Engine.defaultLoan id limit) := by
  obtain ⟨l, hl⟩ := hb.attempts rfl hattempts
  have hperform : Scene.perform ⟨b, w⟩ (Engine.defaultLoan id limit) = _ :=
    Scene.perform_defaultLoan hlimit hb.sound id
  have hperform' : Scene.perform ⟨⟨l, b.queue⟩, w'⟩ (Engine.defaultLoan id limit) = _ :=
    Scene.perform_defaultLoan hlimit' hl.sound id
  simp only [hl.halfway.giveUp hb.sound.toOrdered] at hperform'
  exact (hl.endsAlike hb (Engine.defaultLoan_returns id) hfollows hfollows' hperform hperform').1

end World.AtRest

/-- However often a repayment or a default has failed, by whatever faults, the next attempt that
nothing hinders ends as the first would have. A repayment that the loan allows is then recorded
once. -/
theorem Transcript.repairs {faults : Faults} {log : List Receipt}
    (h : Transcript faults policy w log) (hlimit : limit.isExpired w.time = false)
    (hlimit' : limit.isExpired w'.time = false) (hclock : w'.clock = w.clock) :
    (∀ id r, w.Attempts policy (.repayLoan id r) w' →
      w.Follows Faults.none (Engine.repayLoan policy id r limit).run →
      w'.Follows Faults.none (Engine.repayLoan policy id r limit).run →
      w.EndsAlike w' (Engine.repayLoan policy id r limit) ∧
        ∀ loan amount method, w.store.Allows policy id r loan amount method →
          (∃ repaid, (w'.run (Engine.repayLoan policy id r limit).run).1 = some (.ok repaid)) ∧
            w.store.RecordsOnce (w'.run (Engine.repayLoan policy id r limit).run).2.store loan
              amount method w.clock) ∧
    (∀ id, w.Attempts policy (.defaultLoan id) w' →
      w.Follows Faults.none (Engine.defaultLoan id limit).run →
      w'.Follows Faults.none (Engine.defaultLoan id limit).run →
      w.EndsAlike w' (Engine.defaultLoan id limit)) := by
  obtain ⟨b, hb⟩ := h.rests
  refine ⟨?_, fun id => hb.repairs_defaultLoan hlimit hlimit'⟩
  intro id r hattempts hfollows hfollows'
  obtain ⟨halike, hresult, hkeeps⟩ :=
    hb.repairs_repayLoan hlimit hlimit' hclock hattempts hfollows hfollows'
  refine ⟨halike, fun loan amount method hallows => ?_⟩
  rw [Ledger.repay_of_allows hb.shows.1 hb.sound.toOrdered hallows] at hresult hkeeps
  refine ⟨⟨_, hresult⟩, Ledger.recorded_once hb.sound ?_ hb.shows.1 hkeeps⟩
  -- a repayment that succeeds from the books before any attempt has found its number
  obtain ⟨_, hfirst, hsame⟩ := halike.result
  rw [hresult] at hsame
  obtain ⟨b', -, -, heffect⟩ := World.run_shows
    ((EngineCall.repayLoan id r).ensures hb.sound limit) hb.shows hb.sound hfollows
  rw [show (w.run (EngineCall.program policy limit (.repayLoan id r)).run).1 = _ from
    hfirst.trans hsame.symm] at heffect
  exact Effect.left_repayment heffect

end

/-- An active loan of 703 over four months. -/
def World.indebted : World :=
  World.sample.afterCalls {}
    [.fileLoan { user := "bob", principal := 703, currency := "USD", term := 4 },
      .decideLoan ⟨1⟩,
      .activateLoan ⟨1⟩]

/-- Two attempts at a call have failed, of which the first could not put the entries back. -/
def World.failing (outages : Outages) (call : EngineCall) : World :=
  { { World.indebted with outages }.afterCalls {} [call, call] with outages := {} }

def Outages.unrecorded : Outages :=
  (Outages.set {} .recordRepayment 0 2 .refusal).set .updateBatch 1 1 .refusal

def Outages.undefaulted : Outages :=
  (Outages.set {} .updateLoan 0 2 .refusal).set .updateBatch 1 1 .refusal

theorem World.failing_attempts {outages : Outages} {call : EngineCall}
    (follows : { indebted with outages }.FollowsCalls Faults.any {} [call, call])
    (first : ({ indebted with outages }.run (call.program {} .unbounded).run).1 =
      some (.error (.storage .outage)))
    (second : (({ indebted with outages }.run (call.program {} .unbounded).run).2.run
      (call.program {} .unbounded).run).1 = some (.error (.storage .outage))) :
    indebted.Attempts {} call (failing outages call) := by
  have hbegun : indebted.Attempts {} call { indebted with outages } :=
    .surroundings .start rfl rfl rfl
  exact .surroundings ((hbegun.fails follows.1 first).fails follows.2.1 second) rfl rfl rfl

/-- The first entry is paid, and the loan still owes all of its 703. The next attempt records the
repayment of 200, once. Likewise all entries have failed, and the next attempt gives the loan up. -/
theorem World.failing_repairs :
    let request : RepaymentRequest := { amount := 200, method := "card" }
    let owing := failing .unrecorded (.repayLoan ⟨1⟩ request)
    let lost := failing .undefaulted (.defaultLoan ⟨1⟩)
    (owing.store.look (.installmentsOf (.loan ⟨1⟩))).map (List.map Installment.status) =
        .ok [.paid, .pending, .pending, .pending] ∧
      (lost.store.look (.installmentsOf (.loan ⟨1⟩))).map (List.map Installment.status) =
        .ok [.failed, .failed, .failed, .failed] ∧
      indebted.EndsAlike owing (Engine.repayLoan {} ⟨1⟩ request .unbounded) ∧
      (∃ id, (owing.run (Engine.repayLoan {} ⟨1⟩ request .unbounded).run).2.store.look
        (.repaymentsOf ⟨1⟩) =
          .ok [⟨id, ⟨1⟩, ⟨200, by decide⟩, ⟨"card", by decide⟩, indebted.clock⟩]) ∧
      indebted.EndsAlike lost (Engine.defaultLoan ⟨1⟩ .unbounded) := by
  intro request owing lost
  have hempty : Transcript Faults.sparingUndo {} sample [] := .start ⟨.inl rfl, rfl⟩ rfl
  obtain ⟨_, hindebted⟩ : ∃ log, Transcript Faults.sparingUndo {} indebted log :=
    hempty.afterCalls (fun _ hcrash => nomatch hcrash.1) (by decide +kernel)
  have hlimit : Deadline.unbounded.isExpired indebted.time = false := rfl
  have howing : Deadline.unbounded.isExpired owing.time = false := rfl
  have hlost : Deadline.unbounded.isExpired lost.time = false := rfl
  have hrefused : indebted.Attempts {} (.repayLoan ⟨1⟩ request) owing :=
    failing_attempts (by decide +kernel) (by decide +kernel) (by decide +kernel)
  have hrefused' : indebted.Attempts {} (.defaultLoan ⟨1⟩) lost :=
    failing_attempts (by decide +kernel) (by decide +kernel) (by decide +kernel)
  obtain ⟨hrepay, -⟩ := hindebted.repairs hlimit howing (by decide +kernel)
  obtain ⟨-, hdefault⟩ := hindebted.repairs hlimit hlost (by decide +kernel)
  obtain ⟨halike, honce⟩ := hrepay ⟨1⟩ request hrefused (by decide +kernel)
    (by decide +kernel)
  let loan : Loan :=
    { Loan.new "bob" ⟨703, by decide⟩ ⟨"USD", by decide⟩ 4 .epoch with
      id := ⟨1⟩, status := .active, approvedAt := some .epoch, activatedAt := some .epoch
      nextPayment := some (Instant.epoch.date.addMonths 1) }
  obtain ⟨-, -, before, id, hbefore, hafter⟩ := honce loan ⟨200, by decide⟩ ⟨"card", by decide⟩
    ⟨by decide +kernel, rfl, by decide +kernel, by decide⟩
  have hnone : indebted.store.look (.repaymentsOf ⟨1⟩) = .ok [] := by decide +kernel
  obtain rfl : before = [] := Except.ok.inj (hbefore.symm.trans hnone)
  exact ⟨by decide +kernel, by decide +kernel, halike, ⟨id, hafter⟩,
    hdefault ⟨1⟩ hrefused' (by decide +kernel) (by decide +kernel)⟩

end Lending
