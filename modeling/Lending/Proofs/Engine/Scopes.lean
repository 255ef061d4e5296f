import Lending.Proofs.Engine.Agenda
import Lending.Proofs.Engine.Atomicity
import Lending.Proofs.Engine.References

/-!
# What a call may touch

The rows of all users stand in the same tables, and entries of payments and of loans, whose numbers
may be the same, in one. A call touches only what belongs to the obligation that it names, or one
new row, whether it succeeds or fails; everything else is the same before and after.

* `Scope`: rows and notifications that may be touched.
* `EngineCall.Touches`: the scopes of a call.
* `Effect.apart`, `Remnant.apart`: every way in which a call ends stays within a scope of the call.
* `History.staysApart`: what holds around every call and every delivery in all states that engines
  come to.
-/

namespace Lending

/-! ## Scopes -/

/-- Rows and notifications that may be touched. Repayments are told by their loan. -/
structure Scope where
  applications : Set ApplicationId := ∅
  payments : Set PaymentId := ∅
  entries : Set Installment := ∅
  loans : Set LoanId := ∅
  repayments : Set LoanId := ∅
  notifications : Set Notification := ∅

/-- The entries of an owner. -/
def Owner.entries (owner : Owner) : Set Installment := {e | e.owner = owner}

/-- What a call may touch in a store: nothing, one row that the store does not have, or what belongs
to the obligation that the call names. -/
inductive EngineCall.Touches (s : Store) : EngineCall → Scope → Prop
  | nothing (call : EngineCall) : Touches s call {}
  | apply (request : ApplicationRequest) {id : ApplicationId}
      (new : s.look (.getApplication id) = .ok none) :
    Touches s (.apply request) { applications := {id} }
  | pay (request : PaymentRequest) {id : PaymentId} (new : s.look (.getPayment id) = .ok none) :
    Touches s (.pay request) { payments := {id}, notifications := {.paymentSettled id} }
  | fileLoan (request : LoanRequest) {id : LoanId} (new : s.look (.getLoan id) = .ok none) :
    Touches s (.fileLoan request) { loans := {id} }
  | decideApplication (id : ApplicationId) :
    Touches s (.decideApplication id) { applications := {id} }
  | deliverPayment (id : PaymentId) (token : String) :
    Touches s (.deliverPayment id token)
      { payments := {id}
        entries := (Owner.payment id).entries
        notifications := {.paymentSettled id} }
  | deliverInstallment (id : InstallmentId) (token : String) :
    Touches s (.deliverInstallment id token)
      { entries := {e | e.id = id}, notifications := {.installmentCollected id} }
  | collect (id : InstallmentId) :
    Touches s (.collect id) { notifications := {.installmentCollected id} }
  | decideLoan (id : LoanId) : Touches s (.decideLoan id) { loans := {id} }
  | activateLoan (id : LoanId) :
    Touches s (.activateLoan id) { loans := {id}, entries := (Owner.loan id).entries }
  | repayLoan (id : LoanId) (request : RepaymentRequest) :
    Touches s (.repayLoan id request)
      { loans := {id}, entries := (Owner.loan id).entries, repayments := {id} }
  | defaultLoan (id : LoanId) :
    Touches s (.defaultLoan id) { loans := {id}, entries := (Owner.loan id).entries }

/-- Whatever is outside of a scope is the same in both books. -/
structure Books.Apart (scope : Scope) (b b' : Books) : Prop where
  applications : ∀ id ∉ scope.applications,
    b'.ledger.applications.get? id = b.ledger.applications.get? id
  payments : ∀ id ∉ scope.payments, b'.ledger.payments.get? id = b.ledger.payments.get? id
  entries : ∀ e ∉ scope.entries,
    e ∈ b'.ledger.installments.values ↔ e ∈ b.ledger.installments.values
  loans : ∀ id ∉ scope.loans, b'.ledger.loans.get? id = b.ledger.loans.get? id
  repayments : ∀ id ∉ scope.repayments,
    (b'.ledger.repayments.values.filter fun r => r.loan = id) =
      b.ledger.repayments.values.filter fun r => r.loan = id
  notifications : ∀ row, row.2 ∉ scope.notifications →
    (row ∈ b'.queue.byDue.rows ↔ row ∈ b.queue.byDue.rows)

theorem Books.Apart.refl (scope : Scope) (b : Books) : b.Apart scope b :=
  ⟨fun _ _ => rfl, fun _ _ => rfl, fun _ _ => .rfl, fun _ _ => rfl, fun _ _ => rfl,
    fun _ _ => .rfl⟩

theorem Books.Apart.of_alike {b b' : Books} (scope : Scope) (h : b.Alike b') :
    b.Apart scope b' where
  applications _ _ := by rw [h.applications]
  payments _ _ := by rw [h.payments]
  entries _ _ := by rw [h.installments]
  loans _ _ := by rw [h.loans]
  repayments _ _ := by rw [h.repayments]
  notifications _ _ := by rw [h.queue]

/-! ## Writes -/

/-- A row that is written under one key leaves the other rows. -/
theorem Table.get?_insert_other {κ α : Type} [DecidableEq κ] [Ord κ] [Std.LawfulEqOrd κ]
    (t : Table κ α) {key : κ} (value : α) :
    ∀ other ∉ ({key} : Set κ), (t.insert key value).get? other = t.get? other := by
  intro other hother
  rw [get?_insert, if_neg]
  exact fun heq => hother heq.symm

namespace Ledger

variable {l : Ledger} {scope : Set Installment}

/-- Entries that get another status leave the other entries. -/
theorem mem_withStatus_other (h : l.Ordered) {status : InstallmentStatus}
    {entries : List Installment} (hmem : ∀ e ∈ entries, e ∈ l.installments.values)
    (hscope : ∀ e ∈ entries, e ∈ scope ∧ { e with status } ∈ scope) :
    ∀ e ∉ scope, e ∈ (insertBatch l.installments (withStatus status entries)).values ↔
      e ∈ l.installments.values := by
  intro e he
  rw [withStatus, insertBatch_restatus h.installments status hmem, values_restatus, List.mem_map]
  constructor
  · rintro ⟨old, hold, rfl⟩
    by_cases hwritten : old ∈ entries
    · rw [if_pos hwritten] at he
      exact absurd (hscope old hwritten).2 he
    · rw [if_neg hwritten]
      exact hold
  · intro hold
    have hnot : e ∉ entries := fun hwritten => he (hscope e hwritten).1
    exact ⟨e, hold, by rw [if_neg hnot]⟩

/-- Entries of one owner that get another status leave the entries of other owners. -/
theorem mem_withStatus_owner (h : l.Ordered) (status : InstallmentStatus)
    {entries : List Installment} {owner : Owner}
    (hmem : ∀ e ∈ entries, e ∈ l.installmentsOf owner) :
    ∀ e ∉ owner.entries, e ∈ (insertBatch l.installments (withStatus status entries)).values ↔
      e ∈ l.installments.values :=
  mem_withStatus_other h (fun e he => (mem_installmentsOf.mp (hmem e he)).1) fun e he =>
    have howner := (mem_installmentsOf.mp (hmem e he)).2
    ⟨howner, howner⟩

/-- A schedule that is written leaves the entries of other owners. -/
theorem Schedules.mem_other {policy : Policy} {o : Obligation} {entries : List Installment}
    {c : Counters} {t : Table InstallmentId Installment} (h : l.Schedules policy o entries c t)
    (hl : l.Sound) : ∀ e ∉ o.owner.entries, e ∈ t.values ↔ e ∈ l.installments.values := by
  obtain ⟨hvalues, hnew, -, -⟩ := h.added hl
  intro e he
  rw [hvalues, List.mem_append, or_iff_left]
  exact fun hentry => he (hnew e hentry)

end Ledger

namespace Queue.Sound

variable {q q' : Queue} {n : Notification} {due : Instant} {row : DueKey × Notification}

/-- A notification that is withdrawn leaves the others where they wait. -/
theorem mem_cancel_other (h : q.Sound) (hrow : row.2 ∉ ({n} : Set Notification)) :
    row ∈ (q.cancel n).2.byDue.rows ↔ row ∈ q.byDue.rows := by
  rw [h.rows_cancel, List.mem_filter, decide_eq_true_eq]
  exact and_iff_left hrow

/-- A notification that is scheduled leaves the others where they wait. -/
theorem mem_schedule_other (h : q.Sound) (hrow : row.2 ∉ ({n} : Set Notification)) :
    row ∈ (q.schedule n due).byDue.rows ↔ row ∈ q.byDue.rows := by
  have hne : row.2 ≠ n := hrow
  rw [(h.perm_schedule n due).mem_iff, List.mem_cons, List.mem_filter, decide_eq_true_eq,
    and_iff_left hne, or_iff_right]
  rintro rfl
  exact hne rfl

/-- The index of a queue is told by what waits in it. -/
theorem lookup_congr (h : q.Sound) (h' : q'.Sound)
    (hrows : ∀ key, (key, n) ∈ q.byDue.rows ↔ (key, n) ∈ q'.byDue.rows) :
    q.index.lookup n = q'.index.lookup n := by
  ext key
  rw [h.index, h'.index]
  exact hrows key

end Queue.Sound

/-! ## Calls -/

section Calls

variable {faults : Faults} {policy : Policy} {b b' : Books} {call : EngineCall} {s : Store}

/-- A call that succeeds stays within its scope. -/
theorem Effect.apart {result : call.Result} (h : Effect policy b call result b')
    (hkeeps : s.Keeps b.ledger) (hsound : b.ledger.Sound) (hqueue : b.queue.Sound) :
    ∃ scope, call.Touches s scope ∧ b.Apart scope b' := by
  have hself := fun scope => Books.Apart.refl scope b
  cases h with
  | unchanged => exact ⟨_, .nothing call, hself _⟩
  | @applied request _ _ _ a _ left new =>
    have hnone : b.ledger.applications.get? a.id = none := by
      rw [new]
      exact hsound.upToApplication.get?_eq_none (lt_succ left)
    have hnew : s.look (.getApplication a.id) = .ok none :=
      (hkeeps.look hsound.toOrdered (.getApplication a.id) rfl).trans (congrArg _ hnone)
    refine ⟨_, .apply request hnew, ?_⟩
    exact { hself _ with applications := Table.get?_insert_other _ a }
  | @decided a =>
    refine ⟨_, .decideApplication a.id, ?_⟩
    exact { hself _ with applications := Table.get?_insert_other _ _ }
  | @paid request _ _ _ _ _ _ p _ _ _ _ left _ new =>
    have hnone : b.ledger.payments.get? p.id = none := by
      rw [new]
      exact hsound.upToPayment.get?_eq_none (lt_succ left)
    have hnew : s.look (.getPayment p.id) = .ok none :=
      (hkeeps.look hsound.toOrdered (.getPayment p.id) rfl).trans (congrArg _ hnone)
    refine ⟨_, .pay request hnew, ?_⟩
    exact { hself _ with
      payments := Table.get?_insert_other _ p
      notifications := fun _ => hqueue.mem_schedule_other }
  | @settled token p p' _ _ _ _ _ _ _ _ _ _ new written =>
    have howner : (Obligation.payment p').owner = .payment p.id := by rw [new]; rfl
    refine ⟨_, .deliverPayment p.id token, ?_⟩
    exact { hself _ with
      payments := Table.get?_insert_other _ p'
      entries := howner ▸ written.mem_other hsound
      notifications := fun _ => hqueue.mem_cancel_other }
  | @paymentFailed token p =>
    refine ⟨_, .deliverPayment p.id token, ?_⟩
    exact { hself _ with
      payments := Table.get?_insert_other _ _
      notifications := fun _ => hqueue.mem_cancel_other }
  | @collected token entry next _ known =>
    have hmem : ∀ e ∈ [entry], e ∈ b.ledger.installments.values := fun e he => by
      rw [List.mem_singleton.mp he]
      exact hsound.installments.mem_values.mpr known
    have hscope : ∀ e ∈ [entry], e ∈ {e : Installment | e.id = entry.id} ∧
        { e with status := next } ∈ {e : Installment | e.id = entry.id} := fun e he => by
      rw [List.mem_singleton.mp he]
      exact ⟨rfl, rfl⟩
    refine ⟨_, .deliverInstallment entry.id token, ?_⟩
    exact { hself _ with
      entries := Ledger.mem_withStatus_other hsound.toOrdered hmem hscope
      notifications := fun _ => hqueue.mem_cancel_other }
  | @collectionAsked entry =>
    refine ⟨_, .collect entry.id, ?_⟩
    exact { hself _ with notifications := fun _ => hqueue.mem_schedule_other }
  | @filed request _ _ _ loan _ left new =>
    have hnone : b.ledger.loans.get? loan.id = none := by
      rw [new]
      exact hsound.upToLoan.get?_eq_none (lt_succ left)
    have hnew : s.look (.getLoan loan.id) = .ok none :=
      (hkeeps.look hsound.toOrdered (.getLoan loan.id) rfl).trans (congrArg _ hnone)
    refine ⟨_, .fileLoan request hnew, ?_⟩
    exact { hself _ with loans := Table.get?_insert_other _ loan }
  | @loanDecided loan =>
    refine ⟨_, .decideLoan loan.id, ?_⟩
    exact { hself _ with loans := Table.get?_insert_other _ _ }
  | @activated loan started loan' _ _ _ _ _ _ start written =>
    have howner : (Obligation.loan started).owner = .loan loan.id := by rw [start]; rfl
    refine ⟨_, .activateLoan loan.id, ?_⟩
    exact { hself _ with
      entries := howner ▸ written.mem_other hsound
      loans := Table.get?_insert_other _ loan' }
  | @repaid loan request amount _ schedule r _ _ _ _ _ owed left new =>
    have hlast : b.ledger.counters.repayment < r.id.value := by
      rw [new]
      exact lt_succ left
    have hrepayments : ∀ id ∉ ({loan.id} : Set LoanId),
        ((b.ledger.repayments.insert r.id r).values.filter fun r => r.loan = id) =
          b.ledger.repayments.values.filter fun r => r.loan = id := by
      intro id hid
      have hother : r.loan ≠ id := by
        rw [new]
        exact fun heq => hid heq.symm
      rw [Table.values_insert_last hsound.upToRepayment hlast, List.filter_append]
      simp [hother]
    refine ⟨_, .repayLoan loan.id request, ?_⟩
    exact { hself _ with
      entries := Ledger.mem_withStatus_owner hsound.toOrdered .paid fun e he =>
        owed ▸ (Engine.mem_coveredEntries he).1
      loans := Table.get?_insert_other _ _
      repayments := hrepayments }
  | @defaulted loan =>
    refine ⟨_, .defaultLoan loan.id, ?_⟩
    exact { hself _ with
      entries := Ledger.mem_withStatus_owner hsound.toOrdered .failed fun e he =>
        (Engine.mem_pendingEntries he).1
      loans := Table.get?_insert_other _ _ }
  | @defaultedAgain loan =>
    refine ⟨_, .defaultLoan loan.id, ?_⟩
    exact { hself _ with
      entries := Ledger.mem_withStatus_owner hsound.toOrdered .failed fun e he =>
        (Engine.mem_pendingEntries he).1 }

/-- A call that fails stays within its scope, even if it could not undo what it had written. -/
theorem Remnant.apart (h : Remnant faults policy b call b') (hsound : b.ledger.Sound) :
    ∃ scope, call.Touches s scope ∧ b.Apart scope b' := by
  have hself := fun scope => Books.Apart.refl scope b
  cases h with
  | nothing alike => exact ⟨_, .nothing call, .of_alike _ alike⟩
  | @settling token p _ _ _ _ _ _ _ written =>
    refine ⟨_, .deliverPayment p.id token, ?_⟩
    exact { hself _ with entries := written.mem_other hsound }
  | @activating loan _ _ _ _ _ _ _ written =>
    refine ⟨_, .activateLoan loan.id, ?_⟩
    exact { hself _ with entries := written.mem_other hsound }
  | @repaying loan request =>
    refine ⟨_, .repayLoan loan.id request, ?_⟩
    exact { hself _ with
      entries := Ledger.mem_withStatus_owner hsound.toOrdered .paid fun e he =>
        (Engine.mem_coveredEntries he).1 }
  | @defaulting loan =>
    refine ⟨_, .defaultLoan loan.id, ?_⟩
    exact { hself _ with
      entries := Ledger.mem_withStatus_owner hsound.toOrdered .failed fun e he =>
        (Engine.mem_pendingEntries he).1 }

/-- Every step keeps the two orders of the queue together. -/
theorem queueSound_invariant (faults : Faults) (policy : Policy) :
    Books.Invariant faults policy fun b => b.queue.Sound := by
  intro b b' _ hb hstep
  cases hstep with
  | taken now => exact (hb.takeDue now).1
  | withdrawn n => exact (hb.cancel n).1
  | remnant remnant =>
    cases remnant with
    | nothing alike =>
      rw [alike.queue]
      exact hb
    | settling | activating | repaying | defaulting => exact hb
  | effect effect =>
    cases effect with
    | paid | collectionAsked => exact (hb.schedule _ _).1
    | settled | paymentFailed | collected => exact (hb.cancel _).1
    | unchanged | applied | decided | filed | loanDecided | activated | repaid | defaulted
    | defaultedAgain => exact hb

/-- However a call ends, it stayed within its scope. -/
theorem EngineCall.always_apart (hkeeps : s.Keeps b.ledger) (hsound : b.ledger.Sound)
    (hqueue : b.queue.Sound) (policy : Policy) (call : EngineCall) (limit : Deadline) :
    (call.program policy limit).run.Always faults
      (fun _ b' => b'.queue.Sound ∧ ∃ scope, call.Touches s scope ∧ b.Apart scope b') b := by
  have hkept := queueSound_invariant faults policy
  refine Program.Always.mono ?_ (call.ensures hsound limit)
  rintro (_ | cause | result) b' hend
  · exact ⟨hkept hsound hqueue (.remnant hend), hend.apart hsound⟩
  · exact ⟨hkept hsound hqueue (.remnant hend), hend.apart hsound⟩
  · exact ⟨hkept hsound hqueue (.effect hend), hend.apart hkeeps hsound hqueue⟩

end Calls

/-! ## Worlds -/

/-- Whatever is outside of a scope is the same before and after: every row of the store, as a
look-up finds it, and every notification with the place where it waits. -/
structure World.Apart (scope : Scope) (w w' : World) : Prop where
  applications : ∀ id ∉ scope.applications, w.store.Compare w'.store (.getApplication id) Eq
  payments : ∀ id ∉ scope.payments, w.store.Compare w'.store (.getPayment id) Eq
  entries : ∀ id, w.store.Compare w'.store (.getInstallment id) fun before after =>
    ∀ e ∉ scope.entries, e ∈ before ↔ e ∈ after
  loans : ∀ id ∉ scope.loans, w.store.Compare w'.store (.getLoan id) Eq
  repayments : ∀ id ∉ scope.repayments, w.store.Compare w'.store (.repaymentsOf id) Eq
  notifications : ∀ row, row.2 ∉ scope.notifications →
    (row ∈ w.queue.byDue.rows ↔ row ∈ w'.queue.byDue.rows)
  places : ∀ n ∉ scope.notifications, w.queue.index.lookup n = w'.queue.index.lookup n

namespace World

variable {faults : Faults} {policy : Policy} {w w' : World} {b b' : Books}

theorem Shows.apart {scope : Scope} (hapart : b.Apart scope b') (h : w.Shows b) (h' : w'.Shows b')
    (hsound : b.ledger.Sound) (hsound' : b'.ledger.Sound) (hqueue : b.queue.Sound)
    (hqueue' : b'.queue.Sound) : w.Apart scope w' where
  applications id hid :=
    ⟨_, _, h.1.look hsound.toOrdered _ rfl, h'.1.look hsound'.toOrdered _ rfl,
      (hapart.applications id hid).symm⟩
  payments id hid :=
    ⟨_, _, h.1.look hsound.toOrdered _ rfl, h'.1.look hsound'.toOrdered _ rfl,
      (hapart.payments id hid).symm⟩
  entries id := by
    refine ⟨_, _, h.1.look hsound.toOrdered _ rfl, h'.1.look hsound'.toOrdered _ rfl, ?_⟩
    intro e he
    have hsame := hapart.entries e he
    rw [hsound.installments.mem_values, hsound'.installments.mem_values] at hsame
    constructor
    · intro hfound
      obtain rfl := hsound.installments.id_of_get? hfound
      exact hsame.mpr hfound
    · intro hfound
      obtain rfl := hsound'.installments.id_of_get? hfound
      exact hsame.mp hfound
  loans id hid :=
    ⟨_, _, h.1.look hsound.toOrdered _ rfl, h'.1.look hsound'.toOrdered _ rfl,
      (hapart.loans id hid).symm⟩
  repayments id hid :=
    ⟨_, _, h.1.look hsound.toOrdered _ rfl, h'.1.look hsound'.toOrdered _ rfl,
      (hapart.repayments id hid).symm⟩
  notifications row hrow := by
    rw [h.2, h'.2]
    exact (hapart.notifications row hrow).symm
  places n hn := by
    rw [h.2, h'.2]
    exact hqueue.lookup_congr hqueue' fun key => (hapart.notifications (key, n) hn).symm

/-- A call stays within one of its scopes. -/
theorem Shows.staysWithin (hshows : w.Shows b) (hsound : b.ledger.Sound) (hqueue : b.queue.Sound)
    {policy : Policy} {call : EngineCall} {limit : Deadline}
    {result : Option (Except Failure call.Result)}
    (hruns : w.Runs faults (call.program policy limit).run result w') :
    ∃ scope, call.Touches w.store scope ∧ w.Apart scope w' := by
  obtain ⟨b', hshows', hsound', hqueue', scope, htouches, hapart⟩ :=
    hruns.shows (call.always_apart hshows.1 hsound hqueue policy limit) hshows hsound
  exact ⟨scope, htouches, hshows.apart hapart hshows' hsound hsound' hqueue hqueue'⟩

/-- A delivery of a drain stays within a scope of the call that it is. -/
theorem Shows.delivery_staysWithin (hshows : w.Shows b) (hsound : b.ledger.Sound)
    (hqueue : b.queue.Sound) {ds : List Delivery} (hdrains : w.Drains Faults.any policy ds w')
    {d : Delivery} (hd : d ∈ ds) :
    ∃ scope, d.notification.call.Touches d.before.store scope ∧ d.before.Apart scope d.after := by
  obtain ⟨b', hshows', hsound', hqueue'⟩ :=
    hdrains.mem_books (queueSound_invariant Faults.any policy) hshows hsound hqueue hd
  obtain ⟨result, hcall, -⟩ := runs_deliver (hdrains.mem_runs hd)
  exact hshows'.staysWithin hsound' hqueue' hcall

end World

/-- Every call, and every delivery in a drain of the queue, touches only the rows and notifications
in one of its scopes, whether it succeeds, fails or crashes and however time goes by, in all states
that engines come to. -/
theorem History.staysApart {policy : Policy} {w : World} (h : History Faults.any policy w) :
    (∀ (call : EngineCall) (limit : Deadline) result w',
      w.Runs Faults.any (call.program policy limit).run result w' →
        ∃ scope, call.Touches w.store scope ∧ w.Apart scope w') ∧
    (∀ outcomes w', w.Runs Faults.any (Engine.runDue policy) outcomes w' ↔
      ∃ ds, w.Drains Faults.any policy ds w' ∧ outcomes = Delivery.outcomes ds) ∧
    ∀ ds w', w.Drains Faults.any policy ds w' → ∀ d ∈ ds,
      ∃ scope, d.notification.call.Touches d.before.store scope ∧
        d.before.Apart scope d.after := by
  obtain ⟨b, hshows, hsound, hqueue⟩ := h.books (queueSound_invariant Faults.any)
    Queue.sound_empty fun _ => Queue.sound_empty
  refine ⟨?_, fun _ _ => World.runs_runDue, ?_⟩
  · intro call limit result w' hruns
    exact hshows.staysWithin hsound hqueue hruns
  · intro ds w' hdrains d hd
    exact hshows.delivery_staysWithin hsound hqueue hdrains hd

/-- A payment and a loan have the same number, and both have a schedule. When the loan is given up,
its row cannot be written and the entries that failed cannot be put back; the entries of the payment
stay as they are. -/
theorem World.halfDone_staysApart :
    let refusing := { halfDone with
      outages := (halfDone.outages.set .updateLoan 0 1 .refusal).set .updateBatch 1 1 .refusal }
    let defaulting := ((EngineCall.defaultLoan ⟨1⟩).program {} .unbounded).run
    refusing.Runs Faults.any defaulting (some (.error (.storage .outage)))
      (refusing.after defaulting) ∧
    ([.payment ⟨1⟩, .loan ⟨1⟩].map fun owner =>
      ((refusing.after defaulting).store.look (.installmentsOf owner)).map fun all =>
        all.map Installment.status) =
      [.ok [.paid, .pending, .pending], .ok [.paid, .failed, .failed, .failed]] ∧
    ∃ scope, (EngineCall.defaultLoan ⟨1⟩).Touches refusing.store scope ∧
      refusing.Apart scope (refusing.after defaulting) := by
  intro refusing defaulting
  have hreached : Reached Faults.any {} refusing :=
    .move (Reached.afterCalls (.start ⟨.inl rfl, rfl⟩) (by decide +kernel)) (.surroundings rfl rfl)
  have hruns : refusing.Runs Faults.any defaulting (some (.error (.storage .outage))) _ :=
    Follows.runsTo (by decide +kernel) (by decide +kernel)
  exact ⟨hruns, by decide +kernel, (History.staysApart hreached.history).1 _ _ _ _ hruns⟩

end Lending
