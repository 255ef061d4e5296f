import Lending.Proofs.Engine.Agenda
import Lending.Proofs.Engine.Debts
import Lending.Proofs.Engine.FirstWrite
import Lending.Proofs.Engine.Unhindered

/-!
# Stale notifications

Payments and deliveries at work at once. A payment can be named by a delivery as soon as it is
recorded, while the call that records it has not scheduled its settlement yet: that call holds the
lock of the application, and a delivery that fails the payment holds only the lock of the payment.
If the delivery gets to withdraw the notification first, there is nothing to withdraw, and the
notification that is scheduled after it is for a payment that has an outcome already.

* `World.Stale`: a notification waits for a payment that has an outcome.
* `Workload.Overtakes`: a withdrawal that comes before what it was to withdraw.
* `Debt.InOrder`, `Debt.Overdue`: how the rows, the queue and the debts of all tasks agree before
  and after that.
* `Workload.stale_iff_overtaken`: when all tasks have ended, a notification is stale exactly if its
  withdrawal came too early.
-/

namespace Lending

/-! ## Payments that are decided -/

namespace Queue

theorem isPending_cancel (q : Queue) (n m : Notification) :
    (q.cancel n).2.isPending m = (decide (m ≠ n) && q.isPending m) := by
  rw [isPending, Sound.index_cancel, lookup_filter fun m => decide (m ≠ n)]
  by_cases h : m = n <;> simp [h, isPending]

theorem isPending_schedule (q : Queue) (n m : Notification) (due : Instant) :
    (q.schedule n due).isPending m = (decide (m = n) || q.isPending m) := by
  have hcancel := q.isPending_cancel n m
  rw [isPending] at hcancel
  rw [isPending, Sound.schedule_eq, List.lookup_cons]
  by_cases h : m = n
  · simp [h]
  · have hne : (m == n) = false := by simpa using h
    simp only [hne, hcancel]
    simp [h]

theorem isPending_of_takeDue {q : Queue} {now : Instant} {n : Notification}
    (h : (q.takeDue now).2.isPending n = true) : q.isPending n = true := by
  have hlookup : (q.takeDue now).2.index.lookup n =
      if !(q.takeDue now).1.contains n then q.index.lookup n else none :=
    lookup_filter (fun n => !(q.takeDue now).1.contains n) q.index n
  rw [isPending, hlookup] at h
  split at h
  · exact h
  · cases h

end Queue

namespace Ledger

variable {l l' : Ledger} {id : PaymentId}

theorem concluded_congr (hpayments : l'.payments = l.payments) :
    l'.Concluded id ↔ l.Concluded id := by
  rw [Concluded, Concluded, hpayments]

/-- A row that is written is concluded if its status says so. -/
theorem concluded_insert {key : PaymentId} {p : Payment}
    (hpayments : l'.payments = l.payments.insert key p) :
    l'.Concluded id ↔ if id = key then p.status ≠ .pending else l.Concluded id := by
  rw [Concluded, hpayments]
  by_cases hid : id = key
  · subst hid
    simp [Table.get?_insert]
  · have hne : key ≠ id := fun heq => hid heq.symm
    simp [Table.get?_insert, hid, hne, Concluded]

/-- Payments are changed by those calls alone that record one. -/
theorem payments_answer {call : StoreCall} {result : call.Result}
    (h : l.answer call = .ok (result, l')) (hcreate : ∀ p, call ≠ .createPayment p)
    (hupdate : ∀ p, call ≠ .updatePayment p) : l'.payments = l.payments := by
  cases call with
  | createPayment p => exact absurd rfl (hcreate p)
  | updatePayment p => exact absurd rfl (hupdate p)
  | updateApplication _ | updateInstallment _ | updateLoan _ =>
    obtain ⟨-, rfl⟩ := update_ok.mp h
    rfl
  | createBatch _ =>
    obtain ⟨_, -, -, -, rfl⟩ := createBatch_ok.mp h
    rfl
  | updateBatch _ =>
    obtain ⟨-, rfl⟩ := updateBatch_ok.mp h
    rfl
  | recordRepayment _ _ =>
    obtain ⟨-, -, rfl⟩ := recordRepayment_ok.mp h
    rfl
  | _ =>
    obtain ⟨-, rfl⟩ := Prod.mk.inj (Except.ok.inj h)
    rfl

end Ledger

/-- The payment has an outcome. -/
def World.Decided (w : World) (id : PaymentId) : Prop :=
  ∃ p, w.store.look (.getPayment id) = .ok (some p) ∧ p.status ≠ .pending

/-- The settlement of a payment waits that has an outcome. -/
def World.Stale (w : World) (id : PaymentId) : Prop :=
  w.Decided id ∧ w.queue.isPending (.paymentSettled id) = true

instance (w : World) (id : PaymentId) : Decidable (w.Decided id) :=
  match h : w.store.look (.getPayment id) with
  | .ok (some p) => decidable_of_iff (p.status ≠ .pending) (by simp [World.Decided, h])
  | .ok none => isFalse (by simp [World.Decided, h])
  | .error _ => isFalse (by simp [World.Decided, h])

instance (w : World) (id : PaymentId) : Decidable (w.Stale id) :=
  inferInstanceAs (Decidable (_ ∧ _))

theorem World.Shows.decided_iff {w : World} {b : Books} (h : w.Shows b) (hb : b.ledger.Sound)
    (id : PaymentId) : w.Decided id ↔ b.ledger.Concluded id := by
  have hlook : w.store.look (.getPayment id) = .ok (b.ledger.payments.get? id) :=
    h.1.look hb.toOrdered (.getPayment id) rfl
  rw [Decided, hlook]
  exact exists_congr fun p => and_congr_left fun _ => ⟨Except.ok.inj, congrArg _⟩

/-- What calls keep that are made one after another: what waits to be settled has no outcome. -/
theorem noneStale_invariant (faults : Faults) (policy : Policy) :
    Books.Invariant faults policy fun b => ∀ id,
      b.queue.isPending (.paymentSettled id) = true → ¬b.ledger.Concluded id := by
  intro b b' _ hb hstep id
  cases hstep with
  | taken now => exact fun h => hb id (Queue.isPending_of_takeDue h)
  | withdrawn n =>
    rw [Queue.isPending_cancel, Bool.and_eq_true]
    exact fun h => hb id h.2
  | remnant remnant =>
    cases remnant with
    | nothing alike =>
      rw [alike.queue, Ledger.concluded_congr alike.payments]
      exact hb id
    | settling | activating | repaying | defaulting => exact hb id
  | effect effect =>
    cases effect with
    | unchanged | applied | decided | filed | loanDecided | activated | repaid | defaulted
    | defaultedAgain => exact hb id
    | collectionAsked =>
      rw [Queue.isPending_schedule]
      simpa using hb id
    | collected =>
      rw [Queue.isPending_cancel, Bool.and_eq_true]
      exact fun h => hb id h.2
    | @paid _ _ _ _ _ _ _ p _ _ _ _ _ _ new =>
      have hpending : p.status = .pending := by rw [new]
      rw [Queue.isPending_schedule, Ledger.concluded_insert rfl]
      by_cases hid : id = p.id
      · simp [hid, hpending]
      · simpa [hid] using hb id
    | @settled _ p | @paymentFailed _ p =>
      rw [Queue.isPending_cancel, Ledger.concluded_insert rfl]
      by_cases hid : id = p.id
      · simp [hid]
      · simpa [hid] using hb id

/-! ## Debts and the queue -/

/-- What the answer to a request of a task means for a payment, and for what the task owes. -/
inductive Debt.Turn (id : PaymentId) (w w' : World) : Request → Debt → Debt → Prop
  | other {request : Request} {d d' : Debt} (decided : w'.Decided id ↔ w.Decided id)
      (waiting : w'.queue.isPending (.paymentSettled id) =
        w.queue.isPending (.paymentSettled id))
      (schedule : d' = .schedule id ↔ d = .schedule id)
      (withdraw : d' = .withdraw id ↔ d = .withdraw id) : Turn id w w' request d d'
  /-- The payment is recorded. -/
  | recorded {p : Payment} (before : ¬w.Decided id) (after : ¬w'.Decided id)
      (waiting : w'.queue = w.queue) :
    Turn id w w' (.store (.createPayment p)) .nothing (.schedule id)
  /-- The payment gets its outcome. -/
  | decided {p : Payment} (before : ¬w.Decided id) (after : w'.Decided id)
      (waiting : w'.queue = w.queue) :
    Turn id w w' (.store (.updatePayment p)) .nothing (.withdraw id)
  | scheduled {due : Instant} (decided : w'.Decided id ↔ w.Decided id)
      (waiting : w'.queue.isPending (.paymentSettled id) = true) :
    Turn id w w' (.schedule (.paymentSettled id) due) (.schedule id) .nothing
  | withdrawn (decided : w'.Decided id ↔ w.Decided id)
      (waiting : w'.queue.isPending (.paymentSettled id) = false) :
    Turn id w w' (.cancel (.paymentSettled id)) (.withdraw id) .nothing

/-- One debt to withdraw the notification for the payment is left at most, and only once the payment
has an outcome. If it has one, whatever waits or is about to be scheduled will be withdrawn. -/
structure Debt.InOrder (id : PaymentId) (w : World) (debts : List Debt) : Prop where
  once : debts.count (.withdraw id) ≤ 1
  decided : .withdraw id ∈ debts → w.Decided id
  withdrawn : w.Decided id →
    w.queue.isPending (.paymentSettled id) = true ∨ .schedule id ∈ debts → .withdraw id ∈ debts

/-- The payment has an outcome, but its notification waits or is about to be scheduled, and nothing
will withdraw it. -/
structure Debt.Overdue (id : PaymentId) (w : World) (debts : List Debt) : Prop where
  decided : w.Decided id
  stale : w.queue.isPending (.paymentSettled id) = true ∨ .schedule id ∈ debts
  forgotten : .withdraw id ∉ debts

namespace Debt

variable {id : PaymentId} {w w' : World} {request : Request} {d d' : Debt}
  {earlier later : List Debt}

/-- What is overdue stays so. -/
theorem Overdue.turn (h : Overdue id w (earlier ++ d :: later))
    (hturn : Turn id w w' request d d') : Overdue id w' (earlier ++ d' :: later) := by
  obtain ⟨hdecided, hstale, hforgotten⟩ := h
  simp only [List.mem_append, List.mem_cons, not_or] at hstale hforgotten
  cases hturn with
  | other decided waiting schedule withdraw =>
    refine ⟨decided.mpr hdecided, ?_, ?_⟩
    · simpa only [waiting, List.mem_append, List.mem_cons, eq_comm, schedule] using hstale
    · simpa only [List.mem_append, List.mem_cons, not_or, eq_comm, withdraw] using hforgotten
  | recorded before | decided before => exact absurd hdecided before
  | scheduled decided waiting =>
    refine ⟨decided.mpr hdecided, .inl waiting, ?_⟩
    simpa using ⟨hforgotten.1, hforgotten.2.2⟩
  | withdrawn => exact absurd rfl hforgotten.2.1

/-- Once the notification is withdrawn, nobody owes that any more. -/
theorem InOrder.forgotten (h : InOrder id w (earlier ++ .withdraw id :: later)) :
    .withdraw id ∉ earlier ++ .nothing :: later := by
  have honce := h.once
  simp only [List.count_append, List.count_cons, beq_self_eq_true, if_true] at honce
  have hnone : .withdraw id ∉ earlier ∧ .withdraw id ∉ later := by
    constructor <;> refine List.count_eq_zero.mp ?_ <;> omega
  simp [hnone]

/-- A turn leaves the debts in order, unless it withdraws what was not scheduled yet. -/
theorem InOrder.turn (h : InOrder id w (earlier ++ d :: later))
    (hturn : Turn id w w' request d d') :
    InOrder id w' (earlier ++ d' :: later) ∨
      request = .cancel (.paymentSettled id) ∧ .schedule id ∈ earlier ++ later ∧
        Overdue id w' (earlier ++ d' :: later) := by
  have hforgotten := fun hd : d = .withdraw id => InOrder.forgotten (hd ▸ h)
  obtain ⟨honce, hdecided, hwithdrawn⟩ := h
  simp only [List.mem_append, List.mem_cons] at hdecided hwithdrawn
  rw [List.count_append, List.count_cons] at honce
  cases hturn with
  | other decided waiting schedule withdraw =>
    have hcount : (d' == .withdraw id) = (d == .withdraw id) := by
      rw [Bool.eq_iff_iff, beq_iff_eq, beq_iff_eq, withdraw]
    refine .inl ⟨?_, ?_, ?_⟩
    · rwa [List.count_append, List.count_cons, hcount]
    · simpa only [List.mem_append, List.mem_cons, eq_comm, withdraw, decided] using hdecided
    · simpa only [List.mem_append, List.mem_cons, eq_comm, withdraw, schedule, decided, waiting]
        using hwithdrawn
  | recorded before after waiting =>
    refine .inl ⟨?_, ?_, fun hafter => absurd hafter after⟩
    · simpa [List.count_append, List.count_cons] using honce
    · intro hmem
      have hold : .withdraw id ∈ earlier ∨ .withdraw id ∈ later := by simpa using hmem
      exact absurd (hdecided (hold.imp_right .inr)) before
  | decided before after waiting =>
    -- there was no debt to withdraw it yet
    have hearlier : .withdraw id ∉ earlier := fun hmem => before (hdecided (.inl hmem))
    have hlater : .withdraw id ∉ later := fun hmem => before (hdecided (.inr (.inr hmem)))
    refine .inl ⟨?_, fun _ => after, fun _ _ => by simp⟩
    simp [List.count_append, List.count_eq_zero_of_not_mem, hearlier, hlater]
  | scheduled decided waiting =>
    have hmem : .withdraw id ∈ earlier ++ .nothing :: later ↔
        .withdraw id ∈ earlier ∨ .withdraw id = Debt.schedule id ∨ .withdraw id ∈ later := by simp
    refine .inl ⟨?_, ?_, ?_⟩
    · simpa [List.count_append, List.count_cons] using honce
    · rw [hmem, decided]
      exact hdecided
    · rw [hmem, decided]
      exact fun hafter _ => hwithdrawn hafter (.inr (.inr (.inl rfl)))
  | withdrawn decided waiting =>
    replace hforgotten := hforgotten rfl
    by_cases howed : .schedule id ∈ earlier ++ later
    · refine .inr ⟨rfl, howed, decided.mpr (hdecided (.inr (.inl rfl))), .inr ?_, hforgotten⟩
      simpa using howed
    · refine .inl ⟨?_, fun hmem => absurd hmem hforgotten, ?_⟩
      · rw [List.count_eq_zero_of_not_mem hforgotten]
        exact Nat.zero_le 1
      · rintro - (hwaits | hmem)
        · rw [waiting] at hwaits
          cases hwaits
        · exact absurd (by simpa using hmem) howed

end Debt

/-! ## One request -/

theorem Debt.after_error (d : Debt) (call : StoreCall) (cause : Failure) :
    d.after (.store call) (.error cause) = d ∧
      Conduct.debts.leads d (.store call) (.error cause) d := by
  cases call <;> exact ⟨rfl, rfl⟩

section Turns

variable {faults : Faults} {used : Tiers → Prop} {held : List LockKey} {w w' : World} {b : Books}
  {d : Debt}

/-- A store call that succeeds, of a task that keeps to the rules. -/
theorem Ledger.Sound.turn {call : StoreCall} {result : call.Result} {l l' : Ledger}
    (hl : l.Sound) (hmay : Conduct.debts.may d (.store call))
    (hanswer : l.answer call = .ok (result, l')) (hwrites : l.Writes held call l')
    (hdecided : ∀ id, w.Decided id ↔ l.Concluded id)
    (hdecided' : ∀ id, w'.Decided id ↔ l'.Concluded id) (hqueue : w'.queue = w.queue) :
    Conduct.debts.leads d (.store call) (.ok result) (d.after (.store call) (.ok result)) ∧
      ∀ id, Debt.Turn id w w' (.store call) d (d.after (.store call) (.ok result)) := by
  have hother : ∀ {d' : Debt} {id : PaymentId}, (l'.Concluded id ↔ l.Concluded id) →
      (d' = .schedule id ↔ d = .schedule id) → (d' = .withdraw id ↔ d = .withdraw id) →
      Debt.Turn id w w' (.store call) d d' := by
    intro d' id hconcluded
    exact .other ((hdecided' id).trans (hconcluded.trans (hdecided id).symm)) (by rw [hqueue])
  cases call with
  | createPayment p =>
    obtain ⟨-, hresult, hafter⟩ := createPayment_ok.mp hanswer
    cases d with
    | schedule _ =>
      obtain ⟨_, ⟨⟩⟩ := hmay
    | withdraw _ =>
      obtain ⟨⟨⟩, -⟩ := hmay
    | nothing =>
      refine ⟨rfl, fun id => ?_⟩
      have hpayments : l'.payments = l.payments.insert result.id result := by
        rw [hafter, hresult]
      have hpending : result.status = .pending := by
        rw [hresult]
        exact hmay.2
      by_cases hid : id = result.id
      · have hnot : ¬l'.Concluded id := by
          rw [concluded_insert hpayments, if_pos hid]
          exact not_not.mpr hpending
        have hbefore : ¬l.Concluded id := fun h => hnot (hwrites.concluded id h)
        subst hid
        exact .recorded ((hdecided _).not.mpr hbefore) ((hdecided' _).not.mpr hnot) hqueue
      · refine hother ?_ ?_ ?_
        · rw [concluded_insert hpayments, if_neg hid]
        · simpa [Debt.after] using fun h => hid h.symm
        · simp [Debt.after]
  | updatePayment p =>
    obtain ⟨-, hafter⟩ := update_ok.mp hanswer
    cases d with
    | schedule _ =>
      obtain ⟨_, ⟨⟩⟩ := hmay
    | withdraw _ => cases hmay
    | nothing =>
      refine ⟨rfl, fun id => ?_⟩
      have hpayments : l'.payments = l.payments.insert p.id p := by rw [hafter]
      by_cases hid : id = p.id
      · subst hid
        obtain ⟨hbefore, hnow⟩ := hwrites.concludes p.id List.mem_cons_self
        exact .decided ((hdecided _).not.mpr hbefore) ((hdecided' _).mpr hnow) hqueue
      · refine hother ?_ ?_ ?_
        · rw [concluded_insert hpayments, if_neg hid]
        · simp [Debt.after]
        · simpa [Debt.after] using fun h => hid h.symm
  | getPayment id' =>
    obtain ⟨rfl, rfl⟩ := Prod.mk.inj (Except.ok.inj hanswer)
    refine ⟨?_, fun id => hother Iff.rfl Iff.rfl Iff.rfl⟩
    cases hget : l.payments.get? id' with
    | none => rfl
    | some p => exact ⟨hl.payments.id_of_get? hget, rfl⟩
  | _ =>
    have hpayments := payments_answer hanswer (by simp) (by simp)
    exact ⟨rfl, fun id => hother (concluded_congr hpayments) Iff.rfl Iff.rfl⟩

/-- One request of a task that keeps to the rules. Its writes respect the locks of the others, so
that no outcome is written over another. -/
theorem World.Steady.turn {request : Request} {answer : request.Answer} (hw : w.Steady used b)
    (hmay : Conduct.debts.may d request)
    (hwrites : ∀ call (result : call.Result) l', request = .store call →
      b.ledger.counters.Left call → b.ledger.answer call = .ok (result, l') →
      ∃ held, b.ledger.Writes held call l')
    (hgrants : w.Grants faults request) (hserves : w.Serves request answer w') :
    Conduct.debts.leads d request answer (d.after request answer) ∧
      ∀ id, Debt.Turn id w w' request d (d.after request answer) := by
  cases hserves with
  | granted _ | late _ => exact ⟨rfl, fun id => .other Iff.rfl rfl Iff.rfl Iff.rfl⟩
  | answered ready answers =>
    obtain ⟨b', hreacts, hshows⟩ := World.answer_reacts hw.shows hw.sound hgrants
    rw [answers] at hreacts hshows
    have hdecided := hw.shows.decided_iff hw.sound
    have hdecided' := hshows.decided_iff (hreacts.sound hw.sound)
    -- the rows and the queue are as before
    have hsame : b' = b → ∀ id, Debt.Turn id w w' request d d := by
      rintro rfl id
      refine .other ((hdecided' id).trans (hdecided id).symm) ?_ Iff.rfl Iff.rfl
      rw [hshows.2, hw.shows.2]
    cases request with
    | acquire key limit => cases ready
    | store call =>
      rcases hreacts with ⟨-, hanswer, hb⟩ | ⟨-, hanswer, -⟩ | ⟨cause, -, hanswer, hb⟩ |
        ⟨result, ledger, hleft, hr, hanswer, rfl⟩
      · obtain rfl := Option.some.inj hanswer
        obtain ⟨hafter, hleads⟩ := d.after_error call (.storage .outage)
        rw [hafter]
        exact ⟨hleads, hsame hb⟩
      · cases hanswer
      · obtain rfl := Option.some.inj hanswer
        obtain ⟨hafter, hleads⟩ := d.after_error call cause
        rw [hafter]
        exact ⟨hleads, hsame hb⟩
      · obtain rfl := Option.some.inj hanswer
        obtain ⟨held, hwrites⟩ := hwrites call result ledger rfl hleft hr
        exact hw.sound.turn hmay hr hwrites hdecided hdecided' (hshows.2.trans hw.shows.2.symm)
    | schedule n due =>
      obtain ⟨-, rfl⟩ := hreacts
      have hqueue : ∀ m, w'.queue.isPending m = (decide (m = n) || w.queue.isPending m) := by
        intro m
        rw [hshows.2, hw.shows.2]
        exact b.queue.isPending_schedule n m due
      have hdecides : ∀ id, w'.Decided id ↔ w.Decided id := fun id =>
        (hdecided' id).trans (hdecided id).symm
      cases n with
      | installmentCollected _ =>
        exact ⟨rfl, fun id => .other (hdecides id) (by simp [hqueue]) Iff.rfl Iff.rfl⟩
      | paymentSettled m =>
        cases d with
        | nothing | withdraw _ => exact hmay.elim
        | schedule m' =>
          obtain ⟨_, ⟨⟩⟩ := hmay
          refine ⟨rfl, fun id => ?_⟩
          by_cases hid : id = m
          · subst hid
            exact .scheduled (hdecides id) (by simp [hqueue])
          · refine .other (hdecides id) (by simp [hqueue, hid]) ?_ ?_
            · simpa [Debt.after] using fun h => hid h.symm
            · simp [Debt.after]
    | cancel n =>
      obtain ⟨-, rfl⟩ := hreacts
      have hqueue : ∀ m, w'.queue.isPending m = (decide (m ≠ n) && w.queue.isPending m) := by
        intro m
        rw [hshows.2, hw.shows.2]
        exact b.queue.isPending_cancel n m
      have hdecides : ∀ id, w'.Decided id ↔ w.Decided id := fun id =>
        (hdecided' id).trans (hdecided id).symm
      cases n with
      | installmentCollected _ =>
        exact ⟨rfl, fun id => .other (hdecides id) (by simp [hqueue]) Iff.rfl Iff.rfl⟩
      | paymentSettled m =>
        cases d with
        | schedule _ => obtain ⟨_, ⟨⟩⟩ := hmay
        | nothing => cases hmay
        | withdraw m' =>
          obtain rfl : m' = m := Debt.withdraw.inj hmay
          refine ⟨rfl, fun id => ?_⟩
          by_cases hid : id = m'
          · subst hid
            exact .withdrawn (hdecides id) (by simp [hqueue])
          · refine .other (hdecides id) (by simp [hqueue, hid]) ?_ ?_
            · simp [Debt.after]
            · simpa [Debt.after] using fun h => hid h.symm
    | takeDue _ =>
      cases d with
      | schedule _ => obtain ⟨_, ⟨⟩⟩ := hmay
      | nothing | withdraw _ => exact hmay.elim
    | release _ | score _ _ | expired _ | now | freshOrder | pruneLocks =>
      obtain ⟨-, hb⟩ := hreacts
      exact ⟨rfl, hsame hb⟩

end Turns

/-! ## All tasks -/

/-- A task with what it owes the queue. -/
structure Debtor where
  task : Task
  debt : Debt

/-- Every task respects the locks of the others and goes on by the rules, and at its end it owes
nothing. -/
structure Workload.Accounts (s : Workload) (debtors : List Debtor) : Prop where
  orderly : ∃ opening actors b,
    s.Orderly Faults.sparingRemoval (fun _ => True) Job.Ended opening actors b
  tasks : debtors.map Debtor.task = s.tasks
  abides : ∀ x ∈ debtors, x.task.rest.Abides .debts (fun _ d => d = .nothing) x.debt

/-- A task withdraws the notification for a payment, while another one is about to schedule it. -/
inductive Workload.Overtakes (id : PaymentId) (s : Workload) : Workload → Prop
  | intro {before after : List Task} {job : Job} {next : Bool → Program job.Result}
      {waiting : Bool} {w : World}
      (turn : s.tasks = before ++ ⟨job, .ask (.cancel (.paymentSettled id)) next⟩ :: after)
      (serves : s.world.Serves (.cancel (.paymentSettled id)) waiting w)
      (owed : ∃ task ∈ before ++ after, ∃ due next,
        task.rest = .ask (.schedule (.paymentSettled id) due) next) :
    Overtakes id s { world := w, tasks := before ++ ⟨job, next waiting⟩ :: after }

theorem Workload.Overtakes.step {id : PaymentId} {s s' : Workload} (h : s.Overtakes id s') :
    s.Step Faults.sparingRemoval s' := by
  obtain ⟨turn, serves, -⟩ := h
  exact .task turn trivial serves

/-- Every task has ended. -/
def Workload.Ended (s : Workload) : Prop := ∀ task ∈ s.tasks, ∃ result, task.rest = .done result

instance (s : Workload) : Decidable s.Ended :=
  have (task : Task) : Decidable (∃ result, task.rest = .done result) :=
    task.rest.casesOn (fun result => isTrue ⟨result, rfl⟩) fun _ _ => isFalse (by simp)
  inferInstanceAs (Decidable (∀ task ∈ s.tasks, ∃ result, task.rest = .done result))

/-- The debts of all tasks. -/
def debtsOf (debtors : List Debtor) : List Debt := debtors.map Debtor.debt

theorem debtsOf_split (earlier later : List Debtor) (x : Debtor) :
    debtsOf (earlier ++ x :: later) = debtsOf earlier ++ x.debt :: debtsOf later := by
  simp [debtsOf]

/-- Who owes a settlement is about to schedule it. -/
theorem Program.Abides.scheduling {α : Type} {Q : α → Debt → Prop} {p : Program α} {id : PaymentId}
    (h : p.Abides .debts Q (.schedule id)) (hQ : ∀ a, ¬Q a (.schedule id)) :
    ∃ due next, p = .ask (.schedule (.paymentSettled id) due) next := by
  cases p with
  | done value => exact absurd h (hQ value)
  | ask request next =>
    obtain ⟨⟨due, rfl⟩, -⟩ := h
    exact ⟨due, next, rfl⟩

/-- And who is about to schedule one owes it. -/
theorem Program.Abides.owes {α : Type} {Q : α → Debt → Prop} {p : Program α} {id : PaymentId}
    {due : Instant} {next : Unit → Program α} {d : Debt} (h : p.Abides .debts Q d)
    (hp : p = .ask (.schedule (.paymentSettled id) due) next) : d = .schedule id := by
  subst hp
  cases d with
  | nothing | withdraw _ => exact h.1.elim
  | schedule _ =>
    obtain ⟨⟨_, ⟨⟩⟩, -⟩ := h
    rfl

namespace Workload

variable {s s' : Workload} {debtors : List Debtor} {id : PaymentId}

/-- The writes of tasks in good order respect the locks of the others. -/
theorem Orderly.writes {faults : Faults} {used : Tiers → Prop}
    {Q : (job : Job) → job.Result → Standing} {opening : Ledger} {actors : List Actor} {b : Books}
    (h : s.Orderly faults used Q opening actors b) {task : Task} (htask : task ∈ s.tasks)
    {call : StoreCall} {next : (Request.store call).Answer → Program task.job.Result}
    (hrest : task.rest = .ask (.store call) next) {result : call.Result} {l' : Ledger}
    (hleft : b.ledger.counters.Left call) (hanswer : b.ledger.answer call = .ok (result, l')) :
    ∃ held, b.ledger.Writes held call l' := by
  rw [← h.tasks] at htask
  obtain ⟨a, ha, rfl⟩ := List.mem_map.mp htask
  have hrespects := h.respects a ha
  rw [hrest] at hrespects
  exact ⟨a.held, ((hrespects _ (h.steady.waits a.held)).2.2 result l' hleft hanswer).1⟩

namespace Accounts

/-- One request of one task, and what the task owes before and after. -/
theorem turn (h : s.Accounts debtors) {before after : List Task} {job : Job} {request : Request}
    {next : request.Answer → Program job.Result} {answer : request.Answer} {w : World}
    (turn : s.tasks = before ++ ⟨job, .ask request next⟩ :: after)
    (grants : s.world.Grants Faults.sparingRemoval request)
    (serves : s.world.Serves request answer w) :
    ∃ earlier d later, debtors = earlier ++ ⟨⟨job, .ask request next⟩, d⟩ :: later ∧
      earlier.map Debtor.task = before ∧ later.map Debtor.task = after ∧
      Conduct.debts.may d request ∧
      Accounts { world := w, tasks := before ++ ⟨job, next answer⟩ :: after }
        (earlier ++ ⟨⟨job, next answer⟩, d.after request answer⟩ :: later) ∧
      ∀ id, Debt.Turn id s.world w request d (d.after request answer) := by
  obtain ⟨⟨opening, actors, b, horderly⟩, htasks, habides⟩ := h
  obtain ⟨earlier, _, rfl, hearlier, hrest⟩ := List.map_eq_append_iff.mp (htasks.trans turn)
  obtain ⟨⟨task, d⟩, later, rfl, rfl, hlater⟩ := List.map_eq_cons_iff.mp hrest
  obtain ⟨hmay, hnext⟩ := habides ⟨⟨job, .ask request next⟩, d⟩ (by simp)
  have hmem : (⟨job, .ask request next⟩ : Task) ∈ s.tasks := turn ▸ by simp
  have hwrites : ∀ call (result : call.Result) l', request = .store call →
      b.ledger.counters.Left call → b.ledger.answer call = .ok (result, l') →
      ∃ held, b.ledger.Writes held call l' := by
    rintro call result l' rfl hleft hanswer
    exact horderly.writes hmem rfl hleft hanswer
  obtain ⟨hleads, hturn⟩ := horderly.steady.turn hmay hwrites grants serves
  refine ⟨earlier, d, later, rfl, hearlier, hlater, hmay, ⟨?_, ?_, ?_⟩, hturn⟩
  · obtain ⟨actors', b', horderly'⟩ :=
      horderly.step (fun _ _ _ _ _ _ hended _ => hended) (.task turn grants serves)
    exact ⟨opening, actors', b', horderly'⟩
  · rw [List.map_append, List.map_cons, hearlier, hlater]
  · intro x hx
    rcases List.mem_append.mp hx with hx | hx
    · exact habides x (List.mem_append_left _ hx)
    · rcases List.mem_cons.mp hx with rfl | hx
      · exact hnext answer _ hleads
      · exact habides x (by simp [hx])

/-- The task that owes the settlement of a payment. -/
theorem mem_debts_iff (h : ∀ x ∈ debtors, x.task.rest.Abides .debts (fun _ d => d = .nothing)
    x.debt) : .schedule id ∈ debtsOf debtors ↔ ∃ task ∈ debtors.map Debtor.task, ∃ due next,
      task.rest = .ask (.schedule (.paymentSettled id) due) next := by
  simp only [debtsOf, List.mem_map]
  constructor
  · rintro ⟨x, hx, hdebt⟩
    have habides := h x hx
    rw [hdebt] at habides
    exact ⟨x.task, ⟨x, hx, rfl⟩, habides.scheduling fun _ => nofun⟩
  · rintro ⟨_, ⟨x, hx, rfl⟩, due, next, hrest⟩
    exact ⟨x, hx, (h x hx).owes hrest⟩

/-- One more request of one task: the debts stay in order, unless a withdrawal comes too early, and
what is overdue stays so. -/
theorem step (h : s.Accounts debtors) (hstep : s.Step Faults.sparingRemoval s') (id : PaymentId) :
    ∃ debtors', s'.Accounts debtors' ∧
      (Debt.InOrder id s.world (debtsOf debtors) → Debt.InOrder id s'.world (debtsOf debtors') ∨
        Debt.Overdue id s'.world (debtsOf debtors') ∧ s.Overtakes id s') ∧
      (Debt.Overdue id s.world (debtsOf debtors) →
        Debt.Overdue id s'.world (debtsOf debtors')) := by
  cases hstep with
  | @surroundings w store queue locks =>
    have hdecided : w.Decided id ↔ s.world.Decided id := by rw [World.Decided, World.Decided, store]
    refine ⟨debtors, ⟨?_, h.tasks, h.abides⟩, ?_, ?_⟩
    · obtain ⟨opening, actors, b, horderly⟩ := h.orderly
      obtain ⟨actors', b', horderly'⟩ :=
        horderly.step (fun _ _ _ _ _ _ hended _ => hended) (.surroundings store queue locks)
      exact ⟨opening, actors', b', horderly'⟩
    · rintro ⟨honce, hdecides, hwithdrawn⟩
      refine .inl ⟨honce, fun hmem => hdecided.mpr (hdecides hmem), ?_⟩
      rw [hdecided, queue]
      exact hwithdrawn
    · rintro ⟨hdecides, hstale, hforgotten⟩
      exact ⟨hdecided.mpr hdecides, queue ▸ hstale, hforgotten⟩
  | @task before after job request next answer w turn grants serves =>
    obtain ⟨earlier, d, later, rfl, rfl, rfl, -, haccounts, hturn⟩ := h.turn turn grants serves
    simp only [debtsOf_split]
    refine ⟨_, haccounts, fun hin => ?_, fun hover => ?_⟩
    · rw [debtsOf_split]
      refine (hin.turn (hturn id)).imp_right ?_
      rintro ⟨rfl, howed, hover⟩
      refine ⟨hover, .intro turn serves ?_⟩
      rw [← List.map_append]
      refine (mem_debts_iff fun x hx => h.abides x ?_).mp (by simpa [debtsOf] using howed)
      rcases List.mem_append.mp hx with hx | hx <;> simp [hx]
    · rw [debtsOf_split]
      exact hover.turn (hturn id)

/-- A withdrawal that comes too early leaves the notification overdue. -/
theorem overtaken (h : s.Accounts debtors) (hin : Debt.InOrder id s.world (debtsOf debtors) ∨
      Debt.Overdue id s.world (debtsOf debtors)) (ho : s.Overtakes id s') :
    ∃ debtors', s'.Accounts debtors' ∧ Debt.Overdue id s'.world (debtsOf debtors') := by
  obtain ⟨turn, serves, howed⟩ := ho
  obtain ⟨earlier, d, later, rfl, rfl, rfl, hmay, haccounts, hturn⟩ := h.turn turn trivial serves
  obtain rfl : d = .withdraw id := by
    cases d with
    | nothing => cases hmay
    | schedule _ => obtain ⟨_, ⟨⟩⟩ := hmay
    | withdraw _ => exact hmay
  have hmem : .schedule id ∈ debtsOf (earlier ++ later) := by
    rw [← List.map_append] at howed
    refine (mem_debts_iff fun x hx => h.abides x ?_).mpr howed
    rcases List.mem_append.mp hx with hx | hx <;> simp [hx]
  rw [debtsOf_split] at hin
  rcases hin with hin | hover
  · refine ⟨_, haccounts, ?_⟩
    rw [debtsOf_split]
    cases hturn id with
    | other _ _ _ withdraw => cases withdraw.mpr rfl
    | withdrawn decided waiting =>
      exact ⟨decided.mpr (hin.decided (by simp)), .inr (by simpa [debtsOf, Debt.after] using hmem),
        hin.forgotten⟩
  · exact absurd (by simp) hover.forgotten

/-- When all tasks have ended, nothing is owed. -/
theorem ended (h : s.Accounts debtors) (hended : s.Ended) {d : Debt} (hd : d ∈ debtsOf debtors) :
    d = .nothing := by
  obtain ⟨x, hx, rfl⟩ := List.mem_map.mp hd
  obtain ⟨result, hresult⟩ := hended x.task (h.tasks ▸ List.mem_map_of_mem hx)
  have habides := h.abides x hx
  rw [hresult] at habides
  exact habides

end Accounts

/-! ## Runs -/

open Relation (ReflTransGen)

/-- On the way from one state to another, a withdrawal came before what it was to withdraw. -/
def Overtaken (id : PaymentId) (s s' : Workload) : Prop :=
  ∃ s₁ s₂, ReflTransGen (Step Faults.sparingRemoval) s s₁ ∧ s₁.Overtakes id s₂ ∧
    ReflTransGen (Step Faults.sparingRemoval) s₂ s'

/-- Debts that are in order at first stay so as long as no withdrawal comes too early. -/
theorem Accounts.steps (h : s.Accounts debtors) (hin : Debt.InOrder id s.world (debtsOf debtors))
    (hsteps : ReflTransGen (Step Faults.sparingRemoval) s s') :
    ∃ debtors', s'.Accounts debtors' ∧ (Debt.InOrder id s'.world (debtsOf debtors') ∨
      Debt.Overdue id s'.world (debtsOf debtors') ∧ s.Overtaken id s') := by
  induction hsteps with
  | refl => exact ⟨debtors, h, .inl hin⟩
  | @tail s₁ s₂ hbefore hstep ih =>
    obtain ⟨debtors₁, h₁, hstate⟩ := ih
    obtain ⟨debtors₂, h₂, hinOrder, hoverdue⟩ := h₁.step hstep id
    refine ⟨debtors₂, h₂, ?_⟩
    rcases hstate with hin₁ | ⟨hover₁, s₃, s₄, hto, hovertakes, hfrom⟩
    · refine (hinOrder hin₁).imp_right ?_
      rintro ⟨hover, hovertakes⟩
      exact ⟨hover, s₁, s₂, hbefore, hovertakes, .refl⟩
    · exact .inr ⟨hoverdue hover₁, s₃, s₄, hto, hovertakes, hfrom.tail hstep⟩

/-- What is overdue stays so. -/
theorem Accounts.steps_overdue (h : s.Accounts debtors)
    (hover : Debt.Overdue id s.world (debtsOf debtors))
    (hsteps : ReflTransGen (Step Faults.sparingRemoval) s s') :
    ∃ debtors', s'.Accounts debtors' ∧ Debt.Overdue id s'.world (debtsOf debtors') := by
  induction hsteps with
  | refl => exact ⟨debtors, h, hover⟩
  | tail _ hstep ih =>
    obtain ⟨debtors₁, h₁, hover₁⟩ := ih
    obtain ⟨debtors₂, h₂, -, hoverdue⟩ := h₁.step hstep id
    exact ⟨debtors₂, h₂, hoverdue hover₁⟩

end Workload

/-! ## Before and after -/

/-- A payment, or a delivery to one. -/
def Job.paysOrDelivers : Job → Bool
  | .call (.pay _) _ | .call (.deliverPayment _ _) _ => true
  | _ => false

theorem Job.debts (policy : Policy) {job : Job} (hjob : job.paysOrDelivers) :
    job.worksOnPayments ∧
      (job.program policy).Abides .debts (fun _ d => d = .nothing) .nothing := by
  match job with
  | .call (.pay request) limit =>
    refine ⟨rfl, Program.Abides.mono ?_ (Engine.pay_debts request)⟩
    rintro (_ | _) _ hend <;> exact hend
  | .call (.deliverPayment id token) limit =>
    refine ⟨rfl, Program.Abides.mono ?_ (Engine.deliverPayment_debts id token)⟩
    rintro (_ | _) _ hend <;> exact hend

section Start

variable {faults : Faults} {policy : Policy} {w : World} {jobs : List Job}

/-- Calls that are made one after another leave nothing stale. -/
theorem History.not_stale (hw : History faults policy w) (id : PaymentId) : ¬w.Stale id := by
  obtain ⟨b, hshows, hsound, hb⟩ := hw.books (noneStale_invariant faults)
    (fun _ h => nomatch h) fun _ _ h => nomatch h
  rintro ⟨hdecided, hwaits⟩
  exact hb id (hshows.2 ▸ hwaits) ((hshows.decided_iff hsound id).mp hdecided)

/-- Payments and deliveries that begin together owe nothing yet. -/
theorem Workload.accounts_start (hw : History Faults.sparingRemoval policy w)
    (hidle : w.locks.Idle) (hjobs : ∀ job ∈ jobs, job.paysOrDelivers) (id : PaymentId) :
    ∃ debtors, (start policy w jobs).Accounts debtors ∧
      Debt.InOrder id w (debtsOf debtors) := by
  obtain ⟨b, hsteady⟩ := hw.steady hidle
  have hworks : ∀ job ∈ jobs, job.worksOnPayments := fun job hjob =>
    (Job.debts policy (hjobs job hjob)).1
  obtain ⟨actors, b', horderly⟩ := orderly_of_steps hsteady trivial hidle hworks .refl
  refine ⟨jobs.map fun job => ⟨⟨job, job.program policy⟩, .nothing⟩,
    ⟨⟨_, actors, b', horderly⟩, List.map_map, ?_⟩, ?_⟩
  · intro x hx
    obtain ⟨job, hjob, rfl⟩ := List.mem_map.mp hx
    exact (Job.debts policy (hjobs job hjob)).2
  · have hnone : ∀ d ≠ .nothing,
        d ∉ debtsOf (jobs.map fun job => ⟨⟨job, job.program policy⟩, .nothing⟩) := by
      rintro d hd hmem
      obtain ⟨x, hx, rfl⟩ := List.mem_map.mp hmem
      obtain ⟨job, -, rfl⟩ := List.mem_map.mp hx
      exact hd rfl
    have hwithdraw := hnone (.withdraw id) (by simp)
    refine ⟨?_, fun hmem => absurd hmem hwithdraw, ?_⟩
    · rw [List.count_eq_zero_of_not_mem hwithdraw]
      exact Nat.zero_le 1
    · rintro hdecided (hwaits | hmem)
      · exact absurd ⟨hdecided, hwaits⟩ (hw.not_stale id)
      · exact absurd hmem (hnone (.schedule id) (by simp))

/-- Payments and deliveries that take turns leave a notification for a payment that has an outcome
exactly if a delivery withdrew it between the requests by which the payment was recorded and its
settlement was scheduled. -/
theorem Workload.stale_iff_overtaken {s : Workload} (hw : History Faults.sparingRemoval policy w)
    (hidle : w.locks.Idle) (hjobs : ∀ job ∈ jobs, job.paysOrDelivers)
    (hsteps : Relation.ReflTransGen (Step Faults.sparingRemoval) (start policy w jobs) s)
    (hended : s.Ended) (id : PaymentId) :
    s.world.Stale id ↔ (start policy w jobs).Overtaken id s := by
  obtain ⟨debtors, haccounts, hin⟩ := accounts_start hw hidle hjobs id
  constructor
  · rintro ⟨hdecided, hwaits⟩
    obtain ⟨debtors', haccounts', hin' | ⟨-, hovertaken⟩⟩ := haccounts.steps hin hsteps
    · cases haccounts'.ended hended (hin'.withdrawn hdecided (.inl hwaits))
    · exact hovertaken
  · rintro ⟨s₁, s₂, hto, hovertakes, hfrom⟩
    obtain ⟨debtors₁, haccounts₁, hstate⟩ := haccounts.steps hin hto
    obtain ⟨debtors₂, haccounts₂, hover₂⟩ :=
      haccounts₁.overtaken (hstate.imp_right And.left) hovertakes
    obtain ⟨debtors', haccounts', hdecided, hstale, -⟩ := haccounts₂.steps_overdue hover₂ hfrom
    refine ⟨hdecided, hstale.resolve_right fun hmem => ?_⟩
    cases haccounts'.ended hended hmem

end Start

/-! ## A race -/

/-- A credit of 1000 with a pending payment on it. -/
def World.drawnOnce : World := { World.awaiting with locks := {} }

/-- A second payment is made, and the gateway says of it that it failed. -/
def World.racers : List Job :=
  [.call (.pay { application := ⟨1⟩, user := "alice", amount := 100, currency := "USD",
                 method := "card" }) .unbounded,
    .call (.deliverPayment ⟨2⟩ "FAILED") .unbounded]

/-- Both at once. -/
def Workload.race : Workload := .start {} World.drawnOnce World.racers

/-- All of the delivery comes between the last two requests of the payment to the store and to the
queue. -/
def Workload.earlyWithdrawal : List Nat :=
  List.replicate 9 0 ++ List.replicate 7 1 ++ List.replicate 2 0

/-- The settlement is scheduled after the payment has failed, but before it is withdrawn. -/
def Workload.timelyWithdrawal : List Nat :=
  List.replicate 9 0 ++ List.replicate 5 1 ++ [0] ++ List.replicate 2 1 ++ [0]

/-- The first of these races leaves a notification for a payment that has failed, the second does
not. -/
theorem Workload.races_stale :
    (∃ s, race.turns? Faults.sparingRemoval earlyWithdrawal = some s ∧
      s.world.Stale ⟨2⟩ ∧ race.Overtaken ⟨2⟩ s) ∧
    ∃ s, race.turns? Faults.sparingRemoval timelyWithdrawal = some s ∧
      s.world.Decided ⟨2⟩ ∧ ¬race.Overtaken ⟨2⟩ s := by
  have hawaiting : Reached Faults.sparingRemoval {} World.awaiting :=
    Reached.afterCalls (.start ⟨.inl rfl, rfl⟩) (by decide +kernel)
  have hdrawn : Reached Faults.sparingRemoval {} World.drawnOnce :=
    hawaiting.move (.surroundings rfl rfl)
  have hjobs : ∀ job ∈ World.racers, job.paysOrDelivers := by decide
  constructor
  · have hends : (race.turns? Faults.sparingRemoval earlyWithdrawal).map
        (fun s => decide (s.Ended ∧ s.world.Stale ⟨2⟩)) = some true := by decide +kernel
    obtain ⟨s, hturns, hends⟩ := Option.map_eq_some_iff.mp hends
    obtain ⟨hended, hstale⟩ := of_decide_eq_true hends
    exact ⟨s, hturns, hstale, (stale_iff_overtaken hdrawn.history LockTable.idle_empty
      hjobs (turns?_steps hturns) hended ⟨2⟩).mp hstale⟩
  · have hends : (race.turns? Faults.sparingRemoval timelyWithdrawal).map
        (fun s => decide (s.Ended ∧ s.world.Decided ⟨2⟩ ∧ ¬s.world.Stale ⟨2⟩)) = some true := by
      decide +kernel
    obtain ⟨s, hturns, hends⟩ := Option.map_eq_some_iff.mp hends
    obtain ⟨hended, hdecided, hnot⟩ := of_decide_eq_true hends
    exact ⟨s, hturns, hdecided, (stale_iff_overtaken hdrawn.history LockTable.idle_empty
      hjobs (turns?_steps hturns) hended ⟨2⟩).not.mp hnot⟩

/-- So it is not true that tasks leave nothing stale, though no store call fails. -/
theorem Workload.race_leavesStale :
    Reached Faults.none {} World.drawnOnce ∧ World.drawnOnce.locks.Idle ∧
      (∀ job ∈ World.racers, job.paysOrDelivers) ∧
      ∃ s, Relation.ReflTransGen (Step Faults.none) race s ∧ s.Ended ∧ s.world.Stale ⟨2⟩ := by
  have hawaiting : Reached Faults.none {} World.awaiting :=
    Reached.afterCalls (.start ⟨.inl rfl, rfl⟩) (by decide +kernel)
  have hends : (race.turns? Faults.none earlyWithdrawal).map
      (fun s => decide (s.Ended ∧ s.world.Stale ⟨2⟩)) = some true := by decide +kernel
  obtain ⟨s, hturns, hends⟩ := Option.map_eq_some_iff.mp hends
  obtain ⟨hended, hstale⟩ := of_decide_eq_true hends
  exact ⟨hawaiting.move (.surroundings rfl rfl), LockTable.idle_empty, by decide, s,
    turns?_steps hturns, hended, hstale⟩

end Lending
