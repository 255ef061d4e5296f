import Lending.Proofs.Engine.CreditLimit
import Lending.Proofs.Engine.Onward
import Lending.Proofs.Engine.Workload

/-!
# What the locks protect

Between two requests of a task the others make theirs, so that a task can rely only on what its
locks protect. The lock of an application protects its row and the credit that is drawn on it, and
the lock of a payment its row and its schedule. While nobody holds the lock of a payment, the
payment has the schedule that it must have.

* `Ledger.Changes`: changes that spare what some locks protect.
* `Ledger.Free`: what holds of the rows while a lock is free.
* `Program.Respects`: a program that changes only what its locks protect, whatever others change.
* `Operation.Respects`: the same for operations, with an equation for every part of an operation.
-/

namespace Lending

namespace Ledger

/-! ## Changes -/

/-- The outcome of the payment stands. -/
def Concluded (l : Ledger) (id : PaymentId) : Prop :=
  ∃ p, l.payments.get? id = some p ∧ p.status ≠ .pending

/-- What the locks protect that are spared stays as it is. Whatever changes, entries keep their
terms and their numbers, and outcomes stand. -/
structure Changes (spared : LockKey → Prop) (l l' : Ledger) : Prop where
  applications : ∀ id, spared (.application id) → l'.applications.get? id = l.applications.get? id
  creditUsed : ∀ id, spared (.application id) → l'.creditUsed id = l.creditUsed id
  /-- A payment that is added is pending. -/
  payments : ∀ id, spared (.payment id) → l'.payments.get? id = l.payments.get? id ∨
    l.payments.get? id = none ∧ ∃ p, l'.payments.get? id = some p ∧ p.status = .pending
  lines : ∀ id, spared (.payment id) → l'.linesOf (.payment id) = l.linesOf (.payment id)
  numbers : l.counters.installment ≤ l'.counters.installment
  entries : ∀ id e', id.value ≤ l.counters.installment → l'.installments.get? id = some e' →
    ∃ e, l.installments.get? id = some e ∧ e'.terms = e.terms
  concluded : ∀ id, l.Concluded id → l'.Concluded id

namespace Changes

variable {spared spared' : LockKey → Prop} {l l' l'' : Ledger}

theorem refl (l : Ledger) : l.Changes spared l where
  applications _ _ := rfl
  creditUsed _ _ := rfl
  payments _ _ := .inl rfl
  lines _ _ := rfl
  numbers := UInt64.le_refl _
  entries _ e _ he := ⟨e, he, rfl⟩
  concluded _ h := h

theorem mono (h : l.Changes spared l') (hspared : ∀ key, spared' key → spared key) :
    l.Changes spared' l' :=
  { h with
    applications := fun id hid => h.applications id (hspared _ hid)
    creditUsed := fun id hid => h.creditUsed id (hspared _ hid)
    payments := fun id hid => h.payments id (hspared _ hid)
    lines := fun id hid => h.lines id (hspared _ hid) }

theorem trans (h : l.Changes spared l') (h' : l'.Changes spared l'') : l.Changes spared l'' where
  applications id hid := (h'.applications id hid).trans (h.applications id hid)
  creditUsed id hid := (h'.creditUsed id hid).trans (h.creditUsed id hid)
  payments id hid := by
    rcases h.payments id hid with hsame | ⟨hnone, p, hp, hpending⟩
    · rw [← hsame]
      exact h'.payments id hid
    · rcases h'.payments id hid with hsame | ⟨hnone', -⟩
      · exact .inr ⟨hnone, p, hsame.trans hp, hpending⟩
      · rw [hp] at hnone'
        cases hnone'
  lines id hid := (h'.lines id hid).trans (h.lines id hid)
  numbers := UInt64.le_trans h.numbers h'.numbers
  entries id e'' hid he'' := by
    obtain ⟨e', he', hterms'⟩ := h'.entries id e'' (UInt64.le_trans hid h.numbers) he''
    obtain ⟨e, he, hterms⟩ := h.entries id e' hid he'
    exact ⟨e, he, hterms'.trans hterms⟩
  concluded id hid := h'.concluded id (h.concluded id hid)

/-- A payment that is known stays, if its lock is spared. -/
theorem payment (h : l.Changes spared l') {id : PaymentId} (hid : spared (.payment id))
    {p : Payment} (hp : l.payments.get? id = some p) : l'.payments.get? id = some p := by
  rcases h.payments id hid with hsame | ⟨hnone, -⟩
  · exact hsame.trans hp
  · rw [hp] at hnone
    cases hnone

end Changes

/-- What may change while a task waits that holds some locks: others hold the other locks. -/
structure Waits (held : List LockKey) (l l' : Ledger) : Prop extends l.Changes (· ∈ held) l' where
  sound : l'.Sound
  credit : CreditKept l'

theorem Waits.trans {held : List LockKey} {l l' l'' : Ledger} (h : l.Waits held l')
    (h' : l'.Waits held l'') : l.Waits held l'' :=
  ⟨h.toChanges.trans h'.toChanges, h'.sound, h'.credit⟩

/-! ## Free locks -/

/-- The payment has the schedule that it must have, and without a payment there is none. -/
def Settled (used : Tiers → Prop) (l : Ledger) (id : PaymentId) : Prop :=
  (∀ p, l.payments.get? id = some p →
      (Obligation.payment p).Scheduled used (l.linesOf (.payment id))) ∧
    (l.payments.get? id = none → l.linesOf (.payment id) = [])

/-- What holds while nobody holds the lock. -/
def Free (used : Tiers → Prop) (l : Ledger) : LockKey → Prop
  | .payment id => l.Settled used id
  | _ => True

/-- Others keep what holds while a lock is free. -/
theorem Free.changes {used : Tiers → Prop} {spared : LockKey → Prop} {l l' : Ledger}
    {key : LockKey} (h : l.Free used key) (hchanges : l.Changes spared l') (hkey : spared key) :
    l'.Free used key := by
  cases key with
  | application _ | installment _ | loan _ => trivial
  | payment id =>
    have hlines := hchanges.lines id hkey
    rcases hchanges.payments id hkey with hsame | ⟨hnone, p, hp, hpending⟩
    · rw [Free, Settled, hsame, hlines]
      exact h
    · -- a payment that was added has no schedule, as there was none before
      rw [Free, Settled, hp, hlines, h.2 hnone]
      refine ⟨?_, by rintro ⟨⟩⟩
      rintro _ ⟨⟩
      exact Obligation.scheduled_nil (Obligation.not_begun_of_pending hpending)

end Ledger

/-! ## Programs -/

/-- What holds of a task: of the locks that it holds, the latest first, of the payments whose
outcomes it has written, and of the rows. -/
abbrev Standing := List LockKey → List PaymentId → Ledger → Prop

/-- The payments whose outcomes a call writes. -/
def StoreCall.concludes : StoreCall → List PaymentId
  | .updatePayment p => [p.id]
  | _ => []

/-- A write that spares what the locks of others protect, and by which no outcome is written
twice. -/
structure Ledger.Writes (held : List LockKey) (call : StoreCall) (l l' : Ledger) : Prop extends
    l.Changes (· ∉ held) l' where
  credit : CreditKept l'
  concludes : ∀ id ∈ call.concludes, ¬l.Concluded id ∧ l'.Concluded id

namespace Program

variable {α β : Type} {faults : Faults} {used : Tiers → Prop} {held : List LockKey}
  {won : List PaymentId}  {l l' : Ledger}

/-- Whatever others change between its requests, and however these are answered, the program makes
only writes that its locks allow, leaves in order what it gives back, and ends as `Q` asks. -/
def Respects (faults : Faults) (used : Tiers → Prop) (Q : α → Standing) : Program α → Standing
  | .done value, held, won, l => Q value held won l
  | .ask (.acquire key _) next, held, won, l => ∀ l', l.Waits held l' →
    (next false).Respects faults used Q held won l' ∧
      (key ∉ held → l'.Free used key → (next true).Respects faults used Q (key :: held) won l')
  | .ask (.release key) next, held, won, l => ∀ l', l.Waits held l' →
    l'.Free used key ∧ ∃ rest, held = key :: rest ∧ (next ()).Respects faults used Q rest won l'
  | .ask (.store call) next, held, won, l => ∀ l', l.Waits held l' →
    (faults call .refusal →
      (next (.error (.storage .outage))).Respects faults used Q held won l') ∧
    (∀ cause, l'.answer call = .error cause →
      (next (.error cause)).Respects faults used Q held won l') ∧
    ∀ result l'', l'.counters.Left call → l'.answer call = .ok (result, l'') →
      l'.Writes held call l'' ∧
        (next (.ok result)).Respects faults used Q held (call.concludes ++ won) l''
  | .ask _ next, held, won, l => ∀ l', l.Waits held l' →
    ∀ answer, (next answer).Respects faults used Q held won l'

/-- What was true before others had their turns is true after them. -/
theorem Respects.waits {Q : α → Standing}
    (hQ : ∀ a held won l l', Q a held won l → l.Waits held l' → Q a held won l') {p : Program α}
    (h : p.Respects faults used Q held won l) (hwaits : l.Waits held l') :
    p.Respects faults used Q held won l' := by
  cases p with
  | done value => exact hQ _ _ _ _ _ h hwaits
  | ask request next =>
    cases request <;> exact fun l'' hwaits' => h l'' (hwaits.trans hwaits')

theorem Respects.mono {Q Q' : α → Standing}
    (hQ : ∀ a held won l, Q a held won l → Q' a held won l) {p : Program α}
    (h : p.Respects faults used Q held won l) : p.Respects faults used Q' held won l := by
  induction p generalizing held won l with
  | done value => exact hQ _ _ _ _ h
  | ask request next ih =>
    cases request with
    | acquire key limit =>
      intro l' hwaits
      obtain ⟨hlate, hgranted⟩ := h l' hwaits
      exact ⟨ih _ hlate, fun hnew hfree => ih _ (hgranted hnew hfree)⟩
    | release key =>
      intro l' hwaits
      obtain ⟨hfree, rest, hrest, hnext⟩ := h l' hwaits
      exact ⟨hfree, rest, hrest, ih _ hnext⟩
    | store call =>
      intro l' hwaits
      obtain ⟨hrefused, herror, hok⟩ := h l' hwaits
      refine ⟨fun hf => ih _ (hrefused hf), fun cause hc => ih _ (herror cause hc), ?_⟩
      intro result l'' hleft hanswer
      exact (hok result l'' hleft hanswer).imp_right (ih _)
    | score _ _ | expired _ | now | freshOrder | schedule _ _ | cancel _ | takeDue _ | pruneLocks =>
      exact fun l' hwaits answer => ih answer (h l' hwaits answer)

theorem respects_bind {Q : β → Standing} (p : Program α) (f : α → Program β) :
    (p.bind f).Respects faults used Q held won l ↔
      p.Respects faults used (fun a => (f a).Respects faults used Q) held won l := by
  induction p generalizing held won l with
  | done value => rfl
  | ask request next ih =>
    cases request with
    | acquire key limit =>
      refine forall_congr' fun l' => imp_congr_right fun _ => ?_
      exact and_congr (ih _) (imp_congr_right fun _ => imp_congr_right fun _ => ih _)
    | release key =>
      refine forall_congr' fun l' => imp_congr_right fun _ => and_congr_right fun _ => ?_
      exact exists_congr fun rest => and_congr_right fun _ => ih _
    | store call =>
      refine forall_congr' fun l' => imp_congr_right fun _ => ?_
      refine and_congr (imp_congr_right fun _ => ih _) (and_congr ?_ ?_)
      · exact forall_congr' fun cause => imp_congr_right fun _ => ih _
      · refine forall_congr' fun result => forall_congr' fun l'' => ?_
        exact imp_congr_right fun _ => imp_congr_right fun _ => and_congr_right fun _ => ih _
    | score _ _ | expired _ | now | freshOrder | schedule _ _ | cancel _ | takeDue _ | pruneLocks =>
      exact forall_congr' fun l' => imp_congr_right fun _ => forall_congr' fun answer => ih answer

end Program

/-! ## Operations -/

namespace Operation

variable {α β : Type} {faults : Faults} {used : Tiers → Prop} {held : List LockKey}
  {won : List PaymentId}  {l : Ledger} {ok : α → Standing} {fail : Standing}

/-- The same of an operation, which ends with a value as `ok` asks or fails as `fail` asks. -/
def Respects (faults : Faults) (used : Tiers → Prop) (op : Operation α) (ok : α → Standing)
    (fail : Standing) : Standing :=
  Program.Respects faults used (fun
    | .ok a => ok a
    | .error _ => fail) op.run

theorem respects_pure (a : α) :
    Respects faults used (pure a) ok fail held won l ↔ ok a held won l := Iff.rfl

theorem respects_throw (cause : Failure) :
    Respects faults used (throw cause : Operation α) ok fail held won l ↔ fail held won l := Iff.rfl

theorem respects_bind {ok : β → Standing} (op : Operation α) (f : α → Operation β) :
    Respects faults used (op >>= f) ok fail held won l ↔
      Respects faults used op (fun a => Respects faults used (f a) ok fail) fail held won l := by
  refine (Program.respects_bind _ _).trans (iff_of_eq ?_)
  refine congrArg (fun Q => Program.Respects faults used Q op.run held won l) ?_
  funext result
  cases result <;> rfl

theorem Respects.mono {ok' : α → Standing} {fail' : Standing} {op : Operation α}
    (hok : ∀ a held won l, ok a held won l → ok' a held won l)
    (hfail : ∀ held won l, fail held won l → fail' held won l)
    (h : Respects faults used op ok fail held won l) :
    Respects faults used op ok' fail' held won l := by
  refine Program.Respects.mono ?_ h
  rintro (_ | a) held won l hend
  · exact hfail _ _ _ hend
  · exact hok _ _ _ _ hend

theorem respects_lift (p : Program α) :
    Respects faults used (liftM p : Operation α) ok fail held won l ↔
      p.Respects faults used ok held won l :=
  Program.respects_bind _ _

theorem respects_ite (c : Prop) [Decidable c] (x y : Operation α) :
    Respects faults used (if c then x else y) ok fail held won l ↔
      (c → Respects faults used x ok fail held won l) ∧
        (¬c → Respects faults used y ok fail held won l) := by
  split <;> simp [*]

/-! ### Requests -/

theorem respects_now {ok : Instant → Standing} :
    Respects faults used (liftM now) ok fail held won l ↔
      ∀ l', l.Waits held l' → ∀ t, ok t held won l' := respects_lift _

theorem respects_freshOrder {ok : String → Standing} :
    Respects faults used (liftM freshOrder) ok fail held won l ↔
      ∀ l', l.Waits held l' → ∀ order, ok order held won l' := respects_lift _

theorem respects_expired {ok : Bool → Standing} (limit : Deadline) :
    Respects faults used (liftM (expired limit)) ok fail held won l ↔
      ∀ l', l.Waits held l' → ∀ late, ok late held won l' := respects_lift _

theorem respects_schedule {ok : Unit → Standing} (n : Notification) (due : Instant) :
    Respects faults used (liftM (schedule n due)) ok fail held won l ↔
      ∀ l', l.Waits held l' → ∀ u, ok u held won l' := respects_lift _

theorem respects_cancel {ok : Bool → Standing} (n : Notification) :
    Respects faults used (liftM (cancel n)) ok fail held won l ↔
      ∀ l', l.Waits held l' → ∀ waiting, ok waiting held won l' := respects_lift _

theorem respects_score {ok : CreditScore → Standing} (user : String) (limit : Deadline) :
    Respects faults used (score user limit) ok fail held won l ↔
      ∀ l', l.Waits held l' → (∀ s, ok s held won l') ∧ fail held won l' := by
  refine forall_congr' fun l' => imp_congr_right fun _ => ?_
  constructor
  · intro h
    exact ⟨fun s => h (.ok s), h (.error .timeout)⟩
  · rintro ⟨hok, hfail⟩ (cause | s)
    · exact hfail
    · exact hok s

-- the type of the result is a case of `StoreCall.Result`, by which `simp` could not find the rule
theorem respects_call (c : StoreCall) {ok : c.Result → Standing} :
    @Respects (no_index c.Result) faults used (call c) ok fail held won l ↔
      ∀ l', l.Waits held l' → (faults c .refusal → fail held won l') ∧
        (∀ cause, l'.answer c = .error cause → fail held won l') ∧
        ∀ result l'', l'.counters.Left c → l'.answer c = .ok (result, l'') →
          l'.Writes held c l'' ∧ ok result held (c.concludes ++ won) l'' := Iff.rfl

theorem respects_look {c : StoreCall} {found : Ledger → c.Result}
    (h : ∀ l : Ledger, l.answer c = .ok (found l, l)) (hleft : ∀ n : Counters, n.Left c)
    (hreads : c.concludes = []) {ok : c.Result → Standing} :
    @Respects (no_index c.Result) faults used (call c) ok fail held won l ↔
      ∀ l', l.Waits held l' → (faults c .refusal → fail held won l') ∧
        ok (found l') held won l' := by
  rw [respects_call]
  refine forall_congr' fun l' => forall_congr' fun hwaits => and_congr_right fun _ => ?_
  simp only [h, hreads, Except.ok.injEq, Prod.mk.injEq, reduceCtorEq, false_implies, implies_true,
    true_and, List.nil_append]
  constructor
  · intro hok
    exact (hok _ l' (hleft _) ⟨rfl, rfl⟩).2
  · rintro hok _ _ _ ⟨rfl, rfl⟩
    exact ⟨⟨.refl l', hwaits.credit, by simp [hreads]⟩, hok⟩

/-! ### Parts -/

theorem respects_require (result : Except Failure α) :
    Respects faults used (require result) ok fail held won l ↔
      (∀ a, result = .ok a → ok a held won l) ∧ ∀ cause, result = .error cause →
        fail held won l := by
  cases result with
  | error cause =>
    constructor
    · intro h
      refine ⟨?_, fun _ _ => h⟩
      rintro _ ⟨⟩
    · intro h
      exact h.2 cause rfl
  | ok a =>
    constructor
    · intro h
      refine ⟨?_, ?_⟩ <;> rintro _ ⟨⟩
      exact h
    · intro h
      exact h.1 a rfl

theorem respects_check {ok : Unit → Standing} (limit : Deadline) :
    Respects faults used (check limit) ok fail held won l ↔
      ∀ l', l.Waits held l' → fail held won l' ∧ ok () held won l' := by
  simp only [check, respects_bind, respects_expired, respects_ite, respects_throw, respects_pure]
  refine forall_congr' fun l' => imp_congr_right fun _ => ?_
  constructor
  · intro h
    exact ⟨(h true).1 rfl, (h false).2 (by decide)⟩
  · intro h late
    exact ⟨fun _ => h.1, fun _ => h.2⟩

theorem respects_found {e : Entity} (id : Id e) (row : Option α) :
    Respects faults used (found id row) ok fail held won l ↔
      (∀ a, row = some a → ok a held won l) ∧ (row = none → fail held won l) := by
  unfold found
  rw [respects_require]
  cases row <;> simp

/-- A look-up that is not begun after the deadline. -/
theorem respects_boundedLook {c : StoreCall} {found : Ledger → c.Result}
    (h : ∀ l : Ledger, l.answer c = .ok (found l, l)) (hleft : ∀ n : Counters, n.Left c)
    (hreads : c.concludes = []) {ok : c.Result → Standing} (limit : Deadline)
    (hfail : ∀ l', l.Waits held l' → fail held won l')
    (hok : ∀ l', l.Waits held l' → ok (found l') held won l') :
    @Respects c.Result faults used (boundedCall limit c) ok fail held won l := by
  simp only [boundedCall, respects_bind, respects_check, respects_look h hleft hreads]
  intro l₁ hwaits₁
  refine ⟨hfail l₁ hwaits₁, fun l₂ hwaits₂ => ?_⟩
  have hwaits := hwaits₁.trans hwaits₂
  exact ⟨fun _ => hfail l₂ hwaits, hok l₂ hwaits⟩

/-- A lock that was given back, while what holds as long as it is free. -/
def Released (used : Tiers → Prop) (key : LockKey) (Q : Standing) : Standing := fun held won l =>
  ∀ l', l.Waits held l' → l'.Free used key ∧ ∃ rest, held = key :: rest ∧ Q rest won l'

theorem respects_locked (key : LockKey) (limit : Deadline) (body : Operation α) :
    Respects faults used (locked key limit body) ok fail held won l ↔
      ∀ l', l.Waits held l' → fail held won l' ∧ (key ∉ held → l'.Free used key →
        Respects faults used body (fun a => Released used key (ok a)) (Released used key fail)
          (key :: held) won l') := by
  refine forall_congr' fun l' => imp_congr_right fun _ => and_congr_right fun _ => ?_
  refine imp_congr_right fun _ => imp_congr_right fun _ => ?_
  refine (Program.respects_bind body.run fun result => .ask (.release key) fun _ =>
    .done result).trans (iff_of_eq ?_)
  refine congrArg (fun Q => Program.Respects faults used Q body.run (key :: held) won l') ?_
  funext result
  cases result <;> rfl

theorem respects_compensated (write : Operation α) (undo : Operation β) :
    Respects faults used (compensated write undo) ok fail held won l ↔
      Respects faults used write ok (Respects faults used undo (fun _ => fail) fail)
        held won l := by
  refine (Program.respects_bind _ _).trans (iff_of_eq ?_)
  refine congrArg (fun Q => Program.Respects faults used Q write.run held won l) ?_
  funext result held' won' l'
  cases result with
  | error cause =>
    refine propext ((Program.respects_bind _ _).trans (iff_of_eq ?_))
    refine congrArg (fun Q => Program.Respects faults used Q undo.run held' won' l') ?_
    funext result
    cases result <;> rfl
  | ok a => rfl

end Operation

end Lending
