import Lending.Proofs.Engine.CreditExact

/-!
# Trying again after an outage

A payment that could not be settled and a loan that could not be activated begin when they are tried
again, whichever store calls failed before, unless the schedule of the first attempt was left
behind: its removal, too, can fail. Such a schedule is not taken over by later attempts. It stops
all of them, and the owner stays where it is.

* `Store.Begun`: an obligation that has begun, with the one schedule that it must have.
* `World.Retries`: what comes of trying again.
* `Transcript.retries`: both obligations in all states that engines come to.
* `World.stuck_retries`: a payment that can never be settled.
-/

namespace Lending

/-! ## Terms of loans -/

/-- Every loan is for a month at least. -/
def Ledger.Termed (l : Ledger) : Prop := ∀ loan ∈ l.loans.values, loan.term ≠ 0

theorem Engine.term_of_readLoan {policy : Policy} {r : LoanRequest} {read : Amount × Currency}
    (h : readLoan policy r = .ok read) : r.term ≠ 0 := by
  intro hzero
  simp only [readLoan, bind, Except.bind, hzero, true_or, if_true, throw, throwThe,
    MonadExceptOf.throw] at h
  repeat' split at h
  all_goals cases h

/-- Every step keeps the terms, and a loan without one is not filed. -/
theorem termed_invariant (faults : Faults) (policy : Policy) :
    Books.Invariant faults policy fun b => b.ledger.Termed := by
  intro b b' hsound hb hstep
  have hterm : ∀ {loan : Loan}, b.ledger.loans.get? loan.id = some loan → loan.term ≠ 0 :=
    fun hknown => hb _ (hsound.loans.mem_values.mpr hknown)
  cases hstep with
  | taken now => exact hb
  | withdrawn n => exact hb
  | remnant remnant =>
    cases remnant with
    | nothing alike =>
      rw [Ledger.Termed, alike.loans]
      exact hb
    | settling | activating | repaying | defaulting => exact hb
  | effect effect =>
    cases effect with
    | unchanged => exact hb
    | applied | decided | paid | settled | paymentFailed | collected | collectionAsked
    | defaultedAgain => exact hb
    | @filed _ _ _ _ loan read _ new =>
      refine Ledger.forall_loans_insert hb hsound loan ?_ rfl
      rw [new]
      exact Engine.term_of_readLoan read
    | @loanDecided loan next _ approvedAt known =>
      have hold := hterm known
      exact Ledger.forall_loans_insert hb hsound { loan with status := next, approvedAt } hold rfl
    | @activated loan _ loan' _ _ _ _ known _ start _ new =>
      have hold := hterm known
      have hid : loan'.id = loan.id := by rw [new, start]
      refine Ledger.forall_loans_insert hb hsound loan' ?_ (by rw [hid])
      rw [new, start]
      exact hold
    | @repaid loan _ amount _ schedule _ _ _ known =>
      have hold := hterm known
      exact Ledger.forall_loans_insert hb hsound (loan.repaid schedule amount).1 hold rfl
    | @defaulted loan known =>
      have hold := hterm known
      exact Ledger.forall_loans_insert hb hsound
        { loan with status := .defaulted, nextPayment := none } hold rfl

/-! ## Obligations in the store -/

/-- The row of the obligation is in the store. -/
def Store.Has (s : Store) : Obligation → Prop
  | .payment p => s.look (.getPayment p.id) = .ok (some p)
  | .loan loan => s.look (.getLoan loan.id) = .ok (some loan)

instance (s : Store) : (o : Obligation) → Decidable (s.Has o)
  | .payment _ => inferInstanceAs (Decidable (_ = _))
  | .loan _ => inferInstanceAs (Decidable (_ = _))

/-- The obligation has begun. The one schedule that it has splits its principal exactly, and nothing
of it was paid yet. -/
structure Store.Begun (tiers : Tiers) (s : Store) (o : Obligation) : Prop where
  row : s.Has o
  begun : o.Begun
  schedule : ∃ entries, s.look (.installmentsOf o.owner) = .ok entries ∧
    o.Scheduled (· = tiers) (entries.map Installment.line) ∧ ∀ e ∈ entries, e.status = .pending

/-- What comes of trying again to begin the obligation. If it has no schedule, the attempt succeeds
and the obligation begins. If a schedule was left behind, the attempt fails and changes no row. -/
structure World.Retries {α : Type} (policy : Policy) (w : World) (o : Obligation)
    (op : Operation α) (good : α → Prop) : Prop where
  begins : w.store.look (.installmentsOf o.owner) = .ok [] →
    ∃ a o', good a ∧ (w.run op.run).1 = some (.ok a) ∧ o'.owner = o.owner ∧
      o'.principal = o.principal ∧ (w.run op.run).2.store.Begun policy.tiers o'
  stuck : ¬w.store.look (.installmentsOf o.owner) = .ok [] →
    (w.run op.run).1 = some (.error o.owner.alreadyScheduled) ∧
      w.store.SameRows (w.run op.run).2.store ∧ (w.run op.run).2.queue = w.queue

section

variable {policy : Policy} {b b' : Books} {s : Store}

theorem Store.Keeps.has_iff {l : Ledger} (h : s.Keeps l) (hl : l.Ordered) {o : Obligation} :
    s.Has o ↔ match o with
      | .payment p => l.payments.get? p.id = some p
      | .loan loan => l.loans.get? loan.id = some loan := by
  cases o with
  | payment p =>
    rw [Has, h.look hl (.getPayment p.id) rfl]
    exact ⟨Except.ok.inj, congrArg _⟩
  | loan loan =>
    rw [Has, h.look hl (.getLoan loan.id) rfl]
    exact ⟨Except.ok.inj, congrArg _⟩

/-- An obligation whose schedule was just written. -/
theorem Ledger.Schedules.begun {l l' : Ledger} {o o' : Obligation} {entries : List Installment}
    {c : Counters} {t : Table InstallmentId Installment} (h : l.Schedules policy o entries c t)
    (hl : l.Sound) (hinstallments : l'.installments = t) (hkeeps : s.Keeps l') (hl' : l'.Ordered)
    (hhas : s.Has o') (howner : o'.owner = o.owner) (hbegun : o'.Begun)
    (hscheduled : o.Scheduled (· = policy.tiers) (entries.map Installment.line) →
      o'.Scheduled (· = policy.tiers) (entries.map Installment.line)) (ho : o.Begun) :
    s.Begun policy.tiers o' := by
  obtain ⟨hne, moment, hstarted, hsplits⟩ := h.splits
  refine ⟨hhas, hbegun, entries, ?_, hscheduled ⟨iff_of_true hne ho, fun _ =>
    ⟨policy.tiers, moment, rfl, hstarted, hsplits⟩⟩, h.pending⟩
  rw [hkeeps.look hl' (.installmentsOf o'.owner) rfl, howner]
  have hwritten := h.installmentsOf hl hinstallments o.owner
  rw [if_pos rfl] at hwritten
  exact congrArg _ hwritten

/-- A success that is applied begins the payment. -/
theorem Effect.begins_payment {id : PaymentId} {token : String}
    (h : Effect policy b (.deliverPayment id token) .applied b')
    (htoken : Lifecycle.ofToken PaymentStatus token = .ok .successful) (hsound : b.ledger.Sound)
    (hordered : b'.ledger.Ordered) (hkeeps : s.Keeps b'.ledger) :
    ∃ p p', b.ledger.payments.get? id = some p ∧ p'.id = id ∧ p'.amount = p.amount ∧
      s.Begun policy.tiers (.payment p') := by
  cases h with
  | unchanged idle => exact absurd rfl idle
  | @settled _ p p' _ _ entries c t _ known _ _ _ new written =>
    have hid : p'.id = p.id := by rw [new]
    have hbegun : (Obligation.payment p').Begun := by rw [new]; rfl
    refine ⟨p, p', known, hid, by rw [new], ?_⟩
    have hhas : s.Has (.payment p') := by
      rw [hkeeps.has_iff hordered]
      show Table.get? (Table.insert _ p.id p') p'.id = some p'
      rw [hid, Table.get?_insert, if_pos rfl]
    exact written.begun hsound rfl hkeeps hordered hhas rfl hbegun id hbegun
  | paymentFailed outcome =>
    rw [htoken] at outcome
    cases outcome

/-- A loan that is activated begins. -/
theorem Effect.begins_loan {id : LoanId} {details : LoanDetails}
    (h : Effect policy b (.activateLoan id) details b') (hsound : b.ledger.Sound)
    (hordered : b'.ledger.Ordered) (hkeeps : s.Keeps b'.ledger) :
    ∃ loan loan', b.ledger.loans.get? id = some loan ∧ loan'.id = id ∧
      loan'.principal = loan.principal ∧ s.Begun policy.tiers (.loan loan') := by
  cases h with
  | unchanged idle => exact absurd trivial idle
  | @activated loan started loan' _ entries c t known _ start written new =>
    have hid : loan'.id = loan.id := by rw [new, start]
    have hbegun : (Obligation.loan loan').Begun := by rw [new, start]; exact .inl rfl
    refine ⟨loan, loan', known, hid, by rw [new, start], ?_⟩
    have hhas : s.Has (.loan loan') := by
      rw [hkeeps.has_iff hordered]
      show Table.get? (Table.insert _ loan.id loan') loan'.id = some loan'
      rw [hid, Table.get?_insert, if_pos rfl]
    have hstarted : (Obligation.loan started).Begun := by rw [start]; exact .inl rfl
    refine written.begun hsound rfl hkeeps hordered hhas (by rw [new]; rfl) hbegun ?_ hstarted
    intro hscheduled
    exact hscheduled.loan (iff_of_true hstarted hbegun) (by rw [new]) (by rw [new]) (by rw [new])

end

/-! ## Trying again -/

section

variable {policy : Policy} {w : World} {b : Books} {log : List Receipt} {limit : Deadline}

/-- A schedule that was left behind, in the books and in the store. -/
theorem World.Shows.scheduled_iff (h : w.Shows b) (hsound : b.ledger.Sound) (owner : Owner) :
    w.store.look (.installmentsOf owner) = .ok [] ↔ b.ledger.installmentsOf owner = [] := by
  rw [h.1.look hsound.toOrdered (.installmentsOf owner) rfl]
  exact ⟨Except.ok.inj, congrArg _⟩

theorem World.AtRest.retries_payment (h : w.AtRest b) {p : Payment} {a : Application}
    (hknown : b.ledger.payments.get? p.id = some p) (hpending : p.status = .pending)
    (ha : b.ledger.applications.get? a.id = some a) (happlication : p.application = a.id)
    (hfits : b.ledger.creditUsed a.id + p.amount.toNat ≤ a.amount.toNat)
    (hlimit : limit.isExpired w.time = false)
    (hdatable : (Obligation.payment p).Datable policy.tiers w.clock)
    (hfollows : w.Follows Faults.none
      (Engine.deliverPayment policy p.id "SUCCESSFUL" limit).run) :
    w.Retries policy (.payment p) (Engine.deliverPayment policy p.id "SUCCESSFUL" limit)
      (· = .applied) := by
  let call := EngineCall.deliverPayment p.id "SUCCESSFUL"
  constructor <;> rw [h.shows.scheduled_iff h.sound]
  · intro hnone
    have hsettle := h.settle ha hlimit hknown hpending happlication hnone hdatable hfollows
    obtain ⟨_, rfl, hresult⟩ := hsettle.succeeds.mpr (by
      simp only [Amount.toNat] at hfits ⊢
      omega)
    obtain ⟨b', hshows', hsound', heffect⟩ :=
      run_shows (call.ensures h.sound limit) h.shows h.sound hfollows
    rw [show (w.run (call.program policy limit).run).1 = _ from hresult] at heffect
    obtain ⟨p₁, p', hp₁, hid, hamount, hbegun⟩ :=
      Effect.begins_payment heffect rfl h.sound hsound'.toOrdered hshows'.1
    obtain rfl := Option.some.inj (hp₁.symm.trans hknown)
    exact ⟨_, .payment p', rfl, hresult, congrArg Owner.payment hid, hamount, hbegun⟩
  · intro hsome
    have hsettles : Scene.Settles ⟨b, w⟩ p a :=
      ⟨hknown, hpending, happlication ▸ ha, happlication ▸ h.credit.kept a.id a ha⟩
    have hrun := (run_scene (Engine.deliverPayment_returns p.id "SUCCESSFUL").run h.idle
      h.shows.stages h.sound.toOrdered hfollows).1
    have hend : (Scene.perform ⟨b, w⟩ (Engine.deliverPayment policy p.id "SUCCESSFUL" limit)).1 =
        _ := Scene.perform_deliverPayment hlimit hknown hpending rfl
    rw [Scene.perform_settlePayment_conflict hlimit hsettles (happlication ▸ hfits) hsome] at hend
    have hfailed := hrun.trans (congrArg some hend)
    have hruns : w.Runs Faults.none (call.program policy limit).run _ _ :=
      hfollows.runsTo hfailed
    have hleft := h.shows.failed Faults.none_leaveSchedules Faults.none_leaveStatuses h.sound hruns
    rw [after_store, after_queue] at hleft
    exact ⟨hfailed, hleft⟩

theorem World.AtRest.retries_loan (h : w.AtRest b) {loan : Loan}
    (hknown : b.ledger.loans.get? loan.id = some loan) (happroved : loan.status = .approved)
    (hterm : loan.term ≠ 0) (hlimit : limit.isExpired w.time = false)
    (hdatable : (Obligation.loan loan).Datable policy.tiers w.clock)
    (hfollows : w.Follows Faults.none (Engine.activateLoan policy loan.id limit).run) :
    w.Retries policy (.loan loan) (Engine.activateLoan policy loan.id limit) fun _ => True := by
  have hrun := (run_scene (Engine.activateLoan_returns loan.id).run h.idle
    h.shows.stages h.sound.toOrdered hfollows).1
  let call := EngineCall.activateLoan loan.id
  constructor <;> rw [h.shows.scheduled_iff h.sound]
  · intro hnone
    obtain ⟨details, hend⟩ : ∃ details, (Scene.perform ⟨b, w⟩
        (Engine.activateLoan policy loan.id limit)).1 = .ok details :=
      Scene.perform_activateLoan hlimit hknown happroved hterm hdatable hnone
    have hresult := hrun.trans (congrArg some hend)
    obtain ⟨b', hshows', hsound', heffect⟩ :=
      run_shows (call.ensures h.sound limit) h.shows h.sound hfollows
    rw [show (w.run (call.program policy limit).run).1 = _ from hresult] at heffect
    obtain ⟨loan₁, loan', hloan₁, hid, hprincipal, hbegun⟩ :=
      Effect.begins_loan heffect h.sound hsound'.toOrdered hshows'.1
    obtain rfl := Option.some.inj (hloan₁.symm.trans hknown)
    exact ⟨details, .loan loan', trivial, hresult, congrArg Owner.loan hid, hprincipal, hbegun⟩
  · intro hsome
    have hend : (Scene.perform ⟨b, w⟩ (Engine.activateLoan policy loan.id limit)).1 = _ :=
      Scene.perform_activateLoan_conflict hlimit hknown happroved hsome
    have hfailed := hrun.trans (congrArg some hend)
    have hruns : w.Runs Faults.none (call.program policy limit).run _ _ :=
      hfollows.runsTo hfailed
    have hleft := h.shows.failed Faults.none_leaveSchedules Faults.none_leaveStatuses h.sound hruns
    rw [after_store, after_queue] at hleft
    exact ⟨hfailed, hleft⟩

/-- In all states that engines come to, with any faults, a pending payment that fits into the credit
that is left and an approved loan begin when they are tried again by a store that works, unless a
schedule was left behind, which stops all attempts. None was left if it could always be removed. -/
theorem Transcript.retries {faults : Faults} (h : Transcript faults policy w log)
    (hlimit : limit.isExpired w.time = false) :
    (∀ p a left, w.store.Has (.payment p) → p.status = .pending → w.store.Leaves a left →
      p.application = a.id → p.amount.toNat ≤ left →
      (Obligation.payment p).Datable policy.tiers w.clock →
      w.Follows Faults.none (Engine.deliverPayment policy p.id "SUCCESSFUL" limit).run →
      w.Retries policy (.payment p) (Engine.deliverPayment policy p.id "SUCCESSFUL" limit)
        (· = .applied)) ∧
    (∀ loan, w.store.Has (.loan loan) → loan.status = .approved →
      (Obligation.loan loan).Datable policy.tiers w.clock →
      w.Follows Faults.none (Engine.activateLoan policy loan.id limit).run →
      w.Retries policy (.loan loan) (Engine.activateLoan policy loan.id limit) fun _ => True) ∧
    (¬faults.LeaveSchedules → ∀ o, w.store.Has o → ¬o.Begun →
      w.store.look (.installmentsOf o.owner) = .ok []) := by
  obtain ⟨b, hb, htermed⟩ := h.atRest (termed_invariant faults) (fun _ h => nomatch h) fun hb => hb
  have hhas := fun o => hb.shows.1.has_iff hb.sound.toOrdered (o := o)
  refine ⟨?_, ?_, ?_⟩
  · intro p a left hp hpending hleaves happlication hfits hdatable hfollows
    have hknown := (hhas (.payment p)).mp hp
    have hlook := hb.shows.1.look hb.sound.toOrdered
    have ha : b.ledger.applications.get? a.id = some a :=
      Except.ok.inj ((hlook (.getApplication a.id) rfl).symm.trans hleaves.1)
    have hkept := hb.credit.kept a.id a ha
    obtain rfl := hleaves.unique (hb.leaves ha)
    exact hb.retries_payment hknown hpending ha happlication (by omega) hlimit hdatable hfollows
  · intro loan hloan happroved hdatable hfollows
    have hknown := (hhas (.loan loan)).mp hloan
    have hterm := htermed loan (hb.sound.loans.mem_values.mpr hknown)
    exact hb.retries_loan hknown happroved hterm hlimit hdatable hfollows
  · intro hfaults o ho hbegun
    obtain ⟨b', hb'⟩ := h.tidy hfaults
    have hknown := (hb'.shows.1.has_iff hb'.sound.toOrdered).mp ho
    have howes : b'.ledger.Owes o := by
      cases o with
      | payment p => exact hb'.sound.payments.mem_values.mpr hknown
      | loan loan => exact hb'.sound.loans.mem_values.mpr hknown
    have hnone := (hb'.schedules.scheduled o howes).eq_nil hbegun
    exact (hb'.shows.scheduled_iff hb'.sound o.owner).mpr (List.map_eq_nil_iff.mp hnone)

/-- Every call may be refused, those that undo others included. -/
def Faults.refusals : Faults := fun _ fault => fault = .refusal

instance (call : StoreCall) (fault : Fault) : Decidable (Faults.refusals call fault) :=
  inferInstanceAs (Decidable (_ = _))

/-- A payment and a loan whose rows could not be written at first. The schedule of the loan could be
removed, that of the payment could not. -/
def World.stuck : World :=
  { World.sample with
    outages := ((Outages.set {} .updatePayment 0 1 .refusal).set .deleteInstallmentsOf 0 1
      .refusal).set .updateLoan 1 1 .refusal }.afterCalls {}
    [.apply { user := "alice", amount := 1000, currency := "USD" },
      .decideApplication ⟨1⟩,
      .pay { application := ⟨1⟩, user := "alice", amount := 700, currency := "USD",
             method := "card" },
      .deliverPayment ⟨1⟩ "SUCCESSFUL",
      .fileLoan { user := "bob", principal := 703, currency := "USD", term := 4 },
      .decideLoan ⟨1⟩,
      .activateLoan ⟨1⟩]

theorem World.stuck_transcript : ∃ log, Transcript Faults.refusals {} stuck log := by
  have hempty : Transcript Faults.refusals {} { World.sample with
      outages := ((Outages.set {} .updatePayment 0 1 .refusal).set .deleteInstallmentsOf 0 1
        .refusal).set .updateLoan 1 1 .refusal } [] := .start ⟨.inl rfl, rfl⟩ rfl
  exact hempty.afterCalls (fun _ hcrash => nomatch hcrash) (by decide +kernel)

/-- The payment, which fits into what is left of its credit. -/
def World.stuckPayment : Payment where
  id := ⟨1⟩
  application := ⟨1⟩
  user := "alice"
  order := "00000000-0000-4000-8100-000000000000"
  amount := ⟨700, by decide⟩
  currency := ⟨"USD", by decide⟩
  method := ⟨"card", by decide⟩
  status := .pending
  createdAt := .epoch
  settledAt := none

def World.stuckApplication : Application :=
  { Application.new "alice" ⟨1000, by decide⟩ ⟨"USD", by decide⟩ .epoch with
    id := ⟨1⟩, status := .approved, decidedAt := some .epoch, creditScore := some 700 }

theorem World.stuckPayment_fits :
    stuck.store.Has (.payment stuckPayment) ∧ stuck.store.Leaves stuckApplication 1000 :=
  ⟨by decide +kernel, by decide +kernel, _, rfl, by decide +kernel⟩

def World.stuckLoan : Loan :=
  { Loan.new "bob" ⟨703, by decide⟩ ⟨"USD", by decide⟩ 4 .epoch with
    id := ⟨1⟩, status := .approved, approvedAt := some .epoch }

/-- The payment is stuck. The loan begins when it is activated again. -/
theorem World.stuck_retries :
    (stuck.run (Engine.deliverPayment {} ⟨1⟩ "SUCCESSFUL" .unbounded).run).1 =
        some (.error (Owner.payment ⟨1⟩).alreadyScheduled) ∧
      ∃ details o, (stuck.run (Engine.activateLoan {} ⟨1⟩ .unbounded).run).1 =
          some (.ok details) ∧ o.owner = .loan ⟨1⟩ ∧ o.principal.value = 703 ∧
        (stuck.run (Engine.activateLoan {} ⟨1⟩ .unbounded).run).2.store.Begun .standard o := by
  obtain ⟨log, htranscript⟩ := stuck_transcript
  obtain ⟨hhas, hleaves⟩ := stuckPayment_fits
  have hlimit : Deadline.unbounded.isExpired stuck.time = false := rfl
  obtain ⟨hpayments, hloans, -⟩ := htranscript.retries hlimit
  have hsettling := hpayments stuckPayment stuckApplication 1000 hhas rfl hleaves rfl
    (by decide +kernel) (by decide +kernel) (by decide +kernel)
  have hactivating := hloans stuckLoan (by decide +kernel) rfl (by decide +kernel)
    (by decide +kernel)
  obtain ⟨details, o, -, hresult, howner, hprincipal, hbegun⟩ :=
    hactivating.begins (by decide +kernel)
  exact ⟨(hsettling.stuck (by decide +kernel)).1, details, o, hresult, howner,
    congrArg Amount.value hprincipal, hbegun⟩

/-- That the store works again is not enough for a pending payment that fits into what is left. -/
theorem World.stuck_refuses :
    ¬∀ (policy : Policy) (w : World) (log : List Receipt) (p : Payment) (a : Application)
        (left : Nat), Transcript Faults.refusals policy w log → w.store.Has (.payment p) →
      p.status = .pending → w.store.Leaves a left → p.application = a.id → p.amount.toNat ≤ left →
      (Obligation.payment p).Datable policy.tiers w.clock →
      w.Follows Faults.none (Engine.deliverPayment policy p.id "SUCCESSFUL" .unbounded).run →
      (w.run (Engine.deliverPayment policy p.id "SUCCESSFUL" .unbounded).run).1 =
        some (.ok .applied) := by
  intro hall
  obtain ⟨log, htranscript⟩ := stuck_transcript
  obtain ⟨hhas, hleaves⟩ := stuckPayment_fits
  have happlied := hall {} stuck log stuckPayment stuckApplication 1000 htranscript hhas rfl
    hleaves rfl (by decide +kernel) (by decide +kernel) (by decide +kernel)
  revert happlied
  decide +kernel

end

end Lending
