import Lending.Proofs.Engine.LoanRetries
import Lending.Proofs.Engine.Punctual

/-!
# Decisions in time

A pending application or loan is decided by a score, which takes its time. The decision is recorded
exactly if the score is there before the deadline. A score that is there just at the deadline has
been waited for in vain: the wait succeeds, but nothing is begun after it. Then the call times out,
and the application or the loan is as pending as before.

* `Candidate`: an application or a loan to decide.
* `Scene.perform_decide`, `Scene.perform_decide_late`: a decision in time, and one that is late.
* `World.DecidesInTime`: the decision is recorded exactly if the score is there in time.
* `Transcript.decidesInTime`: writes and decisions in all states that engines come to.
-/

namespace Lending

/-! ## Deadlines -/

namespace Deadline

/-- Work that is done before the deadline is waited for. -/
theorem wait_inTime {limit : Deadline} {now work : Nat}
    (h : limit.isExpired (now + work) = false) : limit.wait now work = (true, now + work) := by
  have hnow := isExpired_of_le (Nat.le_add_right now work) h
  rw [wait, hnow, if_neg Bool.false_ne_true]
  obtain ⟨_ | moment⟩ := limit
  · rfl
  · simp only [isExpired, decide_eq_false_iff_not] at h
    have hle : now + work ≤ moment := by omega
    exact if_pos hle

/-- Work that takes until the deadline or longer is given up then, unless it is just done. -/
theorem wait_late {now work moment : Nat} (hnow : now < moment) (hlate : moment ≤ now + work) :
    Deadline.wait ⟨some moment⟩ now work = (decide (moment = now + work), moment) := by
  have hle : ¬moment ≤ now := by omega
  simp only [wait, isExpired, hle, decide_false, Bool.false_eq_true, if_false]
  by_cases hpunctual : moment = now + work
  · simp [hpunctual]
  · have hlong : ¬now + work ≤ moment := by omega
    simp [hpunctual, hlong]

end Deadline

/-! ## Verdicts -/

/-- Every verdict may be given on what is pending. -/
theorem ApplicationStatus.advance_pending (id : UInt64) (p : Prop) [Decidable p] :
    Lifecycle.advance id pending (if p then approved else rejected) = .ok .applied := by
  split <;> rfl

theorem LoanStatus.advance_pending (id : UInt64) (p : Prop) [Decidable p] :
    Lifecycle.advance id pending (if p then approved else rejected) = .ok .applied := by
  split <;> rfl

/-! ## Candidates -/

/-- What is to be decided. -/
inductive Candidate where
  | application (application : Application)
  | loan (loan : Loan)

namespace Candidate

def user : Candidate → String
  | .application a => a.user
  | .loan l => l.user

/-- The call that decides it. -/
@[reducible]
def call : Candidate → EngineCall
  | .application a => .decideApplication a.id
  | .loan l => .decideLoan l.id

def Pending : Candidate → Prop
  | .application a => a.status = .pending
  | .loan l => l.status = .pending

/-- This is the row that a store has of it. -/
def StoredIn (s : Store) : Candidate → Prop
  | .application a => s.look (.getApplication a.id) = .ok (some a)
  | .loan l => s.look (.getLoan l.id) = .ok (some l)

/-- What the call answers on a score: approved is whoever reaches the threshold. -/
def verdict (policy : Policy) (score : CreditScore) : (c : Candidate) → c.call.Result
  | .application _ =>
    if policy.approvalThreshold ≤ score.value then ApplicationStatus.approved else .rejected
  | .loan _ => if policy.approvalThreshold ≤ score.value then LoanStatus.approved else .rejected

/-- The row after the decision. -/
def decided (policy : Policy) (score : CreditScore) (moment : Instant) : Candidate → Candidate
  | .application a => .application { a with
      status := if policy.approvalThreshold ≤ score.value then .approved else .rejected
      decidedAt := some moment
      creditScore := some score.value }
  | .loan l => .loan { l with
      status := if policy.approvalThreshold ≤ score.value then .approved else .rejected
      approvedAt := if policy.approvalThreshold ≤ score.value then some moment else l.approvedAt }

/-- This is the row that a ledger has of it. -/
def BookedIn (ledger : Ledger) : Candidate → Prop
  | .application a => ledger.applications.get? a.id = some a
  | .loan l => ledger.loans.get? l.id = some l

/-- The ledger with this row. -/
def bookedTo (ledger : Ledger) : Candidate → Ledger
  | .application a => { ledger with applications := ledger.applications.insert a.id a }
  | .loan l => { ledger with loans := ledger.loans.insert l.id l }

variable {c : Candidate} {s : Store} {ledger : Ledger}

theorem storedIn_iff (hs : s.Keeps ledger) (hledger : ledger.Ordered) :
    c.StoredIn s ↔ c.BookedIn ledger := by
  cases c with
  | application a =>
    show s.look (.getApplication a.id) = .ok (some a) ↔ ledger.applications.get? a.id = some a
    rw [hs.look hledger (.getApplication a.id) rfl, Except.ok.injEq]
  | loan l =>
    show s.look (.getLoan l.id) = .ok (some l) ↔ ledger.loans.get? l.id = some l
    rw [hs.look hledger (.getLoan l.id) rfl, Except.ok.injEq]

theorem bookedIn_bookedTo (c : Candidate) (ledger : Ledger) : c.BookedIn (c.bookedTo ledger) := by
  cases c with
  | application a =>
    show Table.get? (Table.insert _ _ _) _ = _
    rw [Table.get?_insert, if_pos rfl]
  | loan l =>
    show Table.get? (Table.insert _ _ _) _ = _
    rw [Table.get?_insert, if_pos rfl]

theorem bookedTo_ordered (h : ledger.Ordered) (c : Candidate) : (c.bookedTo ledger).Ordered := by
  cases c with
  | application a => exact { h with applications := h.applications.insert a }
  | loan l => exact { h with loans := h.loans.insert l }

end Candidate

/-! ## Scenes -/

/-- The world after a score that was waited for in time. -/
def World.scored (w : World) (user : String) : World :=
  { w.passTo (w.time + w.scoreDelay) with scorer := (w.scorer.score user).2 }

/-- The scorer after a wait that takes until the deadline or longer. A wait that ends just then has
ended in time, so that the score was drawn. -/
def World.scorerAt (w : World) (user : String) (moment : Nat) : Scorer :=
  if w.time < moment ∧ moment = w.time + w.scoreDelay then (w.scorer.score user).2 else w.scorer

theorem World.scorer_passTo (w : World) (time : Nat) : (w.passTo time).scorer = w.scorer := by
  unfold passTo
  split <;> rfl

theorem World.time_scored (w : World) (user : String) :
    (w.scored user).time = w.time + w.scoreDelay :=
  (w.time_passTo _).trans (Nat.max_eq_right (Nat.le_add_right ..))

namespace Scene

open Engine Operation

variable {s : Scene} {policy : Policy} {limit : Deadline} {user : String} {score : CreditScore}

theorem perform_score (h : limit.isExpired (s.around.time + s.around.scoreDelay) = false)
    (hscore : (s.around.scorer.score user).1 = .ok score) :
    s.perform (Operation.score user limit) =
      (.ok score, { s with around := s.around.scored user }) := by
  have hrun : s.perform (Operation.score user limit) = s.answer (.score user limit) := rfl
  rw [hrun, answer, Deadline.wait_inTime h]
  simp only [World.drawScore, if_true, World.scorer_passTo, hscore, World.scored]

/-- A score that is late may still be there just at the deadline. -/
theorem perform_score_late {moment : Nat} (hnow : s.around.time < moment)
    (hlate : moment ≤ s.around.time + s.around.scoreDelay)
    (hscore : (s.around.scorer.score user).1 = .ok score) :
    ∃ around, around.time = moment ∧ around.scorer = s.around.scorerAt user moment ∧
      (s.perform (Operation.score user ⟨some moment⟩) = (.ok score, { s with around }) ∨
        s.perform (Operation.score user ⟨some moment⟩) = (.error .timeout, { s with around })) := by
  have hrun : s.perform (Operation.score user ⟨some moment⟩) =
      s.answer (.score user ⟨some moment⟩) := rfl
  have hpassed : (s.around.passTo moment).time = moment := by
    rw [World.time_passTo]
    omega
  rw [hrun, answer, Deadline.wait_late hnow hlate]
  by_cases hpunctual : moment = s.around.time + s.around.scoreDelay
  · refine ⟨{ s.around.passTo moment with scorer := (s.around.scorer.score user).2 }, hpassed, ?_⟩
    simp only [World.scorerAt, hnow, ← hpunctual, and_self, if_true, decide_true, World.drawScore,
      World.scorer_passTo, hscore, true_or]
  · refine ⟨s.around.passTo moment, hpassed, ?_⟩
    simp only [World.scorerAt, hpunctual, and_false, if_false, decide_false, World.drawScore,
      Bool.false_eq_true, World.scorer_passTo, or_true, and_self]

theorem perform_verdict (h : limit.isExpired (s.around.time + s.around.scoreDelay) = false)
    (hscore : (s.around.scorer.score user).1 = .ok score) :
    s.perform (Engine.verdict policy user limit) =
      (.ok { score, approved := policy.approvalThreshold ≤ score.value },
        { s with around := s.around.scored user }) := by
  simp only [Engine.verdict, perform_bind, perform_score h hscore, perform_pure]

variable {c : Candidate}

/-- A decision that begins too late. -/
theorem perform_decide_expired (hlimit : limit.isExpired s.around.time = true) :
    s.perform (c.call.program policy limit) = (.error .timeout, s) := by
  cases c with
  | application a => exact perform_locked_late hlimit (.application a.id) _
  | loan l => exact perform_locked_late hlimit (.loan l.id) _

variable (hknown : c.BookedIn s.books.ledger) (hpending : c.Pending)
  (hscore : (s.around.scorer.score c.user).1 = .ok score)

include hknown hpending hscore

/-- A decision whose score is there in time. -/
theorem perform_decide
    (hlimit : limit.isExpired (s.around.time + s.around.scoreDelay) = false) :
    s.perform (c.call.program policy limit) = (.ok (c.verdict policy score),
      { books := { s.books with
          ledger := (c.decided policy score (s.around.scored c.user).clock).bookedTo
            s.books.ledger }
        around := s.around.scored c.user }) := by
  have hbegun := Deadline.isExpired_of_le (Nat.le_add_right _ s.around.scoreDelay) hlimit
  have hscored : limit.isExpired (s.around.scored c.user).time = false := by
    rw [World.time_scored]
    exact hlimit
  have hcheck : Scene.perform { s with around := s.around.scored c.user } (check limit) = _ :=
    perform_check hscored
  have hverdict : s.perform (Engine.verdict policy c.user limit) = _ :=
    perform_verdict hlimit hscore
  cases c with
  | application a =>
    have hstatus : a.status = .pending := hpending
    have hrow : (s.books.ledger.applications.get? a.id).isSome := Option.isSome_of_eq_some hknown
    show s.perform (decideApplication policy a.id limit) = _
    simp only [Candidate.user] at hverdict hcheck
    simp only [decideApplication, perform_locked hbegun, perform_bind,
      perform_getApplication hbegun hknown, hstatus, ne_eq, not_true_eq_false, if_false, hverdict,
      decide_eq_true_eq, perform_require, ApplicationStatus.advance_pending, hcheck, perform_now,
      perform_call, Ledger.answer_updateApplication, hrow, perform_pure]
    rfl
  | loan l =>
    have hstatus : l.status = .pending := hpending
    have hrow : (s.books.ledger.loans.get? l.id).isSome := Option.isSome_of_eq_some hknown
    -- whether the clock is looked at depends on the verdict
    have hmoment : ∀ s : Scene, s.perform (some <$> (liftM Operation.now : Operation Instant)) =
        (.ok (some s.around.clock), s) := fun _ => rfl
    show s.perform (decideLoan policy l.id limit) = _
    simp only [Candidate.user] at hverdict hcheck
    simp only [decideLoan, perform_locked hbegun, perform_bind, perform_getLoan hbegun hknown,
      hstatus, ne_eq, not_true_eq_false, if_false, hverdict, perform_require, decide_eq_true_eq,
      LoanStatus.advance_pending, hcheck, Candidate.verdict, Candidate.decided, Candidate.user,
      Candidate.bookedTo]
    by_cases happroved : policy.approvalThreshold ≤ score.value
    · simp only [happroved, decide_true, if_true, perform_bind, hmoment, perform_call,
        Ledger.answer_updateLoan, hrow, perform_pure]
    · simp only [happroved, decide_false, Bool.false_eq_true, if_false, perform_bind, perform_call,
        Ledger.answer_updateLoan, hrow, perform_pure]

/-- A decision whose score is not there before the deadline: at once if that has expired, and at
the deadline otherwise, the call times out. -/
theorem perform_decide_late {moment : Nat}
    (hlate : moment ≤ s.around.time + s.around.scoreDelay) :
    ∃ around, around.time = max s.around.time moment ∧
      around.scorer = s.around.scorerAt c.user moment ∧
      s.perform (c.call.program policy ⟨some moment⟩) = (.error .timeout, { s with around }) := by
  by_cases hnow : moment ≤ s.around.time
  · have hlimit : Deadline.isExpired ⟨some moment⟩ s.around.time = true := decide_eq_true hnow
    have hscorer : s.around.scorerAt c.user moment = s.around.scorer :=
      if_neg fun h => Nat.not_lt.mpr hnow h.1
    exact ⟨s.around, (Nat.max_eq_left hnow).symm, hscorer.symm, perform_decide_expired hlimit⟩
  · have hbegun : Deadline.isExpired ⟨some moment⟩ s.around.time = false := decide_eq_false hnow
    obtain ⟨around, htime, hscorer, hscored⟩ :=
      perform_score_late (Nat.lt_of_not_le hnow) hlate hscore
    have hlate' : Deadline.isExpired ⟨some moment⟩ around.time = true :=
      decide_eq_true (Nat.le_of_eq htime.symm)
    have hcheck : Scene.perform { s with around } (check ⟨some moment⟩) = _ :=
      perform_check_late hlate'
    refine ⟨around, by omega, hscorer, ?_⟩
    cases c with
    | application a =>
      have hstatus : a.status = .pending := hpending
      show s.perform (decideApplication policy a.id ⟨some moment⟩) = _
      simp only [Candidate.user] at hscored
      -- the score, if there is one, is there only when the deadline has expired
      rcases hscored with hscored | hscored <;>
        simp only [decideApplication, perform_locked hbegun, perform_bind,
          perform_getApplication hbegun hknown, hstatus, ne_eq, not_true_eq_false, if_false,
          Engine.verdict, hscored, perform_pure, decide_eq_true_eq, perform_require,
          ApplicationStatus.advance_pending, hcheck]
    | loan l =>
      have hstatus : l.status = .pending := hpending
      show s.perform (decideLoan policy l.id ⟨some moment⟩) = _
      simp only [Candidate.user] at hscored
      rcases hscored with hscored | hscored <;>
        simp only [decideLoan, perform_locked hbegun, perform_bind, perform_getLoan hbegun hknown,
          hstatus, ne_eq, not_true_eq_false, if_false, Engine.verdict, hscored, perform_pure,
          decide_eq_true_eq, perform_require, LoanStatus.advance_pending, hcheck]

end Scene

/-! ## Worlds -/

section

variable {policy : Policy} {w w' : World} {b : Books} {c : Candidate} {log : List Receipt}

/-- The decision is recorded, when the score is there. -/
structure World.Records (policy : Policy) (w : World) (c : Candidate) (score : CreditScore)
    (moment : Nat) : Prop where
  result : (w.run (c.call.program policy ⟨some moment⟩).run).1 =
    some (.ok (c.verdict policy score))
  time : (w.run (c.call.program policy ⟨some moment⟩).run).2.time = w.time + w.scoreDelay
  row : (c.decided policy score (w.passTo (w.time + w.scoreDelay)).clock).StoredIn
    (w.run (c.call.program policy ⟨some moment⟩).run).2.store

/-- The call times out: at once if its deadline has expired, and at the deadline otherwise. The rows
are as before, and the call may be tried again. -/
structure World.TimesOut (policy : Policy) (w : World) (c : Candidate) (moment : Nat) : Prop where
  result : (w.run (c.call.program policy ⟨some moment⟩).run).1 = some (.error .timeout)
  time : (w.run (c.call.program policy ⟨some moment⟩).run).2.time =
    if moment ≤ w.time then w.time else moment
  scorer : (w.run (c.call.program policy ⟨some moment⟩).run).2.scorer = w.scorerAt c.user moment
  store : (w.run (c.call.program policy ⟨some moment⟩).run).2.store = w.store
  again : w.Attempts policy c.call (w.run (c.call.program policy ⟨some moment⟩).run).2

/-- If the scorer gives a score and the store works, a decision is recorded exactly if the score is
there before the deadline. Otherwise the call times out. -/
def World.DecidesInTime (policy : Policy) (w : World) (c : Candidate) : Prop :=
  ∀ score moment, (w.scorer.score c.user).1 = .ok score →
    w.Follows Faults.none (c.call.program policy ⟨some moment⟩).run →
      (w.Records policy c score moment ↔ w.time + w.scoreDelay < moment) ∧
        (¬w.time + w.scoreDelay < moment → w.TimesOut policy c moment)

/-- An attempt at a decision that fails leaves nothing behind, by whatever fault it failed. -/
theorem World.AtRest.undecided (h : w.AtRest b) (hattempts : w.Attempts policy c.call w') :
    w'.AtRest b := by
  induction hattempts with
  | start => exact h
  | attempt before limit runs failed ih =>
    obtain ⟨b', hshows', -, hremnant⟩ := ih.shows.remnant ih.sound runs failed
    have hsame : b' = b := by
      cases c <;> cases hremnant with
      | nothing alike numbers => exact alike.eq (numbers.resolve_left Bool.false_ne_true)
    subst hsame
    exact ⟨hshows', h.sound, h.credit, runs.idle (c.call.returns policy limit).run ih.idle⟩
  | surroundings before store queue locks ih =>
    exact ⟨⟨store ▸ ih.shows.1, queue.trans ih.shows.2⟩, h.sound, h.credit, locks ▸ ih.idle⟩

namespace World.AtRest

variable (h : w.AtRest b) (hknown : c.BookedIn b.ledger) (hpending : c.Pending)
  {score : CreditScore} (hscore : (w.scorer.score c.user).1 = .ok score) {moment : Nat}
  (hfollows : w.Follows Faults.none (c.call.program policy ⟨some moment⟩).run)

include h hknown hpending hscore hfollows

theorem records (htime : w.time + w.scoreDelay < moment) : w.Records policy c score moment := by
  have hlimit : Deadline.isExpired ⟨some moment⟩ (w.time + w.scoreDelay) = false :=
    decide_eq_false (Nat.not_le_of_lt htime)
  have hend : Scene.run ⟨b, w⟩ (c.call.program policy ⟨some moment⟩).run = _ :=
    Scene.perform_decide hknown hpending hscore hlimit
  obtain ⟨hresult, ⟨hkeeps, -⟩, store, queue, outages, locks, haround⟩ :=
    run_scene (c.call.returns policy ⟨some moment⟩).run h.idle h.shows.stages h.sound.toOrdered
      hfollows
  rw [hend] at hresult hkeeps haround
  constructor
  · exact hresult
  · have hscored : (w.scored c.user).time = _ := congrArg World.time haround
    exact hscored.symm.trans (w.time_scored c.user)
  · exact (Candidate.storedIn_iff hkeeps (Candidate.bookedTo_ordered h.sound.toOrdered _)).mpr
      (Candidate.bookedIn_bookedTo _ _)

theorem timesOut (hlate : moment ≤ w.time + w.scoreDelay) : w.TimesOut policy c moment := by
  obtain ⟨around, htime, hscorer, hperform⟩ : ∃ around, around.time = max w.time moment ∧
      around.scorer = w.scorerAt c.user moment ∧
      Scene.perform ⟨b, w⟩ (c.call.program policy ⟨some moment⟩) =
        (.error .timeout, { books := b, around }) :=
    Scene.perform_decide_late (s := ⟨b, w⟩) hknown hpending hscore hlate
  have hend : Scene.run ⟨b, w⟩ (c.call.program policy ⟨some moment⟩).run = _ := hperform
  obtain ⟨hresult, ⟨hkeeps, -⟩, store, queue, outages, locks, haround⟩ :=
    run_scene (c.call.returns policy ⟨some moment⟩).run h.idle h.shows.stages h.sound.toOrdered
      hfollows
  rw [hend] at hresult hkeeps haround
  constructor
  · exact hresult
  · have hpassed : around.time = _ := congrArg World.time haround
    refine hpassed.symm.trans (htime.trans ?_)
    split <;> omega
  · have hpassed : around.scorer = _ := congrArg World.scorer haround
    exact hpassed.symm.trans hscorer
  · exact h.shows.1.eq hkeeps (isDurable_run _ w)
  · exact World.Attempts.start.fails (hfollows.mono fun _ _ => False.elim) hresult

end World.AtRest

/-- In all states that engines come to, time passes only while a score is waited for, and no call
asks for a write at its deadline or later, so that none that begins then asks for any. A pending
application or loan is decided, at first and after any number of attempts that failed, exactly if
the score is there before the deadline. -/
theorem Transcript.decidesInTime (h : Transcript Faults.any policy w log) :
    (∀ request, (∀ user limit, request ≠ .score user limit) →
      (w.answer request).2.time = w.time) ∧
    (∀ (call : EngineCall) (moment : Nat),
      w.WritesBefore (call.program policy ⟨some moment⟩).run moment) ∧
    ∀ c : Candidate, c.Pending → c.StoredIn w.store →
      ∀ w', w.Attempts policy c.call w' → c.StoredIn w'.store ∧ w'.DecidesInTime policy c := by
  refine ⟨fun _ => World.time_answer, fun call moment => call.writesBefore policy w moment, ?_⟩
  intro c hpending hstored w' hattempts
  obtain ⟨b, hb⟩ := h.rests
  have hknown := (Candidate.storedIn_iff hb.shows.1 hb.sound.toOrdered).mp hstored
  have hb' := hb.undecided hattempts
  refine ⟨(Candidate.storedIn_iff hb'.shows.1 hb'.sound.toOrdered).mpr hknown, ?_⟩
  intro score moment hscore hfollows
  have hlate := fun hlate => hb'.timesOut hknown hpending hscore hfollows (Nat.le_of_not_lt hlate)
  refine ⟨⟨fun hrecords => ?_, hb'.records hknown hpending hscore hfollows⟩, hlate⟩
  by_contra htime
  have hresult := hrecords.result.symm.trans (hlate htime).result
  cases hresult

end

/-- At 10, an application and a loan are pending, and a score takes 5. -/
def World.undecided : World :=
  let filed := sample.after (EngineCall.program {} .unbounded
    (.apply { user := "alice", amount := 1000, currency := "USD" })).run
  { filed.after (EngineCall.program {} .unbounded
      (.fileLoan { user := "bob", principal := 703, currency := "USD", term := 4 })).run with
    time := 10
    scoreDelay := 5 }

/-- With a deadline at 10 nothing is begun, with one at 15 the score is there just at the deadline,
and with one at 16 the decision is recorded. After the one at 15 was missed, another attempt has
until 21. -/
theorem World.undecided_decidesInTime :
    let score : CreditScore := ⟨700, by decide⟩
    let usd : Currency := ⟨"USD", by decide⟩
    let a : Application := { Application.new "alice" ⟨1000, by decide⟩ usd .epoch with id := ⟨1⟩ }
    let l : Loan := { Loan.new "bob" ⟨703, by decide⟩ usd 4 .epoch with id := ⟨1⟩ }
    ∀ c ∈ [Candidate.application a, .loan l],
      undecided.TimesOut {} c 10 ∧ undecided.TimesOut {} c 15 ∧ undecided.Records {} c score 16 ∧
        World.Records {} (undecided.run (c.call.program {} ⟨some 15⟩).run).2 c score 21 := by
  intro score usd a l c hc
  have hempty : Transcript Faults.any {} sample [] := .start ⟨.inl rfl, rfl⟩ rfl
  have hundecided : Transcript Faults.any {} undecided _ :=
    ((hempty.called (.apply { user := "alice", amount := 1000, currency := "USD" }) .unbounded
      (by decide +kernel)).called
      (.fileLoan { user := "bob", principal := 703, currency := "USD", term := 4 }) .unbounded
      (by decide +kernel)).surroundings rfl rfl rfl
  obtain ⟨-, -, hdecides⟩ := hundecided.decidesInTime
  have hends : ∀ c : Candidate, c.Pending → c.StoredIn undecided.store →
      (∀ moment ∈ [10, 15, 16],
        undecided.Follows Faults.none (c.call.program {} ⟨some moment⟩).run) →
      let later := (undecided.run (c.call.program {} ⟨some 15⟩).run).2
      later.Follows Faults.none (c.call.program {} ⟨some 21⟩).run →
      later.scoreDelay = 5 →
      undecided.TimesOut {} c 10 ∧ undecided.TimesOut {} c 15 ∧ undecided.Records {} c score 16 ∧
        later.Records {} c score 21 := by
    intro c hpending hstored hfollows later hlater hdelay
    obtain ⟨-, hfirst⟩ := hdecides c hpending hstored undecided .start
    have hexpired := (hfirst score 10 rfl (hfollows 10 (by decide))).2 (by decide)
    have hmissed := (hfirst score 15 rfl (hfollows 15 (by decide))).2 (by decide)
    have hrecorded := (hfirst score 16 rfl (hfollows 16 (by decide))).1.mpr (by decide)
    obtain ⟨-, hagain⟩ := hdecides c hpending hstored later hmissed.again
    refine ⟨hexpired, hmissed, hrecorded, ?_⟩
    have hscorer : later.scorer = .fixed 700 := hmissed.scorer
    have htime : later.time = 15 := hmissed.time
    refine (hagain score 21 (by rw [hscorer]; rfl) hlater).1.mpr ?_
    omega
  simp only [List.mem_cons, List.not_mem_nil, or_false] at hc
  rcases hc with rfl | rfl
  · have hstored : undecided.store.look (.getApplication a.id) = .ok (some a) := by decide +kernel
    refine hends (.application a) rfl hstored ?_ ?_ ?_ <;> decide +kernel
  · have hstored : undecided.store.look (.getLoan l.id) = .ok (some l) := by decide +kernel
    refine hends (.loan l) rfl hstored ?_ ?_ ?_ <;> decide +kernel

end Lending
