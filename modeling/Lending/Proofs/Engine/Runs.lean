import Lending.Proofs.Engine.Calls

/-!
# Runs of the engine

What can happen to an engine, one thing after another: calls, drains of the queue, withdrawn
notifications, and whatever changes around it. An invariant of the books that every step keeps holds
wherever a run leads.

* `World.Moves`: one thing that happens to an engine.
* `Reached`: the states of one engine that began with empty books.
* `History`: the same through any number of engines, each opened on the database of the one before.
* `Reached.books`, `History.books`: invariants of the books hold in the states reached.
-/

namespace Lending

/-! ## Steps of the books -/

/-- A step of the books: an effect, a remnant, or a change of the queue. -/
inductive Books.Step (faults : Faults) (policy : Policy) (b : Books) : Books → Prop
  | effect {call : EngineCall} {result : call.Result} {b' : Books}
      (effect : Effect policy b call result b') : Step faults policy b b'
  | remnant {call : EngineCall} {b' : Books} (remnant : Remnant faults policy b call b') :
    Step faults policy b b'
  | taken (now : Instant) : Step faults policy b { b with queue := (b.queue.takeDue now).2 }
  | withdrawn (n : Notification) : Step faults policy b { b with queue := (b.queue.cancel n).2 }

/-- A property of sound books that every step keeps. -/
def Books.Invariant (faults : Faults) (policy : Policy) (I : Books → Prop) : Prop :=
  ∀ ⦃b b'⦄, b.ledger.Sound → I b → b.Step faults policy b' → I b'

theorem Books.Invariant.and {faults : Faults} {policy : Policy} {I J : Books → Prop}
    (hI : Books.Invariant faults policy I) (hJ : Books.Invariant faults policy J) :
    Books.Invariant faults policy fun b => I b ∧ J b := by
  rintro b b' hsound ⟨hi, hj⟩ hstep
  exact ⟨hI hsound hi hstep, hJ hsound hj hstep⟩

/-- A property of sound books that a call keeps, whether it succeeds or fails. -/
structure Books.KeptBy (faults : Faults) (policy : Policy) (call : EngineCall)
    (I : Books → Prop) : Prop where
  effect : ∀ {b b' : Books} {result : call.Result}, b.ledger.Sound → I b →
    Effect policy b call result b' → I b'
  remnant : ∀ {b b' : Books}, b.ledger.Sound → I b → Remnant faults policy b call b' → I b'

theorem Books.Invariant.keptBy {faults : Faults} {policy : Policy} {I : Books → Prop}
    (h : Books.Invariant faults policy I) (call : EngineCall) :
    Books.KeptBy faults policy call I where
  effect hsound hb heffect := h hsound hb (.effect heffect)
  remnant hsound hb hremnant := h hsound hb (.remnant hremnant)

/-- The call by which a notification is delivered. -/
def Notification.call : Notification → EngineCall
  | .paymentSettled id => .deliverPayment id (Lifecycle.text PaymentStatus.successful)
  | .installmentCollected id => .deliverInstallment id (Lifecycle.text InstallmentStatus.paid)

section Programs

variable {faults : Faults} {policy : Policy} {I : Books → Prop} {b : Books}

theorem EngineCall.always {call : EngineCall} (hI : Books.KeptBy faults policy call I)
    (hsound : b.ledger.Sound) (hb : I b) (limit : Deadline) :
    (call.program policy limit).run.Always faults (fun _ => I) b := by
  refine Program.Always.mono ?_ (call.ensures hsound limit)
  rintro (_ | cause | result) b' hend
  · exact hI.remnant hsound hb hend
  · exact hI.remnant hsound hb hend
  · exact hI.effect hsound hb hend

theorem deliver_always {n : Notification} (hI : Books.KeptBy faults policy n.call I)
    (hsound : b.ledger.Sound) (hb : I b) :
    (Engine.deliver policy n).run.Always faults (fun _ => I) b := by
  cases n with
  | paymentSettled id => exact EngineCall.always hI hsound hb .unbounded
  | installmentCollected id => exact EngineCall.always hI hsound hb .unbounded

theorem deliverAll_always (hI : ∀ n : Notification, Books.KeptBy faults policy n.call I)
    (hsound : b.ledger.Sound) (hb : I b) (ns : List Notification) :
    (Engine.deliverAll policy ns).Always faults (fun _ b' => b'.ledger.Sound ∧ I b') b := by
  induction ns generalizing b with
  | nil => exact ⟨hsound, hb⟩
  | cons n rest ih =>
    have hfirst := (deliver_always (hI n) hsound hb).sound hsound
    refine (Program.always_bind _ _ _).mpr (hfirst.mono ?_)
    rintro (_ | outcome) b' ⟨hsound', hb'⟩
    · exact ⟨hsound', hb'⟩
    · refine (Program.always_bind _ _ _).mpr ((ih hsound' hb').mono ?_)
      rintro (_ | outcomes) b'' hb'' <;> exact hb''

/-- A drain keeps what its deliveries keep, once what is due was taken from the queue. -/
theorem runDue_always (hI : ∀ n : Notification, Books.KeptBy faults policy n.call I)
    (hsound : b.ledger.Sound) (htaken : ∀ now, I { b with queue := (b.queue.takeDue now).2 }) :
    (Engine.runDue policy).Always faults (fun _ => I) b := by
  rintro (_ | now) b₁ ⟨hanswer, rfl⟩
  · cases hanswer
  · rintro _ _ ⟨rfl, rfl⟩
    have hall := deliverAll_always (b := { b₁ with queue := (b₁.queue.takeDue now).2 }) hI hsound
      (htaken now) (b₁.queue.takeDue now).1
    refine (Program.always_bind (Engine.deliverAll policy _) _ _).mpr (hall.mono ?_)
    rintro (_ | outcomes) b' ⟨-, hb'⟩
    · exact hb'
    · rintro (_ | _) _ ⟨hanswer, rfl⟩
      · cases hanswer
      · exact hb'

end Programs

/-! ## Runs -/

/-- One thing that happens to an engine with this policy, while nothing else is under way. Time goes
by in the course of it. -/
inductive World.Moves (faults : Faults) (policy : Policy) (w : World) : World → Prop
  | call (call : EngineCall) (limit : Deadline) {result : Option (Except Failure call.Result)}
      {w' : World} (runs : w.Runs faults (call.program policy limit).run result w') :
    Moves faults policy w w'
  | drain {outcomes : Option (List (Notification × Except Failure Engine.Ack))} {w' : World}
      (runs : w.Runs faults (Engine.runDue policy) outcomes w') : Moves faults policy w w'
  | withdraw (n : Notification) : Moves faults policy w { w with queue := (w.queue.cancel n).2 }
  /-- Clocks, scorers, locks, outages and the source of references may change in any way. -/
  | surroundings {w' : World} (store : w'.store = w.store) (queue : w'.queue = w.queue) :
    Moves faults policy w w'

/-- The engine has empty books, in memory or in a database. -/
def World.IsEmpty (w : World) : Prop :=
  (w.store = .memory {} ∨ w.store = .durable {}) ∧ w.queue = {}

/-- The states that one engine comes to from empty books. -/
inductive Reached (faults : Faults) (policy : Policy) : World → Prop
  | start {w : World} (empty : w.IsEmpty) : Reached faults policy w
  | move {w w' : World} (before : Reached faults policy w) (moves : w.Moves faults policy w') :
    Reached faults policy w'

/-- The states that engines come to one after another from empty books. Each of them after the
first, with a policy of its own, opens the database that the one before has left. -/
inductive History (faults : Faults) : Policy → World → Prop
  | start {policy : Policy} {w : World} (empty : w.IsEmpty) : History faults policy w
  | move {policy : Policy} {w w' : World} (before : History faults policy w)
      (moves : w.Moves faults policy w') : History faults policy w'
  | reopen {policy : Policy} (policy' : Policy) {w w' : World} {a a' : Archive}
      (before : History faults policy w) (closed : w.store = .durable a)
      (opened : Archive.open? a.database = .ok a') (store : w'.store = .durable a')
      (queue : w'.queue = {}) : History faults policy' w'

theorem Reached.history {faults : Faults} {policy : Policy} {w : World}
    (h : Reached faults policy w) : History faults policy w := by
  induction h with
  | start empty => exact .start empty
  | move _ moves ih => exact .move ih moves

theorem World.IsEmpty.shows {w : World} (h : w.IsEmpty) :
    w.Shows { ledger := {}, queue := {} } := by
  refine ⟨?_, h.2⟩
  rcases h.1 with hstore | hstore <;> rw [hstore]
  · rfl
  · exact ofLedger_empty.symm

/-- An engine that opens the database that another has left begins with its rows. -/
theorem World.Shows.reopened {w w' : World} {b : Books} (hshows : w.Shows b) {a a' : Archive}
    (closed : w.store = .durable a) (opened : Archive.open? a.database = .ok a')
    (store : w'.store = .durable a') (queue : w'.queue = {}) :
    w'.Shows { ledger := Archive.reopened b.ledger, queue := {} } := by
  have hkeeps := hshows.1
  rw [closed] at hkeeps
  obtain rfl : a = Archive.ofLedger b.ledger := hkeeps
  have hopen := opened.symm.trans (Archive.open?_database b.ledger)
  obtain rfl := Except.ok.inj hopen
  refine ⟨?_, queue⟩
  rw [store]
  rfl

/-! ### Calls in turn -/

/-- The world after calls that are made one after another, without deadlines and in no time. -/
def World.afterCalls (policy : Policy) (w : World) : List EngineCall → World
  | [] => w
  | call :: rest => (w.run (call.program policy .unbounded).run).2.afterCalls policy rest

def World.FollowsCalls (faults : Faults) (policy : Policy) (w : World) : List EngineCall → Prop
  | [] => True
  | call :: rest =>
    w.Follows faults (call.program policy .unbounded).run ∧
      (w.run (call.program policy .unbounded).run).2.FollowsCalls faults policy rest

instance World.decidableFollowsCalls {faults : Faults}
    [∀ call fault, Decidable (faults call fault)] (policy : Policy) (w : World) :
    (calls : List EngineCall) → Decidable (w.FollowsCalls faults policy calls)
  | [] => isTrue trivial
  | call :: rest =>
    have : Decidable ((w.run (call.program policy .unbounded).run).2.FollowsCalls faults policy
        rest) := decidableFollowsCalls policy _ rest
    inferInstanceAs (Decidable (_ ∧ _))

theorem Reached.afterCalls {faults : Faults} {policy : Policy} {w : World} {calls : List EngineCall}
    (h : Reached faults policy w) (follows : w.FollowsCalls faults policy calls) :
    Reached faults policy (w.afterCalls policy calls) := by
  induction calls generalizing w with
  | nil => exact h
  | cons call rest ih =>
    have hcalled := h.move (.call call .unbounded follows.1.runs)
    -- the next call begins before a crash would have given up the locks
    refine ih (hcalled.move (.surroundings ?_ ?_)) follows.2
    · exact (World.after_store ..).symm
    · exact (World.after_queue ..).symm

/-- An engine with empty books in memory. -/
def World.sample : World where
  store := .memory {}
  clock := .epoch
  scorer := .fixed 700
  orders := { seed := 1 }

section Invariants

variable {faults : Faults} {policy : Policy} {I : Books → Prop} {w w' : World}

theorem World.Moves.books (hI : Books.Invariant faults policy I) {b : Books} (hshows : w.Shows b)
    (hsound : b.ledger.Sound) (hb : I b) (h : w.Moves faults policy w') :
    ∃ b', w'.Shows b' ∧ b'.ledger.Sound ∧ I b' := by
  cases h with
  | call call limit runs =>
    exact runs.shows (EngineCall.always (hI.keptBy call) hsound hb limit) hshows hsound
  | drain runs =>
    have htaken := fun now => hI hsound hb (.taken now)
    exact runs.shows (runDue_always (fun n => hI.keptBy n.call) hsound htaken) hshows hsound
  | withdraw n =>
    refine ⟨{ b with queue := (b.queue.cancel n).2 }, ⟨hshows.1, ?_⟩, hsound,
      hI hsound hb (.withdrawn n)⟩
    simp only [hshows.2]
  | surroundings store queue =>
    refine ⟨b, ⟨?_, queue.trans hshows.2⟩, hsound, hb⟩
    rw [store]
    exact hshows.1

theorem Reached.books (hI : Books.Invariant faults policy I)
    (hempty : I { ledger := {}, queue := {} }) (h : Reached faults policy w) :
    ∃ b, w.Shows b ∧ b.ledger.Sound ∧ I b := by
  induction h with
  | start empty => exact ⟨_, empty.shows, Ledger.sound_empty, hempty⟩
  | move _ moves ih =>
    obtain ⟨b, hshows, hsound, hb⟩ := ih
    exact moves.books hI hshows hsound hb

theorem History.books (hI : ∀ policy, Books.Invariant faults policy I)
    (hempty : I { ledger := {}, queue := {} })
    (hreopened : ∀ {b : Books}, I b → I { ledger := Archive.reopened b.ledger, queue := {} })
    (h : History faults policy w) : ∃ b, w.Shows b ∧ b.ledger.Sound ∧ I b := by
  induction h with
  | start empty => exact ⟨_, empty.shows, Ledger.sound_empty, hempty⟩
  | move _ moves ih =>
    obtain ⟨b, hshows, hsound, hb⟩ := ih
    exact moves.books (hI _) hshows hsound hb
  | reopen policy' _ closed opened store queue ih =>
    obtain ⟨b, hshows, hsound, hb⟩ := ih
    exact ⟨_, hshows.reopened closed opened store queue,
      Archive.reopened_sound hsound.toOrdered, hreopened hb⟩

end Invariants

end Lending
