import Lending.Proofs.Engine.Runs

/-!
# Calls that fail

A call that fails leaves no trace but the numbers that it used up: all rows and all waiting
notifications are as they were, provided that it could undo what it had written. The same holds of
each delivery in a drain of the queue.

* `Store.SameRows`: stores of one kind with the same rows.
* `World.Drains`: the deliveries of a drain, one after another, while time goes by.
* `World.runs_runDue`: these deliveries are the drain.
* `History.failure_leavesNothing`: what holds around a call and around a delivery that fail.
-/

namespace Lending

/-! ## Rows -/

namespace Store

/-- The stores have the same rows; only their counters may differ. -/
def SameRows : Store → Store → Prop
  | .memory l, .memory l' => l' = { l with counters := l'.counters }
  | .durable a, .durable a' => a'.database = a.database
  | _, _ => False

def isDurable : Store → Bool
  | .memory _ => false
  | .durable _ => true

theorem isDurable_answer {s s' : Store} {call : StoreCall} {result : call.Result}
    (h : s.answer call = .ok (result, s')) : s'.isDurable = s.isDurable := by
  cases s with
  | memory ledger =>
    cases hanswer : ledger.answer call <;> rw [answer, hanswer] at h <;> cases h
    rfl
  | durable archive =>
    cases hanswer : archive.answer call <;> rw [answer, hanswer] at h <;> cases h
    rfl

/-- Stores of one kind that keep one ledger. -/
theorem Keeps.eq {s s' : Store} {l : Ledger} (h : s.Keeps l) (h' : s'.Keeps l)
    (hkind : s'.isDurable = s.isDurable) : s' = s := by
  cases s with
  | memory ledger =>
    cases s' with
    | memory ledger' => rw [show ledger = l from h, show ledger' = l from h']
    | durable archive' => cases hkind
  | durable archive =>
    cases s' with
    | memory ledger' => cases hkind
    | durable archive' =>
      rw [show archive = .ofLedger l from h, show archive' = .ofLedger l from h']

/-- Stores of one kind that keep the same rows. -/
theorem Keeps.sameRows {s s' : Store} {b b' : Books} (h : s.Keeps b.ledger)
    (h' : s'.Keeps b'.ledger) (hkind : s'.isDurable = s.isDurable) (halike : b.Alike b') :
    s.SameRows s' := by
  cases s with
  | memory ledger =>
    cases s' with
    | memory ledger' =>
      obtain rfl : ledger = b.ledger := h
      obtain rfl : ledger' = b'.ledger := h'
      rw [SameRows, ← halike.applications, ← halike.payments, ← halike.installments, ← halike.loans,
        ← halike.repayments]
    | durable archive' => cases hkind
  | durable archive =>
    cases s' with
    | memory ledger' => cases hkind
    | durable archive' =>
      obtain rfl : archive = Archive.ofLedger b.ledger := h
      obtain rfl : archive' = Archive.ofLedger b'.ledger := h'
      simp only [SameRows, Archive.ofLedger, Ledger.database, halike.applications, halike.payments,
        halike.installments, halike.loans, halike.repayments]

end Store

/-! ## Runs in parts -/

namespace World

variable {α β : Type} {faults : Faults}

/-- A request leaves the store as it is or has it answer a call. -/
theorem answer_store (w : World) (request : Request) :
    (w.answer request).2.store = w.store ∨
      ∃ (call : StoreCall) (result : call.Result),
        w.store.answer call = .ok (result, (w.answer request).2.store) := by
  cases request with
  | store call =>
    simp only [answer, callStore]
    cases w.outages.next call.method with
    | some fault => cases fault <;> exact .inl rfl
    | none =>
      cases hanswer : w.store.answer call with
      | error cause => exact .inl rfl
      | ok answered => exact .inr ⟨call, answered.1, hanswer⟩
  | score user limit =>
    simp only [answer, drawScore, passTo]
    split <;> split <;> exact .inl rfl
  | acquire key limit =>
    simp only [answer]
    split <;> exact .inl rfl
  | schedule _ _ | cancel _ | takeDue _ => exact .inl rfl
  | release _ | expired _ | now | freshOrder | pruneLocks => exact .inl rfl

/-- Only a store call that crashes has no answer. -/
theorem crash_of_answer {w : World} {request : Request} (h : (w.answer request).1 = none) :
    ∃ call, request = .store call ∧ w.outages.next call.method = some .crash := by
  cases request with
  | store call =>
    refine ⟨call, rfl, ?_⟩
    simp only [answer, callStore] at h
    cases hfault : w.outages.next call.method with
    | none =>
      rw [hfault] at h
      cases hstore : w.store.answer call <;> rw [hstore] at h <;> cases h
    | some fault =>
      rw [hfault] at h
      cases fault with
      | refusal => cases h
      | crash => rfl
  | acquire key limit =>
    simp only [answer] at h
    split at h <;> cases h
  | release _ | score _ _ | expired _ | now | freshOrder | schedule _ _ | cancel _ | takeDue _
  | pruneLocks => cases h

/-- Where no call crashes, every run ends with a result. -/
theorem Runs.isSome (hfaults : ∀ call, ¬faults call .crash) {p : Program α} {result : Option α}
    {w w' : World} (h : w.Runs faults p result w') : ∃ a, result = some a := by
  induction h with
  | @done value _ => exact ⟨value, rfl⟩
  | ask _ _ _ _ ih => exact ih
  | @crash _ _ _ later _ _ grants answers =>
    obtain ⟨call, rfl, hcrash⟩ := crash_of_answer (congrArg Prod.fst answers)
    simp only [Grants, hcrash] at grants
    exact absurd grants (hfaults call)

theorem isSome_run (hfaults : ∀ call, ¬faults call .crash) {p : Program α} {w : World}
    (hfollows : w.Follows faults p) : ∃ a, (w.run p).1 = some a :=
  hfollows.runs.isSome hfaults

/-- What every request keeps is kept by a run. -/
theorem run_keeps {I : World → Prop} (hI : ∀ w request, I w → I (w.answer request).2)
    (p : Program α) {w : World} (h : I w) : I (w.run p).2 := by
  induction p generalizing w with
  | done value => exact h
  | ask request next ih =>
    have hanswer := hI w request h
    rw [run]
    rcases hrun : w.answer request with ⟨_ | answer, w'⟩ <;> rw [hrun] at hanswer
    · exact hanswer
    · exact ih answer hanswer

theorem isDurable_answer (w : World) (request : Request) :
    (w.answer request).2.store.isDurable = w.store.isDurable := by
  rcases answer_store w request with hsame | ⟨call, result, hanswer⟩
  · rw [hsame]
  · exact Store.isDurable_answer hanswer

theorem isDurable_run (p : Program α) (w : World) :
    (w.run p).2.store.isDurable = w.store.isDurable :=
  run_keeps (I := fun w' => w'.store.isDurable = w.store.isDurable)
    (fun w' request h => (isDurable_answer w' request).trans h) p rfl

/-- A program that is followed by another. -/
theorem run_bind (p : Program α) (f : α → Program β) (w : World) :
    w.run (p.bind f) =
      match w.run p with
      | (some a, w') => w'.run (f a)
      | (none, w') => (none, w') := by
  induction p generalizing w with
  | done value => rfl
  | ask request next ih =>
    rw [Program.bind, run, run]
    rcases w.answer request with ⟨_ | answer, w'⟩
    · rfl
    · exact ih answer w'

theorem follows_bind (p : Program α) (f : α → Program β) (w : World) :
    w.Follows faults (p.bind f) ↔
      w.Follows faults p ∧ ∀ a, (w.run p).1 = some a → (w.run p).2.Follows faults (f a) := by
  induction p generalizing w with
  | done value => simp [Program.bind, Follows, run]
  | ask request next ih =>
    rw [Program.bind, run, Follows, Follows]
    rcases w.answer request with ⟨_ | answer, w'⟩
    · simp
    · simp only [ih, and_assoc]

/-- A program that is followed by another, while time goes by. -/
theorem runs_bind (p : Program α) (f : α → Program β) {w w' : World} {result : Option β} :
    w.Runs faults (p.bind f) result w' ↔
      (∃ a between, w.Runs faults p (some a) between ∧ between.Runs faults (f a) result w') ∨
        w.Runs faults p none w' ∧ result = none := by
  constructor
  · intro h
    induction p generalizing w with
    | done value => exact .inl ⟨value, w, .done, h⟩
    | ask request next ih =>
      cases h with
      | ask lapses grants answers rest =>
        rcases ih _ rest with ⟨a, between, hfirst, hnext⟩ | ⟨hcrash, hnone⟩
        · exact .inl ⟨a, between, .ask lapses grants answers hfirst, hnext⟩
        · exact .inr ⟨.ask lapses grants answers hcrash, hnone⟩
      | crash lapses grants answers => exact .inr ⟨.crash lapses grants answers, rfl⟩
  · intro h
    induction p generalizing w with
    | done value =>
      rcases h with ⟨a, between, hfirst, hnext⟩ | ⟨hcrash, -⟩
      · cases hfirst
        exact hnext
      · cases hcrash
    | ask request next ih =>
      rcases h with ⟨a, between, hfirst, hnext⟩ | ⟨hcrash, rfl⟩
      · cases hfirst with
        | ask lapses grants answers rest =>
          exact .ask lapses grants answers (ih _ (.inl ⟨a, between, rest, hnext⟩))
      · cases hcrash with
        | ask lapses grants answers rest =>
          exact .ask lapses grants answers (ih _ (.inr ⟨rest, rfl⟩))
        | crash lapses grants answers => exact .crash lapses grants answers

/-- However time goes by, what every store call keeps is kept by a run. -/
theorem Runs.keeps_store {I : Store → Prop}
    (hI : ∀ {s s' : Store} {call : StoreCall} {result : call.Result},
      s.answer call = .ok (result, s') → I s → I s')
    {p : Program α} {result : Option α} {w w' : World} (h : w.Runs faults p result w')
    (hw : I w.store) : I w'.store := by
  have hanswer : ∀ {w later answered : World} {request : Request}
      {answer : Option request.Answer}, w.Lapses later →
      later.answer request = (answer, answered) → I w.store → I answered.store := by
    intro w later answered request answer hlapses hanswers hw
    rw [← hlapses.store] at hw
    rw [show answered = (later.answer request).2 from congrArg Prod.snd hanswers.symm]
    rcases answer_store later request with hsame | ⟨call, result, hcall⟩
    · exact hsame ▸ hw
    · exact hI hcall hw
  induction h with
  | done => exact hw
  | ask lapses _ answers _ ih => exact ih (hanswer lapses answers hw)
  | @crash _ _ _ _ broken lapses _ answers =>
    have hbroken : I broken.store := hanswer lapses answers hw
    exact hbroken

/-- A store stays of its kind. -/
theorem Runs.isDurable {p : Program α} {result : Option α} {w w' : World}
    (h : w.Runs faults p result w') : w'.store.isDurable = w.store.isDurable :=
  h.keeps_store (I := fun s => s.isDurable = w.store.isDurable)
    (fun hanswer hkind => (Store.isDurable_answer hanswer).trans hkind) rfl

end World

/-! ## Deliveries -/

/-- One delivery of a drain. There is no outcome if it crashed. -/
structure Delivery where
  before : World
  notification : Notification
  outcome : Option (Except Failure Engine.Ack)
  after : World

/-- The outcomes of deliveries, if none of them crashed. -/
def Delivery.outcomes (ds : List Delivery) :
    Option (List (Notification × Except Failure Engine.Ack)) :=
  ds.mapM fun d => d.outcome.map fun outcome => (d.notification, outcome)

theorem Delivery.outcomes_cons (d : Delivery) (ds : List Delivery) :
    outcomes (d :: ds) = d.outcome.bind fun outcome =>
      (outcomes ds).map fun rest => (d.notification, outcome) :: rest := by
  rw [outcomes, outcomes, List.mapM_cons]
  cases d.outcome with
  | none => rfl
  | some outcome =>
    cases ds.mapM fun d => d.outcome.map fun outcome => (d.notification, outcome) <;> simp

theorem Delivery.map_of_outcomes {ds : List Delivery}
    {all : List (Notification × Except Failure Engine.Ack)} (h : outcomes ds = some all) :
    (ds.map fun d => (d.notification, d.outcome)) = all.map fun told => (told.1, some told.2) := by
  induction ds generalizing all with
  | nil =>
    cases h
    rfl
  | cons d rest ih =>
    rw [outcomes_cons, Option.bind_eq_some_iff] at h
    obtain ⟨outcome, houtcome, hrest⟩ := h
    obtain ⟨others, hothers, rfl⟩ := Option.map_eq_some_iff.mp hrest
    rw [List.map_cons, List.map_cons, houtcome, ih hothers]

namespace World

variable {faults : Faults} {policy : Policy} {w w' : World}

/-- Notifications that are delivered in turn while time goes by, until one crashes. -/
inductive Delivers (faults : Faults) (policy : Policy) :
    World → List Notification → List Delivery → World → Prop
  | nil {w : World} : Delivers faults policy w [] [] w
  | next {w after w' : World} {n : Notification} {rest : List Notification}
      {outcome : Except Failure Engine.Ack} {ds : List Delivery}
      (runs : w.Runs faults (Engine.deliver policy n).run (some outcome) after)
      (others : Delivers faults policy after rest ds w') :
    Delivers faults policy w (n :: rest) (⟨w, n, some outcome, after⟩ :: ds) w'
  | crash {w w' : World} {n : Notification} {rest : List Notification}
      (runs : w.Runs faults (Engine.deliver policy n).run none w') :
    Delivers faults policy w (n :: rest) [⟨w, n, none, w'⟩] w'

/-- The world after what is due at `now` was taken from the queue. -/
def taken (w : World) (now : Instant) : World := { w with queue := (w.queue.takeDue now).2 }

/-- The deliveries of a drain, and the world after it. The clock is looked at before what is due is
taken from the queue, and the locks that nobody uses are dropped in the end. -/
inductive Drains (faults : Faults) (policy : Policy) (w : World) : List Delivery → World → Prop
  | ended {seen begun last later : World} {ds : List Delivery} (looks : w.Lapses seen)
      (takes : seen.Lapses begun)
      (delivers : (begun.taken seen.clock).Delivers faults policy
        (begun.queue.takeDue seen.clock).1 ds last)
      (delivered : (Delivery.outcomes ds).isSome) (prunes : last.Lapses later) :
    Drains faults policy w ds { later with locks := later.locks.prune }
  | crashed {seen begun last : World} {ds : List Delivery} (looks : w.Lapses seen)
      (takes : seen.Lapses begun)
      (delivers : (begun.taken seen.clock).Delivers faults policy
        (begun.queue.takeDue seen.clock).1 ds last)
      (crashed : Delivery.outcomes ds = none) : Drains faults policy w ds last

section Mono

variable {faults' : Faults} (hfaults : ∀ call fault, faults call fault → faults' call fault)
  {ds : List Delivery}

include hfaults

theorem Delivers.mono {ns : List Notification} (h : w.Delivers faults policy ns ds w') :
    w.Delivers faults' policy ns ds w' := by
  induction h with
  | nil => exact .nil
  | next runs _ ih => exact .next (runs.mono hfaults) ih
  | crash runs => exact .crash (runs.mono hfaults)

/-- A drain that meets only some faults meets more of them, too. -/
theorem Drains.mono (h : w.Drains faults policy ds w') : w.Drains faults' policy ds w' := by
  cases h with
  | ended looks takes delivers delivered prunes =>
    exact .ended looks takes (delivers.mono hfaults) delivered prunes
  | crashed looks takes delivers crashed =>
    exact .crashed looks takes (delivers.mono hfaults) crashed

end Mono

theorem runs_deliverAll {ns : List Notification}
    {outcomes : Option (List (Notification × Except Failure Engine.Ack))} :
    w.Runs faults (Engine.deliverAll policy ns) outcomes w' ↔
      ∃ ds, w.Delivers faults policy ns ds w' ∧ outcomes = Delivery.outcomes ds := by
  induction ns generalizing w outcomes with
  | nil =>
    constructor
    · rintro ⟨⟩
      exact ⟨[], .nil, rfl⟩
    · rintro ⟨_, ⟨⟩, rfl⟩
      exact .done
  | cons n rest ih =>
    refine Iff.trans (runs_bind (Engine.deliver policy n).run fun outcome =>
      (Engine.deliverAll policy rest).bind fun outcomes => .done ((n, outcome) :: outcomes)) ?_
    constructor
    · rintro (⟨outcome, between, hfirst, hrest⟩ | ⟨hcrash, rfl⟩)
      · rcases (runs_bind _ _).mp hrest with ⟨others, last, hothers, hdone⟩ | ⟨hcrash, rfl⟩
        · cases hdone
          obtain ⟨ds, hdelivers, houtcomes⟩ := ih.mp hothers
          refine ⟨_, .next hfirst hdelivers, ?_⟩
          rw [Delivery.outcomes_cons, ← houtcomes]
          rfl
        · obtain ⟨ds, hdelivers, houtcomes⟩ := ih.mp hcrash
          refine ⟨_, .next hfirst hdelivers, ?_⟩
          rw [Delivery.outcomes_cons, ← houtcomes]
          rfl
      · exact ⟨_, .crash hcrash, rfl⟩
    · rintro ⟨ds, hdelivers, rfl⟩
      cases hdelivers with
      | @next _ between _ _ _ outcome ds runs others =>
        refine .inl ⟨outcome, between, runs, (runs_bind _ _).mpr ?_⟩
        have hothers := ih.mpr ⟨ds, others, rfl⟩
        cases houtcomes : Delivery.outcomes ds with
        | none =>
          rw [houtcomes] at hothers
          refine .inr ⟨hothers, ?_⟩
          rw [Delivery.outcomes_cons, houtcomes]
          rfl
        | some others =>
          rw [houtcomes] at hothers
          refine .inl ⟨others, w', hothers, ?_⟩
          rw [Delivery.outcomes_cons, houtcomes]
          exact .done
      | crash runs => exact .inr ⟨runs, rfl⟩

/-- A drain makes these deliveries and ends with their outcomes. -/
theorem runs_runDue {outcomes : Option (List (Notification × Except Failure Engine.Ack))} :
    w.Runs faults (Engine.runDue policy) outcomes w' ↔
      ∃ ds, w.Drains faults policy ds w' ∧ outcomes = Delivery.outcomes ds := by
  have hnow : ∀ {w : World} (later : World), w.Lapses later →
      later.answer .now = (some later.clock, later) := fun _ _ => rfl
  have htake : ∀ (now : Instant) {w : World} (later : World), w.Lapses later →
      later.answer (.takeDue now) = (some (later.queue.takeDue now).1, later.taken now) :=
    fun _ _ _ _ => rfl
  have hprune : ∀ {w : World} (later : World), w.Lapses later →
      later.answer .pruneLocks = (some (), { later with locks := later.locks.prune }) :=
    fun _ _ => rfl
  have hparts : Engine.runDue policy = .ask .now fun now => .ask (.takeDue now) fun due =>
      (Engine.deliverAll policy due).bind fun outcomes =>
        .ask .pruneLocks fun _ => .done outcomes := rfl
  rw [hparts, runs_ask hnow]
  simp only [runs_ask (htake _), runs_bind, runs_deliverAll, runs_ask hprune]
  constructor
  · rintro ⟨seen, looks, -, begun, takes, -, ⟨all, last, ⟨ds, hdelivers, hall⟩, hprunes⟩ |
      ⟨⟨ds, hdelivers, hcrashed⟩, rfl⟩⟩
    · obtain ⟨later, prunes, -, hdone⟩ := hprunes
      cases hdone
      exact ⟨ds, .ended looks takes hdelivers (hall ▸ rfl) prunes, hall⟩
    · exact ⟨ds, .crashed looks takes hdelivers hcrashed.symm, hcrashed⟩
  · rintro ⟨ds, hdrains, rfl⟩
    cases hdrains with
    | @ended seen begun last later _ looks takes delivers delivered prunes =>
      obtain ⟨all, hall⟩ := Option.isSome_iff_exists.mp delivered
      refine ⟨seen, looks, trivial, begun, takes, trivial, .inl ⟨all, last, ?_, ?_⟩⟩
      · exact ⟨ds, delivers, hall.symm⟩
      · rw [hall]
        exact ⟨later, prunes, trivial, .done⟩
    | @crashed seen begun last _ looks takes delivers crashed =>
      exact ⟨seen, looks, trivial, begun, takes, trivial,
        .inr ⟨⟨ds, delivers, crashed.symm⟩, crashed⟩⟩

/-- A delivery is a call without a deadline. -/
theorem runs_deliver {n : Notification} {outcome : Option (Except Failure Engine.Ack)}
    (h : w.Runs faults (Engine.deliver policy n).run outcome w') :
    ∃ result, w.Runs faults (n.call.program policy .unbounded).run result w' ∧
      ∀ cause, outcome = some (.error cause) → result = some (.error cause) := by
  cases n <;> exact ⟨outcome, h, fun _ hfailed => hfailed⟩

/-- Every delivery is a run of its own. -/
theorem Delivers.mem_runs {ns : List Notification} {ds : List Delivery}
    (h : w.Delivers faults policy ns ds w') {d : Delivery} (hd : d ∈ ds) :
    d.before.Runs faults (Engine.deliver policy d.notification).run d.outcome d.after := by
  induction h with
  | nil => cases hd
  | next runs _ ih =>
    rcases List.mem_cons.mp hd with rfl | hd
    · exact runs
    · exact ih hd
  | crash runs =>
    obtain rfl := List.mem_singleton.mp hd
    exact runs

/-- Every delivery begins in a world that has books with what every step keeps. -/
theorem Delivers.mem_books {I : Books → Prop} (hI : Books.Invariant faults policy I)
    {ns : List Notification} {ds : List Delivery} (h : w.Delivers faults policy ns ds w')
    {b : Books} (hshows : w.Shows b) (hsound : b.ledger.Sound) (hb : I b) {d : Delivery}
    (hd : d ∈ ds) : ∃ b', d.before.Shows b' ∧ b'.ledger.Sound ∧ I b' := by
  induction h generalizing b with
  | nil => cases hd
  | @next _ _ _ n _ _ _ runs _ ih =>
    rcases List.mem_cons.mp hd with rfl | hd
    · exact ⟨b, hshows, hsound, hb⟩
    · obtain ⟨b', hshows', hsound', hb'⟩ :=
        runs.shows (deliver_always (hI.keptBy n.call) hsound hb) hshows hsound
      exact ih hshows' hsound' hb' hd
  | crash runs =>
    obtain rfl := List.mem_singleton.mp hd
    exact ⟨b, hshows, hsound, hb⟩

theorem Lapses.shows_taken {b : Books} (h : w.Lapses w') (hshows : w.Shows b) (now : Instant) :
    (w'.taken now).Shows { b with queue := (b.queue.takeDue now).2 } :=
  ⟨h.store ▸ hshows.1, by rw [taken, h.queue, hshows.2]⟩

theorem Drains.mem_runs {ds : List Delivery} (h : w.Drains faults policy ds w') {d : Delivery}
    (hd : d ∈ ds) :
    d.before.Runs faults (Engine.deliver policy d.notification).run d.outcome d.after := by
  cases h with
  | ended _ _ delivers _ _ | crashed _ _ delivers _ => exact delivers.mem_runs hd

theorem Drains.mem_books {I : Books → Prop} (hI : Books.Invariant faults policy I)
    {ds : List Delivery} (h : w.Drains faults policy ds w') {b : Books} (hshows : w.Shows b)
    (hsound : b.ledger.Sound) (hb : I b) {d : Delivery} (hd : d ∈ ds) :
    ∃ b', d.before.Shows b' ∧ b'.ledger.Sound ∧ I b' := by
  cases h with
  | ended looks takes delivers _ _ | crashed looks takes delivers _ =>
    exact delivers.mem_books hI (takes.shows_taken (looks.shows hshows) _) hsound
      (hI hsound hb (.taken _)) hd

end World

/-! ## Failures -/

/-- A call that fails leaves nothing, if the faults that it meets leave nothing. -/
theorem World.Shows.failed {faults : Faults} (hschedules : ¬faults.LeaveSchedules)
    (hstatuses : ¬faults.LeaveStatuses) {w w' : World} {b : Books} (hshows : w.Shows b)
    (hsound : b.ledger.Sound) {policy : Policy} {call : EngineCall} {limit : Deadline}
    {cause : Failure}
    (hruns : w.Runs faults (call.program policy limit).run (some (.error cause)) w') :
    w.store.SameRows w'.store ∧ w'.queue = w.queue := by
  obtain ⟨b', hshows', -, hend⟩ := hruns.shows (call.ensures hsound limit) hshows hsound
  have halike : b.Alike b' := by
    cases hend with
    | nothing alike => exact alike
    | settling may | activating may => exact absurd may hschedules
    | repaying may | defaulting may => exact absurd may hstatuses
  refine ⟨hshows.1.sameRows hshows'.1 hruns.isDurable halike, ?_⟩
  rw [hshows'.2, hshows.2, halike.queue]

/-- A call that fails leaves nothing, if it could undo what it wrote. -/
theorem World.Shows.failure {w w' : World} {b : Books} (hshows : w.Shows b)
    (hsound : b.ledger.Sound) {policy : Policy} {call : EngineCall} {limit : Deadline}
    {cause : Failure}
    (hruns : w.Runs Faults.sparingUndo (call.program policy limit).run (some (.error cause)) w') :
    w.store.SameRows w'.store ∧ w'.queue = w.queue :=
  hshows.failed Faults.sparingUndo_leaveSchedules Faults.sparingUndo_leaveStatuses hsound hruns

/-- Around a call that fails, and around each delivery of a drain that fails, the rows and the
waiting notifications are the same, whatever happened before, whenever the deadline runs out and
whichever calls of the store are refused, except those that undo a write. -/
theorem History.failure_leavesNothing {policy : Policy} {w : World}
    (h : History Faults.any policy w) :
    (∀ (call : EngineCall) (limit : Deadline) (cause : Failure) (w' : World),
      w.Runs Faults.sparingUndo (call.program policy limit).run (some (.error cause)) w' →
        w.store.SameRows w'.store ∧ w'.queue = w.queue) ∧
    (∀ outcomes w', w.Runs Faults.any (Engine.runDue policy) outcomes w' ↔
      ∃ ds, w.Drains Faults.any policy ds w' ∧ outcomes = Delivery.outcomes ds) ∧
    ∀ ds w', w.Drains Faults.any policy ds w' → ∀ d ∈ ds, ∀ cause : Failure,
      d.outcome = some (.error cause) →
      d.before.Runs Faults.sparingUndo (Engine.deliver policy d.notification).run d.outcome
        d.after →
      d.before.store.SameRows d.after.store ∧ d.after.queue = d.before.queue := by
  have htrivial : ∀ policy, Books.Invariant Faults.any policy fun _ => True :=
    fun _ _ _ _ _ _ => trivial
  obtain ⟨b, hshows, hsound, -⟩ := h.books htrivial trivial fun _ => trivial
  refine ⟨fun call limit cause w' hruns => hshows.failure hsound hruns,
    fun _ _ => World.runs_runDue, ?_⟩
  intro ds w' hdrains d hd cause hfailed hruns
  obtain ⟨b', hshows', hsound', -⟩ :=
    hdrains.mem_books (htrivial policy) hshows hsound trivial hd
  obtain ⟨result, hcall, herror⟩ := World.runs_deliver hruns
  rw [herror cause hfailed] at hcall
  exact hshows'.failure hsound' hcall

/-- A payment waits to be settled and a loan is active, and the store will refuse the rows of
both. -/
def World.disturbed : World :=
  { ({ World.sample with
      outages := (Outages.set {} .updatePayment 0 1 .refusal).set .recordRepayment 0 1
        .refusal } : World).afterCalls {}
      [.apply { user := "alice", amount := 1000, currency := "USD" },
        .decideApplication ⟨1⟩,
        .pay { application := ⟨1⟩, user := "alice", amount := 900, currency := "USD",
               method := "card" },
        .fileLoan { user := "bob", principal := 703, currency := "USD", term := 4 },
        .decideLoan ⟨1⟩,
        .activateLoan ⟨1⟩] with
    clock := Instant.epoch.add 60000 }

/-- A repayment and a settlement that cannot be written. Both had changed the schedule before. The
deadline of another repayment runs out when it has the lock of the loan. -/
theorem World.disturbed_leavesNothing :
    let repaying := fun limit =>
      ((EngineCall.repayLoan ⟨1⟩ { amount := 200, method := "card" }).program {} limit).run
    (∃ w', disturbed.Runs Faults.sparingUndo (repaying .unbounded)
        (some (.error (.storage .outage))) w' ∧ disturbed.store.SameRows w'.store) ∧
      (∃ w', disturbed.Runs Faults.sparingUndo (repaying ⟨some 5⟩) (some (.error .timeout)) w' ∧
        disturbed.store.SameRows w'.store) ∧
      ∃ ds w', disturbed.Drains Faults.sparingUndo {} ds w' ∧
        Delivery.outcomes ds = some [(.paymentSettled ⟨1⟩, .error (.storage .outage))] ∧
        ∀ d ∈ ds, d.before.store.SameRows d.after.store := by
  intro repaying
  have hreached : Reached Faults.any {} disturbed :=
    .move (Reached.afterCalls (.start ⟨.inl rfl, rfl⟩) (by decide +kernel)) (.surroundings rfl rfl)
  obtain ⟨hcall, -, hdrain⟩ := History.failure_leavesNothing hreached.history
  have hrefused : disturbed.Runs Faults.sparingUndo (repaying .unbounded)
      (some (.error (.storage .outage))) _ :=
    Follows.runsTo (by decide +kernel) (by decide +kernel)
  have hlate : disturbed.Runs Faults.sparingUndo (repaying ⟨some 5⟩) (some (.error .timeout)) _ :=
    .ask (.refl _) trivial rfl (.ask ⟨5, .epoch, by decide, rfl⟩ trivial rfl
      (Follows.runs (by decide +kernel)))
  have hdrained : disturbed.Runs Faults.sparingUndo (Engine.runDue {})
      (some [(.paymentSettled ⟨1⟩, .error (.storage .outage))]) _ :=
    Follows.runsTo (by decide +kernel) (by decide +kernel)
  obtain ⟨ds, hdrains, houtcomes⟩ := runs_runDue.mp hdrained
  refine ⟨⟨_, hrefused, (hcall _ _ _ _ hrefused).1⟩, ⟨_, hlate, (hcall _ _ _ _ hlate).1⟩,
    ds, _, hdrains, houtcomes.symm, fun d hd => ?_⟩
  have hmem := List.mem_map_of_mem (f := fun d : Delivery => (d.notification, d.outcome)) hd
  rw [Delivery.map_of_outcomes houtcomes.symm] at hmem
  have houtcome : d.outcome = some (.error (.storage .outage)) :=
    congrArg Prod.snd (List.mem_singleton.mp hmem)
  exact (hdrain ds _ (hdrains.mono fun _ _ _ => trivial) d hd _ houtcome (hdrains.mem_runs hd)).1

end Lending
