import Lending.Proofs.Engine.Effects
import Lending.Proofs.Engine.Locking

/-!
# Runs that nothing hinders

Where every lock is free and the store works, the answer to a request is known beforehand, and so is
the end of a whole program. It does not depend on the kind of store, but on the rows, the queue and
the clocks.

* `Scene`: books and what surrounds them.
* `Scene.run`: the end of a program, with equations for the parts of an operation.
* `World.Unbroken`: no store call of a program meets a fault.
* `World.run_scene`: a run whose store calls all work ends in this way.
-/

namespace Lending

/-- No call breaks. -/
def Faults.none : Faults := fun _ _ => False

instance (call : StoreCall) (fault : Fault) : Decidable (Faults.none call fault) :=
  isFalse not_false

theorem Faults.none_leaveSchedules : ¬Faults.none.LeaveSchedules :=
  not_or.mpr ⟨not_exists.mpr fun _ => id, not_exists.mpr fun _ => id⟩

theorem Faults.none_leaveStatuses : ¬Faults.none.LeaveStatuses :=
  not_or.mpr ⟨not_exists.mpr fun _ => id, not_exists.mpr fun _ h => h.2⟩

/-- Books and what surrounds them. Of `around` only the clocks, the scorer and the source of
references count. -/
structure Scene where
  books : Books
  around : World

namespace Scene

variable {α β : Type}

def callStore (s : Scene) (call : StoreCall) : Except Failure call.Result × Scene :=
  match s.books.ledger.answer call with
  | .ok (result, ledger) => (.ok result, { s with books := { s.books with ledger } })
  | .error cause => (.error cause, s)

/-- The answer to a request where every lock is free and the store works, and the scene after
it. -/
def answer (s : Scene) : (request : Request) → request.Answer × Scene
  | .acquire _ limit => (!limit.isExpired s.around.time, s)
  | .release _ => ((), s)
  | .store call => s.callStore call
  | .score user limit =>
    let (inTime, time) := limit.wait s.around.time s.around.scoreDelay
    let (score, around) := (s.around.passTo time).drawScore inTime user
    (score, { s with around })
  | .expired limit => (limit.isExpired s.around.time, s)
  | .now => (s.around.clock, s)
  | .freshOrder =>
    let (order, orders) := s.around.orders.next
    (order, { s with around := { s.around with orders } })
  | .schedule n due =>
    ((), { s with books := { s.books with queue := s.books.queue.schedule n due } })
  | .cancel n =>
    let (waiting, queue) := s.books.queue.cancel n
    (waiting, { s with books := { s.books with queue } })
  | .takeDue now =>
    let (due, queue) := s.books.queue.takeDue now
    (due, { s with books := { s.books with queue } })
  | .pruneLocks => ((), s)

/-- The result of a program that nothing hinders, and the scene after it. -/
def run (s : Scene) : Program α → α × Scene
  | .done value => (value, s)
  | .ask request next =>
    let (answer, s) := s.answer request
    s.run (next answer)

theorem run_bind (s : Scene) (p : Program α) (f : α → Program β) :
    s.run (p.bind f) = (s.run p).2.run (f (s.run p).1) := by
  induction p generalizing s with
  | done value => rfl
  | ask request next ih => exact ih _ _

/-! ## Operations -/

/-- The same of an operation. -/
def perform (s : Scene) (op : Operation α) : Except Failure α × Scene := s.run op.run

variable (s : Scene)

theorem perform_pure (a : α) : s.perform (pure a) = (.ok a, s) := rfl

theorem perform_throw (cause : Failure) :
    s.perform (throw cause : Operation α) = (.error cause, s) := rfl

theorem perform_bind (op : Operation α) (f : α → Operation β) :
    s.perform (op >>= f) =
      match s.perform op with
      | (.ok a, s') => s'.perform (f a)
      | (.error cause, s') => (.error cause, s') := by
  refine (run_bind s op.run _).trans ?_
  unfold perform
  rcases s.run op.run with ⟨cause | a, s'⟩ <;> rfl

theorem perform_now : s.perform (liftM Operation.now) = (.ok s.around.clock, s) := rfl

theorem perform_freshOrder :
    s.perform (liftM Operation.freshOrder) =
      (.ok s.around.orders.next.1,
        { s with around := { s.around with orders := s.around.orders.next.2 } }) := rfl

theorem perform_schedule (n : Notification) (due : Instant) :
    s.perform (liftM (Operation.schedule n due)) =
      (.ok (), { s with books := { s.books with queue := s.books.queue.schedule n due } }) := rfl

-- the type of the result is a case of `StoreCall.Result`, by which `simp` could not find the rules
theorem perform_call (c : StoreCall) :
    @perform (no_index c.Result) s (Operation.call c) =
      match s.books.ledger.answer c with
      | .ok (result, ledger) => (.ok result, { s with books := { s.books with ledger } })
      | .error cause => (.error cause, s) := by
  show s.callStore c = _
  rfl

theorem perform_look {c : StoreCall} {found : Ledger → c.Result}
    (h : ∀ l : Ledger, l.answer c = .ok (found l, l)) :
    @perform (no_index c.Result) s (Operation.call c) = (.ok (found s.books.ledger), s) := by
  rw [perform_call, h]

theorem perform_require (result : Except Failure α) :
    s.perform (Operation.require result) = (result, s) := rfl

theorem perform_found {e : Entity} (id : Id e) (row : Option α) :
    s.perform (Operation.found id row) =
      (match row with
        | some row => .ok row
        | none => .error (.notFound e id.value), s) := rfl

section InTime

variable {s : Scene} {limit : Deadline} (hlimit : limit.isExpired s.around.time = false)

include hlimit

theorem perform_check : s.perform (Operation.check limit) = (.ok (), s) := by
  have hrun : s.perform (Operation.check limit) =
      s.perform (if limit.isExpired s.around.time = true then throw .timeout else pure ()) := rfl
  rw [hrun, hlimit]
  rfl

theorem perform_boundedCall (c : StoreCall) :
    @perform (no_index c.Result) s (Operation.boundedCall limit c) =
      s.perform (Operation.call c) := by
  rw [Operation.boundedCall, perform_bind, perform_check hlimit]

/-- A lock that is free changes nothing. -/
theorem perform_locked (key : LockKey) (body : Operation α) :
    s.perform (Operation.locked key limit body) = s.perform body := by
  have hrun : s.perform (Operation.locked key limit body) =
      s.run (if !limit.isExpired s.around.time then
        body.run.bind fun result => .ask (.release key) fun _ => .done result
      else .done (.error .timeout)) := by
    show s.run (if !limit.isExpired s.around.time then _ else _) = _
    rfl
  rw [hrun, hlimit]
  exact run_bind s body.run _

end InTime

section Late

variable {s : Scene} {limit : Deadline} (hlimit : limit.isExpired s.around.time = true)

include hlimit

theorem perform_check_late : s.perform (Operation.check limit) = (.error .timeout, s) := by
  have hrun : s.perform (Operation.check limit) =
      s.perform (if limit.isExpired s.around.time = true then throw .timeout else pure ()) := rfl
  rw [hrun, hlimit]
  rfl

/-- What is late gets no lock. -/
theorem perform_locked_late (key : LockKey) (body : Operation α) :
    s.perform (Operation.locked key limit body) = (.error .timeout, s) := by
  have hrun : s.perform (Operation.locked key limit body) =
      s.run (if !limit.isExpired s.around.time then
        body.run.bind fun result => .ask (.release key) fun _ => .done result
      else .done (.error .timeout)) := by
    show s.run (if !limit.isExpired s.around.time then _ else _) = _
    rfl
  rw [hrun, hlimit]
  rfl

end Late

/-- A write that succeeds is not undone, and what undoes a failed one does not change the cause. -/
theorem perform_compensated (write : Operation α) (undo : Operation β) :
    s.perform (Operation.compensated write undo) =
      match s.perform write with
      | (.ok a, s') => (.ok a, s')
      | (.error cause, s') => (.error cause, (s'.perform undo).2) := by
  refine (run_bind s write.run _).trans ?_
  unfold perform
  rcases s.run write.run with ⟨cause | a, s'⟩
  · exact run_bind s' undo.run _
  · rfl

end Scene

/-! ## Worlds -/

namespace World

variable {α : Type} {w : World} {s : Scene}

/-- The world has these books and these surroundings. -/
def Stages (w : World) (s : Scene) : Prop :=
  w.Shows s.books ∧
    ∃ store queue outages locks, s.around = { w with store, queue, outages, locks }

theorem Shows.stages {b : Books} (h : w.Shows b) : w.Stages ⟨b, w⟩ :=
  ⟨h, w.store, w.queue, w.outages, w.locks, rfl⟩

/-- No store call of the program meets a fault. -/
def Unbroken {α : Type} : Program α → World → Prop
  | .done _, _ => True
  | .ask request next, w =>
    (∀ call, request = .store call → w.outages.next call.method = none) ∧
      match w.answer request with
      | (some answer, w') => Unbroken (next answer) w'
      | (none, _) => True

theorem Follows.unbroken {p : Program α} (h : w.Follows Faults.none p) : w.Unbroken p := by
  induction p generalizing w with
  | done value => trivial
  | ask request next ih =>
    rw [Follows] at h
    obtain ⟨hgrants, hrest⟩ := h
    rw [Unbroken]
    constructor
    · rintro call rfl
      simp only [Grants] at hgrants
      split at hgrants
      · exact hgrants.elim
      · assumption
    · rcases hanswer : w.answer request with ⟨_ | answer, w'⟩
      · trivial
      · rw [hanswer] at hrest
        exact ih answer hrest

/-- A store call that works. -/
theorem callStore_scene {call : StoreCall} (hs : w.Stages s)
    (hl : s.books.ledger.Ordered) (hworks : w.outages.next call.method = none) :
    (w.callStore call).1 = some (s.answer (.store call)).1 ∧
      (w.callStore call).2.Stages (s.answer (.store call)).2 ∧
      (s.answer (.store call)).2.books.ledger.Ordered := by
  obtain ⟨⟨hkeeps, hqueue⟩, store, queue, outages, locks, haround⟩ := hs
  simp only [callStore, hworks, Scene.answer, Scene.callStore]
  cases hanswer : s.books.ledger.answer call with
  | error cause =>
    simp only [hkeeps.answer_error hl hanswer]
    exact ⟨trivial, ⟨⟨hkeeps, hqueue⟩, store, queue, outages, locks, haround⟩, hl⟩
  | ok answered =>
    obtain ⟨result, ledger⟩ := answered
    obtain ⟨store', hstore, hkeeps'⟩ := hkeeps.answer_ok hl hanswer
    simp only [hstore]
    exact ⟨trivial, ⟨⟨hkeeps', hqueue⟩, store, queue, outages, locks, haround⟩, hl.answer hanswer⟩

/-- A score takes the same time and comes from the same scorer. -/
theorem stages_score (hs : w.Stages s) (user : String) (limit : Deadline) :
    (w.answer (.score user limit)).1 = some (s.answer (.score user limit)).1 ∧
      (w.answer (.score user limit)).2.Stages (s.answer (.score user limit)).2 := by
  obtain ⟨hshows, store, queue, outages, locks, haround⟩ := hs
  have htime : s.around.time = w.time := by rw [haround]
  have hdelay : s.around.scoreDelay = w.scoreDelay := by rw [haround]
  simp only [answer, Scene.answer, htime, hdelay]
  rcases limit.wait w.time w.scoreDelay with ⟨inTime, time⟩
  have hpass : s.around.passTo time = { w.passTo time with store, queue, outages, locks } := by
    rw [haround, passTo, passTo]
    split <;> rfl
  have hshows' := shows_drawScore (shows_passTo hshows time) inTime user
  rw [hpass]
  cases inTime with
  | true => exact ⟨rfl, hshows', store, queue, outages, locks, rfl⟩
  | false => exact ⟨rfl, hshows', store, queue, outages, locks, rfl⟩

/-- Whatever takes and releases no lock is answered as in the scene. -/
theorem answer_scene {request : Request} (hlocking : request.isLocking = false)
    (hs : w.Stages s) (hl : s.books.ledger.Ordered)
    (hworks : ∀ call, request = .store call → w.outages.next call.method = none) :
    (w.answer request).1 = some (s.answer request).1 ∧
      (w.answer request).2.Stages (s.answer request).2 ∧
      (s.answer request).2.books.ledger.Ordered := by
  cases request with
  | acquire _ _ | release _ => cases hlocking
  | store call => exact callStore_scene hs hl (hworks call rfl)
  | score user limit =>
    obtain ⟨hanswer, hstages⟩ := stages_score hs user limit
    exact ⟨hanswer, hstages, hl⟩
  | expired _ | now | freshOrder | schedule _ _ | cancel _ | takeDue _ | pruneLocks =>
    obtain ⟨⟨hkeeps, hqueue⟩, store, queue, outages, locks, haround⟩ := hs
    obtain ⟨⟨ledger, _⟩, around⟩ := s
    subst haround hqueue
    exact ⟨rfl, ⟨⟨hkeeps, rfl⟩, store, queue, outages, locks, rfl⟩, hl⟩

/-- A program that runs alone ends as it must where nothing hinders it, if its locks nest and its
store calls work. -/
theorem run_nests_scene {Q : α → List LockKey → Prop} {p : Program α}
    (hp : p.Nests Q w.locks.held) (hw : w.locks.Exclusive) (hs : w.Stages s)
    (hl : s.books.ledger.Ordered) (hunbroken : w.Unbroken p) :
    (w.run p).1 = some (s.run p).1 ∧ (w.run p).2.Stages (s.run p).2 := by
  induction p generalizing w s with
  | done value => exact ⟨rfl, hs⟩
  | ask request next ih =>
    rw [Unbroken] at hunbroken
    obtain ⟨hworks, hrest⟩ := hunbroken
    cases hlocking : request.isLocking with
    | false =>
      obtain ⟨hanswer, hstages, hordered⟩ := answer_scene hlocking hs hl hworks
      obtain ⟨hexclusive, hheld⟩ := answer_locks hlocking hw
      have hnext := (Program.nests_ask hlocking next _).mp hp (s.answer request).1
      simp only [run, Scene.run]
      rcases hboth : w.answer request with ⟨_ | answer, w'⟩
      · rw [hboth] at hanswer
        cases hanswer
      · rw [hboth] at hanswer hstages hexclusive hheld hrest
        obtain rfl := Option.some.inj hanswer
        exact ih _ (hheld ▸ hnext) hexclusive hstages hordered hrest
    | true =>
      obtain ⟨hshows, store, queue, outages, locks, haround⟩ := hs
      cases request with
      | acquire key limit =>
        obtain ⟨hrank, hlate, hgranted⟩ := hp
        have hfree : key ∉ w.locks.held := fun hmem => Nat.lt_irrefl _ (hrank key hmem)
        obtain ⟨locks', hanswer, hexclusive, hheld⟩ := answer_acquire hw hfree limit
        have htime : s.around.time = w.time := by rw [haround]
        rw [hanswer] at hrest
        simp only [run, hanswer, Scene.run, Scene.answer, htime]
        refine ih _ ?_ hexclusive ⟨hshows, store, queue, outages, locks, haround⟩ hl hrest
        cases hexpired : limit.isExpired w.time <;> rw [hexpired] at hheld
        · exact hheld ▸ hgranted
        · exact hheld ▸ hlate
      | release key =>
        obtain ⟨rest, hheld, hnext⟩ := hp
        obtain ⟨locks', hanswer, hexclusive, hheld'⟩ := answer_release hw hheld
        rw [hanswer] at hrest
        simp only [run, hanswer, Scene.run, Scene.answer]
        exact ih () (hheld' ▸ hnext) hexclusive ⟨hshows, store, queue, outages, locks, haround⟩ hl
          hrest
      | store _ | score _ _ | expired _ | now | freshOrder | schedule _ _ | cancel _ | takeDue _
      | pruneLocks => cases hlocking

/-- What gives its locks back ends as it must where nothing hinders it, if all locks are free and
its store calls work. -/
theorem run_scene_unbroken {p : Program α} (hp : p.Returns) (hw : w.locks.Idle) (hs : w.Stages s)
    (hl : s.books.ledger.Ordered) (hunbroken : w.Unbroken p) :
    (w.run p).1 = some (s.run p).1 ∧ (w.run p).2.Stages (s.run p).2 := by
  refine run_nests_scene (Q := fun _ held => held = []) ?_ hw.1 hs hl hunbroken
  rw [hw.2]
  exact hp

theorem run_scene {p : Program α} (hp : p.Returns) (hw : w.locks.Idle) (hs : w.Stages s)
    (hl : s.books.ledger.Ordered) (hfollows : w.Follows Faults.none p) :
    (w.run p).1 = some (s.run p).1 ∧ (w.run p).2.Stages (s.run p).2 :=
  run_scene_unbroken hp hw hs hl hfollows.unbroken

end World

end Lending
