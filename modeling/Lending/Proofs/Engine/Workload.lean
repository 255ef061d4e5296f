import Lending.Proofs.Engine.Locking
import Lending.Proofs.Engine.Runs

/-!
# Tasks that take turns

Any number of calls and drains at work on one engine. Each goes on by one request at a time, in any
order, and what is due to happen between two requests of one task is whatever requests the others
make. A task that asks for a lock waits until the lock is free, or until its deadline.

* `Job`, `Task`, `Workload`: what was begun, what is left of it, and all of it with its world.
* `World.Serves`: how a request is answered that others can come before.
* `Workload.Step`: one request of one task.
* `Workload.turns?`: turns taken in a given order; `Workload.turns?_steps`: they are steps.
* `Program.Ends`: what can be told of the result of a program that has not ended.
-/

namespace Lending

/-! ## Tasks -/

inductive Job where
  | call (call : EngineCall) (limit : Deadline)
  | drain

@[reducible]
def Job.Result : Job → Type
  | .call c _ => Except Failure c.Result
  | .drain => List (Notification × Except Failure Engine.Ack)

def Job.program (policy : Policy) : (job : Job) → Program job.Result
  | .call c limit => (c.program policy limit).run
  | .drain => Engine.runDue policy

/-- A job that was begun, and what is left of it. -/
structure Task where
  job : Job
  rest : Program job.Result

/-- Tasks at work on one engine. -/
structure Workload where
  world : World
  tasks : List Task

/-- The jobs before their first requests. -/
def Workload.start (policy : Policy) (world : World) (jobs : List Job) : Workload where
  world := world
  tasks := jobs.map fun job => ⟨job, job.program policy⟩

/-! ## Turns -/

/-- The request may have to wait. -/
def Request.isAcquire : Request → Bool
  | .acquire _ _ => true
  | _ => false

/-- How a request is answered that others can come before, and the world after it. -/
inductive World.Serves (w : World) : (request : Request) → request.Answer → World → Prop
  | granted {key : LockKey} {limit : Deadline} {locks : LockTable LockKey}
      (free : w.locks.lock key = (true, locks)) :
    Serves w (.acquire key limit) true { w with locks }
  /-- The deadline expired while the lock was waited for. -/
  | late {key : LockKey} {limit : Deadline} (expired : limit.isExpired w.time = true) :
    Serves w (.acquire key limit) false w
  | answered {request : Request} {answer : request.Answer} {w' : World}
      (ready : request.isAcquire = false) (answers : w.answer request = (some answer, w')) :
    Serves w request answer w'

/-- One request of one task is answered, or something changes around the engine. -/
inductive Workload.Step (faults : Faults) (s : Workload) : Workload → Prop
  | task {before after : List Task} {job : Job} {request : Request}
      {next : request.Answer → Program job.Result} {answer : request.Answer} {w : World}
      (turn : s.tasks = before ++ ⟨job, .ask request next⟩ :: after)
      (grants : s.world.Grants faults request) (serves : s.world.Serves request answer w) :
    Step faults s { world := w, tasks := before ++ ⟨job, next answer⟩ :: after }
  /-- Clocks, scorers, outages and the source of references may change in any way. -/
  | surroundings {w : World} (store : w.store = s.world.store) (queue : w.queue = s.world.queue)
      (locks : w.locks = s.world.locks) : Step faults s { s with world := w }

/-! ### Turns in a given order -/

section Turns

variable {faults : Faults}

/-- The answer to a request that need not wait any longer. -/
def World.serve? (w : World) : (request : Request) → Option (request.Answer × World)
  | .acquire key limit =>
    match w.locks.lock key with
    | (true, locks) => some (true, { w with locks })
    | (false, _) => if limit.isExpired w.time then some (false, w) else none
  | request =>
    match w.answer request with
    | (some answer, w') => some (answer, w')
    | (none, _) => none

theorem World.serves_of_serve? {w w' : World} {request : Request} {answer : request.Answer}
    (h : w.serve? request = some (answer, w')) : w.Serves request answer w' := by
  cases request with
  | acquire key limit =>
    simp only [serve?] at h
    split at h
    · rename_i locks hlock
      obtain ⟨rfl, rfl⟩ := Prod.mk.inj (Option.some.inj h)
      exact .granted hlock
    · split at h
      · rename_i hexpired
        obtain ⟨rfl, rfl⟩ := Prod.mk.inj (Option.some.inj h)
        exact .late hexpired
      · cases h
  | store _ | release _ | score _ _ | expired _ | now | freshOrder | schedule _ _ | cancel _
  | takeDue _ | pruneLocks =>
    simp only [serve?] at h
    split at h
    · rename_i hanswer
      obtain ⟨rfl, rfl⟩ := Prod.mk.inj (Option.some.inj h)
      exact .answered rfl hanswer
    · cases h

variable [∀ call fault, Decidable (faults call fault)]

/-- The turn of the task at a place, if it can go on. -/
def Workload.turn? (faults : Faults) [∀ call fault, Decidable (faults call fault)] (s : Workload)
    (place : Nat) : Option Workload :=
  match s.tasks[place]? with
  | some ⟨job, .ask request next⟩ =>
    if s.world.Grants faults request then
      (s.world.serve? request).map fun (answer, w) =>
        { world := w
          tasks := s.tasks.take place ++ ⟨job, next answer⟩ :: s.tasks.drop (place + 1) }
    else none
  | _ => none

/-- Turns of the tasks at these places, one after another. -/
def Workload.turns? (faults : Faults) [∀ call fault, Decidable (faults call fault)] (s : Workload)
    (places : List Nat) : Option Workload :=
  places.foldlM (fun s place => s.turn? faults place) s

theorem Workload.turn?_step {s s' : Workload} {place : Nat} (h : s.turn? faults place = some s') :
    s.Step faults s' := by
  unfold turn? at h
  split at h
  · rename_i job request next htask
    split at h
    · rename_i hgrants
      obtain ⟨⟨answer, w⟩, hserve, rfl⟩ := Option.map_eq_some_iff.mp h
      obtain ⟨hplace, hget⟩ := List.getElem?_eq_some_iff.mp htask
      refine .task ?_ hgrants (World.serves_of_serve? hserve)
      rw [← hget, List.getElem_cons_drop, List.take_append_drop]
    · cases h
  · cases h

theorem Workload.turns?_steps {s s' : Workload} {places : List Nat}
    (h : s.turns? faults places = some s') : Relation.ReflTransGen (Step faults) s s' := by
  induction places generalizing s with
  | nil =>
    obtain rfl := Option.some.inj h
    exact .refl
  | cons place rest ih =>
    rw [turns?, List.foldlM_cons] at h
    obtain ⟨s₁, hfirst, hrest⟩ := Option.bind_eq_some_iff.mp h
    exact .head (turn?_step hfirst) (ih hrest)

end Turns

/-! ## Results to come -/

/-- However the requests that are left are answered, the program ends with a result that satisfies
`P`. -/
def Program.Ends {α : Type} (P : α → Prop) : Program α → Prop
  | .done value => P value
  | .ask _ next => ∀ answer, (next answer).Ends P

end Lending
