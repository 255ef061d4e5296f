import Lending.Engine.World

/-!
# Simulation

An engine at work in virtual time: calls are made one after another, the clock is moved by hand or
goes on with the time, stores fail as told, and a pump may drain the settlement queue at regular
intervals in the background.

The call in the foreground and the pump take turns. The foreground gives way when time passes, which
it does while a score is waited for and in `sleep`, and when it has to wait for a lock. The pump
then goes on until it has nothing to do before the end of that time, or waits for a lock itself. It
drains the queue at every tick before the end of the time that passes; a tick that falls on the end
is due when the foreground gives way the next time. Locks are taken in the order of asking.

* `Simulation.run`: a program in the foreground.
* `run_eq_run`: with nothing in the background this is `World.run`.
-/

namespace Lending

/-! ## The pump -/

/-- A drain that waits for a lock. -/
structure WaitingDrain where
  /-- The ticket that it waits with. -/
  ticket : Nat
  /-- How it goes on, told whether it has the lock. -/
  next : Bool → Program Unit
  /-- The tickets of its lock attempts. -/
  tickets : List Nat

/-- What a pump does between two turns of the foreground. -/
inductive PumpState where
  /-- Not yet begun. -/
  | spawned
  /-- Waiting for the tick at a time. -/
  | waiting (tick : Nat)
  /-- In a drain; then waiting for the tick at a time. -/
  | draining (drain : WaitingDrain) (tick : Nat)
  /-- Told to end, which it does when the foreground gives way. -/
  | aborted
  | finished

/-- A task in the background that drains the settlement queue at regular intervals. -/
structure Pump where
  /-- Milliseconds from tick to tick. -/
  period : Nat
  state : PumpState

/-- The lock attempts of a pump between its turns. -/
def Pump.tickets (p : Pump) : List Nat :=
  match p.state with
  | .draining drain _ => drain.tickets
  | _ => []

/-- Where a program in the background stops. -/
inductive Drained where
  | ended (w : World)
  /-- The program waits for a lock, with a ticket. -/
  | waits (ticket : Nat) (next : Bool → Program Unit) (w : World)
  | crashed (w : World)

/-- Runs a program until it ends, crashes or has to wait for a lock. -/
def Program.drain : Program Unit → World → Drained
  | .done _, w => .ended w
  | .ask (.acquire key limit) next, w =>
    if limit.isExpired w.time then (next false).drain w
    else
      let (ticket, locks) := w.locks.lookUp key
      match locks.claim? ticket with
      | some locks => (next true).drain { w with locks }
      | none => .waits ticket next { w with locks }
  | .ask request next, w =>
    match w.answer request with
    | (some answer, w) => (next answer).drain w
    | (none, w) => .crashed w

/-- The lock attempts from a ticket on. -/
def World.ticketsFrom (w : World) (first : Nat) : List Nat :=
  (w.locks.attempts.map fun a => a.ticket).filter fun ticket => first ≤ ticket

/-- Ends lock attempts, whether they wait or hold. -/
def World.giveUp (w : World) (tickets : List Nat) : World :=
  { w with locks := tickets.foldl LockTable.drop w.locks }

/-- An engine with its policy in a world, and what goes on in the background. -/
structure Simulation where
  policy : Policy
  world : World
  pump : Option Pump := none
  /-- The lock attempts of pumps told to end, which are over when the foreground gives way. -/
  leaving : List Nat := []

namespace Simulation

/-- Changes the state of the pump, if there is one. -/
def setPump (s : Simulation) (state : PumpState) : Simulation :=
  { s with pump := s.pump.map fun pump => { pump with state } }

/-- Goes on with a drain that has made the lock attempts `tickets`; the next tick is at `tick`. A
drain that crashes ends the pump, and what it had taken out of the queue is lost. -/
def drain (s : Simulation) (program : Program Unit) (tickets : List Nat) (tick : Nat) :
    Simulation :=
  let first := s.world.locks.nextTicket
  match program.drain s.world with
  | .ended w => { s with world := w }.setPump (.waiting tick)
  | .waits ticket next w =>
    { s with world := w }.setPump
      (.draining { ticket, next, tickets := tickets ++ w.ticketsFrom first } tick)
  | .crashed w =>
    { s with world := w.giveUp (tickets ++ w.ticketsFrom first) }.setPump .finished

/-- Goes on with a drain that waits for a lock, if it is its turn. -/
def resume? (s : Simulation) (d : WaitingDrain) (tick : Nat) : Option Simulation :=
  (s.world.locks.claim? d.ticket).map fun locks =>
    { s with world := { s.world with locks } }.drain (d.next true) d.tickets tick

/-- What the pump does at a tick. Nobody sees what became of the deliveries. -/
def drainProgram (policy : Policy) : Program Unit := do
  let _ ← Engine.runDue policy

/-- A tick that is more than this late, in milliseconds, puts off the ticks after it. -/
def latestTick : Nat := 5

/-- Lets the pump do what it has to do now and before `time`, and then lets it be `time`. The pump
has at most `turns` turns. -/
def pumpUntil (time : Nat) : Nat → Simulation → Simulation
  | 0, s => { s with world := s.world.passTo time }
  | turns + 1, s =>
    let rest := { s with world := s.world.passTo time }
    match s.pump with
    | none => rest
    | some pump =>
      match pump.state with
      | .spawned => pumpUntil time turns (s.setPump (.waiting s.world.time))
      | .aborted => pumpUntil time turns (s.setPump .finished)
      | .finished => rest
      | .draining drain tick =>
        match s.resume? drain tick with
        | some s => pumpUntil time turns s
        | none => rest
      | .waiting tick =>
        if tick ≤ s.world.time ∨ tick < time then
          let now := max tick s.world.time
          let s := { s with world := s.world.passTo now }
          let next := if tick + latestTick < now then now + pump.period else tick + pump.period
          pumpUntil time turns (s.drain (drainProgram s.policy) [] next)
        else rest

/-- Lets the background go on until it is `time`, at least until it has nothing to do now. The pump
needs a turn for each tick, of which a late one may have `latestTick` behind it, and for beginning,
a drain under way and ending. -/
def giveWayUntil (s : Simulation) (time : Nat) : Simulation :=
  pumpUntil time (time - s.world.time + latestTick + 5)
    { s with world := s.world.giveUp s.leaving, leaving := [] }

/-- Lets the background go on, and no time pass. -/
def giveWay (s : Simulation) : Simulation := s.giveWayUntil s.world.time

/-- Lets time pass until `time`, unless that is past. -/
def passTo (s : Simulation) (time : Nat) : Simulation :=
  if s.world.time < time then s.giveWayUntil time else s

/-! ## Programs -/

/-- Takes a lock, and gives way once if it has to wait for it. The operations of the engine take
their locks in one order, so that a pump in front of this one goes on until the lock is free. A lock
that still is not free is not granted. -/
def acquire (s : Simulation) (key : LockKey) : Bool × Simulation :=
  let (ticket, locks) := s.world.locks.lookUp key
  let s := { s with world := { s.world with locks } }
  let claim := fun (s : Simulation) => (s.world.locks.claim? ticket).map fun locks =>
    { s with world := { s.world with locks } }
  match claim s with
  | some s => (true, s)
  | none =>
    let s := s.giveWay
    match claim s with
    | some s => (true, s)
    | none => (false, { s with world := s.world.giveUp [ticket] })

/-- Runs a program in the foreground. There is no result if it crashes. -/
def run {α : Type} : Program α → Simulation → Option α × Simulation
  | .done value, s => (some value, s)
  | .ask (.score user limit) next, s =>
    let (inTime, time) := limit.wait s.world.time s.world.scoreDelay
    let s := s.passTo time
    let (score, world) := s.world.drawScore inTime user
    run (next score) { s with world }
  | .ask (.acquire key limit) next, s =>
    if limit.isExpired s.world.time then run (next false) s
    else
      let (granted, s) := s.acquire key
      run (next granted) s
  | .ask request next, s =>
    match s.world.answer request with
    | (some answer, world) => run (next answer) { s with world }
    | (none, world) => (none, { s with world })

/-- There is no pump, and none that was told to end has still to do so. -/
def IsAlone (s : Simulation) : Prop := s.pump = none ∧ s.leaving = []

theorem giveWayUntil_of_isAlone {s : Simulation} (h : s.IsAlone) (time : Nat) :
    s.giveWayUntil time = { s with world := s.world.passTo time } := by
  obtain ⟨policy, world, pump, leaving⟩ := s
  obtain ⟨rfl, rfl⟩ : pump = none ∧ leaving = [] := h
  rfl

theorem passTo_of_isAlone {s : Simulation} (h : s.IsAlone) (time : Nat) :
    s.passTo time = { s with world := s.world.passTo time } := by
  simp only [passTo]
  split
  · exact giveWayUntil_of_isAlone h time
  · next hle => rw [World.passTo_of_le (Nat.not_lt.mp hle)]

theorem giveWay_of_isAlone {s : Simulation} (h : s.IsAlone) : s.giveWay = s := by
  rw [giveWay, giveWayUntil_of_isAlone h, World.passTo_of_le (Nat.le_refl _)]

theorem acquire_of_isAlone {s : Simulation} (h : s.IsAlone) (key : LockKey) :
    s.acquire key = ((s.world.locks.lock key).1,
      { s with world := { s.world with locks := (s.world.locks.lock key).2 } }) := by
  simp only [acquire, LockTable.lock]
  cases hc : (s.world.locks.lookUp key).2.claim? (s.world.locks.lookUp key).1 with
  | some locks => rfl
  | none =>
    rw [giveWay_of_isAlone (by exact h)]
    simp only [hc]
    rfl

/-- With nothing in the background, nothing happens between the steps of a program. -/
theorem run_eq_run {α : Type} (p : Program α) (s : Simulation) (h : s.IsAlone) :
    run p s = ((s.world.run p).1, { s with world := (s.world.run p).2 }) := by
  induction p generalizing s with
  | done value => rfl
  | ask request next ih =>
    cases request with
    | score user limit =>
      simp only [run, World.run, World.answer, passTo_of_isAlone h]
      exact ih _ _ h
    | acquire key limit =>
      simp only [run, World.run, World.answer]
      split
      · exact ih _ _ h
      · rw [acquire_of_isAlone h]
        exact ih _ _ h
    | _ =>
      simp only [run, World.run]
      generalize s.world.answer _ = reply
      rcases reply with ⟨_ | answer, w⟩
      · rfl
      · exact ih answer _ h

/-! ## Running the engine -/

/-- An engine in a world, if the policy can be used. -/
def make (policy : Policy) (world : World) : Except Failure Simulation :=
  policy.check.map fun _ => { policy, world }

/-- The deadline of a call that begins now; there is none without a budget. -/
def deadline (s : Simulation) (budget : Option Nat) : Deadline :=
  match budget with
  | some budget => .within s.world.time budget
  | none => .unbounded

/-- Makes a call of the engine, within `budget` milliseconds if that is given. -/
def call (s : Simulation) (c : EngineCall) (budget : Option Nat) :
    Option (Except Failure c.Result) × Simulation :=
  run (c.program s.policy (s.deadline budget)).run s

/-- Delivers what is due. -/
def runDue (s : Simulation) :
    Option (List (Notification × Except Failure Engine.Ack)) × Simulation :=
  run (Engine.runDue s.policy) s

/-- Withdraws a notification, and says whether it was waiting. -/
def cancel (s : Simulation) (n : Notification) : Bool × Simulation :=
  let (waiting, queue) := s.world.queue.cancel n
  (waiting, { s with world := { s.world with queue } })

/-- How many notifications are waiting. -/
def pending (s : Simulation) : Nat := s.world.queue.size

/-- Lets `millis` milliseconds pass. -/
def sleep (s : Simulation) (millis : Nat) : Simulation := s.passTo (s.world.time + millis)

/-- Sets the engine's clock by hand. -/
def setClock (s : Simulation) (clock : Instant) : Simulation :=
  { s with world := { s.world with clock } }

/-- Moves the engine's clock on by hand. A clock that would break off past the end of the calendar
is not considered: it stays where it is (`Instant.add`). -/
def advanceClock (s : Simulation) (millis : Int) : Simulation :=
  s.setClock (s.world.clock.add millis)

/-- Has other calls of the store fail from now on. -/
def setOutages (s : Simulation) (outages : Outages) : Simulation :=
  { s with world := { s.world with outages } }

/-- Makes a store call past the engine; it meets no outage. -/
def callStore (s : Simulation) (c : StoreCall) : Except Failure c.Result × Simulation :=
  match s.world.store.answer c with
  | .ok (result, store) => (.ok result, { s with world := { s.world with store } })
  | .error cause => (.error cause, s)

/-! ## Running the pump -/

/-- Whether the pump has ended. -/
def Pump.isFinished (p : Pump) : Bool := p.state matches .finished

/-- Whether the pump has ended; nothing if there is no pump. -/
def pumpFinished? (s : Simulation) : Option Bool := s.pump.map Pump.isFinished

/-- Has the lock attempts of the pump end when the foreground gives way. -/
def releasePump (s : Simulation) : Simulation :=
  { s with leaving := s.leaving ++ (s.pump.map Pump.tickets).getD [] }

/-- Tells the pump to end, and forgets it. -/
def dropPump (s : Simulation) : Simulation := { s.releasePump with pump := none }

/-- Tells the pump to end, unless it has ended. -/
def abortPump (s : Simulation) : Simulation :=
  match s.pumpFinished? with
  | some false => s.releasePump.setPump .aborted
  | _ => s

/-- Begins a pump in place of the one there was. A period is at least a millisecond. -/
def startPump (s : Simulation) (period : Nat) : Simulation :=
  { s.dropPump with pump := some { period := max period 1, state := .spawned } }

/-- Ends the pump after the drain that it may be in, and waits until it has ended. -/
def shutdownPump (s : Simulation) : Simulation :=
  match s.pump.map Pump.state with
  | none | some .finished => s.dropPump
  | some (.draining drain tick) =>
    let s := { s with world := s.world.giveUp s.leaving, leaving := [] }
    ((s.resume? drain tick).getD s).dropPump
  | some _ => { s with world := s.world.giveUp s.leaving, leaving := [], pump := none }

/-! ## Closing and opening the books -/

/-- The same surroundings with a new engine on an opened database: nothing waits in its queue and
nothing is locked. -/
def reopen (s : Simulation) (d : Database) : Except Failure Simulation := do
  let archive ← Archive.open? d
  make s.policy { s.world with store := .durable archive, queue := {}, locks := {} }

end Simulation

end Lending
