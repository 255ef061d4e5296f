import Lending.Engine.Call
import Lending.Engine.Orders
import Lending.Store.Archive
import Lending.Store.Ledger

/-!
# The engine's surroundings

What answers the requests of a program: a store, which may fail, the settlement queue, the locks, a
clock, a scorer and a source of order references. Beside the engine's clock there is a time in
milliseconds by which deadlines are measured. Of the requests themselves only a score takes time;
how much goes by between them is for a run to say (`World.Runs`).

* `World.answer`: the answer to one request, and the world after it.
* `World.run`: a program run alone, to its end, with no time between its requests.
* `Outages`: which store calls fail. Any pattern of failures is one.
-/

namespace Lending

/-! ## Stores -/

/-- The two kinds of stores: one in memory, one that outlives the program. -/
inductive Store where
  | memory (ledger : Ledger)
  | durable (archive : Archive)

/-- The result of a call that succeeds, and the store after it. -/
def Store.answer (s : Store) (call : StoreCall) : Except Failure (call.Result × Store) :=
  match s with
  | .memory ledger => (ledger.answer call).map fun (result, ledger) => (result, .memory ledger)
  | .durable archive =>
    (archive.answer call).map fun (result, archive) => (result, .durable archive)

/-- How a store call fails, before it takes effect. -/
inductive Fault where
  | refusal
  /-- The program that made the call ends. -/
  | crash
  deriving DecidableEq

/-- Which store calls fail: the call of a method, by how many calls of the method came before. -/
structure Outages where
  fault : StoreMethod → Nat → Option Fault := fun _ _ => none
  /-- How many calls were made of each method. -/
  made : List (StoreMethod × Nat) := []

namespace Outages

/-- How many calls of the method were made. -/
def madeOf (o : Outages) (method : StoreMethod) : Nat := (o.made.lookup method).getD 0

/-- What happens to the next call of a method. -/
def next (o : Outages) (method : StoreMethod) : Option Fault := o.fault method (o.madeOf method)

/-- One call of the method was made. -/
def count (o : Outages) (method : StoreMethod) : Outages :=
  { o with made :=
      (method, o.madeOf method + 1) :: o.made.filter fun entry => entry.1 ≠ method }

/-- Lets `skip` more calls of the method pass and has the `times` calls after them fail. -/
def set (o : Outages) (method : StoreMethod) (skip times : Nat) (fault : Fault) : Outages :=
  let first := o.madeOf method + skip
  { o with fault := fun other n =>
      if other = method then (if first ≤ n ∧ n < first + times then some fault else none)
      else o.fault other n }

/-- The same count of calls, and no failures any more. -/
def clear (o : Outages) : Outages := { o with fault := fun _ _ => none }

end Outages

/-! ## Worlds -/

/-- The surroundings of an engine. One program runs in them, or several take turns. -/
structure World where
  store : Store
  outages : Outages := {}
  queue : Queue := {}
  locks : LockTable LockKey := {}
  /-- The engine's clock. -/
  clock : Instant
  /-- Milliseconds by which deadlines are measured. -/
  time : Nat := 0
  /-- Whether the engine's clock goes on with the time. -/
  clockRuns : Bool := false
  scorer : Scorer
  /-- Milliseconds that a score takes. -/
  scoreDelay : Nat := 0
  orders : OrderSource

namespace World

/-- The world at a time, unless that is past. A clock that runs past the end of the calendar is not
considered (`Instant.add`). -/
def passTo (w : World) (time : Nat) : World :=
  if w.time < time then
    { w with
      time
      clock := if w.clockRuns then w.clock.add ((time : Int) - w.time) else w.clock }
  else w

theorem passTo_of_le {w : World} {time : Nat} (h : time ≤ w.time) : w.passTo time = w :=
  if_neg (Nat.not_lt.mpr h)

/-- The score of a user, if it was waited for in time. -/
def drawScore (w : World) (inTime : Bool) (user : String) :
    Except Failure CreditScore × World :=
  if inTime then
    let (score, scorer) := w.scorer.score user
    (score, { w with scorer })
  else (.error .timeout, w)

/-- The answer of the store to a call, unless the call meets an outage. -/
def callStore (w : World) (call : StoreCall) : Option (Except Failure call.Result) × World :=
  let fault := w.outages.next call.method
  let w := { w with outages := w.outages.count call.method }
  match fault with
  | some .refusal => (some (.error (.storage .outage)), w)
  | some .crash => (none, w)
  | none =>
    match w.store.answer call with
    | .ok (result, store) => (some (.ok result), { w with store })
    | .error cause => (some (.error cause), w)

/-- The answer to a request, and the world after it; no answer if the program crashes. A lock that
would have to be waited for is not granted. -/
def answer (w : World) : (request : Request) → Option request.Answer × World
  | .acquire key limit =>
    if limit.isExpired w.time then (some false, w)
    else
      let (granted, locks) := w.locks.lock key
      (some granted, { w with locks })
  | .release key => (some (), { w with locks := (w.locks.unlock key).2 })
  | .store call => w.callStore call
  | .score user limit =>
    let (inTime, time) := limit.wait w.time w.scoreDelay
    let (score, w) := (w.passTo time).drawScore inTime user
    (some score, w)
  | .expired limit => (some (limit.isExpired w.time), w)
  | .now => (some w.clock, w)
  | .freshOrder =>
    let (order, orders) := w.orders.next
    (some order, { w with orders })
  | .schedule n due => (some (), { w with queue := w.queue.schedule n due })
  | .cancel n =>
    let (waiting, queue) := w.queue.cancel n
    (some waiting, { w with queue })
  | .takeDue now =>
    let (due, queue) := w.queue.takeDue now
    (some due, { w with queue })
  | .pruneLocks => (some (), { w with locks := w.locks.prune })

/-- Runs a program that nothing interrupts and that loses no time between its requests. There is no
result if it crashes. -/
def run {α : Type} : Program α → World → Option α × World
  | .done value, w => (some value, w)
  | .ask request next, w =>
    match w.answer request with
    | (some answer, w) => run (next answer) w
    | (none, w) => (none, w)

end World

end Lending
