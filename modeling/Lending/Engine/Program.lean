import Lending.Engine.Deadline
import Lending.Engine.Locks
import Lending.Engine.Queue
import Lending.Score
import Lending.Store.Call

/-!
# Programs of the engine

An operation of the engine as data: a tree of requests to its surroundings, each with what to do on
every answer. A request is one step: a lock taken or released, a store call, a score, a look at a
clock, or a change of the settlement queue. What surroundings answer is defined elsewhere
(`Lending.World`), so one program can run alone, between others, or with failing stores.

* `Program`, a lawful monad; `Operation`, a program that may fail.
* `Operation.locked`: an operation under a lock, which is released however the operation ends.
* `Operation.compensated`: a write whose failure is followed by an undoing write.
-/

namespace Lending

/-- What a program may ask of its surroundings, one step at a time. -/
inductive Request where
  /-- The lock of a key, waited for until the deadline at the latest. -/
  | acquire (key : LockKey) (limit : Deadline)
  | release (key : LockKey)
  | store (call : StoreCall)
  /-- The score of a user, waited for until the deadline at the latest. -/
  | score (user : String) (limit : Deadline)
  /-- Whether the deadline has expired. -/
  | expired (limit : Deadline)
  /-- The instant on the engine's clock. -/
  | now
  /-- An order reference that was not given before. -/
  | freshOrder
  | schedule (notification : Notification) (due : Instant)
  | cancel (notification : Notification)
  /-- The notifications due at an instant, which leave the queue. -/
  | takeDue (now : Instant)
  /-- Drops the lock slots that nobody uses. -/
  | pruneLocks

/-- What a request is answered with. -/
@[reducible]
def Request.Answer : Request → Type
  /- Whether the lock was granted. -/
  | acquire _ _ => Bool
  | release _ => Unit
  | store call => Except Failure call.Result
  | score _ _ => Except Failure CreditScore
  | expired _ => Bool
  | now => Instant
  | freshOrder => String
  | schedule _ _ => Unit
  /- Whether the notification was waiting. -/
  | cancel _ => Bool
  | takeDue _ => List Notification
  | pruneLocks => Unit

/-- A program that ends with a value, or asks for something and goes on with the answer. -/
inductive Program (α : Type) : Type where
  | done (value : α)
  | ask (request : Request) (next : request.Answer → Program α)

namespace Program

variable {α β : Type}

/-- One program after another, which is told the value of the first. -/
def bind : Program α → (α → Program β) → Program β
  | .done value, f => f value
  | .ask request next, f => .ask request fun answer => (next answer).bind f

instance : Monad Program where
  pure := .done
  bind := .bind

theorem bind_done (p : Program α) : p.bind .done = p := by
  induction p with
  | done => rfl
  | ask request next ih => simp only [bind, ih]

theorem bind_assoc {γ : Type} (p : Program α) (f : α → Program β) (g : β → Program γ) :
    (p.bind f).bind g = p.bind fun a => (f a).bind g := by
  induction p with
  | done => rfl
  | ask request next ih => simp only [bind, ih]

instance : LawfulMonad Program :=
  LawfulMonad.mk' Program bind_done (fun _ _ => rfl) bind_assoc

/-- The program that asks once and ends with the answer. -/
def perform (request : Request) : Program request.Answer := .ask request .done

end Program

/-- A program that ends with a value or a cause of failure; a failure skips what follows. -/
abbrev Operation (α : Type) := ExceptT Failure Program α

namespace Operation

variable {α β : Type}

/-! ## Requests as operations -/

/-- Asks for the lock of a key. -/
def acquire (key : LockKey) (limit : Deadline) : Program Bool := .perform (.acquire key limit)

/-- Gives the lock of a key back. -/
def release (key : LockKey) : Program Unit := .perform (.release key)

/-- Makes a store call, and fails if that fails. -/
def call (call : StoreCall) : Operation call.Result := ExceptT.mk (.perform (.store call))

/-- Asks for the score of a user, and fails if there is none in time. -/
def score (user : String) (limit : Deadline) : Operation CreditScore :=
  ExceptT.mk (.perform (.score user limit))

/-- Asks whether a deadline has expired. -/
def expired (limit : Deadline) : Program Bool := .perform (.expired limit)

/-- Looks at the engine's clock. -/
def now : Program Instant := .perform .now

/-- Asks for an order reference that no payment has. -/
def freshOrder : Program String := .perform .freshOrder

/-- Has a notification wait in the settlement queue. -/
def schedule (n : Notification) (due : Instant) : Program Unit := .perform (.schedule n due)

/-- Withdraws a notification from the settlement queue. -/
def cancel (n : Notification) : Program Bool := .perform (.cancel n)

/-- Takes what is due out of the settlement queue. -/
def takeDue (now : Instant) : Program (List Notification) := .perform (.takeDue now)

/-- Drops the lock slots that nobody uses. -/
def pruneLocks : Program Unit := .perform .pruneLocks

/-! ## Parts of operations -/

/-- What is known without asking anyone, or the cause why it fails. -/
def require (result : Except Failure α) : Operation α := ExceptT.mk (pure result)

/-- Fails once the deadline has expired. -/
def check (limit : Deadline) : Operation Unit := do
  if ← expired limit then throw .timeout

/-- A store call that is not begun after the deadline. -/
def boundedCall (limit : Deadline) (c : StoreCall) : Operation c.Result := do
  check limit
  call c

/-- The row that a look-up found. -/
def found {e : Entity} (id : Id e) (row : Option α) : Operation α :=
  require (match row with
    | some row => .ok row
    | none => .error (.notFound e id.value))

/-- Runs `body` while holding a lock. -/
def locked (key : LockKey) (limit : Deadline) (body : Operation α) : Operation α :=
  ExceptT.mk do
    if ← acquire key limit then
      let result ← body.run
      release key
      pure result
    else pure (.error .timeout)

/-- Runs `undo` when `write` fails. Whether that succeeds is not reported. -/
def compensated (write : Operation α) (undo : Operation β) : Operation α :=
  ExceptT.mk do
    match ← write.run with
    | .ok value => pure (.ok value)
    | .error cause =>
      let _ ← undo.run
      pure (.error cause)

end Operation

end Lending
