import Lending.Entity

/-!
# Keyed locks

One lock for each key, made on demand. Who wants a lock first looks its slot up in a table and keeps
a reference to it, and then acquires the slot, which one attempt at a time can hold. Slots that
nobody refers to are pruned, at the latest when the table is looked into at `pruneThreshold` slots.

Tickets are numbered in the order of the look-ups, so that those who wait for a slot can be served
in that order: a slot that is released belongs to the attempt with the lowest ticket, whether or not
it has come to hold it.

* `LockTable.lookUp`, `grant?`, `drop`: the steps of an attempt.
* `LockTable.claim?`: a grant in the order of the tickets.
* `LockTable.lock`: an attempt that is given up at once if it would have to wait.
-/

namespace Lending

/-- A reference to the slot of a key, which waits for the slot or holds it. -/
structure LockAttempt (κ : Type) where
  ticket : Nat
  key : κ
  slot : Nat
  holds : Bool
  deriving DecidableEq

/-- The slots of keys, and the attempts on them. -/
structure LockTable (κ : Type) where
  slots : List (κ × Nat) := []
  attempts : List (LockAttempt κ) := []
  /-- The numbers of the next slot and the next attempt. -/
  nextSlot : Nat := 0
  nextTicket : Nat := 0

namespace LockTable

variable {κ : Type}

/-- A table with this many slots is pruned before a look-up. -/
def pruneThreshold : Nat := 256

/-- Nobody holds the slot or waits for it. -/
def isIdle (t : LockTable κ) (slot : Nat) : Bool := t.attempts.all fun a => a.slot ≠ slot

/-- Drops the slots that nobody refers to. -/
def prune (t : LockTable κ) : LockTable κ :=
  { t with slots := t.slots.filter fun entry => !t.isIdle entry.2 }

/-- The number of slots. -/
def size (t : LockTable κ) : Nat := t.slots.length

/-- Somebody holds the slot. -/
def isTaken (t : LockTable κ) (slot : Nat) : Bool :=
  t.attempts.any fun a => a.holds && a.slot = slot

/-- Adds an attempt that waits for the slot. -/
def attempt (t : LockTable κ) (key : κ) (slot : Nat) : Nat × LockTable κ :=
  (t.nextTicket, { t with
    attempts := ⟨t.nextTicket, key, slot, false⟩ :: t.attempts
    nextTicket := t.nextTicket + 1 })

/-- Finds or makes the slot of a key and begins an attempt on it; the attempt's ticket. -/
def lookUp [DecidableEq κ] (t : LockTable κ) (key : κ) : Nat × LockTable κ :=
  let t := if pruneThreshold ≤ t.size then t.prune else t
  match t.slots.find? fun entry => entry.1 = key with
  | some entry => t.attempt key entry.2
  | none =>
    { t with
      slots := (key, t.nextSlot) :: t.slots
      nextSlot := t.nextSlot + 1 }.attempt key t.nextSlot

/-- Lets a waiting attempt hold its slot, if the slot is free. -/
def grant? (t : LockTable κ) (ticket : Nat) : Option (LockTable κ) :=
  match t.attempts.find? fun a => a.ticket = ticket with
  | some a =>
    if t.isTaken a.slot then none
    else some { t with
      attempts := t.attempts.map fun b =>
        if b.ticket = ticket then { b with holds := true } else b }
  | none => none

/-- No attempt on the same slot began earlier. -/
def isFirst (t : LockTable κ) (a : LockAttempt κ) : Bool :=
  t.attempts.all fun b => b.slot ≠ a.slot || a.ticket ≤ b.ticket

/-- Lets a waiting attempt hold its slot, if the slot is free and it is its turn. -/
def claim? (t : LockTable κ) (ticket : Nat) : Option (LockTable κ) :=
  match t.attempts.find? fun a => a.ticket = ticket with
  | some a => if t.isFirst a then t.grant? ticket else none
  | none => none

/-- Ends an attempt: a waiting one is given up, a holding one releases its slot. -/
def drop (t : LockTable κ) (ticket : Nat) : LockTable κ :=
  { t with attempts := t.attempts.filter fun a => a.ticket ≠ ticket }

/-- The attempt that holds the lock of a key. -/
def holder? [DecidableEq κ] (t : LockTable κ) (key : κ) : Option (LockAttempt κ) :=
  t.attempts.find? fun a => a.holds && a.key = key

/-- Whether somebody holds the lock of a key. -/
def isHeld [DecidableEq κ] (t : LockTable κ) (key : κ) : Bool := (t.holder? key).isSome

/-- Takes the lock of a key, or gives up if others hold it or wait for it. -/
def lock [DecidableEq κ] (t : LockTable κ) (key : κ) : Bool × LockTable κ :=
  let (ticket, t) := t.lookUp key
  match t.claim? ticket with
  | some t => (true, t)
  | none => (false, t.drop ticket)

/-- Releases the lock of a key, and says whether it was held. -/
def unlock [DecidableEq κ] (t : LockTable κ) (key : κ) : Bool × LockTable κ :=
  match t.holder? key with
  | some a => (true, t.drop a.ticket)
  | none => (false, t)

/-- Takes and at once releases the lock of a key. -/
def touch [DecidableEq κ] (t : LockTable κ) (key : κ) : LockTable κ :=
  let (granted, t) := t.lock key
  if granted then (t.unlock key).2 else t

end LockTable

/-- What the engine locks. -/
inductive LockKey where
  | application (id : ApplicationId)
  | payment (id : PaymentId)
  | installment (id : InstallmentId)
  | loan (id : LoanId)
  deriving DecidableEq

end Lending
