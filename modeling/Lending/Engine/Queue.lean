import Lending.Record
import Lending.Store.Table

/-!
# The settlement queue

Delayed confirmations, by the instant they are due. Each notification waits at most once; scheduling
it again moves it. The queue is an ordered table of what is due when, and an index that finds the
place of a notification in it. Of two notifications due at once the one scheduled first goes first.

The queue has no clock of its own: `takeDue` is told the time.
-/

namespace Lending

/-- A gateway callback that the engine makes up itself. -/
inductive Notification where
  /-- Confirms a payment as successful. -/
  | paymentSettled (id : PaymentId)
  /-- Confirms an installment as paid. -/
  | installmentCollected (id : InstallmentId)
  deriving DecidableEq

/-- The place of a notification: when it is due, and the turn in which it was scheduled. Turns are
counted without end, since more schedulings than a word of 64 bits counts are not considered. -/
structure DueKey where
  due : Instant
  turn : Nat
  deriving DecidableEq

namespace DueKey

instance : Ord DueKey :=
  ⟨fun a b => (compare a.due b.due).then (compare a.turn b.turn)⟩

theorem compare_eq (a b : DueKey) :
    compare a b = (compare a.due b.due).then (compare a.turn b.turn) := rfl

instance : Std.LawfulEqOrd DueKey where
  compare_self := by simp [compare_eq]
  eq_of_compare {a b} h := by
    rw [compare_eq, Ordering.then_eq_eq] at h
    rcases a with ⟨da, ta⟩
    rcases b with ⟨db, tb⟩
    obtain rfl := Std.compare_eq_iff_eq.mp h.1
    obtain rfl := Std.compare_eq_iff_eq.mp h.2
    rfl

end DueKey

/-- Notifications by the instants at which they are due, and by what they confirm. -/
structure Queue where
  /-- The turn of the last scheduling. No `2 ^ 64` schedulings are considered. -/
  turn : Nat := 0
  byDue : Table DueKey Notification := .empty
  index : List (Notification × DueKey) := []
  deriving DecidableEq

namespace Queue

/-- The index without `n`. -/
def unindexed (q : Queue) (n : Notification) : List (Notification × DueKey) :=
  q.index.filter fun entry => entry.1 ≠ n

/-- The queue without `n`, which waited at `key`. -/
def without (q : Queue) (n : Notification) (key : DueKey) : Queue :=
  { q with byDue := q.byDue.erase key, index := q.unindexed n }

/-- Has `n` wait until `due`, no longer until when it waited before. -/
def schedule (q : Queue) (n : Notification) (due : Instant) : Queue :=
  let q := match q.index.lookup n with
    | some key => q.without n key
    | none => q
  let key : DueKey := ⟨due, q.turn + 1⟩
  { turn := q.turn + 1
    byDue := q.byDue.insert key n
    index := (n, key) :: q.index }

/-- Withdraws a notification, and says whether it was waiting. -/
def cancel (q : Queue) (n : Notification) : Bool × Queue :=
  match q.index.lookup n with
  | some key => (true, q.without n key)
  | none => (false, q)

/-- Takes out what is due at `now` or before, the earliest first. -/
def takeDue (q : Queue) (now : Instant) : List Notification × Queue :=
  let isDue := fun row : DueKey × Notification => decide (row.1.due ≤ now)
  let taken := (q.byDue.rows.takeWhile isDue).map Prod.snd
  (taken, { q with
    byDue := ⟨q.byDue.rows.dropWhile isDue⟩
    index := q.index.filter fun entry => !taken.contains entry.1 })

/-- When the first notification is due, if any waits. -/
def nextDue? (q : Queue) : Option Instant := q.byDue.rows.head?.map fun row => row.1.due

/-- Whether `n` waits. -/
def isPending (q : Queue) (n : Notification) : Bool := (q.index.lookup n).isSome

/-- How many notifications wait. -/
def size (q : Queue) : Nat := q.byDue.size

/-- Whether nothing waits. -/
def isEmpty (q : Queue) : Bool := q.size = 0

end Queue

end Lending
