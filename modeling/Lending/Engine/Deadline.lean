import Lending.Failure

/-!
# Deadlines

The time that an operation may take, on a clock of milliseconds. Waits are cut off at the deadline;
writes are not, but begin only after `check`.

A wait that ends exactly at the deadline has ended in time, and a deadline that is reached has
expired: so such a wait succeeds and nothing is begun after it.
-/

namespace Lending

/-- The millisecond from which on the time is up; `none` if it never is. -/
structure Deadline where
  moment : Option Nat
  deriving DecidableEq

namespace Deadline

/-- The deadline that never expires. -/
def unbounded : Deadline := ⟨none⟩

/-- `budget` milliseconds after `now`. -/
def within (now budget : Nat) : Deadline := ⟨some (now + budget)⟩

/-- Whether the time is up at `now`. It is at the deadline itself. -/
def isExpired (d : Deadline) (now : Nat) : Bool :=
  match d.moment with
  | some moment => moment ≤ now
  | none => false

/-- What is in time now was in time before. -/
theorem isExpired_of_le {limit : Deadline} {now later : Nat} (h : now ≤ later)
    (hlater : limit.isExpired later = false) : limit.isExpired now = false := by
  obtain ⟨_ | moment⟩ := limit
  · rfl
  · simp only [isExpired, decide_eq_false_iff_not] at *
    omega

/-- Fails at `now` if the time is up. -/
def check (d : Deadline) (now : Nat) : Except Failure Unit :=
  if d.isExpired now then .error .timeout else .ok ()

/-- Work of `work` milliseconds that begins at `now`: whether it is done in time, and the time when
it is done or given up. Nothing is begun after the deadline. -/
def wait (d : Deadline) (now work : Nat) : Bool × Nat :=
  if d.isExpired now then (false, now)
  else
    match d.moment with
    | some moment => if now + work ≤ moment then (true, now + work) else (false, moment)
    | none => (true, now + work)

end Deadline

end Lending
