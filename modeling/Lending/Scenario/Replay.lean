import Lending.Report
import Lending.Scenario.Command
import Lending.Simulation
import Lending.Store.Contents

/-!
# Replaying scenarios

The commands of a scenario, one after another, each within the request timeout of the policy. A
command that cannot be read or that fails is passed over. A `settle` command lets one settlement
delay go by, on the engine's clock or in time, and delivers what is due.

* `Simulation.execute`: one command.
* `Simulation.replay`: all of them, with what became of each.
* `Simulation.report`: the payments report.
-/

namespace Lending

namespace Simulation

/-- What a program that ends without a result is taken for. -/
def completed {α : Type} (result : Option (Except Failure α)) : Except Failure α :=
  result.getD (.error (.storage .outage))

/-- The milliseconds that each command may take. -/
def requestBudget (s : Simulation) : Option Nat := some s.policy.requestTimeout.toNat

/-- Lets a settlement delay go by and delivers what is due. What cannot be delivered is no failure
of the command. -/
def settle (s : Simulation) : Simulation :=
  let s := if s.world.clockRuns then s.sleep s.policy.delayMillis.toNat
    else s.advanceClock s.policy.delayMillis
  s.runDue.2

/-- Carries a command out. It fails if it asks for nothing, or if the call that it asks for fails.
-/
def execute (s : Simulation) (c : Command) : Except Failure Unit × Simulation :=
  match c.task with
  | .error cause => (.error cause, s)
  | .ok .settle => (.ok (), s.settle)
  | .ok (.call c) =>
    let (result, s) := s.call c s.requestBudget
    ((completed result).map fun _ => (), s)

/-- What became of a record of a scenario. -/
inductive RowOutcome where
  | done
  | failed (cause : Failure)
  | unreadable (cause : Failure)
  deriving DecidableEq

/-- Carries out what was read of a record; one that cannot be read changes nothing. -/
def executeRow (s : Simulation) (row : Except Failure Command) : RowOutcome × Simulation :=
  match row with
  | .error cause => (.unreadable cause, s)
  | .ok c =>
    match s.execute c with
    | (.ok _, s) => (.done, s)
    | (.error cause, s) => (.failed cause, s)

/-- The outcome of each row, with the number of notifications that wait after it. -/
def replay (s : Simulation) : List (Except Failure Command) → List (RowOutcome × Nat) × Simulation
  | [] => ([], s)
  | row :: rows =>
    let (outcome, s) := s.executeRow row
    let (outcomes, final) := s.replay rows
    ((outcome, s.pending) :: outcomes, final)

/-- The payments report, put together within `budget` milliseconds if that is given. -/
def report (s : Simulation) (budget : Option Nat) : Except Failure String :=
  (completed (s.call .allPaymentDetails budget).1).map Report.toText

end Simulation

end Lending
