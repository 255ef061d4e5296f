import Lending.CommandLine.Arguments
import Lending.Scenario.Replay

/-!
# Runs of the command line

A run reads the policy, opens the store, replays the scenario and prints the payments report. It is
a function of its arguments and its `Environment`; what it does to the world is its `Outcome`.

A program can be built with databases or without them. Without them the option for a database is
answered with a warning, and the books are kept in memory.
-/

namespace Lending.CommandLine

/-- What a path leads to. -/
inductive Node where
  | file (bytes : ByteArray)
  | directory

/-- What a run finds. -/
structure Environment where
  /-- Whether the program has databases. -/
  hasDatabases : Bool
  /-- What a path leads to, once the directory of the database `opened` has been made. -/
  node? : (opened : Option String) → (path : String) → Option Node
  /-- The database at a path, an empty one if there was none; nothing if the path can have none. -/
  database? : String → Option Database
  now : Instant
  /-- A random number. -/
  seed : UInt64

/-- What a run does. -/
structure Outcome where
  exitCode : Nat
  output : String := ""
  /-- Lines for the error stream, with the millisecond in which each is written. -/
  errors : List (Nat × String) := []
  /-- Whether the books are kept in memory although a database was asked for. -/
  fellBack : Bool := false
  /-- The path of the database that was to be opened. -/
  opened : Option String := none
  /-- The database that was opened, with its path, as the run leaves it. -/
  saved : Option (String × Database) := none
  /-- Milliseconds that the run takes. -/
  duration : Nat := 0

/-- Milliseconds between the ticks of the pump on the system clock. -/
def pumpPeriod : Nat := 200

/-- The error line of a row, if it has one. -/
def errorLine : Simulation.RowOutcome → Option String
  | .done => none
  | .failed cause => some ("Error processing command: " ++ cause.message)
  | .unreadable cause => some ("Error reading command: " ++ cause.message)

/-- Replays the rows and puts down their error lines with the time of each. -/
def replayRows (s : Simulation) : List (Except Failure Command) → List (Nat × String) × Simulation
  | [] => ([], s)
  | row :: rows =>
    let (outcome, s) := s.executeRow row
    let (lines, final) := replayRows s rows
    ((errorLine outcome).toList.map (s.world.time, ·) ++ lines, final)

/-- The policy of a run: the one in its configuration file, or the standard one. -/
def policyOf (e : Environment) (a : Arguments) : Except Failure Policy :=
  match a.config with
  | none => .ok {}
  | some path =>
    match e.node? none path with
    | some (.file bytes) => Policy.load bytes
    | _ => .error .file

/-- The path of the database that a run opens. -/
def openedOf (e : Environment) (a : Arguments) : Option String :=
  if e.hasDatabases then a.database else none

/-- The store that a run keeps its books in. -/
def storeOf (e : Environment) (a : Arguments) : Except Failure Store :=
  match openedOf e a with
  | some path =>
    match e.database? path with
    | some d => (Archive.open? d).map .durable
    | none => .error .database
  | none => .ok (.memory {})

/-- Where the scores of a run come from: one score for everyone, or a draw. -/
def scorerOf (e : Environment) (a : Arguments) : Scorer :=
  match a.score with
  | some score => .fixed score
  | none => .weighted ⟨e.seed⟩

/-- The database that a run leaves, if it opened one. -/
def savedOf (path : Option String) (store : Store) : Option (String × Database) :=
  match path, store with
  | some path, .durable archive => some (path, archive.database)
  | _, _ => none

/-- Replays a scenario on an opened store and reports on it. -/
def runScenario (s : Simulation) (bytes : ByteArray) :
    List (Nat × String) × Except Failure String × Simulation :=
  let s := if s.world.clockRuns then s.startPump pumpPeriod else s
  let (lines, s) := replayRows s (Command.readAll bytes.toList)
  let s := s.shutdownPump
  (lines, s.report s.requestBudget, s)

/-- A run that ends before the scenario begins. -/
def Outcome.failed (cause : Failure) : Outcome where
  exitCode := 1
  errors := [(0, "Error: " ++ cause.message)]

/-- The world that a run begins in. -/
def worldOf (e : Environment) (a : Arguments) (store : Store) : World where
  store
  clock := e.now
  clockRuns := a.wallClock
  scorer := scorerOf e a
  orders := { seed := e.seed }

/-- The bytes of the scenario. A directory can be opened, but has no rows. -/
def inputOf (e : Environment) (a : Arguments) : Except Failure ByteArray :=
  match e.node? (openedOf e a) a.input with
  | some (.file bytes) => .ok bytes
  | some .directory => .ok .empty
  | none => .error .file

/-- The run on an opened store. -/
def runStore (e : Environment) (a : Arguments) (policy : Policy) (store : Store) : Outcome :=
  let path := openedOf e a
  let prepared := do
    let s ← Simulation.make policy (worldOf e a store)
    pure (s, ← inputOf e a)
  match prepared with
  | .error cause => { Outcome.failed cause with saved := savedOf path store }
  | .ok (s, bytes) =>
    let (errors, report, s) := runScenario s bytes
    let ended : Outcome := match report with
      | .ok output => { exitCode := 0, output, errors }
      | .error cause =>
        { exitCode := 1, errors := errors ++ [(s.world.time, "Error: " ++ cause.message)] }
    { ended with saved := savedOf path s.world.store, duration := s.world.time }

/-- The run with arguments that were read. -/
def runArguments (e : Environment) (a : Arguments) : Outcome :=
  match policyOf e a with
  | .error cause => Outcome.failed cause
  | .ok policy =>
    let outcome := match storeOf e a with
      | .error cause => Outcome.failed cause
      | .ok store => runStore e a policy store
    { outcome with
      opened := openedOf e a
      fellBack := a.database.isSome && !e.hasDatabases }

/-- The run that a list of arguments asks for. -/
def run (e : Environment) (arguments : List String) : Outcome :=
  match Invocation.parse arguments with
  | .run a => runArguments e a
  | .help => { exitCode := 0, output := helpText }
  | .version => { exitCode := 0, output := versionText }
  | .refused cause => { exitCode := 2, errors := [(0, "error: " ++ cause.message)] }

end Lending.CommandLine
