import Lending.CommandLine.Run
import Lending.Store.Snapshot
import Std.Time.DateTime.Timestamp

/-!
# The program

Gathers what a run finds in the file system, and carries out what the run does. A database is a
directory with one file in it, the rows of the database as text.
-/

namespace Lending.CommandLine

/-- The file of a database directory. -/
def rowsFile (path : String) : String := path ++ "/rows"

/-- The bytes of a file; none if it cannot be read. -/
def readFile? (path : String) : IO (Option ByteArray) := do
  try
    pure (some (← IO.FS.readBinFile path))
  catch _ => pure none

/-- What a path leads to. A directory is what can be opened and not read. -/
def nodeAt? (path : String) : IO (Option Node) := do
  match ← readFile? path with
  | some bytes => pure (some (.file bytes))
  | none =>
    try
      let _ ← IO.FS.Handle.mk path .read
      pure (some .directory)
    catch _ => pure none

/-- The database in a directory, which is made if it is missing. -/
def openDatabase? (path : String) : IO (Option Database) := do
  try
    IO.FS.createDirAll path
    match ← readFile? (rowsFile path) with
    | some bytes => pure (String.fromUTF8? bytes >>= Database.ofText?)
    | none => pure (some {})
  catch _ => pure none

/-- The system clock, to the millisecond. -/
def currentInstant : IO Instant := do
  let now ← Std.Time.Timestamp.now
  pure ((Instant.fromEpoch? now.toMillisecondsSinceUnixEpoch.val).getD .epoch)

/-- Eight random bytes as a number. -/
def randomSeed : IO UInt64 := do
  let bytes ← IO.getRandomBytes 8
  pure (bytes.toList.foldl (fun seed byte => seed <<< 8 ||| byte.toUInt64) 0)

/-- What the run of an invocation finds: the policy before the database is opened, the scenario
after that. -/
def gather (invocation : Invocation) : IO Environment := do
  let (config, database, input) := match invocation with
    | .run a => (a.config.toList, a.database.toList, [a.input])
    | _ => ([], [], [])
  let config ← config.mapM fun path => do pure (path, ← nodeAt? path)
  let databases ← database.mapM fun path => do pure (path, ← openDatabase? path)
  let input ← input.mapM fun path => do pure (path, ← nodeAt? path)
  pure
    { hasDatabases := true
      node? := fun _ path => ((config ++ input).lookup path).join
      database? := fun path => (databases.lookup path).join
      now := ← currentInstant
      seed := ← randomSeed }

/-- Waits from one millisecond of a run to another. -/
def sleepUntil (time now : Nat) : IO Unit := do
  if now < time then IO.sleep (UInt32.ofNat (time - now))

/-- Writes the error lines, each in its time; the time of the last. -/
def printErrors : List (Nat × String) → Nat → IO Nat
  | [], now => pure now
  | (time, line) :: rest, now => do
    sleepUntil time now
    IO.eprintln line
    printErrors rest (max time now)

/-- Prints what the run prints, each error line in its time, and saves the database; the exit code.
-/
def carryOut (outcome : Outcome) : IO UInt32 := do
  let now ← printErrors outcome.errors 0
  sleepUntil outcome.duration now
  match outcome.saved with
  | some (path, database) => IO.FS.writeFile (rowsFile path) database.toText
  | none => pure ()
  IO.print outcome.output
  pure (UInt32.ofNat outcome.exitCode)

/-- Gathers what the run finds, runs, and carries the outcome out. -/
def runProgram (arguments : List String) : IO UInt32 := do
  let environment ← gather (Invocation.parse arguments)
  carryOut (run environment arguments)

end Lending.CommandLine

/-- The program: its arguments on the command line, its exit code as the result. -/
def main (arguments : List String) : IO UInt32 := Lending.CommandLine.runProgram arguments
