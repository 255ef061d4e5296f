import Lending.CommandLine.Run

/-!
# Runs among files

The files, directories and databases that runs find and leave. A path is followed name by name, from
the working directory or, if it begins with a slash, from the root; each name must be followed from
a directory. A database is kept in a directory of its own, which is made when it is opened.

* `Files.node?`: what a path leads to.
* `Files.makeDirectory`: a directory and those above it, as far as they can be made.
* `Files.run`: a run of the command line, and what it leaves.
-/

namespace Lending.CommandLine

/-- The names that lead from the root to a place. -/
abbrev Location := List String

/-- The place that a name leads to from a directory. -/
def Location.follow (directory : Location) (name : String) : Location :=
  match name with
  | "" | "." => directory
  | ".." => directory.dropLast
  | _ => directory ++ [name]

/-- The files, directories and databases that there are. -/
structure Files where
  /-- The working directory. It and the directories above it are there. -/
  current : Location := ["work"]
  files : List (Location × ByteArray) := []
  directories : List Location := []
  databases : List (Location × Database) := []

namespace Files

/-- Whether there is a directory at a place. -/
def isDirectory (f : Files) (place : Location) : Bool :=
  place.isPrefixOf f.current || f.directories.contains place

/-- The directory from which a path is followed. -/
def start (f : Files) (path : String) : Location := if path.startsWith "/" then [] else f.current

/-- Where the names lead to from a place; the last place need not be there. -/
def walk? (f : Files) (place : Location) : List String → Option Location
  | [] => some place
  | name :: rest => if f.isDirectory place then f.walk? (place.follow name) rest else none

/-- What a path leads to. The empty path leads nowhere. -/
def node? (f : Files) (path : String) : Option Node := do
  if path.isEmpty then none
  else
    let place ← f.walk? (f.start path) (path.splitOn "/")
    if f.isDirectory place then some .directory else (f.files.lookup place).map .file

/-! ## Making directories -/

/-- The most bytes that a name has. -/
def longestName : Nat := 255

/-- Makes the directories that the names lead to from a directory, as far as there are no files in
the way. -/
def makeAlong (f : Files) (place : Location) : List String → Option Location × Files
  | [] => (some place, f)
  | name :: rest =>
    let next := place.follow name
    if f.isDirectory next then f.makeAlong next rest
    else if (f.files.lookup next).isSome || longestName < name.utf8ByteSize then (none, f)
    else { f with directories := next :: f.directories }.makeAlong next rest

/-- Makes the directory at a path. If the path ends in a point, the directory whose point that is
must be there. -/
def makeDirectory (f : Files) (path : String) : Option Location × Files :=
  let names := (path.splitOn "/").filter fun name => !name.isEmpty
  let steps := names.filter fun name => name ≠ "."
  let wanted := if names.getLast? = some "." then steps.length - 1 else steps.length
  let (place, f) := f.makeAlong (f.start path) (steps.take wanted)
  let rest := if wanted < steps.length then steps.drop wanted ++ ["."] else []
  (place.bind fun place => f.walk? place rest, f)

/-! ## Databases and runs -/

/-- The files after the database at a path has been opened, or none. -/
def afterOpening (f : Files) (opened : Option String) : Files :=
  match opened with
  | some path => (f.makeDirectory path).2
  | none => f

/-- The database at a path, an empty one if there was none. -/
def database? (f : Files) (path : String) : Option Database :=
  (f.makeDirectory path).1.map fun place => (f.databases.lookup place).getD {}

/-- The files with a database at a path, as far as its directory can be made. -/
def save (f : Files) (path : String) (database : Database) : Files :=
  match (f.makeDirectory path).1 with
  | some place => { f with databases := (place, database) :: f.databases }
  | none => f

/-- A run that begins at the first instant, and the files that it leaves. -/
def run (f : Files) (hasDatabases : Bool) (seed : UInt64) (arguments : List String) :
    Outcome × Files :=
  let outcome := CommandLine.run
    { hasDatabases, seed, now := .epoch
      node? := fun opened path => (f.afterOpening opened).node? path
      database? := f.database? } arguments
  let f := f.afterOpening outcome.opened
  match outcome.saved with
  | some (path, database) => (outcome, f.save path database)
  | none => (outcome, f)

end Files

end Lending.CommandLine
