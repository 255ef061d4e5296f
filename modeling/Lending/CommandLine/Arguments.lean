import Lending.Text.Digits

/-!
# Arguments of the command line

One file to read and a few options, of which each but `--verbose` may be given once. Options may
stand before and after the file; after `--` everything is a file. The value of an option follows it,
as the next argument or behind an equals sign.

* `Invocation.parse`: what a list of arguments asks for.
-/

namespace Lending.CommandLine

/-- What a run is told on the command line. -/
structure Arguments where
  input : String
  database : Option String
  config : Option String
  score : Option UInt16
  wallClock : Bool
  verbosity : Nat
  deriving DecidableEq

/-- Why a list of arguments is refused. -/
inductive UsageError where
  | unknownOption (argument : String)
  | missingValue (option : String)
  | unexpectedValue (option : String)
  | badValue (option value : String)
  | repeatedOption (option : String)
  | unexpectedFile (file : String)
  | missingFile
  deriving DecidableEq

/-- The words for a refusal. -/
def UsageError.message : UsageError → String
  | .unknownOption argument => "unexpected argument '" ++ argument ++ "' found"
  | .missingValue option => "a value is required for '" ++ option ++ "' but none was supplied"
  | .unexpectedValue option => "unexpected value for '" ++ option ++ "' found"
  | .badValue option value => "invalid value '" ++ value ++ "' for '" ++ option ++ "'"
  | .repeatedOption option => "the argument '" ++ option ++ "' cannot be used multiple times"
  | .unexpectedFile file => "unexpected argument '" ++ file ++ "' found"
  | .missingFile => "the following required arguments were not provided: <INPUT>"

/-- What a list of arguments asks for. -/
inductive Invocation where
  | run (arguments : Arguments)
  | help
  | version
  | refused (cause : UsageError)
  deriving DecidableEq

namespace Invocation

/-- What was read of the arguments so far. -/
structure Given where
  input : Option String := none
  database : Option String := none
  config : Option String := none
  score : Option UInt16 := none
  wallClock : Bool := false
  verbosity : Nat := 0

/-- The options that have a value. -/
inductive Valued where
  | database
  | config
  | score

/-- The option of a name, if it is one that has a value. -/
def Valued.ofName? : String → Option Valued
  | "--db-path" => some .database
  | "--config" => some .config
  | "--score" => some .score
  | _ => none

/-- The number of a score argument, which may carry a sign. -/
def scoreValue? (s : String) : Option UInt16 := do
  let n ← match s.toList with
    | '+' :: digits => Text.decimal? digits
    | '-' :: digits => (Text.decimal? digits).filter (· = 0)
    | digits => Text.decimal? digits
  if n < UInt16.size then pure (UInt16.ofNat n) else none

/-- A path has at least one character. -/
def pathValue (option value : String) (before : Option String) :
    Except UsageError (Option String) :=
  if before.isSome then .error (.repeatedOption option)
  else if value = "" then .error (.badValue option value)
  else .ok (some value)

/-- Puts the value of an option down, unless the option was given before. -/
def Given.setValue (p : Given) (option : Valued) (name value : String) :
    Except UsageError Given :=
  match option with
  | .database => (pathValue name value p.database).map fun database => { p with database }
  | .config => (pathValue name value p.config).map fun config => { p with config }
  | .score =>
    if p.score.isSome then .error (.repeatedOption name)
    else match scoreValue? value with
      | some score => .ok { p with score := some score }
      | none => .error (.badValue name value)

/-- Puts the file to read down, unless one was given before. -/
def Given.setInput (p : Given) (file : String) : Except UsageError Given :=
  if p.input.isSome then .error (.unexpectedFile file)
  else if file = "" then .error (.badValue "<INPUT>" file)
  else .ok { p with input := some file }

/-- Puts files down in turn, of which the second is refused. -/
def Given.setFiles (p : Given) (files : List String) : Except UsageError Given :=
  files.foldlM Given.setInput p

/-- What was given in the end; a run needs a file to read. -/
def Given.finish (p : Given) : Invocation :=
  match p.input with
  | some input =>
    .run
      { input
        database := p.database
        config := p.config
        score := p.score
        wallClock := p.wallClock
        verbosity := p.verbosity }
  | none => .refused .missingFile

/-- A refusal as something that is asked for, too. -/
def ofResult (result : Except UsageError Invocation) : Invocation :=
  match result with
  | .ok invocation => invocation
  | .error cause => .refused cause

/-- An argument that is not taken for a value. -/
def isOption (argument : String) : Bool :=
  match argument.toList with
  | '-' :: _ :: _ => true
  | _ => false

/-- An option of two hyphens without the value behind its equals sign. -/
def splitValue (argument : String) : String × Option String :=
  match argument.toList.span (· ≠ '=') with
  | (name, _ :: value) => (String.ofList name, some (String.ofList value))
  | (name, []) => (String.ofList name, none)

/-- Letters behind one hyphen: what they add, or what they ask for at once. -/
def letters (p : Given) : List Char → Except UsageError (Given ⊕ Invocation)
  | [] => .ok (.inl p)
  | 'v' :: rest => letters { p with verbosity := p.verbosity + 1 } rest
  | 'h' :: _ => .ok (.inr .help)
  | 'V' :: _ => .ok (.inr .version)
  | c :: _ => .error (.unknownOption (String.ofList ['-', c]))

/-- Reads the arguments one after another, up to one that settles what is asked for. -/
def read (p : Given) : List String → Except UsageError Invocation
  | [] => .ok p.finish
  | "--" :: files => (p.setFiles files).map Given.finish
  | argument :: rest =>
    if !isOption argument then do
      read (← p.setInput argument) rest
    else if argument.startsWith "--" then
      let (name, value) := splitValue argument
      match Valued.ofName? name, value with
      | some option, some value => do
        read (← p.setValue option name value) rest
      | some option, none =>
        match rest with
        | value :: rest =>
          if isOption value then .error (.missingValue name)
          else do
            read (← p.setValue option name value) rest
        | [] => .error (.missingValue name)
      | none, some _ =>
        if ["--wall-clock", "--verbose", "--help", "--version"].contains name then
          .error (.unexpectedValue name)
        else .error (.unknownOption argument)
      | none, none =>
        match name with
        | "--wall-clock" =>
          if p.wallClock then .error (.repeatedOption name)
          else read { p with wallClock := true } rest
        | "--verbose" => read { p with verbosity := p.verbosity + 1 } rest
        | "--help" => .ok .help
        | "--version" => .ok .version
        | _ => .error (.unknownOption argument)
    else
      match letters p (argument.toList.drop 1) with
      | .ok (.inl p) => read p rest
      | .ok (.inr invocation) => .ok invocation
      | .error cause => .error cause

/-- What a list of arguments asks for. -/
def parse (arguments : List String) : Invocation := ofResult (read {} arguments)

end Invocation

/-! ## Texts that are asked for -/

/-- The answer to `--version`. -/
def versionText : String := "creditline 0.1.0\n"

/-- The answer to `--help`. -/
def helpText : String :=
  "Usage: creditline [OPTIONS] <INPUT>\n\n" ++
  "Arguments:\n" ++
  "  <INPUT>  Input scenario CSV file\n\n" ++
  "Options:\n" ++
  "      --db-path <DB_PATH>  " ++
    "Path to persistent database (optional). If provided, uses RocksDB\n" ++
  "      --config <CONFIG>    Engine configuration JSON file (optional)\n" ++
  "      --score <SCORE>      " ++
    "Score every applicant with this fixed credit score instead of a random one\n" ++
  "      --wall-clock         " ++
    "Run on the system clock, settling payments in the background as their delay elapses\n" ++
  "  -v, --verbose...         Increase log verbosity (-v info, -vv debug, -vvv trace)\n" ++
  "  -h, --help               Print help\n" ++
  "  -V, --version            Print version\n"

end Lending.CommandLine
