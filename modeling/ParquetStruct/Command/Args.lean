/-
# ParquetStruct.Command.Args — what the arguments of the program ask for.

The program has two subcommands, each with one file and a few options; one option may stand on
either side of the subcommand.  Arguments are taken from left to right, and the first one that is
wrong, or that asks for help or the version, settles what happens.
-/
import ParquetStruct.Format
import ParquetStruct.Json.Number

namespace ParquetStruct.Command

/-! ## Options -/

/-- The options of the program. -/
inductive Flag where
  | logLevel
  | format
  | pretty
  | maxDepth
  | output
  | help
  | version
  deriving DecidableEq, Repr, Inhabited

namespace Flag

/-- The long name of an option. -/
def long : Flag → String
  | .logLevel => "log-level"
  | .format => "format"
  | .pretty => "pretty"
  | .maxDepth => "max-depth"
  | .output => "output"
  | .help => "help"
  | .version => "version"

/-- The one-letter name of an option. -/
def short? : Flag → Option Char
  | .format => some 'f'
  | .output => some 'o'
  | .help => some 'h'
  | .version => some 'V'
  | _ => none

/-- Whether an option has a value. -/
def takesValue : Flag → Bool
  | .logLevel | .format | .maxDepth | .output => true
  | .pretty | .help | .version => false

end Flag

/-- The two subcommands. -/
inductive Subcommand where
  /-- Prints the schema of a Parquet file. -/
  | schema
  /-- Prints a schema tree given in its raw form. -/
  | renderRaw
  deriving DecidableEq, Repr, Inhabited

namespace Subcommand

/-- The name of a subcommand. -/
def name : Subcommand → String
  | .schema => "schema"
  | .renderRaw => "render-raw"

/-- The subcommand with the given name. -/
def ofName? (s : String) : Option Subcommand :=
  [schema, renderRaw].find? fun c => c.name == s

/-- The options of a subcommand. -/
def flags : Subcommand → List Flag
  | .schema => [.logLevel, .format, .pretty, .maxDepth, .output, .help]
  | .renderRaw => [.logLevel, .pretty, .maxDepth, .output, .help]

end Subcommand

/-- The options in front of a subcommand. -/
def commonFlags : List Flag := [.logLevel, .help, .version]

/-! ## Requests -/

/-- A subcommand with its file and options. -/
structure Job where
  subcommand : Subcommand
  input : String
  format : Format := .go
  pretty : Bool := false
  maxDepth : Nat := Struct.defaultMaxDepth
  output : Option String := none
  deriving DecidableEq, Repr, Inhabited

/-- What is wrong with the arguments. -/
inductive UsageError where
  | missingSubcommand
  | unknownSubcommand (name : String)
  | unexpectedArgument (arg : String)
  | missingValue (flag : Flag)
  | unwantedValue (flag : Flag)
  | invalidValue (flag : Flag) (value : String)
  | repeatedOption (flag : Flag)
  | missingFile
  | emptyFile
  deriving DecidableEq, Repr, Inhabited

/-- The wording of a usage error. -/
def UsageError.message : UsageError → String
  | .missingSubcommand => "a subcommand is required"
  | .unknownSubcommand name => "unrecognized subcommand '" ++ name ++ "'"
  | .unexpectedArgument arg => "unexpected argument '" ++ arg ++ "' found"
  | .missingValue flag => "a value is required for '--" ++ flag.long ++ "'"
  | .unwantedValue flag => "the option '--" ++ flag.long ++ "' takes no value"
  | .invalidValue flag value => "invalid value '" ++ value ++ "' for '--" ++ flag.long ++ "'"
  | .repeatedOption flag => "the option '--" ++ flag.long ++ "' cannot be used more than once"
  | .missingFile => "a file is required"
  | .emptyFile => "the name of a file cannot be empty"

/-- Why arguments do not lead to a job. -/
inductive Stop where
  | help
  | version
  | usage (e : UsageError)
  deriving DecidableEq, Repr, Inhabited

/-! ## One argument -/

/-- What a single argument is. -/
inductive Argument where
  /-- An option, with the value that is attached to it. -/
  | flag (f : Flag) (attached : Option String)
  /-- The mark that ends the options. -/
  | endOfFlags
  | word
  | unknown
  deriving DecidableEq, Repr, Inhabited

/-- Reads one argument, where the given options are known. -/
def Argument.ofChars (flags : List Flag) : List Char → Argument
  | ['-', '-'] => .endOfFlags
  | '-' :: '-' :: cs =>
    let long := String.ofList (cs.takeWhile (· != '='))
    match flags.find? fun f => f.long == long, cs.dropWhile (· != '=') with
    | some f, [] => .flag f none
    | some f, _ :: value => .flag f (some (String.ofList value))
    | none, _ => .unknown
  | '-' :: c :: cs =>
    match flags.find? fun f => f.short? == some c, cs with
    | some f, [] => .flag f none
    | some f, '=' :: value => .flag f (some (String.ofList value))
    | some f, value => .flag f (some (String.ofList value))
    | none, _ => .unknown
  | _ => .word

/-- Reads one argument, where the given options are known.  What follows an option of one letter
that has no value is not looked at. -/
def Argument.read (flags : List Flag) (arg : String) : Argument :=
  match Argument.ofChars flags arg.toList with
  | .flag f attached =>
    .flag f (if f.takesValue || arg.startsWith "--" then attached else none)
  | a => a

/-- Whether an argument may be the value of the option before it. -/
def isValue (arg : String) : Bool :=
  arg == "-" || !arg.startsWith "-"

/-! ## Settings -/

/-- The options and the file that were given so far. -/
structure Settings where
  logLevel : Option String := none
  format : Option Format := none
  pretty : Bool := false
  maxDepth : Option Nat := none
  output : Option String := none
  input : Option String := none
  deriving DecidableEq, Repr, Inhabited

/-- Reads a number of 64 bits, in decimal digits after at most one plus sign. -/
def readWord? (value : String) : Option Nat :=
  let digits :=
    match value.toList with
    | '+' :: cs => cs
    | cs => cs
  let n := Json.Literal.natOf digits
  if !digits.isEmpty && digits.all Char.isDigit && n ≤ Json.Literal.maxWord then some n else none

/-- Reads the name of a form of output. -/
def readFormat? (value : String) : Option Format :=
  if value = "go" then some .go
  else if value = "raw" then some .raw
  else none

namespace Settings

/-- Whether an option was given. -/
def has (s : Settings) : Flag → Bool
  | .logLevel => s.logLevel.isSome
  | .format => s.format.isSome
  | .pretty => s.pretty
  | .maxDepth => s.maxDepth.isSome
  | .output => s.output.isSome
  | .help | .version => false

/-- The settings with the value of an option; `none` if the value is no good. -/
def setValue? (s : Settings) (value : String) : Flag → Option Settings
  | .logLevel => some { s with logLevel := some value }
  | .format => (readFormat? value).map fun f => { s with format := some f }
  | .maxDepth => (readWord? value).map fun n => { s with maxDepth := some n }
  | .output => if value.isEmpty then none else some { s with output := some value }
  | .pretty | .help | .version => none

/-- The settings with an option that has a value. -/
def giveValue (s : Settings) (f : Flag) (value : String) : Except Stop Settings :=
  if s.has f then .error (.usage (.repeatedOption f))
  else
    match s.setValue? value f with
    | some s => .ok s
    | none => .error (.usage (.invalidValue f value))

/-- The settings with an option that has no value. -/
def give (s : Settings) (f : Flag) : Except Stop Settings :=
  match f with
  | .help => .error .help
  | .version => .error .version
  | .pretty =>
    if s.pretty then .error (.usage (.repeatedOption f)) else .ok { s with pretty := true }
  | f => .error (.usage (.missingValue f))

/-- The settings with the file. -/
def giveFile (s : Settings) (file : String) : Except Stop Settings :=
  if s.input.isSome then .error (.usage (.unexpectedArgument file))
  else if file.isEmpty then .error (.usage .emptyFile)
  else .ok { s with input := some file }

/-- The job that the settings of a subcommand describe. -/
def toJob (s : Settings) (subcommand : Subcommand) : Except Stop Job :=
  match s.input with
  | none => .error (.usage .missingFile)
  | some input => .ok {
      subcommand, input
      format := s.format.getD .go
      pretty := s.pretty
      maxDepth := s.maxDepth.getD Struct.defaultMaxDepth
      output := s.output }

end Settings

/-! ## All arguments -/

/-- Takes the arguments of a subcommand. -/
def readSettings (flags : List Flag) (s : Settings) : List String → Except Stop Settings
  | [] => .ok s
  | arg :: rest =>
    match Argument.read flags arg with
    | .word => do readSettings flags (← s.giveFile arg) rest
    | .endOfFlags => rest.foldlM Settings.giveFile s
    | .unknown => .error (.usage (.unexpectedArgument arg))
    | .flag f attached =>
      if f.takesValue then
        match attached, rest with
        | some value, rest => do readSettings flags (← s.giveValue f value) rest
        | none, value :: rest =>
          if isValue value then do readSettings flags (← s.giveValue f value) rest
          else .error (.usage (.missingValue f))
        | none, [] => .error (.usage (.missingValue f))
      else if attached.isSome then .error (.usage (.unwantedValue f))
      else do readSettings flags (← s.give f) rest

/-- Takes the arguments of the program. -/
def readArgs (s : Settings) : List String → Except Stop Job
  | [] => .error (.usage .missingSubcommand)
  | arg :: rest =>
    match Argument.read commonFlags arg with
    | .word =>
      match Subcommand.ofName? arg with
      | some subcommand => do (← readSettings subcommand.flags {} rest).toJob subcommand
      | none =>
        if arg = "help" ∧ rest.all (fun name => (Subcommand.ofName? name).isSome) ∧
            rest.length ≤ 1 then
          .error .help
        else .error (.usage (.unknownSubcommand arg))
    | .endOfFlags =>
      match rest with
      | [] => .error (.usage .missingSubcommand)
      | arg :: _ => .error (.usage (.unexpectedArgument arg))
    | .unknown => .error (.usage (.unexpectedArgument arg))
    | .flag f attached =>
      if f.takesValue then
        match attached, rest with
        | some value, rest => do readArgs (← s.giveValue f value) rest
        | none, value :: rest =>
          if isValue value then do readArgs (← s.giveValue f value) rest
          else .error (.usage (.missingValue f))
        | none, [] => .error (.usage (.missingValue f))
      else if attached.isSome then .error (.usage (.unwantedValue f))
      else do readArgs (← s.give f) rest

/-- The job that the arguments of the program describe. -/
def Job.ofArgs (args : List String) : Except Stop Job := readArgs {} args

end ParquetStruct.Command
