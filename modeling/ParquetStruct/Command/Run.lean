/-
# ParquetStruct.Command.Run — a run of the program.

A run reads one file, turns it into a text, and either prints that text or writes it to a file,
with one newline after it.  Nothing is printed or written before the text is complete.
-/
import ParquetStruct.Command.Args
import ParquetStruct.Raw.Reader
import ParquetStruct.Store.Basic

namespace ParquetStruct.Command

open Parquet (Content)
open Store (SystemError)

/-! ## Failures -/

/-- Why a job fails. -/
inductive Failure where
  | parquet (e : Parquet.ReadError)
  | unreadable (path : String)
  | invalidTree (path : String)
  | schema (e : SchemaError)
  | output (e : SystemError)
  deriving DecidableEq, Repr, Inhabited

/-- The wording of a failure. -/
def Failure.message : Failure → String
  | .parquet e => e.message
  | .unreadable path => "failed to read '" ++ path ++ "'"
  | .invalidTree path => "invalid schema tree in '" ++ path ++ "'"
  | .schema e => e.message
  | .output e => e.message

/-! ## The text of a job -/

/-- The text that a file holds, if it holds one. -/
def text? (content : Content) : Option String := String.fromUTF8? content.data

/-- The schema tree of a file in its raw form, given what reading the file gives. -/
def readRaw (path : String) (found : Except SystemError Content) : Except Failure Node :=
  match found.toOption.bind text? with
  | none => .error (.unreadable path)
  | some text =>
    match Raw.read text with
    | .ok root => .ok root
    | .error _ => .error (.invalidTree path)

/-- The schema tree that a job is about, given what reading its file gives. -/
def Job.tree (job : Job) (found : Except SystemError Content) : Except Failure Node :=
  match job.subcommand with
  | .schema => (Parquet.readTree job.input found).mapError .parquet
  | .renderRaw => readRaw job.input found

/-- The text that a job puts out, given what reading its file gives; one newline ends it. -/
def Job.text (job : Job) (found : Except SystemError Content) : Except Failure String := do
  let root ← job.tree found
  let text ← (job.format.render job.pretty job.maxDepth root).mapError .schema
  return text ++ "\n"

/-! ## Runs -/

/-- How a run ends, with what it prints. -/
inductive Outcome where
  | success (printed : String)
  | failure (e : Failure)
  | usage (e : UsageError)
  deriving DecidableEq, Repr, Inhabited

/-- The exit code of a run. -/
def Outcome.exitCode : Outcome → Nat
  | .success _ => 0
  | .failure _ => 1
  | .usage _ => 2

/-- What a run prints on the standard output: errors go elsewhere. -/
def Outcome.printed : Outcome → String
  | .success printed => printed
  | .failure _ | .usage _ => ""

/-- What `--version` prints. -/
def versionText : String := "pqschema 0.1.0\n"

/-- What `--help` prints. -/
def helpText : String :=
  "Print Parquet schemas as Go structs\n\n" ++
  "Usage: pqschema [--log-level LEVEL] schema FILE [-f|--format go|raw] [--pretty]\n" ++
  "                [--max-depth N] [-o|--output PATH]\n" ++
  "       pqschema [--log-level LEVEL] render-raw FILE [--pretty]\n" ++
  "                [--max-depth N] [-o|--output PATH]\n"

/-- Runs a job on a store. -/
def Job.run (job : Job) (store : Store) : Outcome × Store :=
  match job.text (store.read job.input) with
  | .error e => (.failure e, store)
  | .ok text =>
    match job.output with
    | none => (.success text, store)
    | some path =>
      match store.write path (.bytes text.toUTF8) with
      | .ok store => (.success "", store)
      | .error e => (.failure (.output e), store)

/-- Runs the program with the given arguments on a store. -/
def run (args : List String) (store : Store) : Outcome × Store :=
  match Job.ofArgs args with
  | .ok job => job.run store
  | .error .help => (.success helpText, store)
  | .error .version => (.success versionText, store)
  | .error (.usage e) => (.usage e, store)

end ParquetStruct.Command
