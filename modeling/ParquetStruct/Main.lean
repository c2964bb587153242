/-
# ParquetStruct.Main — the program on the files of the operating system.
-/
import ParquetStruct.Command.Run

namespace ParquetStruct.Main

open Command Parquet Store

/-- A refusal of the operating system as the runtime reports it. -/
def systemError (e : IO.Error) : SystemError :=
  let known? :=
    match e with
    | .noFileOrDirectory _ code _ => SystemError.ofCode? code.toNat
    | .inappropriateType _ code _ => SystemError.ofCode? code.toNat
    | .invalidArgument _ code _ => SystemError.ofCode? code.toNat
    | _ => none
  known?.getD ⟨5, toString e⟩

/-- What reading a file gives. -/
def readFile (path : String) : IO (Except SystemError Content) := do
  try
    return .ok (.bytes (← IO.FS.readBinFile path))
  catch e =>
    return .error (systemError e)

/-- Puts out the text of a job. -/
def putOut (job : Job) (text : String) : IO Outcome := do
  match job.output with
  | none => return .success text
  | some path =>
    try
      IO.FS.writeBinFile path text.toUTF8
      return .success ""
    catch e =>
      return .failure (.output (systemError e))

/-- Runs the program with the given arguments. -/
def perform (args : List String) : IO Outcome := do
  match Job.ofArgs args with
  | .error .help => return .success helpText
  | .error .version => return .success versionText
  | .error (.usage e) => return .usage e
  | .ok job =>
    match job.text (← readFile job.input) with
    | .error e => return .failure e
    | .ok text => putOut job text

end ParquetStruct.Main

open ParquetStruct in
/-- Runs the program, prints what it has to say, and ends with its exit code. -/
def main (args : List String) : IO UInt32 := do
  let outcome ← Main.perform args
  IO.print outcome.printed
  match outcome with
  | .success _ => pure ()
  | .failure e => IO.eprintln ("Error: " ++ e.message)
  | .usage e => IO.eprintln ("error: " ++ e.message)
  return outcome.exitCode.toUInt32
