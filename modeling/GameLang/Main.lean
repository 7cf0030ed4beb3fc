import GameLang.Command.Report

/-!
# The command

Reads the file that the command line names and writes the report on it.
-/

namespace GameLang.Command

/-- The number by which the operating system says that what is read is a directory. -/
def directoryNumber : UInt32 := 21

def readFile (path : String) : IO (Except ReadFailure String) := do
  try
    return textOf (← IO.FS.readBinFile path)
  catch e =>
    match e with
    | .noFileOrDirectory .. => return .error .missing
    | .inappropriateType _ number _ =>
      return .error (if number = directoryNumber then .isDirectory else .notDirectory)
    | _ => return .error (.other (toString e))

def Report.emit (report : Report) : IO UInt32 := do
  IO.eprint report.errors
  IO.print report.output
  return report.code.toUInt32

end GameLang.Command

open GameLang.Command in
def main (args : List String) : IO UInt32 := do
  match Options.ofArguments args with
  | .error refusal => (Report.ofRefusal refusal).emit
  | .ok o => (Report.ofFile o (← readFile o.source)).emit
