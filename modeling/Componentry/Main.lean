import Componentry.Command.Arguments
import Componentry.Command.Run
import Componentry.Failure.Report

/-!
# The program

Reads the arguments and the descriptor, and writes what the command answers: its text to the
standard output, the log and the report of a failure to the standard error. The exit code is 0 if
the command succeeded, 1 if it failed, and that of the usage if the arguments were no invocation.
-/

namespace Componentry

/-- What is told about arguments that are no invocation. -/
def Usage.text : Usage → String
  | .help | .nothingGiven =>
    "Usage: cmeta [OPTIONS] <COMMAND>\n\n" ++
      "Commands:\n" ++
      "  root   Build the root component metadata of the project\n" ++
      "  rules  Apply component metadata rules to the declared components\n" ++
      "  view   Print the files of an artifact view over a configuration\n\n" ++
      "Options:\n" ++
      "  -v, --verbose               Enable debug logging\n" ++
      "  -q, --quiet                 Only log errors\n" ++
      "      --manifest-path <PATH>  Path to cmeta.toml (defaults to ./cmeta.toml)\n" ++
      "      --no-color              Disable colored output"
  | .version => "cmeta"
  | .missingCommand => "error: a command is required"
  | .unknownCommand => "error: there is no such command"
  | .unknownArgument => "error: unexpected argument"
  | .missingArgument => "error: view needs the name of a configuration"
  | .invalidValue => "error: missing or invalid value of an option"
  | .malformedValue => "error: expected key=value"
  | .conflict => "error: option repeated, or used with one that excludes it"
  | .surplusValue => "error: the option takes no value"

/-- Look at what is at a path. -/
def Found.lookUp (path : Path) : IO Found := do
  try
    let bytes ← IO.FS.readBinFile path
    return match String.fromUTF8? bytes with
      | some content => .text content
      | none => .binary
  catch
    | .inappropriateType .. => return .directory
    | _ => return .nothing

/-- Run an invocation in the present directory. -/
def Invocation.main (i : Invocation) : IO UInt32 := do
  let path := i.descriptorPath (← IO.currentDir).toString
  let colors := (← (← IO.getStdout).isTty) && (← IO.getEnv "NO_COLOR").isNone
  let result := i.run colors path (Workspace.readDescriptor path (← Found.lookUp path))
  for line in Event.visibleLines i.level result.events do
    IO.eprintln line
  match result.outcome with
  | .ok text =>
    IO.print text
    return 0
  | .error fault =>
    for line in fault.report.lines (i.colors colors) do
      IO.eprintln line
    return 1

end Componentry

open Componentry in
def main (arguments : List String) : IO UInt32 := do
  match Invocation.parse arguments with
  | .ok i => i.main
  | .error usage =>
    if usage.exitCode = 0 then IO.println usage.text else IO.eprintln usage.text
    return usage.exitCode.toUInt32
