import Componentry.Log

/-!
# Commands: what the program can be asked for

* `root` shows the project as the root of a dependency graph, `rules` what the rules make of the
  external components, and `view` the files of a configuration.
* An `Invocation` is a command with the options that every command has.
* `Usage` lists the reasons why arguments are no invocation. Asking for help is one of them.
-/

namespace Componentry

/-- How a command prints its result. -/
inductive OutputFormat where
  | text
  | json
  deriving DecidableEq, Repr

/-- What the `view` command is asked for. -/
structure ViewCommand where
  /-- The configuration to resolve. -/
  configuration : String
  /-- Patterns for the components to show; without any, all components are shown. -/
  patterns : List String := []
  /-- Attributes to request, in order. -/
  attributes : List (String × String) := []
  lenient : Bool := false
  /-- Whether artifacts are named next to their files. -/
  artifacts : Bool := false
  format : OutputFormat := .text
  deriving DecidableEq, Repr

/-- A command with its own options. -/
inductive Command where
  /-- Show the root metadata, or of it only the configurations that are named. -/
  | root (configurations : List String) (format : OutputFormat)
  | rules (format : OutputFormat)
  | view (v : ViewCommand)
  deriving DecidableEq, Repr

/-- A command with the options that every command has. -/
structure Invocation where
  command : Command
  verbose : Bool := false
  quiet : Bool := false
  noColor : Bool := false
  /-- The path of the descriptor. -/
  manifestPath : Option Path := none
  deriving DecidableEq, Repr

/-- The level that the options ask the log to have: being verbose wins. -/
def Invocation.level? (i : Invocation) : Option Level :=
  if i.verbose then some .debug else if i.quiet then some .error else none

/-- The level of the log. -/
def Invocation.level (i : Invocation) : Level := i.level?.getD .warning

/-- Why arguments are no invocation. -/
inductive Usage where
  | help
  | version
  /-- There are no arguments at all. -/
  | nothingGiven
  | missingCommand
  | unknownCommand
  /-- An unknown option, or an argument where none is expected. -/
  | unknownArgument
  | missingArgument
  /-- An option without its value, or a value that is not one of those allowed. -/
  | invalidValue
  /-- A value that does not have the form it should have. -/
  | malformedValue
  /-- An option that is repeated, or does not go with another one. -/
  | conflict
  /-- A value for an option that takes none. -/
  | surplusValue
  deriving DecidableEq, Repr

/-- The exit code: asking for help or the version is no error. -/
def Usage.exitCode : Usage → Nat
  | help | version => 0
  | _ => 2

end Componentry
