import Componentry.Command
import Componentry.Command.KeyValue

/-!
# Options of commands

Each `Scope` knows some options: at the top, before the command, those that every command has, and
after a command also its own. `Options` holds what was given so far, and `Options.give` gives one
more: an option that stands for one thing may be given once, the others any number of times.
-/

namespace Componentry.Command

/-- Where an argument stands. -/
inductive Scope where
  /-- Before the command. -/
  | top
  | root
  | rules
  | view
  deriving DecidableEq, Repr

/-- The options there are. -/
inductive Opt where
  | verbose
  | quiet
  | manifestPath
  | noColor
  | help
  | version
  | configuration
  | pattern
  | requested
  | lenient
  | artifacts
  | format
  deriving DecidableEq, Repr

/-- The options that are known in a scope. -/
def Scope.options : Scope → List Opt
  | top => [.verbose, .quiet, .manifestPath, .noColor, .help, .version]
  | root => [.verbose, .quiet, .manifestPath, .noColor, .help, .configuration, .format]
  | rules => [.verbose, .quiet, .manifestPath, .noColor, .help, .format]
  | view =>
    [.verbose, .quiet, .manifestPath, .noColor, .help, .pattern, .requested, .lenient, .artifacts,
      .format]

namespace Opt

/-- The long name, which follows two dashes. -/
def long : Opt → String
  | verbose => "verbose"
  | quiet => "quiet"
  | manifestPath => "manifest-path"
  | noColor => "no-color"
  | help => "help"
  | version => "version"
  | configuration => "configuration"
  | pattern => "include"
  | requested => "attribute"
  | lenient => "lenient"
  | artifacts => "artifacts"
  | format => "format"

/-- The short name, which follows one dash. -/
def short : Opt → Option Char
  | verbose => some 'v'
  | quiet => some 'q'
  | help => some 'h'
  | version => some 'V'
  | configuration => some 'c'
  | pattern => some 'i'
  | requested => some 'a'
  | format => some 'f'
  | _ => none

/-- Whether the option has a value. -/
def takesValue : Opt → Bool
  | manifestPath | configuration | pattern | requested | format => true
  | _ => false

end Opt

/-- The format that a name stands for. -/
def formatOf : String → Except Usage OutputFormat
  | "text" => .ok .text
  | "json" => .ok .json
  | _ => .error .invalidValue

/-- The options given in one scope. -/
structure Options where
  verbose : Bool := false
  quiet : Bool := false
  noColor : Bool := false
  lenient : Bool := false
  artifacts : Bool := false
  manifestPath : Option Path := none
  format : Option OutputFormat := none
  configurations : List String := []
  patterns : List String := []
  attributes : List (String × String) := []
  deriving DecidableEq, Repr

namespace Options

/-- Give something that may be given once. -/
def once (isGiven : Bool) (next : Except Usage Options) : Except Usage Options :=
  if isGiven then .error .conflict else next

/-- Give one more option; `value` counts only for those that have one. -/
def give (o : Options) (opt : Opt) (value : String) : Except Usage Options :=
  match opt with
  | .help => .error .help
  | .version => .error .version
  | .verbose => once o.verbose (.ok { o with verbose := true })
  | .quiet => once o.quiet (.ok { o with quiet := true })
  | .noColor => once o.noColor (.ok { o with noColor := true })
  | .lenient => once o.lenient (.ok { o with lenient := true })
  | .artifacts => once o.artifacts (.ok { o with artifacts := true })
  | .manifestPath =>
    once o.manifestPath.isSome
      (if value = "" then .error .invalidValue else .ok { o with manifestPath := some value })
  | .format =>
    once o.format.isSome ((formatOf value).map fun f => { o with format := some f })
  | .configuration => .ok { o with configurations := o.configurations ++ [value] }
  | .pattern => .ok { o with patterns := o.patterns ++ [value] }
  | .requested =>
    match KeyValue.parse value with
    | .ok pair => .ok { o with attributes := o.attributes ++ [pair] }
    | .error _ => .error .malformedValue

/-- Options that do not go together. -/
def clash (o : Options) : Bool := o.verbose && o.quiet

end Options

end Componentry.Command
