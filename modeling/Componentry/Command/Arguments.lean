import Componentry.Command.Options

/-!
# Reading the arguments of the command line

Arguments are scanned from left to right, in the scope of the top up to the name of a command and in
the scope of the command after it.

* `--name=value`, `-nvalue` and `-n=value` give an option and its value at once, and several short
  options without values may stand in one argument.
* `--name value` and `-n value` leave the value pending (`Scan.pending`): whether it is valid is
  looked at when the next option is given or the scope ends, so that an unknown argument in between
  is told first.
* After `--` every argument is plain. Of plain arguments only `view` takes one, the name of the
  configuration.

A command's scope is checked before that of the top. Options that every command has may stand in
both: switches count if they stand in either, and the descriptor's path after the command wins.
-/

namespace Componentry.Command

/-- What was read of one scope. -/
structure Scan where
  options : Options := {}
  /-- The plain argument. -/
  configuration : Option String := none
  /-- An option that was named without its value, and the value if it came meanwhile. -/
  pending : Option (Opt × Option String) := none
  deriving DecidableEq, Repr

/-- The scope of the command named `name`. -/
def Scope.ofCommand? : String → Option Scope
  | "root" => some .root
  | "rules" => some .rules
  | "view" => some .view
  | _ => none

/-- Whether a command is named `name`, asking for help included. -/
def isCommandName (name : String) : Bool := name == "help" || (Scope.ofCommand? name).isSome

namespace Scan

/-- Give the pending option. -/
def settle (s : Scan) : Except Usage Scan :=
  match s.pending with
  | none => .ok s
  | some (_, none) => .error .invalidValue
  | some (opt, some value) =>
    (s.options.give opt value).map fun o => { s with options := o, pending := none }

/-- Whether the next argument is a value. -/
def isAwaiting (s : Scan) : Bool := s.pending matches some (_, none)

/-- Give an option with its value. -/
def give (s : Scan) (opt : Opt) (value : String) : Except Usage Scan := do
  let s ← s.settle
  let o ← s.options.give opt value
  return { s with options := o }

/-- Name an option whose value is the next argument. -/
def await (s : Scan) (opt : Opt) : Except Usage Scan := do
  let s ← s.settle
  return { s with pending := some (opt, none) }

/-- Read what follows two dashes. -/
def readLong (s : Scan) (scope : Scope) (body : List Char) : Except Usage Scan :=
  let (name, attached) := match KeyValue.cut body with
    | some (name, value) => (name, some (String.ofList value))
    | none => (body, none)
  match scope.options.find? fun opt => opt.long.toList == name with
  | none => .error .unknownArgument
  | some opt =>
    match opt.takesValue, attached with
    | true, some value => s.give opt value
    | true, none => s.await opt
    | false, some _ => .error .surplusValue
    | false, none => s.give opt ""

/-- Read what follows one dash: short names, the last one possibly with its value. -/
def readShort (s : Scan) (scope : Scope) : List Char → Except Usage Scan
  | [] => .ok s
  | c :: rest =>
    match scope.options.find? fun opt => opt.short == some c with
    | none => .error .unknownArgument
    | some opt =>
      if opt.takesValue then
        match rest with
        | [] => s.await opt
        | '=' :: value => s.give opt (String.ofList value)
        | value => s.give opt (String.ofList value)
      else
        match s.give opt "" with
        | .error usage => .error usage
        | .ok s => s.readShort scope rest

/-- Read a plain argument. A command's name that stands behind `--` is no command. -/
def readPlain (s : Scan) (scope : Scope) (trailing : Bool) (token : String) : Except Usage Scan :=
  match scope, s.configuration with
  | .view, none => s.settle.map fun s => { s with configuration := some token }
  | .top, _ =>
    if trailing && isCommandName token then .error .unknownArgument else .error .unknownCommand
  | _, _ => .error .unknownArgument

/-- Read the arguments behind `--`. -/
def readTrailing (s : Scan) (scope : Scope) : List String → Except Usage Scan
  | [] => .ok s
  | token :: rest =>
    match s.readPlain scope true token with
    | .error usage => .error usage
    | .ok s => s.readTrailing scope rest

/-- Read an argument that is neither a command nor `--`. -/
def readToken (s : Scan) (scope : Scope) (token : String) : Except Usage Scan :=
  match token.toList with
  | '-' :: '-' :: body => s.readLong scope body
  | '-' :: c :: rest => s.readShort scope (c :: rest)
  | _ =>
    match s.pending with
    | some (opt, none) => .ok { s with pending := some (opt, some token) }
    | _ => s.readPlain scope false token

/-- Read the arguments of a scope. At the top, the name of a command ends it: the result is the name
and what follows it. -/
def read (s : Scan) (scope : Scope) :
    List String → Except Usage (Scan × Option (String × List String))
  | [] => .ok (s, none)
  | token :: rest =>
    if scope = .top ∧ ¬ s.isAwaiting ∧ isCommandName token then .ok (s, some (token, rest))
    else if token = "--" then (s.readTrailing scope rest).map (·, none)
    else
      match s.readToken scope token with
      | .error usage => .error usage
      | .ok s => s.read scope rest

/-- End a scope: give what is pending, and refuse options that do not go together. -/
def finish (s : Scan) : Except Usage Scan := do
  let s ← s.settle
  if s.options.clash then .error .conflict else .ok s

/-- The command of a scope that has ended. -/
def command (s : Scan) (scope : Scope) : Except Usage Command :=
  let o := s.options
  let format := o.format.getD .text
  match scope with
  | .top => .error .missingCommand
  | .root => .ok (.root o.configurations format)
  | .rules => .ok (.rules format)
  | .view =>
    match s.configuration with
    | none => .error .missingArgument
    | some configuration =>
      .ok (.view ⟨configuration, o.patterns, o.attributes, o.lenient, o.artifacts, format⟩)

end Scan

/-- Asking for help, about one command if any. -/
def helpOn : List String → Usage
  | [] => .help
  | [name] => if isCommandName name then .help else .unknownCommand
  | _ => .unknownCommand

end Componentry.Command

namespace Componentry.Invocation

open Command (Scan Scope)

/-- An invocation of `command` with the options that stand before and after it. -/
def ofOptions (command : Command) (before after : Command.Options) : Invocation where
  command := command
  verbose := before.verbose || after.verbose
  quiet := before.quiet || after.quiet
  noColor := before.noColor || after.noColor
  manifestPath := after.manifestPath <|> before.manifestPath

/-- Read the arguments behind the name of a command, `top` being what stands before it. -/
def readCommand (top : Scan) (scope : Scope) (arguments : List String) :
    Except Usage Invocation := do
  let (own, _) ← Scan.read {} scope arguments
  let own ← own.finish
  let command ← own.command scope
  let top ← top.finish
  return ofOptions command top.options own.options

/-- Read the arguments that follow the name of the program. -/
def parse (arguments : List String) : Except Usage Invocation := do
  match ← Scan.read {} .top arguments with
  | (top, none) =>
    let top ← top.settle
    .error (if top.options = {} then .nothingGiven else .missingCommand)
  | (top, some (name, rest)) =>
    match Scope.ofCommand? name with
    | some scope => readCommand top scope rest
    | none => .error (Command.helpOn rest)

end Componentry.Invocation
