import Componentry.Failure
import Componentry.Text.Style

/-!
# Reports: what a user is told about a fault

A `Report` is a failure with optional details and an optional suggestion. `Fault.report` builds one
from any fault: a classified failure brings its own advice, a missing or forbidden file brings the
advice for that, and anything else is told with its whole chain of causes.
-/

namespace Componentry

/-- A failure as it is told to the user. -/
structure Report where
  /-- What went wrong. -/
  failure : Failure
  /-- Why, if there is more to say. -/
  details : Option String := none
  /-- What to do about it, if there is advice. -/
  suggestion : Option String := none

/-- The details that belong to a failure. -/
def Failure.details : Failure → Option String
  | unexpectedStatus .. =>
    some "A component's status must be one of the values of its status scheme"
  | ruleFailed _ _ cause => some cause.summary
  | configurationNotFound name => some s!"No [[configurations]] entry is named \"{name}\""
  | noMatchingVariant .. => some "Use --lenient to skip artifacts that cannot be provided"
  | _ => none

/-- The advice that belongs to a failure. -/
def Failure.suggestion : Failure → Option String
  | unexpectedStatus .. =>
    some "Add the status to the component's status scheme, or fix the rule that sets it"
  | ruleFailed .. =>
    some "Fix the failing rule; run with --verbose to see which rules were applied"
  | unsupportedInput .. => some "Remove the unsupported entry from the rule's `requires` list"
  | replacementCycle .. => some "Remove one of the conflicting [[replacements]] entries"
  | configurationNotFound .. =>
    some "Declare the configuration in cmeta.toml or check its spelling"
  | noMatchingVariant .. =>
    some "Declare a [[transforms]] entry producing the requested attributes"
  | descriptorNotFound .. =>
    some "Create a cmeta.toml in the project directory or pass --manifest-path"
  | descriptorMalformed .. | descriptorInvalid .. =>
    some "Check the TOML syntax and key names in cmeta.toml"
  | _ => none

/-- A failure with its own details and advice. -/
def Failure.report (f : Failure) : Report := ⟨f, f.details, f.suggestion⟩

/-- Causes as numbered lines, the first one numbered `n`. -/
def Fault.numberedCauses : Nat → List String → String
  | _, [] => ""
  | n, cause :: rest =>
    "\n  " ++ toString n ++ ": " ++ cause ++ Fault.numberedCauses (n + 1) rest

/-- A fault with its causes, one per line. -/
def Fault.listing (f : Fault) : String :=
  match f.causes with
  | [] => f.message
  | causes => f.message ++ "\n\nCaused by:" ++ Fault.numberedCauses 1 causes

/-- What the user is told about a fault: a classified failure speaks for itself, a missing or
forbidden file is named as such, anything else is listed with its causes. -/
def Fault.report (f : Fault) : Report :=
  match f.failure? with
  | some known => known.report
  | none =>
    match f.system? with
    | some (.permissionDenied, message) =>
      { failure := .other s!"Permission denied: {message}"
        suggestion := some "Check file ownership and permissions of the project directory" }
    | some (.notFound, message) =>
      { failure := .other s!"File not found: {message}"
        suggestion := some "Check that the file or directory exists and the path is correct" }
    | _ => { failure := .other f.listing }

namespace Report

/-- The report as one text: the failure, then details and suggestion on lines of their own. -/
def display (r : Report) : String :=
  r.failure.message ++
    (match r.details with | some d => "\nDetails: " ++ d | none => "") ++
    (match r.suggestion with | some s => "\nSuggestion: " ++ s | none => "")

/-- The report as terminal lines, each with a coloured label. -/
def lines (r : Report) (colors : Bool) : List String :=
  (Text.Style.alarm.apply colors "error" ++ ": " ++ r.failure.message) ::
    (r.details.toList.map fun d => Text.Style.yellow.apply colors "details" ++ ": " ++ d) ++
    (r.suggestion.toList.map fun s => Text.Style.green.apply colors "suggestion" ++ ": " ++ s)

end Report

end Componentry
