import Componentry.Component

/-!
# Component metadata rules

A rule says which components it is for, which extra inputs it needs, and what it does: its body is
given the component's identity, the inputs and the details, and answers with the details as it left
them and an `Outcome`. A body that fails or crashes has still made the changes it made before.
-/

namespace Componentry

/-- How a rule body ends. -/
inductive Outcome where
  | done
  | failed (why : Fault)
  /-- The body crashed, possibly with a message. -/
  | crashed (message : Option String)

/-- Why a body did not end well, if it did not. -/
def Outcome.fault? : Outcome → Option Fault
  | done => none
  | failed why => some why
  | crashed message => some (.text ("rule panicked: " ++ message.getD "unknown panic"))

/-- What a rule does to the details of a component. -/
abbrev Body := ModuleVersionId → List IvyDescriptor → Details → Outcome × Details

/-- A component metadata rule. -/
structure Rule where
  /-- What the rule is called in messages. -/
  description : String
  /-- The extra inputs it needs, in the order in which its body gets them. -/
  inputs : List InputKind := []
  /-- Which components the rule is for. -/
  isFor : ModuleVersionId → Details → Bool := fun _ _ => true
  body : Body

/-- Why a rule must not be registered where only `supported` inputs are, if so: the first input it
needs that is not among them. -/
def Rule.unsupported (r : Rule) (supported : List InputKind) : Option Failure :=
  (r.inputs.find? fun kind => !supported.contains kind).map fun kind =>
    .unsupportedInput r.description kind.display (supported.map InputKind.display)

end Componentry
