import Componentry.Identity

/-!
# Metadata of external components

A component that comes from outside the build is described by the descriptor it was published with.
`Details` is what rules may change about it; its identity and format stay. A rule can ask for extra
inputs, and the format decides which of them there are (`Component.input`): only Ivy descriptors
supply one.
-/

namespace Componentry

/-- The status scheme of a component that declares none. -/
def defaultScheme : List String := [defaultStatus, "milestone", "release"]

/-- What rules may change about a component. -/
structure Details where
  status : String := defaultStatus
  /-- The statuses that the component may have. -/
  scheme : List String := defaultScheme
  /-- Whether the component may change while its version stays the same. -/
  changing : Bool := false
  attributes : Attributes := Dict.empty
  deriving DecidableEq

/-- The descriptor format of a component, with what only that format has. -/
inductive Format where
  | ivy (branch : Option String) (extraInfo : Dict String String)
  | maven (packaging : String)
  | gradle
  deriving DecidableEq

def Format.name : Format → String
  | ivy .. => "ivy"
  | maven _ => "maven"
  | gradle => "gradle"

/-- A component from outside the build. -/
structure Component where
  id : ModuleVersionId
  format : Format
  details : Details := {}
  deriving DecidableEq

/-- The kinds of extra input that a rule can ask for. -/
inductive InputKind where
  | ivyDescriptor
  | pomDescriptor
  deriving DecidableEq, Repr

def InputKind.display : InputKind → String
  | ivyDescriptor => "IvyModuleDescriptor"
  | pomDescriptor => "PomDescriptor"

/-- What an Ivy descriptor tells a rule. -/
structure IvyDescriptor where
  extraInfo : Dict String String
  branch : Option String
  /-- The status of the component when the rule runs. -/
  status : String
  deriving DecidableEq

namespace Component

/-- The extra input of a kind, if the component's format supplies it. -/
def input (c : Component) : InputKind → Option IvyDescriptor
  | .ivyDescriptor =>
    match c.format with
    | .ivy branch extraInfo => some ⟨extraInfo, branch, c.details.status⟩
    | _ => none
  | .pomDescriptor => none

/-- Why the component's status is not acceptable, if it is not: a status has to be in the scheme. -/
def statusFault (c : Component) : Option Failure :=
  if c.details.status ∈ c.details.scheme then none
  else some (.unexpectedStatus c.id.display c.details.status c.details.scheme)

end Component

end Componentry
