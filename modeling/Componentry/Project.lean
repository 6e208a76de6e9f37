import Componentry.Identity

/-!
# Projects of a build

A project has a path, a schema of declared attribute names, and a `Locking` that pins module
versions per configuration. The registry finds projects by path; a project registered later takes
the place of an earlier one with the same path.
-/

namespace Componentry

/-- A set of names, in order. -/
abbrev NameSet := Dict String Unit

/-- The set of the given names. -/
def NameSet.ofNames (names : List String) : NameSet := Dict.ofList (names.map fun n => (n, ()))

/-- What is locked for one configuration. -/
structure LockState where
  /-- Whether resolution has to keep to the locked versions. -/
  mustValidate : Bool := false
  locked : List ModuleVersionId := []
  deriving DecidableEq, Repr

/-- Where the lock state of a configuration comes from. -/
inductive Locking where
  /-- Nothing is ever locked. -/
  | off
  /-- Versions are locked for the configurations listed. -/
  | pinned (versions : Dict String (List ModuleVersionId))
  deriving DecidableEq

/-- The lock state of the configuration named `configuration`. -/
def Locking.state (l : Locking) (configuration : String) : LockState :=
  match l with
  | off => {}
  | pinned versions =>
    match versions.get? configuration with
    | some locked => ⟨true, locked⟩
    | none => {}

/-- A project of the build. -/
structure Project where
  path : String
  schema : NameSet := Dict.empty
  locking : Locking := .off
  deriving DecidableEq

/-- The projects of a build, by path. -/
abbrev Registry := Dict String Project

/-- Add a project, in place of any other one with its path. -/
def Registry.register (r : Registry) (p : Project) : Registry := Dict.insert r p.path p

/-- The project at `path`. -/
def Registry.find? (r : Registry) (path : String) : Option Project := Dict.get? r path

end Componentry
