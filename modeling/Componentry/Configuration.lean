import Componentry.Identity
import Componentry.Path

/-!
# Configurations

A configuration is a named bucket of dependency declarations and published artifacts, with
resolution attributes. A `Dependency` points at a published module, a project of the build or a
plain file; its `text` is what addresses it in later changes, and `Dependency.parse` reads a module
or project dependency from such a text.

`MutationKind` classifies the changes a configuration can go through. Only some of them matter to
what a project looks like from outside, which is what `affectsRoot` says.
-/

namespace Componentry

/-- What a dependency declaration points at. -/
inductive DependencyTarget where
  | module (id : ModuleVersionId)
  | project (path : String)
  | file (path : Path)
  deriving DecidableEq, Repr

/-- A declared dependency. -/
structure Dependency where
  target : DependencyTarget
  attributes : Attributes := Dict.empty
  deriving DecidableEq

namespace Dependency

/-- The text that addresses the dependency. -/
def text (d : Dependency) : String :=
  match d.target with
  | .module id => id.display
  | .project path => path
  | .file path => path

/-- The dependency on a component: files have no declared form. -/
def onComponent : ComponentId → Dependency
  | .module id => ⟨.module id, Dict.empty⟩
  | .project path => ⟨.project path, Dict.empty⟩
  | .file path => ⟨.file path, Dict.empty⟩

/-- Read a project path or a module version as a dependency without attributes. -/
def parse (text : String) : Except Failure Dependency :=
  onComponent <$> ComponentId.parse text

end Dependency

/-- An artifact that a configuration publishes. -/
structure PublishedArtifact where
  name : String
  attributes : Attributes
  deriving DecidableEq

/-- How conflicts are handled when a configuration is resolved. -/
structure Strategy where
  failOnVersionConflict : Bool := false
  preferProjectModules : Bool := false
  deriving DecidableEq, Repr

/-- A named bucket of dependencies and artifacts. -/
structure Configuration where
  name : String
  /-- The attributes that its resolution asks for. -/
  attributes : Attributes := Dict.empty
  /-- The declared dependencies, in declaration order. -/
  dependencies : List Dependency := []
  /-- The published artifacts, in declaration order. -/
  artifacts : List PublishedArtifact := []
  /-- Whether resolution is pinned to locked versions. -/
  locking : Bool := false
  /-- Whether other components may consume it. -/
  consumable : Bool := true
  /-- Whether it may be resolved. -/
  resolvable : Bool := true
  strategy : Strategy := {}
  deriving DecidableEq

/-- The kinds of change to configurations. -/
inductive MutationKind where
  | dependencies
  | artifacts
  | dependencyAttributes
  | strategy
  | role
  deriving DecidableEq, Repr

namespace MutationKind

/-- Whether a change of this kind makes root metadata stale. -/
def affectsRoot : MutationKind → Bool
  | dependencies | artifacts | dependencyAttributes => true
  | strategy | role => false

def display : MutationKind → String
  | dependencies => "dependencies"
  | artifacts => "artifacts"
  | dependencyAttributes => "dependency attributes"
  | strategy => "resolution strategy"
  | role => "role"

end MutationKind

end Componentry
