import Componentry.Identity
import Componentry.Log
import Componentry.Path

/-!
# Resolutions: the components of a configuration and their artifacts

A `Resolution` lists the components that a configuration resolved to, each with its artifacts in
their native form. An artifact is a file that is there, or one that a `Producer` builds when it is
asked for; a `Pipeline` turns artifacts into other forms.

Producers, pipelines and component filters are collaborators: they belong to the caller. Every
question to one of them is a `Call`, and they are given the calls made before, because they may
remember them. A collaborator that does not look at them answers by its arguments alone.
-/

namespace Componentry

/-- A question to a collaborator. -/
inductive Call where
  /-- A filter was asked whether it accepts a component. -/
  | filtered (component : ComponentId) (accepted : Bool)
  /-- A producer was asked to build an artifact. -/
  | produced (artifact : ArtifactId)
  /-- A pipeline was asked whether it can transform. -/
  | asked (source requested : Attributes) (answer : Bool)
  /-- A pipeline was asked to transform a file. -/
  | transformed (artifact : ArtifactId) (file : Path) (source requested : Attributes)
  deriving DecidableEq

/-- The calls made so far, oldest first. -/
abbrev History := List Call

/-- Selects components. -/
abbrev ComponentFilter := History → ComponentId → Bool

/-- Builds artifacts. -/
abbrev Producer := History → ArtifactId → Logged Path

/-- Turns artifacts of one form into another form. -/
structure Pipeline where
  /-- Whether an artifact with the first attributes can be turned into one that satisfies the
  second. -/
  canTransform : History → Attributes → Attributes → Bool
  /-- The files that the file of an artifact with the first attributes is turned into, to satisfy
  the second. -/
  transform : History → ArtifactId → Path → Attributes → Attributes → Logged (List Path)

/-- The pipeline that transforms nothing. -/
def Pipeline.empty : Pipeline where
  canTransform _ _ _ := false
  transform _ artifact _ _ requested :=
    ⟨.error (.failure (.transformFailed artifact.display requested "no transforms are registered")),
      []⟩

/-- Where the native file of an artifact comes from. -/
inductive ArtifactSource where
  | file (path : Path)
  | built (producer : Producer)

/-- An artifact in its native form. -/
structure Artifact where
  id : ArtifactId
  attributes : Attributes
  source : ArtifactSource

/-- A component with its artifacts, in publication order. -/
structure ResolvedComponent where
  id : ComponentId
  artifacts : List Artifact

/-- What a configuration resolved to. -/
structure Resolution where
  configuration : String
  /-- The attributes that the configuration asks for. -/
  attributes : Attributes
  /-- The components, in declaration order. -/
  components : List ResolvedComponent
  pipeline : Pipeline

/-! ## Places in a resolution -/

/-- Where an artifact stands in a resolution. -/
structure Place where
  component : Nat
  artifact : Nat
  deriving DecidableEq, Repr

/-- An artifact with its place. -/
structure PlacedArtifact where
  place : Place
  artifact : Artifact

/-- A component whose artifacts have places. -/
structure PlacedComponent where
  id : ComponentId
  artifacts : List PlacedArtifact

namespace Resolution

/-- Give the artifacts of a component their places. -/
def placeArtifacts (component : Nat) : Nat → List Artifact → List PlacedArtifact
  | _, [] => []
  | index, a :: rest => ⟨⟨component, index⟩, a⟩ :: placeArtifacts component (index + 1) rest

/-- Give the artifacts of components their places. -/
def placeComponents : Nat → List ResolvedComponent → List PlacedComponent
  | _, [] => []
  | index, c :: rest => ⟨c.id, placeArtifacts index 0 c.artifacts⟩ ::
      placeComponents (index + 1) rest

/-- The components of a resolution, their artifacts with places. -/
def placed (r : Resolution) : List PlacedComponent := placeComponents 0 r.components

end Resolution

end Componentry
