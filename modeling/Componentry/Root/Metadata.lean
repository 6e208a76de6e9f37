import Componentry.Configuration.Container
import Componentry.Project

/-!
# Root metadata

The root of a dependency graph is the project being resolved. Its metadata is a snapshot: identity
and status of the project, schema and locking of its place in the build, and one
`LocalConfiguration` per configuration, in order, with the versions that are locked for it.
-/

namespace Componentry

/-- What the root shows of one configuration. -/
structure LocalConfiguration where
  name : String
  attributes : Attributes
  dependencies : List Dependency
  artifacts : List PublishedArtifact
  /-- The locked versions; none when locking is off. -/
  locked : List ModuleVersionId
  deriving DecidableEq

/-- What the resolving project looks like as the root of a graph. -/
structure RootMetadata where
  id : ModuleVersionId
  componentId : ComponentId
  status : String
  /-- The declared attribute names; none outside a build. -/
  schema : Option NameSet
  locking : Locking
  configurations : List LocalConfiguration := []
  deriving DecidableEq

namespace RootMetadata

/-- What `locking` lets the root show of a configuration. -/
def localConfiguration (locking : Locking) (c : Configuration) : LocalConfiguration where
  name := c.name
  attributes := c.attributes
  dependencies := c.dependencies
  artifacts := c.artifacts
  locked := if c.locking then (locking.state c.name).locked else []

/-- The metadata of a project with no configuration attached: schema and locking are those of the
project registered at its path, and there are none without such a project. -/
def bare (module : Coordinates) (projects : Registry) : RootMetadata :=
  let project := module.projectPath.bind projects.find?
  { id := module.id
    componentId := module.componentId
    status := module.status
    schema := project.map (·.schema)
    locking := (project.map (·.locking)).getD .off }

/-- The metadata with `given` attached, in order. -/
def attach (m : RootMetadata) (given : List Configuration) : RootMetadata :=
  { m with configurations := given.map (localConfiguration m.locking) }

/-- The configuration named `name`. -/
def configuration? (m : RootMetadata) (name : String) : Option LocalConfiguration :=
  m.configurations.find? fun c => c.name == name

end RootMetadata

end Componentry
