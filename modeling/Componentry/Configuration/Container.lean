import Componentry.Configuration

/-!
# The configuration container

A container holds configurations in the order of their creation, under distinct names. All its
changes are `Operation`s: `Operation.refusal` says why a container does not admit one (a name that
exists already, or that does not exist), and `Container.apply` carries an admitted one out. Each
operation has one `kind`, and touches only the configuration it names.
-/

namespace Componentry

/-- The changes a container can be asked for. -/
inductive Operation where
  /-- Declare a new, empty configuration. -/
  | create (name : String)
  | addDependency (configuration : String) (dependency : Dependency)
  | addArtifact (configuration : String) (artifact : PublishedArtifact)
  | setAttribute (configuration key value : String)
  /-- Set an attribute of every dependency that is addressed by `text`. -/
  | setDependencyAttribute (configuration text key value : String)
  | setLocking (configuration : String) (enabled : Bool)
  | setStrategy (configuration : String) (strategy : Strategy)
  | setRoles (configuration : String) (consumable resolvable : Bool)
  deriving DecidableEq

/-- The configurations of a project, in declaration order. -/
structure Container where
  configurations : List Configuration := []
  deriving DecidableEq

namespace Operation

/-- What an operation changes. A new configuration contributes its dependencies, and locked versions
count as dependencies. -/
def kind : Operation → MutationKind
  | create .. | addDependency .. | setLocking .. => .dependencies
  | addArtifact .. => .artifacts
  | setAttribute .. | setDependencyAttribute .. => .dependencyAttributes
  | setStrategy .. => .strategy
  | setRoles .. => .role

/-- The configuration an operation is about. -/
def target : Operation → String
  | create name => name
  | addDependency name _ => name
  | addArtifact name _ => name
  | setAttribute name _ _ => name
  | setDependencyAttribute name _ _ _ => name
  | setLocking name _ => name
  | setStrategy name _ => name
  | setRoles name _ _ => name

/-- What an operation does to its configuration. -/
def edit : Operation → Configuration → Configuration
  | create _, c => c
  | addDependency _ dependency, c => { c with dependencies := c.dependencies ++ [dependency] }
  | addArtifact _ artifact, c => { c with artifacts := c.artifacts ++ [artifact] }
  | setAttribute _ key value, c => { c with attributes := c.attributes.insert key value }
  | setDependencyAttribute _ text key value, c =>
    { c with dependencies := c.dependencies.map fun d =>
        if d.text = text then { d with attributes := d.attributes.insert key value } else d }
  | setLocking _ enabled, c => { c with locking := enabled }
  | setStrategy _ strategy, c => { c with strategy := strategy }
  | setRoles _ consumable resolvable, c =>
    { c with consumable := consumable, resolvable := resolvable }

end Operation

namespace Container

/-- The configuration named `name`. -/
def get? (c : Container) (name : String) : Option Configuration :=
  c.configurations.find? fun configuration => configuration.name == name

/-- Whether there is a configuration named `name`. -/
def contains (c : Container) (name : String) : Bool :=
  c.configurations.any fun configuration => configuration.name == name

/-- The names, in declaration order. -/
def names (c : Container) : List String := c.configurations.map (·.name)

/-- Why the container does not admit an operation, if it does not. -/
def refusal (c : Container) : Operation → Option Failure
  | .create name => if c.contains name then some (.duplicateConfiguration name) else none
  | op => if c.contains op.target then none else some (.configurationNotFound op.target)

/-- Carry out an admitted operation. -/
def apply (c : Container) : Operation → Container
  | .create name => ⟨c.configurations ++ [{ name := name }]⟩
  | op => ⟨c.configurations.map fun configuration =>
      if configuration.name = op.target then op.edit configuration else configuration⟩

/-- A container in which `names` are created one by one, repetitions left out. -/
def ofNames (names : List String) : Container :=
  names.foldl (fun c name => if c.contains name then c else c.apply (.create name)) {}

end Container

end Componentry
