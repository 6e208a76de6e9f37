import Componentry.Descriptor
import Componentry.Root.Session
import Componentry.Rule.Book
import Componentry.Rule.Declared
import Componentry.Replacement

/-!
# Workspaces: what a descriptor describes, put together

`Workspace.assemble` makes a workspace of a descriptor. It checks what the form of a descriptor
leaves open, in this order, and the first thing that is wrong is its fault:

* the path of the project (`ProjectSection.coordinates`);
* the locked versions, if the project has a path: `Descriptor.registry` lists the projects of the
  build, the project itself first;
* the configurations, declared one by one in a container that tells the root metadata of every
  change (`ConfigurationSection.operations`, `Session.configure`);
* the rules (`RuleBook.declareAll`);
* the replacements (`Replacements.declareAll`).

Components are not looked at before they are asked for (`Workspace.components`).
-/

namespace Componentry

/-! ## The project and its build -/

/-- What the project publishes as; its path, if it has one, has to be the text of a component. -/
def ProjectSection.coordinates (p : ProjectSection) : Except Failure Coordinates :=
  let coordinates : Coordinates := ⟨p.group, p.name, p.version, p.path, p.status⟩
  match p.path with
  | none => .ok coordinates
  | some path => (ComponentId.parse path).map fun _ => coordinates

namespace Descriptor

/-- The locked versions of one configuration. -/
def readLocks (entry : String × List String) :
    Except Fault (String × List ModuleVersionId) :=
  Fault.explain s!"Invalid lock entry for configuration '{entry.1}'"
    (((entry.2.mapM ModuleVersionId.parse).map fun locked => (entry.1, locked)).mapError .failure)

/-- The project itself, as it is registered at `path`. -/
def ownProject (d : Descriptor) (path : String) : Except Fault Project :=
  (d.locks.entries.mapM readLocks).map fun versions =>
    { path := path
      schema := .ofNames d.schema.attributes
      locking := .pinned (Dict.ofList versions) }

/-- The projects of the build. The other ones have no schema and no locking, and one of them that
has the path of the project itself takes its place. -/
def registry (d : Descriptor) : Except Fault Registry :=
  let own : Except Fault (List Project) :=
    match d.project.path with
    | some path => (d.ownProject path).map ([·])
    | none => .ok []
  own.map fun own =>
    (own ++ d.projects.map fun p => { path := p.path }).foldl Registry.register Dict.empty

end Descriptor

/-! ## Configurations -/

/-- The operations that declare a configuration, in order. A dependency that cannot be read stands
as its failure. -/
def ConfigurationSection.operations (s : ConfigurationSection) : List (Except Failure Operation) :=
  .ok (.create s.name) ::
    (s.attributes.entries.map fun e => .ok (.setAttribute s.name e.1 e.2)) ++
    (s.dependencies.map fun text => (Dependency.parse text).map (.addDependency s.name)) ++
    (s.files.map fun file => .ok (.addDependency s.name ⟨.file file, Dict.empty⟩)) ++
    (s.artifacts.map fun a => .ok (.addArtifact s.name ⟨a.name, a.attributes⟩)) ++
    (if s.dependencyLocking then [.ok (.setLocking s.name true)] else [])

namespace Session

/-- A session with nothing configured, whose one builder hears of every change. -/
def start (identity : Coordinates) (projects : Registry) : Session :=
  { identity := identity, projects := projects, listeners := [.builder 0], builders := [{}] }

/-- Perform operations in order, up to the first one that is a failure or is refused. -/
def performAll (s : Session) : List (Except Failure Operation) → Except Failure Unit × Session
  | [] => (.ok (), s)
  | .error failure :: _ => (.error failure, s)
  | .ok op :: rest =>
    match s.perform op with
    | (.error failure, s) => (.error failure, s)
    | (.ok _, s) => s.performAll rest

/-- The session after some operations. Its own log goes to the result. -/
def configure (s : Session) (ops : List (Except Failure Operation)) : Logged Session :=
  match s.performAll ops with
  | (.ok _, s) => ⟨.ok { s with log := [] }, s.log⟩
  | (.error failure, s) => ⟨.error failure, s.log⟩

/-- Read the root metadata of the configurations that are named, with a new builder. -/
def readNamed (s : Session) (names : List String) : Except Fault Snapshot × Session :=
  (s.step (.derive 0 (.named names .container))).2.read s.builders.length

end Session

/-! ## Rules and replacements -/

/-- Register the rules of sections for every component, the first one at position `index`. -/
def RuleBook.declareAll (b : RuleBook) : Nat → List RuleSection → Except Fault RuleBook
  | _, [] => .ok b
  | index, s :: rest =>
    match s.rule index with
    | .error fault => .error fault
    | .ok rule =>
      match b.register (.withSpec none ⟨index, rule⟩) with
      | (.error failure, _) => .error failure
      | (.ok _, b) => b.declareAll (index + 1) rest

/-- The declaration of a section. -/
def ReplacementSection.declaration (s : ReplacementSection) :
    Except Failure ReplacementDeclaration :=
  ReplacementDeclaration.parse s.module s.replacedBy s.reason

/-- Declare the replacements of sections in order. -/
def Replacements.declareAll (r : Replacements) : List ReplacementSection → Logged Replacements
  | [] => pure r
  | s :: rest => do
    let d ← .ofClassified s.declaration
    let r ← .ofClassified (r.declare d)
    .record (.moduleReplaced d.module d.replacement.target)
    r.declareAll rest

/-! ## The workspace -/

/-- What a descriptor describes. -/
structure Workspace where
  descriptor : Descriptor
  /-- The directory that relative paths are under. -/
  base : Path
  session : Session
  rules : RuleBook
  replacements : Replacements

/-- Put together what a descriptor describes. -/
def Workspace.assemble (d : Descriptor) (base : Path) : Logged Workspace := do
  let identity ← .ofClassified d.project.coordinates
  let projects ← .ofExcept d.registry
  let session ← (Session.start identity projects).configure
    (d.configurations.flatMap (·.operations))
  let rules ← .ofExcept (RuleBook.declareAll {} 0 d.rules)
  let replacements ← Replacements.declareAll Dict.empty d.replacements
  .record (.workspaceAssembled identity.id rules.entries.length)
  return ⟨d, base, session, rules, replacements⟩

/-! ## Components -/

/-- The format that a component section describes, with what only that format has. -/
def ComponentSection.publishedFormat (s : ComponentSection) : Format :=
  match s.format with
  | .ivy => .ivy s.branch s.extraInfo
  | .maven => .maven (s.packaging.getD "jar")
  | .gradle => .gradle

/-- The component that a section describes. -/
def ComponentSection.component (s : ComponentSection) : Except Failure Component :=
  (ModuleVersionId.parse s.id).map fun id =>
    { id := id
      format := s.publishedFormat
      details :=
        { status := s.status.getD defaultStatus
          scheme := s.statusScheme.getD defaultScheme
          changing := s.changing
          attributes := s.attributes } }

/-- The external components, before any rule. -/
def Workspace.components (w : Workspace) : Except Failure (List Component) :=
  w.descriptor.components.mapM ComponentSection.component

end Componentry
