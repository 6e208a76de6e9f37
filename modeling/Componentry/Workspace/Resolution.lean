import Componentry.Artifact.Transform
import Componentry.Workspace

/-!
# Resolving the configurations of a workspace

A configuration resolves to the targets of its dependencies, in order. Each kind of target has its
place: the jar of a module lies in the repository directory (`Workspace.moduleFile`), the artifacts
of a project are built under the base directory, and a file lies where it was declared, under the
base directory. Whether a module or a file exists is not looked at; a project has to be among the
other projects of the descriptor.
-/

namespace Componentry

/-- The name of the jar of a module. -/
def ModuleVersionId.jarName (id : ModuleVersionId) : String :=
  id.name ++ "-" ++ id.version ++ ".jar"

namespace Workspace

/-- The directory of module artifacts. -/
def repository (w : Workspace) : Path := w.base.join w.descriptor.repository.dir

/-- Where the jar of a module lies. -/
def moduleFile (w : Workspace) (id : ModuleVersionId) : Path :=
  (w.repository.join id.group).join id.jarName

/-- A published module, with its jar. -/
def moduleComponent (w : Workspace) (id : ModuleVersionId) : ResolvedComponent :=
  ⟨.module id, [⟨⟨.module id, id.jarName⟩, .ofType "jar", .file (w.moduleFile id)⟩]⟩

/-- A project of the build, with the artifacts that are built for it. -/
def projectComponent (w : Workspace) (s : SiblingSection) : ResolvedComponent :=
  let id := ComponentId.project s.path
  ⟨id, s.artifacts.map fun a => ⟨⟨id, a.name⟩, a.attributes, .built (.ofProjects w.base)⟩⟩

/-- The component that a dependency points at. -/
def locate (w : Workspace) (d : Dependency) : Except Failure ResolvedComponent :=
  match d.target with
  | .module id => .ok (w.moduleComponent id)
  | .project path =>
    match w.descriptor.projects.find? fun s => s.path == path with
    | some s => .ok (w.projectComponent s)
    | none => .error (.other s!"Project {path} is not declared in [[projects]]")
  | .file path => .ok (.ofFile path (w.base.join path))

/-- Resolve the configuration named `name`. -/
def resolve (w : Workspace) (name : String) : Logged Resolution :=
  match w.session.container.get? name with
  | none => ⟨.error (.failure (.configurationNotFound name)), []⟩
  | some c => do
    let components ← .ofClassified (c.dependencies.mapM w.locate)
    .record (.configurationResolved name components.length)
    return ⟨name, c.attributes, components, .declared w.descriptor.transforms⟩

end Workspace

end Componentry
