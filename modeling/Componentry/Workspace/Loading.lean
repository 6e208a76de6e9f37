import Componentry.Workspace

/-!
# Loading a workspace

A descriptor is read from what was found at its path (`Workspace.readDescriptor`), and the workspace
is put together from it (`Workspace.load`). Relative paths are under the directory of the
descriptor.
-/

namespace Componentry

/-- What is found at a path. -/
inductive Found where
  | nothing
  | directory
  /-- A file whose bytes are no text. -/
  | binary
  | text (content : String)
  deriving DecidableEq, Repr

/-- The name of a descriptor, where no other one is asked for. -/
def descriptorName : String := "cmeta.toml"

namespace Workspace

/-- A descriptor that is there but cannot be read. -/
def unreadable (path : Path) (why : String) : Fault :=
  .noted s!"Failed to read project descriptor {path}" (.system .other why)

/-- The descriptor at `path`. -/
def readDescriptor (path : Path) : Found → Except Fault Descriptor
  | .nothing => .error (.failure (.descriptorNotFound path))
  | .directory => .error (unreadable path "Is a directory (os error 21)")
  | .binary => .error (unreadable path "stream did not contain valid UTF-8")
  | .text content => (Descriptor.parse path content).mapError .failure

/-- The workspace that a descriptor read from `path` describes. -/
def load (path : Path) (descriptor : Except Fault Descriptor) : Logged Workspace := do
  let d ← .ofExcept descriptor
  .record (.descriptorLoaded path d.configurations.length d.rules.length)
  assemble d (path.parent.getD "")

end Workspace

end Componentry
