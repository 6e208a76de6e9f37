import Componentry.Root.Metadata
import Componentry.Text.Inspect

/-!
# Inspection of identities and root metadata

How identities, attributes and root metadata are shown in diagnostics. Root metadata shows whether
it has a schema and how many configurations it has, not what they hold.
-/

namespace Componentry

open Text

def ModuleId.inspect (id : ModuleId) : String :=
  Inspect.record "ModuleIdentifier"
    [("group", Inspect.quoted id.group), ("name", Inspect.quoted id.name)]

def ModuleVersionId.inspect (id : ModuleVersionId) : String :=
  Inspect.record "ModuleVersionIdentifier"
    [("module", id.toModuleId.inspect), ("version", Inspect.quoted id.version)]

def ComponentId.inspect : ComponentId → String
  | module id => Inspect.wrapped "Module" id.inspect
  | project path => Inspect.record "Project" [("path", Inspect.quoted path)]
  | file displayName => Inspect.record "Opaque" [("display_name", Inspect.quoted displayName)]

def ArtifactId.inspect (id : ArtifactId) : String :=
  Inspect.record "ComponentArtifactIdentifier"
    [("component", id.component.inspect), ("name", Inspect.quoted id.name)]

def Attributes.inspect (a : Attributes) : String :=
  Inspect.record "AttributeContainer"
    [("entries", Inspect.table
      (a.entries.map fun e => (Inspect.quoted e.1, Inspect.quoted e.2)))]

def RootMetadata.inspect (m : RootMetadata) : String :=
  Inspect.record "RootLocalComponentMetadata"
    [("id", m.id.inspect),
      ("component_id", m.componentId.inspect),
      ("status", Inspect.quoted m.status),
      ("has_schema", Inspect.flag m.schema.isSome),
      ("configurations", toString m.configurations.length)]

end Componentry
