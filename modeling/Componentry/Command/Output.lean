import Componentry.Artifact.View
import Componentry.Command
import Componentry.Command.Json
import Componentry.Replacement
import Componentry.Component
import Componentry.Root.Metadata
import Componentry.Text.Style

/-!
# What commands print

The results of the commands as text and as JSON. Texts are lists of lines; styles are left out when
colours are off.

* `RootMetadata`: the project, then its configurations with what each of them holds.
* `RuleReport`: the components after the rules, then the replacements.
* `ResolvedFile`: a file on each line, after the artifact if that is asked for.
-/

namespace Componentry

open Command (Json)
open Text (Style)

/-- The text of some lines. -/
def linesText (lines : List String) : String := String.join (lines.map (· ++ "\n"))

/-! ## Root metadata -/

namespace LocalConfiguration

def toJson (c : LocalConfiguration) : Json :=
  .record [("name", .text c.name), ("attributes", c.attributes.toJson),
    ("dependencies", .texts (c.dependencies.map Dependency.text)),
    ("artifacts", .texts (c.artifacts.map PublishedArtifact.name)),
    ("locked", .texts (c.locked.map ModuleVersionId.display))]

def lines (colors : Bool) (c : LocalConfiguration) : List String :=
  ("  " ++ Style.green.apply colors c.name ++ " " ++ c.attributes.display) ::
    c.dependencies.map (fun d => "    dependency " ++ d.text) ++
    c.artifacts.map (fun a => "    artifact " ++ a.name) ++
    c.locked.map fun id => "    locked " ++ id.display

end LocalConfiguration

namespace RootMetadata

def toJson (m : RootMetadata) : Json :=
  .record [("id", .text m.id.display), ("component", m.componentId.toJson),
    ("status", .text m.status),
    ("schema", (m.schema.map fun names => Json.texts names.keys).getD .null),
    ("configurations", .list (m.configurations.map LocalConfiguration.toJson))]

/-- The declared attribute names in a line of text. -/
def schemaText (colors : Bool) (m : RootMetadata) : String :=
  match m.schema.map Dict.keys with
  | none => Style.dimmed.apply colors "none"
  | some [] => Style.dimmed.apply colors "empty"
  | some names => ", ".intercalate names

def lines (colors : Bool) (m : RootMetadata) : List String :=
  (Style.bold.apply colors m.id.display ++ " (" ++ m.componentId.display ++ ")") ::
    ("  status: " ++ m.status) ::
    ("  schema: " ++ m.schemaText colors) ::
    m.configurations.flatMap (LocalConfiguration.lines colors)

end RootMetadata

/-! ## Components and replacements -/

namespace Component

def toJson (c : Component) : Json :=
  .record [("id", .text c.id.display), ("format", .text c.format.name),
    ("status", .text c.details.status), ("status_scheme", .texts c.details.scheme),
    ("changing", .flag c.details.changing), ("attributes", c.details.attributes.toJson)]

def lines (colors : Bool) (c : Component) : List String :=
  (Style.bold.apply colors c.id.display ++ " [" ++ c.format.name ++ "] " ++
      Style.green.apply colors c.details.status ++ " in [" ++
      ", ".intercalate c.details.scheme ++ "]" ++
      (if c.details.changing then Style.yellow.apply colors " changing" else "")) ::
    if c.details.attributes.isEmpty then []
    else ["  attributes " ++ c.details.attributes.display]

end Component

namespace Replacement

def toJson (module : ModuleId) (r : Replacement) : Json :=
  .record [("module", .text module.display), ("replaced_by", .text r.target.display),
    ("reason", .text? r.reason)]

def line (module : ModuleId) (r : Replacement) : String :=
  module.display ++ " replaced by " ++ r.target.display ++
    match r.reason with
    | some reason => " (" ++ reason ++ ")"
    | none => ""

end Replacement

/-- What the rules made of the components. -/
structure RuleReport where
  /-- How many rules there are. -/
  rules : Nat
  /-- The components, after the rules. -/
  components : List Component
  replacements : Replacements

namespace RuleReport

def toJson (r : RuleReport) : Json :=
  .record [("rules", .count r.rules), ("components", .list (r.components.map Component.toJson)),
    ("replacements", .list (r.replacements.entries.map fun e => e.2.toJson e.1))]

def lines (colors : Bool) (r : RuleReport) : List String :=
  (toString r.rules ++ " rule(s) applied") ::
    r.components.flatMap (Component.lines colors) ++
    r.replacements.entries.map fun e => e.2.line e.1

end RuleReport

/-! ## Files -/

namespace ResolvedFile

def toJson (r : ResolvedFile) : Json :=
  .record [("id", r.id.toJson), ("file", .text r.file), ("attributes", r.attributes.toJson)]

def line (artifacts : Bool) (r : ResolvedFile) : String :=
  if artifacts then r.id.display ++ "\t" ++ r.file else r.file

end ResolvedFile

/-! ## Formats -/

/-- A result in a format: its lines, or its JSON text on lines of its own. -/
def OutputFormat.print (format : OutputFormat) (lines : List String) (json : Json) : String :=
  match format with
  | .text => linesText lines
  | .json => json.render 0 ++ "\n"

end Componentry
