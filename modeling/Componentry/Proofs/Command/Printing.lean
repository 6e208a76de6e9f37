import Componentry.Command.Output

/-!
# What is printed of the root

The texts that show root metadata, spelled out for both formats. As text the project stands on the
first line, its status and the declared attribute names on the next two, and then the configurations
follow, each with the dependencies, artifacts and locked versions that it has, on a line each. As
JSON the same stands in one record.

* `LocalConfiguration.printed colors c`, `LocalConfiguration.record c`: what is printed of a
  configuration.
* `RootMetadata.printed colors m format`: what is printed of the metadata.

Results:
* `linesText_cons`, `linesText_append`, `linesText_map`, `linesText_flatMap`: the text of lines,
  taken apart.
* `RootMetadata.print_eq`: the lines and the JSON value of the metadata give exactly these texts.
-/

namespace Componentry

open Command (Json)
open Text (Style)

/-! ## The text of lines -/

theorem linesText_cons (line : String) (lines : List String) :
    linesText (line :: lines) = line ++ "\n" ++ linesText lines := by
  simp [linesText]

theorem linesText_append (lines others : List String) :
    linesText (lines ++ others) = linesText lines ++ linesText others := by
  simp [linesText]

theorem linesText_map {α : Type} (line : α → String) (items : List α) :
    linesText (items.map line) = String.join (items.map fun a => line a ++ "\n") := by
  simp [linesText, Function.comp_def]

theorem linesText_flatMap {α : Type} (lines : α → List String) (items : List α) :
    linesText (items.flatMap lines) = String.join (items.map fun a => linesText (lines a)) := by
  induction items with
  | nil => rfl
  | cons a rest ih => simp [linesText_append, ih]

/-! ## Configurations -/

namespace LocalConfiguration

/-- A configuration as text. -/
def printed (colors : Bool) (c : LocalConfiguration) : String :=
  "  " ++ Style.green.apply colors c.name ++ " " ++ c.attributes.display ++ "\n" ++
    String.join (c.dependencies.map fun d => "    dependency " ++ d.text ++ "\n") ++
    String.join (c.artifacts.map fun a => "    artifact " ++ a.name ++ "\n") ++
    String.join (c.locked.map fun id => "    locked " ++ id.display ++ "\n")

/-- A configuration in JSON. -/
def record (c : LocalConfiguration) : Json :=
  .record [("name", .text c.name), ("attributes", c.attributes.toJson),
    ("dependencies", .list (c.dependencies.map fun d => .text d.text)),
    ("artifacts", .list (c.artifacts.map fun a => .text a.name)),
    ("locked", .list (c.locked.map fun id => .text id.display))]

theorem linesText_lines (colors : Bool) (c : LocalConfiguration) :
    linesText (c.lines colors) = c.printed colors := by
  simp [lines, printed, linesText_cons, linesText_append, linesText_map, String.append_assoc]

theorem toJson_eq (c : LocalConfiguration) : c.toJson = c.record := by
  simp [toJson, record, Json.texts, Function.comp_def]

end LocalConfiguration

/-! ## The metadata -/

namespace RootMetadata

/-- The declared attribute names as text. -/
def printedSchema (colors : Bool) : Option NameSet → String
  | none => Style.dimmed.apply colors "none"
  | some names =>
    if names.keys = [] then Style.dimmed.apply colors "empty" else ", ".intercalate names.keys

/-- **What is printed of root metadata** in a format. -/
def printed (colors : Bool) (m : RootMetadata) : OutputFormat → String
  | .text =>
    Style.bold.apply colors m.id.display ++ " (" ++ m.componentId.display ++ ")\n" ++
      "  status: " ++ m.status ++ "\n" ++
      "  schema: " ++ printedSchema colors m.schema ++ "\n" ++
      String.join (m.configurations.map (LocalConfiguration.printed colors))
  | .json =>
    (Json.record [("id", .text m.id.display), ("component", m.componentId.toJson),
      ("status", .text m.status),
      ("schema", match m.schema with
        | none => .null
        | some names => .list (names.keys.map .text)),
      ("configurations", .list (m.configurations.map LocalConfiguration.record))]).render 0 ++ "\n"

theorem schemaText_eq (colors : Bool) (m : RootMetadata) :
    m.schemaText colors = printedSchema colors m.schema := by
  unfold schemaText printedSchema
  cases m.schema with
  | none => rfl
  | some names => cases hkeys : names.keys <;> simp [hkeys]

/-- **Printing the metadata prints exactly these texts.** -/
theorem print_eq (colors : Bool) (m : RootMetadata) (format : OutputFormat) :
    format.print (m.lines colors) m.toJson = m.printed colors format := by
  cases format with
  | text =>
    rw [← String.toList_inj]
    simp [OutputFormat.print, lines, printed, schemaText_eq, linesText_cons, linesText_flatMap,
      LocalConfiguration.linesText_lines]
  | json =>
    simp only [OutputFormat.print, printed, toJson, Json.texts,
      funext LocalConfiguration.toJson_eq]
    cases m.schema <;> rfl

end RootMetadata

end Componentry
