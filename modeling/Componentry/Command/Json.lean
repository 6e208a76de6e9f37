import Componentry.Identity

/-!
# JSON texts

Results as JSON, laid out over lines: the items of a list and the fields of a record stand on lines
of their own, two spaces further in, and empty ones are written without a line break. Fields stand
in the order in which they are given. Of a text only quotes, backslashes and control characters are
escaped.
-/

namespace Componentry.Command

/-- A result to be written as JSON. -/
inductive Json where
  | null
  | flag (b : Bool)
  | count (n : Nat)
  | text (s : String)
  | list (items : List Json)
  | record (fields : List (String × Json))

namespace Json

/-- A hexadecimal digit. -/
def hexDigit (n : Nat) : Char := Char.ofNat (if n < 10 then n + 48 else n + 87)

/-- A character as it is written between quotes. -/
def escape (c : Char) : List Char :=
  match c with
  | '"' => ['\\', '"']
  | '\\' => ['\\', '\\']
  | '\x08' => ['\\', 'b']
  | '\t' => ['\\', 't']
  | '\n' => ['\\', 'n']
  | '\x0c' => ['\\', 'f']
  | '\r' => ['\\', 'r']
  | c =>
    if c.toNat < 32 then ['\\', 'u', '0', '0', hexDigit (c.toNat / 16), hexDigit (c.toNat % 16)]
    else [c]

/-- A text between quotes. -/
def quoted (s : String) : String := "\"" ++ String.ofList (s.toList.flatMap escape) ++ "\""

/-- A line break, and the spaces that the next line begins with. -/
def lineBreak (depth : Nat) : String := "\n" ++ String.ofList (List.replicate (2 * depth) ' ')

mutual

/-- The text of a value whose first line stands `depth` levels in. -/
def render (depth : Nat) : Json → String
  | null => "null"
  | flag b => if b then "true" else "false"
  | count n => toString n
  | text s => quoted s
  | list [] => "[]"
  | list (item :: rest) =>
    "[" ++ lineBreak (depth + 1) ++ render (depth + 1) item ++ renderItems (depth + 1) rest ++
      lineBreak depth ++ "]"
  | record [] => "\x7b\x7d"
  | record (field :: rest) =>
    "\x7b" ++ lineBreak (depth + 1) ++ renderField (depth + 1) field ++
      renderFields (depth + 1) rest ++ lineBreak depth ++ "\x7d"

/-- The items after the first one. -/
def renderItems (depth : Nat) : List Json → String
  | [] => ""
  | item :: rest => "," ++ lineBreak depth ++ render depth item ++ renderItems depth rest

/-- A field. -/
def renderField (depth : Nat) : String × Json → String
  | (name, value) => quoted name ++ ": " ++ render depth value

/-- The fields after the first one. -/
def renderFields (depth : Nat) : List (String × Json) → String
  | [] => ""
  | field :: rest => "," ++ lineBreak depth ++ renderField depth field ++ renderFields depth rest

end

/-- A list of texts. -/
def texts (items : List String) : Json := list (items.map text)

/-- A text that may be absent. -/
def text? : Option String → Json
  | some s => text s
  | none => null

end Json

end Componentry.Command

namespace Componentry

open Command (Json)

def Attributes.toJson (a : Attributes) : Json := .record (a.entries.map fun e => (e.1, .text e.2))

def ModuleId.toJson (id : ModuleId) : Json :=
  .record [("group", .text id.group), ("name", .text id.name)]

/-- A component; its kind comes first. -/
def ComponentId.toJson : ComponentId → Json
  | module id =>
    .record [("kind", .text "module"), ("module", id.toModuleId.toJson),
      ("version", .text id.version)]
  | project path => .record [("kind", .text "project"), ("path", .text path)]
  | file displayName =>
    .record [("kind", .text "opaque"), ("display_name", .text displayName)]

def ArtifactId.toJson (id : ArtifactId) : Json :=
  .record [("component", id.component.toJson), ("name", .text id.name)]

end Componentry
