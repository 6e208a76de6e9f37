import Componentry.Text.Separated

/-!
# Path texts

Paths are texts whose parts stand between slashes; nothing here looks at a disk. `components` reads
a path as segments: a leading slash is the root, a leading `.` is kept, and all other empty parts
and `.` parts stand for nothing. `fileName` is the last segment if it is a proper name; `stem` and
`extension` split it at its last dot, which does not count when it is the first character.

`join` puts one path under another, and `withFileName` replaces the last segment, keeping the text
before it as it is written.
-/

namespace Componentry

/-- A path, as text. -/
abbrev Path := String

/-- One step of a path. -/
inductive Segment where
  | root
  | here
  | up
  | name (text : String)
  deriving DecidableEq, Repr

namespace Path

/-- Parts that stand for nothing, unless they come first: empty ones and `.`. -/
def isVoid (part : List Char) : Bool := part == [] || part == ['.']

/-- The segment that a part stands for. -/
def segment (part : List Char) : Segment :=
  if part = ['.', '.'] then .up else .name (String.ofList part)

/-- What the first part of a path stands for, `rest` being the other parts. -/
def firstSegment (part : List Char) (rest : List (List Char)) : List Segment :=
  if part = [] then (if rest = [] then [] else [.root])
  else if part = ['.'] then [.here]
  else [segment part]

/-- The segments of a path. -/
def components (p : Path) : List Segment :=
  match Text.split '/' p.toList with
  | [] => []
  | first :: rest => firstSegment first rest ++ (rest.filter fun part => !isVoid part).map segment

/-- The last segment, if it is a proper name. -/
def fileName (p : Path) : Option String :=
  match p.components.getLast? with
  | some (.name text) => some text
  | _ => none

/-- What stands before and after the last dot. -/
def lastDot : List Char → Option (List Char × List Char)
  | [] => none
  | c :: rest =>
    match lastDot rest with
    | some (before, after) => some (c :: before, after)
    | none => if c = '.' then some ([], rest) else none

/-- A file name cut at its last dot: stem and extension. -/
def splitName (name : String) : String × Option String :=
  match lastDot name.toList with
  | some (c :: before, after) => (String.ofList (c :: before), some (String.ofList after))
  | _ => (name, none)

/-- The file name without its extension. -/
def stem (p : Path) : Option String := p.fileName.map fun name => (splitName name).1

/-- What follows the last dot of the file name. -/
def extension (p : Path) : Option String := p.fileName.bind fun name => (splitName name).2

/-- `p` under `base`: an absolute `p` stands alone, otherwise one slash separates the two. -/
def join (base p : Path) : Path :=
  if p.toList.head? = some '/' then p
  else if base.toList.getLast?.getD '/' = '/' then base ++ p
  else base ++ "/" ++ p

/-- Drop the parts at the end that stand for nothing. -/
def dropVoidEnd (parts : List (List Char)) : List (List Char) :=
  (parts.reverse.dropWhile isVoid).reverse

/-- The path without its last segment, as it is written. -/
def parent (p : Path) : Option Path :=
  match Text.split '/' p.toList with
  | [] => none
  | first :: rest =>
    match dropVoidEnd rest with
    | [] => if first = [] then none else some ""
    | last :: others =>
      match dropVoidEnd (last :: others).dropLast with
      | [] => some (if first = [] then "/" else String.ofList first)
      | kept => some (String.ofList (Text.glue '/' (first :: kept)))

/-- The path with its file name replaced by `name`; `name` comes under a path without one. -/
def withFileName (p : Path) (name : String) : Path :=
  match p.fileName with
  | some _ => join (p.parent.getD "") name
  | none => join p name

end Path

end Componentry
