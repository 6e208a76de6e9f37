import Componentry.Failure
import Componentry.Text.Separated

/-!
# Identities of modules, components and artifacts

* `ModuleId` is `group:name`, `ModuleVersionId` is `group:name:version`.
* `ComponentId` is a published module, a project of the build, or a plain file that is known by its
  display name only.
* `ArtifactId` is one artifact of a component.
* `Coordinates` is what a project currently publishes as.

The `parse` functions read what the `display` functions write. Identities are ordered: published
modules, then projects, then files, each by their texts in code point order.
-/

namespace Componentry

/-- `group:name` of a module. -/
structure ModuleId where
  group : String
  name : String
  deriving DecidableEq, Repr, Inhabited

/-- `group:name:version` of a module. -/
structure ModuleVersionId extends ModuleId where
  version : String
  deriving DecidableEq, Repr, Inhabited

/-- A node of a dependency graph. -/
inductive ComponentId where
  /-- A published module. -/
  | module (id : ModuleVersionId)
  /-- A project of the build. -/
  | project (path : String)
  /-- A plain file, known by its display name. -/
  | file (displayName : String)
  deriving DecidableEq, Repr, Inhabited

/-- An artifact of a component. -/
structure ArtifactId where
  component : ComponentId
  name : String
  deriving DecidableEq, Repr, Inhabited

/-- The status of a module that declares none. -/
def defaultStatus : String := "integration"

/-- What a project publishes as: module coordinates, status, and its path in the build if it is
resolved inside one. -/
structure Coordinates where
  group : String
  name : String
  version : String
  projectPath : Option String := none
  status : String := defaultStatus
  deriving DecidableEq, Repr, Inhabited

/-! ## Order -/

instance : KeyOrder ModuleId where
  lt a b := a.group < b.group ∨ a.group = b.group ∧ a.name < b.name
  decLt _ _ := inferInstanceAs (Decidable (_ ∨ _))
  irrefl a h := by
    rcases h with h | h
    · exact String.lt_irrefl _ h
    · exact String.lt_irrefl _ h.2
  trans {a b c} hab hbc := by
    rcases hab with hab | ⟨eab, hab⟩
    · rcases hbc with hbc | ⟨ebc, _⟩
      · exact Or.inl (String.lt_trans hab hbc)
      · exact Or.inl (ebc ▸ hab)
    · rcases hbc with hbc | ⟨ebc, hbc⟩
      · exact Or.inl (eab ▸ hbc)
      · exact Or.inr ⟨eab.trans ebc, String.lt_trans hab hbc⟩
  eq_of_not_lt {a b} hab hba := by
    have hg : a.group = b.group := KeyOrder.eq_of_not_lt (fun h => hab (Or.inl h))
      (fun h => hba (Or.inl h))
    have hn : a.name = b.name := KeyOrder.eq_of_not_lt (fun h => hab (Or.inr ⟨hg, h⟩))
      (fun h => hba (Or.inr ⟨hg.symm, h⟩))
    cases a; cases b; simp_all

/-- The rank of a component's kind, and the texts that tell components of one kind apart. -/
def ComponentId.sortKey : ComponentId → Nat × List String
  | module id => (0, [id.group, id.name, id.version])
  | project path => (1, [path])
  | file displayName => (2, [displayName])

/-- Artifacts are ordered by component, then by name. -/
def ArtifactId.order (a b : ArtifactId) : Ordering :=
  ((compare a.component.sortKey.1 b.component.sortKey.1).then
    (List.compareLex compare a.component.sortKey.2 b.component.sortKey.2)).then
    (compare a.name b.name)

/-- The distinct artifacts of a list, in order. -/
def ArtifactId.sorted (artifacts : List ArtifactId) : List ArtifactId :=
  (artifacts.mergeSort fun a b => (a.order b).isLE).eraseReps

/-! ## Display -/

def ModuleId.display (id : ModuleId) : String := id.group ++ ":" ++ id.name

def ModuleVersionId.display (id : ModuleVersionId) : String :=
  id.toModuleId.display ++ ":" ++ id.version

def ComponentId.display : ComponentId → String
  | module id => id.display
  | project path => "project " ++ path
  | file displayName => displayName

/-- The name of an artifact, with its component unless that is a plain file. -/
def ArtifactId.display (id : ArtifactId) : String :=
  match id.component with
  | .file _ => id.name
  | component => id.name ++ " (" ++ component.display ++ ")"

/-- Whether a component is a project of the build. -/
def ComponentId.isProject : ComponentId → Bool
  | project _ => true
  | _ => false

/-- The module that a component is published as. -/
def ComponentId.moduleVersion? : ComponentId → Option ModuleVersionId
  | module id => some id
  | _ => none

/-! ## Reading -/

/-- Two parts, neither empty and neither holding a colon. -/
def ModuleId.parse (text : String) : Except Failure ModuleId :=
  match Text.splitOn ':' text with
  | [group, name] =>
    if group ≠ "" ∧ name ≠ "" then .ok ⟨group, name⟩
    else .error (.invalidModule text "expected 'group:name'")
  | _ => .error (.invalidModule text "expected 'group:name'")

/-- Three parts, none empty and none holding a colon. -/
def ModuleVersionId.parse (text : String) : Except Failure ModuleVersionId :=
  match Text.splitOn ':' text with
  | [group, name, version] =>
    if group ≠ "" ∧ name ≠ "" ∧ version ≠ "" then .ok ⟨⟨group, name⟩, version⟩
    else .error (.invalidModule text "expected 'group:name:version'")
  | _ => .error (.invalidModule text "expected 'group:name:version'")

/-- A project path is a colon followed by parts with single colons between them, none empty; a text
without a leading colon is a module version. -/
def ComponentId.parse (text : String) : Except Failure ComponentId :=
  match Text.splitOn ':' text with
  | "" :: parts =>
    if parts = [] then ComponentId.module <$> ModuleVersionId.parse text
    else if "" ∈ parts then
      .error (.invalidModule text "project paths look like ':app' or ':libs:core'")
    else .ok (.project text)
  | _ => ComponentId.module <$> ModuleVersionId.parse text

/-! ## Coordinates -/

namespace Coordinates

/-- `group:name:version` of the module. -/
def id (c : Coordinates) : ModuleVersionId := ⟨⟨c.group, c.name⟩, c.version⟩

/-- What the module is in a dependency graph: the project, if it has a path, else the module. -/
def componentId (c : Coordinates) : ComponentId :=
  match c.projectPath with
  | some path => .project path
  | none => .module c.id

end Coordinates

end Componentry
