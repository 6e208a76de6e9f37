import Componentry.Proofs.Identity.Notation
import Componentry.Proofs.Workspace.RootTranslation

/-!
# The path of the project

A descriptor may give the project a path, and the root is then known by this path as it is written.
What is asked of it is only that it is the text of a component, and module versions are such texts
as well. So the root of an accepted descriptor may be known by a text that denotes something else:
the external module of these coordinates.

Results:
* **`own_path_read`**: what the path of an accepted descriptor is, and when it denotes the root.
* `own_path_of_module`: a descriptor whose path does not.
-/

namespace Componentry.Descriptor

variable {d : Descriptor} {base : Path} {w : Workspace} {path : String}

/-- The path of an accepted project is the text of a component. -/
theorem parse_own_path (h : (Workspace.assemble d base).outcome = .ok w)
    (hpath : d.project.path = some path) : ∃ id, ComponentId.parse path = .ok id := by
  obtain ⟨identity, -, hidentity, -, -⟩ := session_of_assemble h
  unfold ProjectSection.coordinates at hidentity
  simp only [hpath] at hidentity
  cases hparse : ComponentId.parse path with
  | ok id => exact ⟨id, rfl⟩
  | error failure =>
    rw [hparse] at hidentity
    cases hidentity

/-- The root is known by the path of the project. -/
theorem root_at_path (h : (Workspace.assemble d base).outcome = .ok w)
    (hpath : d.project.path = some path) : ∃ snapshot, (w.session.read 0).1 = .ok snapshot ∧
      snapshot.metadata.componentId = .project path := by
  obtain ⟨snapshot, hread, hroot⟩ := first_read h
  refine ⟨snapshot, hread, ?_⟩
  rw [hroot.componentId, seen_project, hpath]

/-- **What the path of an accepted project is.** It is a project path or a module version, and the
root is known by it. If it begins with a colon, and only then, it is a project path, the text
denotes the root, and as a dependency it is one on the project. Otherwise it denotes an external
module. -/
theorem own_path_read (h : (Workspace.assemble d base).outcome = .ok w)
    (hpath : d.project.path = some path) :
    ∃ snapshot, (w.session.read 0).1 = .ok snapshot ∧
      snapshot.metadata.componentId = .project path ∧
      (IsProjectPath path ∨ IsModuleVersion path) ∧
      [path.toList.head? = some ':', IsProjectPath path,
        ComponentId.parse path = .ok snapshot.metadata.componentId,
        Dependency.parse path = .ok ⟨.project path, Dict.empty⟩].TFAE ∧
      (¬ IsProjectPath path → ∃ id : ModuleVersionId, id.display = path ∧
        ComponentId.parse path = .ok (.module id) ∧
        Dependency.parse path = .ok ⟨.module id, Dict.empty⟩) := by
  obtain ⟨snapshot, hread, hroot⟩ := root_at_path h hpath
  obtain ⟨found, hfound⟩ := parse_own_path h hpath
  have hgrammar := ComponentId.exists_parse_iff.mp ⟨found, hfound⟩
  refine ⟨snapshot, hread, hroot, hgrammar, ?_, fun hnot => ?_⟩
  · rw [hroot]
    exact projectPath_tfae hfound
  · obtain ⟨id, hid⟩ := ModuleVersionId.exists_parse_iff.mpr (hgrammar.resolve_left hnot)
    have hcomponent := ComponentId.parse_eq_module_iff.mpr hid
    exact ⟨id, (ModuleVersionId.parse_eq_ok_iff.mp hid).2.symm, hcomponent,
      Dependency.parse_eq_ok_iff.mpr hcomponent⟩

/-- A project at a path, and nothing else. -/
def projectAt (path : String) : Descriptor where
  project := { group := "org.example", name := "app", version := "1.0", path := some path }

/-- A path with a colon in front of each part denotes the root. -/
theorem own_path_read_nested :
    ∃ w snapshot, (Workspace.assemble (projectAt ":libs:core") "/work").outcome = .ok w ∧
      (w.session.read 0).1 = .ok snapshot ∧ IsProjectPath ":libs:core" ∧
      ComponentId.parse ":libs:core" = .ok snapshot.metadata.componentId := by
  obtain ⟨w, hw⟩ : ∃ w, (Workspace.assemble (projectAt ":libs:core") "/work").outcome = .ok w :=
    ⟨_, rfl⟩
  obtain ⟨snapshot, hread, -, -, hpath, -⟩ := own_path_read hw rfl
  have hcolon : ":libs:core".toList.head? = some ':' := rfl
  exact ⟨w, snapshot, hw, hread, (hpath.out 0 1).mp hcolon, (hpath.out 0 2).mp hcolon⟩

/-- **A module version is accepted as the path of the project**, and denotes another component than
the root. -/
theorem own_path_of_module :
    ∃ w snapshot, (Workspace.assemble (projectAt "org.example:app:1.0") "/work").outcome = .ok w ∧
      (w.session.read 0).1 = .ok snapshot ∧
      snapshot.metadata.componentId = .project "org.example:app:1.0" ∧
      ¬ IsProjectPath "org.example:app:1.0" ∧
      ComponentId.parse "org.example:app:1.0" = .ok (.module ⟨⟨"org.example", "app"⟩, "1.0"⟩) ∧
      Dependency.parse "org.example:app:1.0" =
        .ok ⟨.module ⟨⟨"org.example", "app"⟩, "1.0"⟩, Dict.empty⟩ :=
  ⟨_, _, rfl, rfl, rfl, fun h => absurd h.head_eq (by decide), rfl, rfl⟩

end Componentry.Descriptor
