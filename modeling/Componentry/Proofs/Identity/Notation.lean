import Componentry.Configuration
import Mathlib.Tactic.TFAE

/-!
# The notations of modules and projects

A notation is put together from parts, which are texts that are not empty and hold no colon. A
module is two parts and a module version three, with a colon between each two. A project path is one
part or more, with a colon in front of each. So the first character says which of the last two a
text can be, and no text is both.

* `IsPart`, `IsModule`, `IsModuleVersion`, `IsProjectPath`: the grammar, said without the readers.

Results:
* `ModuleId.parse_eq_ok_iff`, `ModuleVersionId.parse_eq_ok_iff`: modules and module versions are
  read as what displays as the text.
* `ComponentId.parse_eq_project_iff`, `ComponentId.parse_eq_module_iff`: components are read from
  the texts of both grammars, and from no others.
* **`projectPath_tfae`**: what it means for a text to be a project path, if it is the text of a
  component at all.
-/

namespace Componentry

/-! ## The grammar -/

/-- A part of a notation. -/
def IsPart (text : String) : Prop := text ≠ "" ∧ ':' ∉ text.toList

instance (text : String) : Decidable (IsPart text) := inferInstanceAs (Decidable (_ ∧ _))

/-- Two parts with a colon between them. -/
def IsModule (text : String) : Prop :=
  ∃ group name, IsPart group ∧ IsPart name ∧ text = group ++ ":" ++ name

/-- Three parts with colons between them. -/
def IsModuleVersion (text : String) : Prop :=
  ∃ group name version, IsPart group ∧ IsPart name ∧ IsPart version ∧
    text = group ++ ":" ++ name ++ ":" ++ version

/-- A colon, and then parts with single colons between them. -/
def IsProjectPath (text : String) : Prop :=
  ∃ parts : List String, parts ≠ [] ∧ (∀ part ∈ parts, IsPart part) ∧
    text = ":" ++ ":".intercalate parts

/-! ## Modules -/

/-- A module is read from two pieces, none of them empty. -/
theorem ModuleId.parse_eq_ok_iff_splitOn {text : String} {id : ModuleId} :
    parse text = .ok id ↔
      Text.splitOn ':' text = [id.group, id.name] ∧ id.group ≠ "" ∧ id.name ≠ "" := by
  unfold parse
  constructor
  · intro h
    split at h
    · rename_i hsplit
      split at h
      · rename_i hne
        obtain rfl := Except.ok.inj h
        exact ⟨hsplit, hne⟩
      · cases h
    · cases h
  · rintro ⟨hsplit, hne⟩
    rw [hsplit]
    exact if_pos hne

/-- **A module is read from its own display.** -/
theorem ModuleId.parse_eq_ok_iff {text : String} {id : ModuleId} :
    parse text = .ok id ↔ (IsPart id.group ∧ IsPart id.name) ∧ text = id.display := by
  have hdisplay : ":".intercalate [id.group, id.name] = id.display := by
    simp [display, String.append_assoc]
  rw [parse_eq_ok_iff_splitOn, Text.splitOn_eq_iff, ← hdisplay]
  simp only [List.forall_mem_cons, IsPart]
  constructor
  · rintro ⟨⟨-, ⟨hgroup, hname, -⟩, htext⟩, hne⟩
    exact ⟨⟨⟨hne.1, hgroup⟩, hne.2, hname⟩, htext⟩
  · rintro ⟨⟨hgroup, hname⟩, htext⟩
    exact ⟨⟨by simp, ⟨hgroup.2, hname.2, by simp⟩, htext⟩, hgroup.1, hname.1⟩

theorem ModuleId.exists_parse_iff {text : String} :
    (∃ id, parse text = .ok id) ↔ IsModule text := by
  constructor
  · rintro ⟨id, hid⟩
    obtain ⟨⟨hgroup, hname⟩, rfl⟩ := parse_eq_ok_iff.mp hid
    exact ⟨id.group, id.name, hgroup, hname, rfl⟩
  · rintro ⟨group, name, hgroup, hname, rfl⟩
    exact ⟨⟨group, name⟩, parse_eq_ok_iff.mpr ⟨⟨hgroup, hname⟩, rfl⟩⟩

/-- A module is displayed as it was written. -/
theorem ModuleId.display_of_parse {text : String} {id : ModuleId} (h : parse text = .ok id) :
    id.display = text :=
  (parse_eq_ok_iff.mp h).2.symm

/-- A text that is not `group:name` is refused as such. -/
theorem ModuleId.parse_error {text : String} {failure : Failure} (h : parse text = .error failure) :
    failure = .invalidModule text "expected 'group:name'" := by
  unfold parse at h
  split at h
  · split at h
    · cases h
    · exact (Except.error.inj h).symm
  · exact (Except.error.inj h).symm

/-! ## Module versions -/

/-- A module version is read from three pieces, none of them empty. -/
theorem ModuleVersionId.parse_eq_ok_iff_splitOn {text : String} {id : ModuleVersionId} :
    parse text = .ok id ↔ Text.splitOn ':' text = [id.group, id.name, id.version] ∧
      id.group ≠ "" ∧ id.name ≠ "" ∧ id.version ≠ "" := by
  unfold parse
  constructor
  · intro h
    split at h
    · rename_i hsplit
      split at h
      · rename_i hne
        obtain rfl := Except.ok.inj h
        exact ⟨hsplit, hne⟩
      · cases h
    · cases h
  · rintro ⟨hsplit, hne⟩
    rw [hsplit]
    exact if_pos hne

/-- **A module version is read from its own display.** -/
theorem ModuleVersionId.parse_eq_ok_iff {text : String} {id : ModuleVersionId} :
    parse text = .ok id ↔
      (IsPart id.group ∧ IsPart id.name ∧ IsPart id.version) ∧ text = id.display := by
  have hdisplay : ":".intercalate [id.group, id.name, id.version] = id.display := by
    simp [display, ModuleId.display, String.append_assoc]
  rw [parse_eq_ok_iff_splitOn, Text.splitOn_eq_iff, ← hdisplay]
  simp only [List.forall_mem_cons, IsPart]
  constructor
  · rintro ⟨⟨-, ⟨hgroup, hname, hversion, -⟩, htext⟩, hne⟩
    exact ⟨⟨⟨hne.1, hgroup⟩, ⟨hne.2.1, hname⟩, hne.2.2, hversion⟩, htext⟩
  · rintro ⟨⟨hgroup, hname, hversion⟩, htext⟩
    exact ⟨⟨by simp, ⟨hgroup.2, hname.2, hversion.2, by simp⟩, htext⟩,
      hgroup.1, hname.1, hversion.1⟩

theorem ModuleVersionId.exists_parse_iff {text : String} :
    (∃ id, parse text = .ok id) ↔ IsModuleVersion text := by
  constructor
  · rintro ⟨id, hid⟩
    obtain ⟨⟨hgroup, hname, hversion⟩, rfl⟩ := parse_eq_ok_iff.mp hid
    exact ⟨id.group, id.name, id.version, hgroup, hname, hversion, rfl⟩
  · rintro ⟨group, name, version, hgroup, hname, hversion, rfl⟩
    exact ⟨⟨⟨group, name⟩, version⟩, parse_eq_ok_iff.mpr ⟨⟨hgroup, hname, hversion⟩, rfl⟩⟩

/-- A text that is not `group:name:version` is refused as such. -/
theorem ModuleVersionId.parse_error {text : String} {failure : Failure}
    (h : parse text = .error failure) :
    failure = .invalidModule text "expected 'group:name:version'" := by
  unfold parse at h
  split at h
  · split at h
    · cases h
    · exact (Except.error.inj h).symm
  · exact (Except.error.inj h).symm

/-- A module version does not begin with a colon. -/
theorem IsModuleVersion.head_ne {text : String} (h : IsModuleVersion text) :
    text.toList.head? ≠ some ':' := by
  obtain ⟨group, name, version, ⟨hne, hcolon⟩, -, -, rfl⟩ := h
  obtain ⟨c, rest, hgroup⟩ := List.exists_cons_of_ne_nil (mt String.toList_eq_nil_iff.mp hne)
  rw [hgroup] at hcolon
  simp only [String.toList_append, hgroup, List.cons_append, List.head?_cons]
  rintro hc
  exact hcolon (Option.some.inj hc ▸ List.mem_cons_self)

/-! ## Project paths -/

/-- The pieces of a project path: nothing in front of the first colon, and its parts after it. -/
theorem isProjectPath_iff {text : String} :
    IsProjectPath text ↔
      ∃ parts, Text.splitOn ':' text = "" :: parts ∧ parts ≠ [] ∧ "" ∉ parts := by
  constructor
  · rintro ⟨parts, hne, hparts, rfl⟩
    have hempty : "" ∉ parts := fun hmem => (hparts "" hmem).1 rfl
    refine ⟨parts, Text.splitOn_eq_iff.mpr ⟨by simp, ?_, ?_⟩, hne, hempty⟩
    · simpa using fun part hpart => (hparts part hpart).2
    · obtain ⟨part, others, rfl⟩ := List.exists_cons_of_ne_nil hne
      exact (String.intercalate_cons_cons.trans (by simp)).symm
  · rintro ⟨parts, hsplit, hne, hempty⟩
    obtain ⟨-, hparts, rfl⟩ := Text.splitOn_eq_iff.mp hsplit
    refine ⟨parts, hne, fun part hpart => ⟨?_, ?_⟩, ?_⟩
    · rintro rfl
      exact hempty hpart
    · exact hparts part (List.mem_cons_of_mem "" hpart)
    · obtain ⟨part, others, rfl⟩ := List.exists_cons_of_ne_nil hne
      exact String.intercalate_cons_cons.trans (by simp)

theorem IsProjectPath.head_eq {text : String} (h : IsProjectPath text) :
    text.toList.head? = some ':' := by
  obtain ⟨parts, -, -, rfl⟩ := h
  simp

/-! ## Components -/

namespace ComponentId

theorem map_module_eq_ok {x : Except Failure ModuleVersionId} {c : ComponentId} :
    module <$> x = .ok c ↔ ∃ id, x = .ok id ∧ c = .module id := by
  cases x <;> simp [Functor.map, Except.map, eq_comm]

/-- **Projects are read from project paths**, and keep the text. -/
theorem parse_eq_project_iff {text path : String} :
    parse text = .ok (.project path) ↔ path = text ∧ IsProjectPath text := by
  rw [isProjectPath_iff]
  unfold parse
  constructor
  · intro h
    split at h
    · rename_i parts hsplit
      split at h
      · simp [map_module_eq_ok] at h
      · rename_i hne
        split at h
        · cases h
        · rename_i hempty
          obtain rfl := ComponentId.project.inj (Except.ok.inj h)
          exact ⟨rfl, parts, hsplit, hne, hempty⟩
    · simp [map_module_eq_ok] at h
  · rintro ⟨rfl, parts, hsplit, hne, hempty⟩
    rw [hsplit]
    simp only [if_neg hne, if_neg hempty]

/-- **Modules are read from module versions.** -/
theorem parse_eq_module_iff {text : String} {id : ModuleVersionId} :
    parse text = .ok (.module id) ↔ ModuleVersionId.parse text = .ok id := by
  unfold parse
  constructor
  · intro h
    split at h
    · split at h
      · simpa [map_module_eq_ok] using h
      · split at h <;> cases h
    · simpa [map_module_eq_ok] using h
  · intro h
    split
    · rename_i parts hsplit
      obtain ⟨hpieces, hgroup, -⟩ := ModuleVersionId.parse_eq_ok_iff_splitOn.mp h
      rw [hsplit] at hpieces
      exact absurd (List.cons.inj hpieces).1.symm hgroup
    · exact map_module_eq_ok.mpr ⟨id, h, rfl⟩

/-- Files are not read from notations. -/
theorem parse_ne_file {text name : String} : parse text ≠ .ok (.file name) := by
  intro h
  unfold parse at h
  split at h
  · split at h
    · simp [map_module_eq_ok] at h
    · split at h <;> cases h
  · simp [map_module_eq_ok] at h

/-- **Components are read from the texts of both grammars**, and from no others. -/
theorem exists_parse_iff {text : String} :
    (∃ id, parse text = .ok id) ↔ IsProjectPath text ∨ IsModuleVersion text := by
  rw [← ModuleVersionId.exists_parse_iff]
  constructor
  · rintro ⟨id, h⟩
    cases id with
    | module id => exact .inr ⟨id, parse_eq_module_iff.mp h⟩
    | project path => exact .inl (parse_eq_project_iff.mp h).2
    | file name => exact absurd h parse_ne_file
  · rintro (h | ⟨id, h⟩)
    · exact ⟨.project text, parse_eq_project_iff.mpr ⟨rfl, h⟩⟩
    · exact ⟨.module id, parse_eq_module_iff.mpr h⟩

end ComponentId

/-! ## Dependencies -/

/-- A dependency is read from a text exactly as its component is. -/
theorem Dependency.parse_eq_ok_iff {text : String} {c : ComponentId} :
    parse text = .ok (onComponent c) ↔ ComponentId.parse text = .ok c := by
  have hinj {a b : ComponentId} (h : onComponent a = onComponent b) : a = b := by
    cases a <;> cases b <;> simp_all [onComponent]
  unfold parse
  cases ComponentId.parse text with
  | error failure => exact ⟨nofun, nofun⟩
  | ok found =>
    exact ⟨fun h => congrArg _ (hinj (Except.ok.inj h)),
      fun h => congrArg _ (congrArg _ (Except.ok.inj h))⟩

/-- **A dependency that was read** is one on the component of its text. -/
theorem Dependency.parse_eq_ok {text : String} {d : Dependency} (h : parse text = .ok d) :
    ∃ id, ComponentId.parse text = .ok id ∧ d = onComponent id := by
  unfold parse at h
  cases hparse : ComponentId.parse text with
  | error failure =>
    rw [hparse] at h
    cases h
  | ok id =>
    rw [hparse] at h
    exact ⟨id, rfl, (Except.ok.inj h).symm⟩

/-- A dependency on a module is written as the module is displayed. -/
theorem Dependency.parse_module {text : String} {d : Dependency} {id : ModuleVersionId}
    (h : parse text = .ok d) (hd : d.target = .module id) :
    (IsPart id.group ∧ IsPart id.name ∧ IsPart id.version) ∧ text = id.display := by
  obtain ⟨c, hc, rfl⟩ := parse_eq_ok h
  cases c with
  | module found =>
    obtain rfl := DependencyTarget.module.inj hd
    exact ModuleVersionId.parse_eq_ok_iff.mp (ComponentId.parse_eq_module_iff.mp hc)
  | project path => cases hd
  | file name => cases hd

/-- **What it means to be a project path**, for the text of a component: to begin with a colon, to
be read as a project, to be read as a dependency on one. -/
theorem projectPath_tfae {text : String} {id : ComponentId} (h : ComponentId.parse text = .ok id) :
    [text.toList.head? = some ':', IsProjectPath text, ComponentId.parse text = .ok (.project text),
      Dependency.parse text = .ok (.onComponent (.project text))].TFAE := by
  tfae_have 1 → 2 := by
    intro hcolon
    refine (ComponentId.exists_parse_iff.mp ⟨id, h⟩).resolve_right fun hmodule => ?_
    exact hmodule.head_ne hcolon
  tfae_have 2 → 3 := fun hpath => ComponentId.parse_eq_project_iff.mpr ⟨rfl, hpath⟩
  tfae_have 3 → 4 := Dependency.parse_eq_ok_iff.mpr
  tfae_have 4 → 1 := fun hdependency =>
    (ComponentId.parse_eq_project_iff.mp (Dependency.parse_eq_ok_iff.mp hdependency)).2.head_eq
  tfae_finish

end Componentry
