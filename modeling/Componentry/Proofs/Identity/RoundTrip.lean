import Componentry.Proofs.Identity.Notation

/-!
# Notations are read as they are written

Each reader accepts the texts of its grammar and no others, and a text that it refuses is named in
the failure. What is read is displayed as the text it was read from, so a text stands for one thing
only.

* `Recognizes`: a reader accepts exactly the texts of a grammar.
* `Inverts`: a reader and a display undo each other.
* `IsComponent`: the texts of components.

Results:
* `isProjectPath_iff_colons`: where the colons of a project path are.
* `Dependency.text_of_parse`, `Dependency.exists_project_iff`: what the text of a dependency says of
  it.
* **`notations_exact`**: all of this for modules, module versions, components and dependencies.
-/

namespace Componentry

/-! ## The colons of project paths -/

/-- The first piece is empty if the text is, or begins with a separator. -/
theorem Text.head_split_eq_nil_iff (sep : Char) (cs : List Char) :
    (split sep cs).head? = some [] ↔ cs = [] ∨ cs.head? = some sep := by
  cases cs with
  | nil => simp [split]
  | cons c rest =>
    rw [split]
    split
    · rename_i hc
      simp [hc]
    · rename_i hc
      cases split sep rest <;> simp [hc]

/-- A piece after the first one is empty if the text ends with a separator, or has two in a row. -/
theorem Text.nil_mem_tail_split_iff (sep : Char) : ∀ cs : List Char,
    [] ∈ (split sep cs).tail ↔ cs.getLast? = some sep ∨ [sep, sep] <:+: cs
  | [] => by simp [split]
  | c :: rest => by
    have ih := nil_mem_tail_split_iff sep rest
    have hhead := head_split_eq_nil_iff sep rest
    have hlast : (c :: rest).getLast? = some sep ↔
        rest = [] ∧ c = sep ∨ rest.getLast? = some sep := by
      cases rest with
      | nil => simp
      | cons next others => simp [List.getLast?_cons_cons]
    have hpair : [sep, sep] <:+: c :: rest ↔
        c = sep ∧ rest.head? = some sep ∨ [sep, sep] <:+: rest := by
      cases rest with
      | nil => simp [List.infix_cons_iff]
      | cons next others => simp [List.infix_cons_iff, List.cons_prefix_cons, eq_comm]
    rw [hlast, hpair, split]
    cases hs : split sep rest with
    | nil => exact absurd hs (split_ne_nil sep rest)
    | cons piece pieces =>
      rw [hs] at ih hhead
      simp only [List.tail_cons, List.head?_cons, Option.some.injEq] at ih hhead
      split
      · rename_i hc
        rw [List.tail_cons, List.mem_cons, eq_comm (a := []), ih, hhead]
        simp only [hc, true_and, and_true]
        exact or_or_or_comm
      · rename_i hc
        simp only [List.tail_cons, ih, hc, false_and, and_false, false_or]

/-- **A project path by its colons**: it begins with one, does not end with one, and has no two in a
row. -/
theorem isProjectPath_iff_colons {text : String} :
    IsProjectPath text ↔ text.toList.head? = some ':' ∧ text.toList.getLast? ≠ some ':' ∧
      ¬ [':', ':'] <:+: text.toList := by
  have hhead := Text.head_split_eq_nil_iff ':' text.toList
  have htail := Text.nil_mem_tail_split_iff ':' text.toList
  rw [isProjectPath_iff, ← not_or, ← htail, Text.splitOn]
  match hs : Text.split ':' text.toList with
  | [] => exact absurd hs (Text.split_ne_nil ':' text.toList)
  | first :: pieces =>
    rw [hs, List.head?_cons, Option.some.injEq] at hhead
    rw [List.tail_cons, List.map_cons]
    -- without a piece after the first one the text is the first piece
    have hnone : pieces = [] → text.toList = first := by
      rintro rfl
      exact (Text.glue_split ':' text.toList).symm.trans (congrArg (Text.glue ':') hs)
    have hempty : "" ∈ pieces.map String.ofList ↔ [] ∈ pieces := by
      simp [List.mem_map, String.ofList_eq_empty_iff]
    constructor
    · rintro ⟨parts, hparts, hne, hnot⟩
      obtain ⟨hfirst, rfl⟩ := List.cons.inj hparts
      refine ⟨(hhead.mp (String.ofList_eq_empty_iff.mp hfirst)).resolve_left fun hnil => ?_,
        mt hempty.mpr hnot⟩
      rw [hnil, Text.split] at hs
      exact hne (by rw [← (List.cons.inj hs).2, List.map_nil])
    · rintro ⟨hcolon, hnot⟩
      have hfirst : first = [] := hhead.mpr (.inr hcolon)
      refine ⟨pieces.map String.ofList, by rw [hfirst], fun hnil => ?_, mt hempty.mp hnot⟩
      rw [hnone (List.map_eq_nil_iff.mp hnil), hfirst] at hcolon
      cases hcolon

/-! ## Components and dependencies -/

/-- The text of a component. -/
def IsComponent (text : String) : Prop := IsModuleVersion text ∨ IsProjectPath text

/-- A text that is no component is refused as such. -/
theorem ComponentId.parse_error {text : String} {failure : Failure}
    (h : parse text = .error failure) : ∃ reason, failure = .invalidModule text reason := by
  have hmodule : (ComponentId.module <$> ModuleVersionId.parse text) = .error failure →
      ∃ reason, failure = .invalidModule text reason := by
    intro hmap
    cases hparse : ModuleVersionId.parse text with
    | ok id =>
      rw [hparse] at hmap
      cases hmap
    | error found =>
      rw [hparse] at hmap
      exact ⟨_, Except.error.inj hmap ▸ ModuleVersionId.parse_error hparse⟩
  unfold parse at h
  split at h
  · split at h
    · exact hmodule h
    · split at h
      · exact ⟨_, (Except.error.inj h).symm⟩
      · cases h
  · exact hmodule h

namespace Dependency

variable {text : String} {d : Dependency}

theorem parse_error {failure : Failure} (h : parse text = .error failure) :
    ∃ reason, failure = .invalidModule text reason := by
  unfold parse at h
  cases hparse : ComponentId.parse text with
  | error found =>
    rw [hparse] at h
    exact Except.error.inj h ▸ ComponentId.parse_error hparse
  | ok id =>
    rw [hparse] at h
    cases h

theorem exists_parse_iff :
    (∃ d, parse text = .ok d) ↔ ∃ id, ComponentId.parse text = .ok id := by
  constructor
  · rintro ⟨d, hd⟩
    obtain ⟨id, hid, -⟩ := parse_eq_ok hd
    exact ⟨id, hid⟩
  · rintro ⟨id, hid⟩
    exact ⟨onComponent id, parse_eq_ok_iff.mpr hid⟩

theorem attributes_of_parse (h : parse text = .ok d) : d.attributes = Dict.empty := by
  obtain ⟨id, -, rfl⟩ := parse_eq_ok h
  cases id <;> rfl

/-- The text that addresses a dependency is the one it was read from. -/
theorem text_of_parse (h : parse text = .ok d) : d.text = text := by
  obtain ⟨id, hid, rfl⟩ := parse_eq_ok h
  cases id with
  | module id =>
    exact (ModuleVersionId.parse_eq_ok_iff.mp (ComponentId.parse_eq_module_iff.mp hid)).2.symm
  | project path => exact (ComponentId.parse_eq_project_iff.mp hid).1
  | file name => exact absurd hid ComponentId.parse_ne_file

/-- The first character says whether a dependency is on a project. -/
theorem exists_project_iff (h : parse text = .ok d) :
    (∃ path, d.target = .project path) ↔ text.toList.head? = some ':' := by
  obtain ⟨id, hid, rfl⟩ := parse_eq_ok h
  cases id with
  | module id =>
    have hversion := ModuleVersionId.exists_parse_iff.mp
      ⟨id, ComponentId.parse_eq_module_iff.mp hid⟩
    exact ⟨nofun, fun hcolon => absurd hcolon hversion.head_ne⟩
  | project path =>
    exact ⟨fun _ => (ComponentId.parse_eq_project_iff.mp hid).2.head_eq, fun _ => ⟨path, rfl⟩⟩
  | file name => exact absurd hid ComponentId.parse_ne_file

end Dependency

/-! ## Readers -/

section Readers

variable {α : Type}

/-- **A reader accepts exactly the texts of a grammar**, and names every other text in its
failure. -/
def Recognizes (read : String → Except Failure α) (grammar : String → Prop) : Prop :=
  ∀ text, (grammar text → ∃ a, read text = .ok a) ∧
    (¬ grammar text → ∃ reason, read text = .error (.invalidModule text reason))

/-- **A reader and a display undo each other**, where what is displayed is well-formed. -/
def Inverts (read : String → Except Failure α) (display : α → String) (wellFormed : α → Prop) :
    Prop :=
  ∀ text a, read text = .ok a ↔ wellFormed a ∧ display a = text

theorem recognizes_of {read : String → Except Failure α} {grammar : String → Prop}
    (hok : ∀ text, (∃ a, read text = .ok a) ↔ grammar text)
    (herror : ∀ text failure, read text = .error failure →
      ∃ reason, failure = .invalidModule text reason) :
    Recognizes read grammar := by
  refine fun text => ⟨(hok text).mpr, fun hnot => ?_⟩
  cases hread : read text with
  | ok a => exact absurd ((hok text).mp ⟨a, hread⟩) hnot
  | error failure =>
    obtain ⟨reason, rfl⟩ := herror text failure hread
    exact ⟨reason, rfl⟩

end Readers

/-- **Notations are read as they are written.** Each of the four readers accepts exactly its grammar
and names every other text. Modules and module versions with proper parts are read from their
display and displayed as they were read. A component is read as the module version of the text, or
as the project at it, whichever of the two the text can be. A dependency without attributes is read
from the text of its component, which addresses it; the first character says whether it is on a
project, and one text is never that of two targets. -/
theorem notations_exact :
    Recognizes ModuleId.parse IsModule ∧ Recognizes ModuleVersionId.parse IsModuleVersion ∧
    Recognizes ComponentId.parse IsComponent ∧ Recognizes Dependency.parse IsComponent ∧
    Inverts ModuleId.parse ModuleId.display (fun id => IsPart id.group ∧ IsPart id.name) ∧
    Inverts ModuleVersionId.parse ModuleVersionId.display
      (fun id => IsPart id.group ∧ IsPart id.name ∧ IsPart id.version) ∧
    (∀ text id, ComponentId.parse text = .ok id ↔
      (∃ module, ModuleVersionId.parse text = .ok module ∧ id = .module module) ∨
        IsProjectPath text ∧ id = .project text) ∧
    (∀ text, IsProjectPath text ↔ text.toList.head? = some ':' ∧ text.toList.getLast? ≠ some ':' ∧
      ¬ [':', ':'] <:+: text.toList) ∧
    (∀ text d, Dependency.parse text = .ok d → d.attributes = Dict.empty ∧ d.text = text ∧
      ((∃ path, d.target = .project path) ↔ text.toList.head? = some ':')) ∧
    (∀ text other d e, Dependency.parse text = .ok d → Dependency.parse other = .ok e →
      d.text = e.text → d.target = e.target) := by
  have hcomponent : ∀ text, (∃ id, ComponentId.parse text = .ok id) ↔ IsComponent text :=
    fun text => ComponentId.exists_parse_iff.trans or_comm
  refine ⟨recognizes_of (fun _ => ModuleId.exists_parse_iff) fun _ _ h =>
      ⟨_, ModuleId.parse_error h⟩,
    recognizes_of (fun _ => ModuleVersionId.exists_parse_iff) fun _ _ h =>
      ⟨_, ModuleVersionId.parse_error h⟩,
    recognizes_of hcomponent fun _ _ => ComponentId.parse_error,
    recognizes_of (fun text => Dependency.exists_parse_iff.trans (hcomponent text)) fun _ _ =>
      Dependency.parse_error,
    fun text id => ModuleId.parse_eq_ok_iff.trans (and_congr_right' eq_comm),
    fun text id => ModuleVersionId.parse_eq_ok_iff.trans (and_congr_right' eq_comm),
    fun text id => ?_, fun _ => isProjectPath_iff_colons, fun text d h =>
      ⟨Dependency.attributes_of_parse h, Dependency.text_of_parse h,
        Dependency.exists_project_iff h⟩,
    fun text other d e hd he htext => ?_⟩
  · cases id with
    | module id => simp [ComponentId.parse_eq_module_iff]
    | project path => simp [ComponentId.parse_eq_project_iff, and_comm]
    | file name => simp [ComponentId.parse_ne_file]
  · rw [Dependency.text_of_parse hd, Dependency.text_of_parse he] at htext
    subst htext
    rw [Except.ok.inj (hd.symm.trans he)]

end Componentry
