import Componentry.Proofs.Artifact.Direct
import Componentry.Proofs.Identity.Notation
import Componentry.Proofs.Path.Layout
import Componentry.Workspace.Resolution

/-!
# Where a workspace looks for files

Each kind of component has a directory for its files: modules have the repository, projects a
directory under `build` that their path names, and declared files the base directory. The places in
them are put together from texts of the descriptor (`Workspace.layout`), and nothing is asked of
these texts but what the notations ask. So they may be absolute or go up, and then a file is
somewhere else; and as the dash between the name and the version of a module may occur in both, two
modules may have one jar.

* `ModuleVersionId.Overlaps`: the name of a module goes on with what another version begins with.
* `Workspace.Provides`: the files that a dependency is resolved to.

Results:
* `native_eq_layout`: the native file of an artifact is that of its layout.
* **`native_within_iff`**: when it is in the directory of its component; `escaping_files` are not.
* `same_jar_iff`: which modules have one jar name in one group.
* **`module_files_tfae`**: these and no others have one file; `shared_jar` is one.
-/

namespace Componentry

namespace Workspace

variable {w : Workspace} {d : Dependency} {c : ResolvedComponent} {a : Artifact}

/-! ## Layouts -/

/-- The names in the path of a project. -/
def projectNames (path : String) : List Path := (Text.splitOn ':' path).filter (· ≠ "")

/-- **Where the file of an artifact should be.** -/
def layout (w : Workspace) (a : ArtifactId) : Layout :=
  match a.component with
  | .module id => ⟨w.repository, [], [id.group, a.name]⟩
  | .project path => ⟨w.base.join "build", projectNames path ++ ["libs"], [a.name]⟩
  | .file path => ⟨w.base, [], [path]⟩

/-- The directory that projects are built into is that of the layout. -/
theorem foldl_projectNames (base : Path) (path : String) :
    (projectNames path ++ ["libs"]).foldl Path.join (base.join "build") =
      projectLibraries base path := by
  rw [List.foldl_append, List.foldl_cons, List.foldl_nil, projectLibraries, projectNames]

/-- **The native file of an artifact is that of its layout.** -/
theorem native_eq_layout (h : w.locate d = .ok c) (ha : a ∈ c.artifacts) :
    a.native = .ok (w.layout a.id).file := by
  unfold locate at h
  split at h
  · obtain rfl := Except.ok.inj h
    obtain rfl := List.mem_singleton.mp ha
    rfl
  · split at h
    · obtain rfl := Except.ok.inj h
      obtain ⟨declared, -, rfl⟩ := List.mem_map.mp ha
      rw [Layout.file, Layout.parts, List.foldl_append]
      exact congrArg (fun dir : Path => Except.ok (dir.join declared.name))
        (foldl_projectNames w.base _).symm
    · cases h
  · obtain rfl := Except.ok.inj h
    obtain rfl := List.mem_singleton.mp ha
    rfl

/-- A layout has a base, or all its paths are places. -/
theorem layout_base (w : Workspace) (a : ArtifactId) :
    (w.layout a).base ≠ "" ∨ (w.layout a).directory = [] := by
  have hbuild : "build" ≠ "" := by decide
  unfold layout
  split
  · exact .inr rfl
  · exact .inl (Path.join_ne_empty (.inr hbuild))
  · exact .inr rfl

/-- **When a file is in the directory of its component.** Every artifact that a dependency is
resolved to has the file of its layout. This is in the directory if the texts descend; with an
absolute text the directory has no say, and the file is in it only if the texts alone lead there.
Texts without slashes descend, unless one below the directory is `..`. -/
theorem native_within_iff (hlocate : w.locate d = .ok c) (ha : a ∈ c.artifacts) :
    a.native = .ok (w.layout a.id).file ∧
      (Path.Within (w.layout a.id).segments (w.layout a.id).file ↔ (w.layout a.id).Descends ∨
        (∃ part ∈ (w.layout a.id).parts, Path.IsAbsolute part) ∧
          Path.Within (w.layout a.id).segments ((w.layout a.id).parts.foldl Path.join "")) ∧
      ((∀ part ∈ (w.layout a.id).parts, '/' ∉ part.toList) → ".." ∉ (w.layout a.id).place →
        Path.Within (w.layout a.id).segments (w.layout a.id).file) := by
  have hwithin := Layout.within_iff (w.layout_base a.id)
  exact ⟨native_eq_layout hlocate ha, hwithin, fun hflat hup =>
    hwithin.mpr (.inl (Layout.descends_of_not_mem hflat hup))⟩

end Workspace

/-- A project whose one configuration has the given dependencies, and one other project with one
artifact. -/
def Descriptor.depending (dependencies : List String) (artifact : String) : Descriptor where
  project := { group := "org.example", name := "app", version := "1.0" }
  configurations := [{ name := "runtime", dependencies := dependencies }]
  projects := [{ path := ":core", artifacts := [{ name := artifact }] }]

namespace Workspace

/-- The artifact of an ordinary project is where it should be. -/
theorem native_within_core :
    ∃ w c a, (Workspace.assemble (.depending [":core"] "core.jar") "/work").outcome = .ok w ∧
      w.locate ⟨.project ":core", Dict.empty⟩ = .ok c ∧ a ∈ c.artifacts ∧
      a.native = .ok "/work/build/core/libs/core.jar" ∧
      Path.Within (Path.components "/work/build/core/libs") "/work/build/core/libs/core.jar" := by
  obtain ⟨w, c, a, hw, hc, ha, hlayout⟩ : ∃ w c a,
      (Workspace.assemble (.depending [":core"] "core.jar") "/work").outcome = .ok w ∧
        w.locate ⟨.project ":core", Dict.empty⟩ = .ok c ∧ a ∈ c.artifacts ∧
        w.layout a.id = ⟨"/work/build", ["core", "libs"], ["core.jar"]⟩ :=
    ⟨_, _, _, rfl, rfl, List.mem_cons_self, rfl⟩
  obtain ⟨hnative, -, hwithin⟩ := native_within_iff hc ha
  rw [hlayout] at hnative hwithin
  exact ⟨w, c, a, hw, hc, ha, hnative, hwithin (by decide) (by decide)⟩

/-- **Files that are elsewhere**: a module whose group goes up, and an artifact with an absolute
name. -/
theorem escaping_files :
    ∃ w r,
      (Workspace.assemble (.depending ["..:lib:1.0", ":core"] "/etc/x.jar") "/work").outcome =
        .ok w ∧
      (w.resolve "runtime").outcome = .ok r ∧
      r.components.map (fun c => c.artifacts.map Artifact.native) =
        [[.ok "/work/repo/../lib-1.0.jar"], [.ok "/etc/x.jar"]] ∧
      ¬ Path.Within (Path.components "/work/repo") "/work/repo/../lib-1.0.jar" ∧
      ¬ Path.Within (Path.components "/work/build/core/libs") "/etc/x.jar" :=
  ⟨_, _, rfl, rfl, rfl, by decide, by decide⟩

end Workspace

/-! ## Jars of several modules -/

/-- Where a separator occurs in texts around another one, they are only told apart up to what stands
between the two. -/
theorem append_cons_eq_append_cons {α : Type} {sep : α} {a b c d : List α} :
    a ++ sep :: b = c ++ sep :: d ↔ a = c ∧ b = d ∨
      (∃ middle, a = c ++ sep :: middle ∧ d = middle ++ sep :: b) ∨
      (∃ middle, c = a ++ sep :: middle ∧ b = middle ++ sep :: d) := by
  constructor
  · intro h
    -- the two separators are the same one, unless the longer text goes on with one of them
    rcases List.append_eq_append_iff.mp h with ⟨middle, hc, hb⟩ | ⟨middle, ha, hd⟩
    · cases middle with
      | nil => exact .inl ⟨by simpa using hc.symm, (List.cons.inj hb).2⟩
      | cons _ middle =>
        obtain ⟨rfl, hrest⟩ := List.cons.inj hb
        exact .inr (.inr ⟨middle, hc, hrest⟩)
    · cases middle with
      | nil => exact .inl ⟨by simpa using ha, (List.cons.inj hd).2.symm⟩
      | cons _ middle =>
        obtain ⟨rfl, hrest⟩ := List.cons.inj hd
        exact .inr (.inl ⟨middle, ha, hrest⟩)
  · rintro (⟨rfl, rfl⟩ | ⟨middle, rfl, rfl⟩ | ⟨middle, rfl, rfl⟩) <;> simp

namespace ModuleVersionId

variable {a b : ModuleVersionId}

/-- No part holds a slash. -/
def IsFlat (id : ModuleVersionId) : Prop :=
  ∀ part ∈ [id.group, id.name, id.version], '/' ∉ part.toList

instance (id : ModuleVersionId) : Decidable id.IsFlat := inferInstanceAs (Decidable (∀ _ ∈ _, _))

/-- **The name of a module goes on**, after a dash, with what the version of another module of the
group begins with, before a dash. -/
def Overlaps (a b : ModuleVersionId) : Prop :=
  a.group = b.group ∧ ∃ middle : String,
    a.name = b.name ++ "-" ++ middle ∧ b.version = middle ++ "-" ++ a.version

theorem toList_jarName (a : ModuleVersionId) :
    a.jarName.toList = (a.name.toList ++ '-' :: a.version.toList) ++ ".jar".toList := by
  simp [jarName]

/-- Texts overlap as lists of characters. -/
theorem exists_middle_iff {name version name' version' : String} :
    (∃ middle : String, name = name' ++ "-" ++ middle ∧ version' = middle ++ "-" ++ version) ↔
      ∃ middle : List Char, name.toList = name'.toList ++ '-' :: middle ∧
        version'.toList = middle ++ '-' :: version.toList := by
  constructor
  · rintro ⟨middle, rfl, rfl⟩
    exact ⟨middle.toList, by simp, by simp⟩
  · rintro ⟨middle, hname, hversion⟩
    exact ⟨String.ofList middle, String.toList_injective (by simpa using hname),
      String.toList_injective (by simpa using hversion)⟩

/-- **Which modules have one jar name in one group.** -/
theorem same_jar_iff :
    a.group = b.group ∧ a.jarName = b.jarName ↔ a = b ∨ a.Overlaps b ∨ b.Overlaps a := by
  have hjar : a.jarName = b.jarName ↔
      a.name.toList ++ '-' :: a.version.toList = b.name.toList ++ '-' :: b.version.toList := by
    rw [← String.toList_inj, toList_jarName, toList_jarName, List.append_left_inj]
  have heq : a = b ↔ a.group = b.group ∧ a.name.toList = b.name.toList ∧
      a.version.toList = b.version.toList := by
    obtain ⟨⟨_, _⟩, _⟩ := a
    obtain ⟨⟨_, _⟩, _⟩ := b
    simp [and_assoc, String.toList_inj]
  rw [hjar, append_cons_eq_append_cons, heq, Overlaps, Overlaps, exists_middle_iff,
    exists_middle_iff, eq_comm (a := b.group), ← and_or_left, ← and_or_left]

theorem IsFlat.jarName (h : a.IsFlat) : '/' ∉ a.jarName.toList := by
  have hname : '/' ∉ a.name.toList := h _ (by simp)
  have hversion : '/' ∉ a.version.toList := h _ (by simp)
  rw [toList_jarName]
  simp [hname, hversion]

theorem IsFlat.steps_jarName (h : a.IsFlat) :
    Path.steps a.jarName = [.name a.jarName] := by
  have hdash : '-' ∈ a.jarName.toList := by simp [toList_jarName]
  have hne : a.jarName ≠ "" := fun h => by simp [h] at hdash
  have hdot : a.jarName ≠ "." := fun h => by simp [h] at hdash
  have hdots : a.jarName.toList ≠ ['.', '.'] := fun h => by simp [h] at hdash
  rw [Path.steps_of_not_mem h.jarName hne, if_neg hdot, Path.segment, if_neg hdots,
    String.ofList_toList]

end ModuleVersionId

namespace Workspace

variable {w : Workspace} {d e : Dependency} {a b : ModuleVersionId}

/-- **A file that a dependency is resolved to.** -/
def Provides (w : Workspace) (d : Dependency) (file : Path) : Prop :=
  ∃ c, w.locate d = .ok c ∧ ∃ a ∈ c.artifacts, a.native = .ok file

/-- A module has one file. -/
theorem provides_module_iff {id : ModuleVersionId} (hd : d.target = .module id) {file : Path} :
    w.Provides d file ↔ file = w.moduleFile id := by
  have hlocate : w.locate d = .ok (w.moduleComponent id) := by
    unfold locate
    rw [hd]
  constructor
  · rintro ⟨c, hc, a, ha, hnative⟩
    obtain rfl := Except.ok.inj (hlocate.symm.trans hc)
    obtain rfl := List.mem_singleton.mp ha
    exact (Except.ok.inj hnative).symm
  · rintro rfl
    exact ⟨_, hlocate, _, List.mem_singleton_self _, rfl⟩

/-- The file of a module is found under its group, by the name of its jar. -/
theorem components_moduleFile (ha : a.IsFlat) (hgroup : a.group ≠ "") :
    (w.moduleFile a).components = (w.repository.join a.group).components ++ [.name a.jarName] := by
  rw [moduleFile, Path.components_join (Path.join_ne_empty (.inr hgroup))
    (Path.not_absolute_of_not_mem ha.jarName), ha.steps_jarName]

/-- Files of modules tell the group and the name of the jar. -/
theorem components_moduleFile_inj (ha : a.IsFlat) (hb : b.IsFlat) (hga : a.group ≠ "")
    (hgb : b.group ≠ "") : (w.moduleFile a).components = (w.moduleFile b).components →
      a.group = b.group ∧ a.jarName = b.jarName := by
  intro h
  rw [components_moduleFile ha hga, components_moduleFile hb hgb] at h
  obtain ⟨hdir, hlast⟩ := List.append_inj' h rfl
  have hgroup : ∀ {id : ModuleVersionId}, id.IsFlat → '/' ∉ id.group.toList := fun hflat =>
    hflat _ List.mem_cons_self
  exact ⟨(Path.components_join_inj w.repository (hgroup ha) (hgroup hb) hga hgb).mp hdir,
    Segment.name.inj (List.singleton_inj.mp hlast)⟩

/-- **When two modules have one file.** Each module has exactly one. If no part holds a slash, the
files of two modules are the same text if and only if they are the same path, and this is so for
modules that overlap and for no others. -/
theorem module_files_tfae {s t : String} (hs : Dependency.parse s = .ok d)
    (ht : Dependency.parse t = .ok e) (hd : d.target = .module a) (he : e.target = .module b)
    (ha : a.IsFlat) (hb : b.IsFlat) :
    ∃ f g, (∀ file, w.Provides d file ↔ file = f) ∧ (∀ file, w.Provides e file ↔ file = g) ∧
      [f = g, Path.components f = Path.components g, a = b ∨ a.Overlaps b ∨ b.Overlaps a].TFAE := by
  have hga := (Dependency.parse_module hs hd).1.1.1
  have hgb := (Dependency.parse_module ht he).1.1.1
  refine ⟨w.moduleFile a, w.moduleFile b, fun _ => provides_module_iff hd,
    fun _ => provides_module_iff he, ?_⟩
  tfae_have 1 → 2 := congrArg Path.components
  tfae_have 2 → 3 := fun h =>
    ModuleVersionId.same_jar_iff.mp (components_moduleFile_inj ha hb hga hgb h)
  tfae_have 3 → 1 := by
    intro h
    obtain ⟨hgroup, hjar⟩ := ModuleVersionId.same_jar_iff.mpr h
    rw [moduleFile, moduleFile, hgroup, hjar]
  tfae_finish

/-- Modules whose names and versions share a text have files of their own if they do not overlap. -/
theorem module_files_apart :
    ∃ w f g, (Workspace.assemble
        (.depending ["org.example:lib-a:1.0", "org.example:lib:1.0-a"]
          "core.jar") "/work").outcome = .ok w ∧
      w.Provides ⟨.module ⟨⟨"org.example", "lib-a"⟩, "1.0"⟩, Dict.empty⟩ f ∧
      w.Provides ⟨.module ⟨⟨"org.example", "lib"⟩, "1.0-a"⟩, Dict.empty⟩ g ∧
      Path.components f ≠ Path.components g := by
  obtain ⟨w, hw⟩ : ∃ w, (Workspace.assemble
      (.depending ["org.example:lib-a:1.0", "org.example:lib:1.0-a"] "core.jar") "/work").outcome =
      .ok w :=
    ⟨_, rfl⟩
  obtain ⟨f, g, hf, hg, htfae⟩ := module_files_tfae (w := w) (s := "org.example:lib-a:1.0")
    (t := "org.example:lib:1.0-a") rfl rfl rfl rfl (by decide) (by decide)
  refine ⟨w, f, g, hw, (hf f).mpr rfl, (hg g).mpr rfl, fun hsame => ?_⟩
  have hjar := (ModuleVersionId.same_jar_iff.mpr ((htfae.out 1 2).mp hsame)).2
  exact absurd hjar (by decide)

/-- **Two modules with one jar**: the dash of the one's name is the dash of the other's version. -/
theorem shared_jar :
    ∃ w r, (Workspace.assemble
        (.depending ["org.example:lib-a:1.0", "org.example:lib:a-1.0"]
          "core.jar") "/work").outcome = .ok w ∧
      (w.resolve "runtime").outcome = .ok r ∧
      r.components.map (fun c => (c.id, c.artifacts.map Artifact.native)) =
        [(.module ⟨⟨"org.example", "lib-a"⟩, "1.0"⟩, [.ok "/work/repo/org.example/lib-a-1.0.jar"]),
          (.module ⟨⟨"org.example", "lib"⟩, "a-1.0"⟩,
            [.ok "/work/repo/org.example/lib-a-1.0.jar"])] ∧
      ModuleVersionId.IsFlat ⟨⟨"org.example", "lib-a"⟩, "1.0"⟩ ∧
      ModuleVersionId.IsFlat ⟨⟨"org.example", "lib"⟩, "a-1.0"⟩ :=
  ⟨_, _, rfl, rfl, rfl, by decide, by decide⟩

end Workspace

end Componentry
