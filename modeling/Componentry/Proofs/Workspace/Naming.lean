import Componentry.Proofs.Artifact.Transparency
import Componentry.Proofs.Workspace.Declaration
import Componentry.Workspace.Resolution
import Mathlib.Data.List.Nodup

/-!
# Identities in resolved configurations

A configuration resolves to one component per dependency, and what a component is depends on its
identity alone (`locate_injective`). So artifacts of different components have different identities,
and the same component twice has the same artifacts. What is left are artifacts of one project under
one name: a descriptor may declare them, and then only the attributes tell them apart.

Results:
* `steady_of_resolve`: builds and declared transforms answer by their arguments alone.
* `eq_of_id_eq`: if no project declares two artifacts under one name, an identity says which
  artifact has it. Then the resolution is unambiguous, `unambiguous_of_resolve`.
* **`memo_transparent_iff`**: when the memo of transforms is transparent, and that it is so in
  particular if names are apart.
* `same_name_shares_transform`: a descriptor for which it is not.
-/

namespace Componentry

/-- No project declares two artifacts under one name. -/
def Descriptor.NamesApart (d : Descriptor) : Prop :=
  ∀ s ∈ d.projects, (s.artifacts.map (·.name)).Nodup

namespace Workspace

variable {w : Workspace}

/-- Each result of a sequence that succeeds is the result of one of its steps. -/
theorem exists_of_mem_mapM {α β ε : Type} {f : α → Except ε β} {xs : List α} {ys : List β} {y : β}
    (h : xs.mapM f = .ok ys) (hy : y ∈ ys) : ∃ x ∈ xs, f x = .ok y := by
  have hall := mapM_eq_ok_iff.mp h
  induction hall with
  | nil => exact absurd hy List.not_mem_nil
  | @cons x _ _ _ hx hrest ih =>
    rcases List.mem_cons.mp hy with rfl | hy
    · exact ⟨x, List.mem_cons_self, hx⟩
    · obtain ⟨x', hx', hf⟩ := ih (mapM_eq_ok_iff.mpr hrest) hy
      exact ⟨x', List.mem_cons_of_mem x hx', hf⟩

/-- The component that a dependency target stands for. -/
def targetId : DependencyTarget → ComponentId
  | .module id => .module id
  | .project path => .project path
  | .file path => .file path

/-- What is located has the identity of the target. -/
theorem id_of_locate {d : Dependency} {c : ResolvedComponent} (h : w.locate d = .ok c) :
    c.id = targetId d.target := by
  unfold locate at h
  split at h
  · rename_i htarget
    obtain rfl := Except.ok.inj h
    rw [htarget]
    rfl
  · rename_i path htarget
    split at h
    · rename_i s hs
      obtain rfl := Except.ok.inj h
      have hpath : s.path = path := by simpa using List.find?_some hs
      rw [htarget, ← hpath]
      rfl
    · exact absurd h (by simp)
  · rename_i htarget
    obtain rfl := Except.ok.inj h
    rw [htarget]
    rfl

/-- **A component is what its identity says**: dependencies on one component are located as one. -/
theorem locate_injective {d e : Dependency} {b c : ResolvedComponent} (hb : w.locate d = .ok b)
    (hc : w.locate e = .ok c) (h : b.id = c.id) : b = c := by
  rw [id_of_locate hb, id_of_locate hc] at h
  have htarget : d.target = e.target := by
    cases hd : d.target <;> cases he : e.target <;> simp_all [targetId]
  unfold locate at hb hc
  rw [htarget] at hb
  exact Except.ok.inj (hb.symm.trans hc)

/-- The artifacts of a located component name it, and are there or built by its workspace. -/
theorem artifact_of_locate {d : Dependency} {c : ResolvedComponent} (h : w.locate d = .ok c)
    {a : Artifact} (ha : a ∈ c.artifacts) :
    a.id.component = c.id ∧
      ∀ producer, a.source = .built producer → producer = .ofProjects w.base := by
  unfold locate at h
  split at h
  · obtain rfl := Except.ok.inj h
    obtain rfl := List.mem_singleton.mp ha
    exact ⟨rfl, fun _ h => absurd h (by simp)⟩
  · split at h
    · obtain rfl := Except.ok.inj h
      obtain ⟨declared, -, rfl⟩ := List.mem_map.mp ha
      exact ⟨rfl, fun _ h => (ArtifactSource.built.inj h).symm⟩
    · exact absurd h (by simp)
  · obtain rfl := Except.ok.inj h
    obtain rfl := List.mem_singleton.mp ha
    exact ⟨rfl, fun _ h => absurd h (by simp)⟩

/-- Artifacts of one component have different names, if those of projects have. -/
theorem eq_of_name_eq (hw : w.descriptor.NamesApart) {d : Dependency} {c : ResolvedComponent}
    (h : w.locate d = .ok c) {a b : Artifact} (ha : a ∈ c.artifacts) (hb : b ∈ c.artifacts)
    (hname : a.id.name = b.id.name) : a = b := by
  unfold locate at h
  split at h
  · obtain rfl := Except.ok.inj h
    rw [List.mem_singleton.mp ha, List.mem_singleton.mp hb]
  · split at h
    · rename_i s hs
      obtain rfl := Except.ok.inj h
      obtain ⟨x, hx, rfl⟩ := List.mem_map.mp ha
      obtain ⟨y, hy, rfl⟩ := List.mem_map.mp hb
      rw [List.inj_on_of_nodup_map (hw s (List.mem_of_find?_eq_some hs)) hx hy hname]
    · exact absurd h (by simp)
  · obtain rfl := Except.ok.inj h
    rw [List.mem_singleton.mp ha, List.mem_singleton.mp hb]

/-- What a configuration resolves to: its dependencies as they are located, in order, and the
declared transforms. -/
theorem resolve_eq_ok {name : String} {r : Resolution} (h : (w.resolve name).outcome = .ok r) :
    r.pipeline = .declared w.descriptor.transforms ∧
      ∃ c, w.session.container.get? name = some c ∧
        List.Forall₂ (fun d component => w.locate d = .ok component)
          c.dependencies r.components := by
  unfold resolve at h
  split at h
  · exact absurd h (by simp)
  · rename_i c hc
    simp only [Logged.outcome_bind, Logged.ofClassified, Logged.record, Logged.outcome_pure] at h
    cases hlocated : c.dependencies.mapM w.locate with
    | error failure =>
      rw [hlocated] at h
      exact absurd h (by simp [Except.mapError, bind, Except.bind])
    | ok components =>
      rw [hlocated] at h
      obtain rfl := Except.ok.inj h
      exact ⟨rfl, c, hc, mapM_eq_ok_iff.mp hlocated⟩

theorem resolve_cases {name : String} {r : Resolution} (h : (w.resolve name).outcome = .ok r) :
    r.pipeline = .declared w.descriptor.transforms ∧
      ∀ c ∈ r.components, ∃ d, w.locate d = .ok c := by
  obtain ⟨hpipeline, c, -, hlocated⟩ := resolve_eq_ok h
  refine ⟨hpipeline, fun component hcomponent => ?_⟩
  obtain ⟨d, -, hd⟩ := exists_of_mem_mapM (mapM_eq_ok_iff.mpr hlocated) hcomponent
  exact ⟨d, hd⟩

theorem located_of_has {name : String} {r : Resolution} (h : (w.resolve name).outcome = .ok r)
    {a : PlacedArtifact} (ha : r.Has a) :
    ∃ c d, w.locate d = .ok c ∧ a.artifact ∈ c.artifacts := by
  obtain ⟨c, hc, hartifact⟩ := ha.at_place
  obtain ⟨d, hd⟩ := (resolve_cases h).2 c (List.mem_of_getElem? hc)
  exact ⟨c, d, hd, List.mem_of_getElem? hartifact⟩

/-- **Builds and declared transforms are steady.** -/
theorem steady_of_resolve {name : String} {r : Resolution} (h : (w.resolve name).outcome = .ok r) :
    r.Steady where
  producers := by
    intro a producer ha hsource history
    obtain ⟨c, d, hd, hmem⟩ := located_of_has h ha
    rw [(artifact_of_locate hd hmem).2 producer hsource]
    rfl
  canTransform := by
    rw [(resolve_cases h).1]
    exact fun _ _ _ => rfl
  transform := by
    rw [(resolve_cases h).1]
    exact fun _ _ _ _ _ => rfl

/-- An identity says which artifact has it. -/
theorem eq_of_id_eq (hw : w.descriptor.NamesApart) {name : String} {r : Resolution}
    (h : (w.resolve name).outcome = .ok r) {a b : PlacedArtifact} (ha : r.Has a) (hb : r.Has b)
    (hid : a.artifact.id = b.artifact.id) : a.artifact = b.artifact := by
  obtain ⟨c, d, hd, hmem⟩ := located_of_has h ha
  obtain ⟨c', d', hd', hmem'⟩ := located_of_has h hb
  have hcomponent : c.id = c'.id := by
    rw [← (artifact_of_locate hd hmem).1, ← (artifact_of_locate hd' hmem').1, hid]
  obtain rfl := locate_injective hd hd' hcomponent
  exact eq_of_name_eq hw hd hmem hmem' (congrArg ArtifactId.name hid)

/-- **Without two artifacts of one name in a project, resolved configurations are unambiguous.** -/
theorem unambiguous_of_resolve (hw : w.descriptor.NamesApart) {name : String} {r : Resolution}
    (h : (w.resolve name).outcome = .ok r) : r.Unambiguous := by
  intro request a b x y ha hb hid hx hy
  rw [eq_of_id_eq hw h ha hb hid] at hx
  exact Option.some.inj (hx.symm.trans hy)

end Workspace

/-! ## When the memo is transparent -/

/-- **When the memo of transforms is transparent.** It is so, of every artifact, every view and
everything that may have been done before, exactly if the resolution is unambiguous. Then every walk
answers, item for item, what a walk without a memo does. What a workspace resolves is unambiguous if
no project declares two artifacts under one name. -/
theorem Resolution.memo_transparent_iff {r : Resolution} (hr : r.Steady) :
    (r.Transparent ↔ r.Unambiguous) ∧
      (r.Unambiguous → ∀ actions, ∀ w ∈ (r.tour actions).walks, ∃ verdicts, w.Faithful verdicts) ∧
      ∀ (w : Workspace) name, (w.resolve name).outcome = .ok r → w.descriptor.NamesApart →
        r.Unambiguous :=
  ⟨transparent_iff_unambiguous hr, fun hu actions _ hw => faithful_tour hr hu actions hw,
    fun _ _ h hw => Workspace.unambiguous_of_resolve hw h⟩

namespace Descriptor

/-- What a configuration of a descriptor resolves to. -/
def resolution (d : Descriptor) (base : Path) (name : String) : Except Fault Resolution :=
  (Workspace.assemble d base).outcome >>= fun w => (w.resolve name).outcome

/-- What is put together of a descriptor describes what it says. -/
theorem descriptor_of_assemble {d : Descriptor} {base : Path} {w : Workspace}
    (h : (Workspace.assemble d base).outcome = .ok w) : w.descriptor = d := by
  unfold Workspace.assemble at h
  simp only [Logged.outcome_bind] at h
  obtain ⟨identity, -, h⟩ := exists_of_bind h
  obtain ⟨projects, -, h⟩ := exists_of_bind h
  obtain ⟨session, -, h⟩ := exists_of_bind h
  obtain ⟨rules, -, h⟩ := exists_of_bind h
  obtain ⟨replacements, -, h⟩ := exists_of_bind h
  obtain ⟨_, -, h⟩ := exists_of_bind h
  rw [← Except.ok.inj h]

theorem exists_workspace {d : Descriptor} {base : Path} {name : String} {r : Resolution}
    (h : d.resolution base name = .ok r) :
    ∃ w : Workspace, w.descriptor = d ∧ (w.resolve name).outcome = .ok r := by
  obtain ⟨w, hw, hr⟩ := exists_of_bind h
  exact ⟨w, descriptor_of_assemble hw, hr⟩

/-- A project with a jar and a zip, of these names, and a transform of each into classes. -/
def jarAndZip (jar zip : String) : Descriptor where
  project := { group := "org.example", name := "app", version := "1.0" }
  configurations := [{ name := "runtime", dependencies := [":p"] }]
  projects := [{ path := ":p", artifacts :=
    [{ name := jar, attributes := .ofType "jar" }, { name := zip, attributes := .ofType "zip" }] }]
  transforms := [⟨.ofType "jar", .ofType "classes", "-j"⟩, ⟨.ofType "zip", .ofType "classes", "-z"⟩]

/-- The classes of the project under a name. -/
def classesNamed (name : String) : ResolvedFile :=
  ⟨⟨.project ":p", name⟩, "/work/build/p/libs/" ++ name, .ofType "classes"⟩

/-- With two names, the memo is transparent. -/
theorem memo_transparent_of_two_names :
    ∃ r, (jarAndZip "p.jar" "p.zip").resolution "/work" "runtime" = .ok r ∧ r.Transparent := by
  obtain ⟨r, hr⟩ : ∃ r, (jarAndZip "p.jar" "p.zip").resolution "/work" "runtime" = .ok r :=
    ⟨_, rfl⟩
  obtain ⟨w, hw, hresolve⟩ := exists_workspace hr
  have hnames : w.descriptor.NamesApart := by
    rw [hw]
    unfold NamesApart
    decide
  obtain ⟨htransparent, -, hunambiguous⟩ :=
    Resolution.memo_transparent_iff (Workspace.steady_of_resolve hresolve)
  exact ⟨r, hr, htransparent.mpr (hunambiguous w "runtime" hresolve hnames)⟩

/-- **With one name, the zip is given the classes that were made of the jar.** -/
theorem same_name_shares_transform :
    ∃ r, (jarAndZip "p.jar" "p.jar").resolution "/work" "runtime" = .ok r ∧
      ∃ w ∈ (r.tour [.view { attributes := .ofType "classes" }, .walk 0, .next 0, .next 0]).walks,
        w.answers = [some (.ok (classesNamed "p-j.jar")), some (.ok (classesNamed "p-j.jar"))] ∧
        w.view.directItems r.placed [true] =
          [.ok (classesNamed "p-j.jar"), .ok (classesNamed "p-z.jar")] :=
  ⟨_, rfl, _, List.mem_cons_self, rfl, rfl⟩

end Descriptor

end Componentry
