import Componentry.Proofs.Configuration.OrderedMap
import Componentry.Workspace

/-!
# Declared configurations

A section of a descriptor declares a configuration by operations: it is created, and then edited
under its own name. No other configuration has that name, as its creation would have been refused,
so the edits reach this one only, and the container ends with one configuration per section, in
order.

* `Container.Becomes c ops c'`: the operations are admitted one after the other.
* `ConfigurationSection.declared`: the configuration that a section describes, once its dependencies
  are read.

Results:
* `performAll_ok`: operations that are performed are actions of a session, admitted by its
  container.
* `becomes_edits`: edits of the last configuration of a container, under a name of its own.
* `edited_edits`: the edits that a section stands for make what it describes.
* **`becomes_sections`**: the sections of a descriptor make one configuration each.
-/

namespace Componentry

/-! ## Results in order -/

theorem exists_of_bind {α β ε : Type} {x : Except ε α} {f : α → Except ε β} {y : β}
    (h : (x >>= f) = .ok y) : ∃ a, x = .ok a ∧ f a = .ok y := by
  cases x with
  | error e => exact absurd h (by simp [bind, Except.bind])
  | ok a => exact ⟨a, rfl, h⟩

/-- A sequence of steps succeeds if each of them does. -/
theorem mapM_eq_ok_iff {α β ε : Type} {f : α → Except ε β} {xs : List α} {ys : List β} :
    xs.mapM f = .ok ys ↔ List.Forall₂ (fun x y => f x = .ok y) xs ys := by
  induction xs generalizing ys with
  | nil =>
    rw [List.forall₂_nil_left_iff]
    constructor
    · intro h
      exact (Except.ok.inj h).symm
    · rintro rfl
      rfl
  | cons x xs ih =>
    rw [List.mapM_cons, List.forall₂_cons_left_iff]
    constructor
    · intro h
      obtain ⟨y, hx, h⟩ := exists_of_bind h
      obtain ⟨rest, hxs, h⟩ := exists_of_bind h
      exact ⟨y, rest, hx, ih.mp hxs, (Except.ok.inj h).symm⟩
    · rintro ⟨y, rest, hx, hrest, rfl⟩
      rw [hx, ih.mpr hrest]
      rfl

/-- If all results are there, so are those that they were made of. -/
theorem forall₂_of_map_eq {α β γ ε : Type} {f : α → Except ε β} {g : β → γ} {xs : List α}
    {zs : List γ} (h : xs.map (fun x => (f x).map g) = zs.map .ok) :
    ∃ ys, List.Forall₂ (fun x y => f x = .ok y) xs ys ∧ zs = ys.map g := by
  induction xs generalizing zs with
  | nil =>
    obtain rfl : zs = [] := by simpa using h.symm
    exact ⟨[], .nil, rfl⟩
  | cons x xs ih =>
    cases zs with
    | nil => simp at h
    | cons z zs =>
      obtain ⟨hz, hzs⟩ := List.cons.inj h
      obtain ⟨ys, hys, rfl⟩ := ih hzs
      dsimp only at hz
      cases hx : f x with
      | error e => rw [hx] at hz; cases hz
      | ok y =>
        rw [hx] at hz
        obtain rfl := Except.ok.inj hz
        exact ⟨y :: ys, .cons hx hys, rfl⟩

/-! ## Operations in order -/

/-- **The operations are admitted one after the other**, and carry one container to the other. -/
inductive Container.Becomes : Container → List Operation → Container → Prop where
  | nil {c : Container} : Becomes c [] c
  | cons {c c' : Container} {op : Operation} {ops : List Operation} : c.refusal op = none →
      Becomes (c.apply op) ops c' → Becomes c (op :: ops) c'

theorem Container.Becomes.of_append {c c' : Container} {ops more : List Operation}
    (h : c.Becomes (ops ++ more) c') : ∃ c₁, c.Becomes ops c₁ ∧ c₁.Becomes more c' := by
  induction ops generalizing c with
  | nil => exact ⟨c, .nil, h⟩
  | cons op ops ih =>
    cases h with
    | cons hop hrest =>
      obtain ⟨c₁, hops, hmore⟩ := ih hrest
      exact ⟨c₁, .cons hop hops, hmore⟩

namespace Session

/-- **A change that is carried out** is an admitted one; slots, the log and what was heard apart,
the container is all that changes. -/
theorem perform_ok {s : Session} {op : Operation} (h : (s.perform op).1 = .ok ()) :
    s.container.refusal op = none ∧
      SlotsOnly { s with container := s.container.apply op } (s.perform op).2 := by
  unfold perform at h ⊢
  cases hrefusal : s.container.refusal op with
  | some failure =>
    rw [hrefusal] at h
    cases h
  | none =>
    have hannounce := slotsOnly_announce s op.kind
    have hcontainer := congrArg (Container.apply · op) hannounce.container
    exact ⟨rfl, hannounce.identity, hcontainer, hannounce.projects, hannounce.listeners,
      hannounce.builders⟩

/-- **Operations that are all performed** are actions of the session, and its container admits
them. -/
theorem performAll_ok {s : Session} {ops : List (Except Failure Operation)}
    (h : (s.performAll ops).1 = .ok ()) :
    ∃ (done : List Operation) (c : Container), ops = done.map .ok ∧ s.container.Becomes done c ∧
      (s.performAll ops).2 = s.after (done.map .perform) ∧
      SlotsOnly { s with container := c } (s.performAll ops).2 := by
  induction ops generalizing s with
  | nil => exact ⟨[], s.container, rfl, .nil, rfl, SlotsOnly.refl s⟩
  | cons result ops ih =>
    cases result with
    | error failure => cases h
    | ok op =>
      have hok : (s.perform op).1 = .ok () := by
        rw [performAll] at h
        split at h
        · cases h
        · rename_i heq
          rw [heq]
      have hrest : s.performAll (.ok op :: ops) = (s.perform op).2.performAll ops := by
        rw [performAll]
        split
        · rename_i heq
          rw [heq] at hok
          cases hok
        · rename_i heq
          rw [heq]
      rw [hrest] at h ⊢
      obtain ⟨done, c, rfl, hbecomes, hafter, hslots⟩ := ih h
      obtain ⟨hrefusal, hperform⟩ := perform_ok hok
      rw [hperform.container] at hbecomes
      refine ⟨op :: done, c, rfl, .cons hrefusal hbecomes, ?_, SlotsOnly.trans ?_ hslots⟩
      · rw [hafter, ← step_perform]
        rfl
      · exact ⟨hperform.identity, rfl, hperform.projects, hperform.listeners, hperform.builders⟩

/-- The session that some operations lead to, its log apart. -/
theorem configure_ok {s s' : Session} {ops : List (Except Failure Operation)}
    (h : (s.configure ops).outcome = .ok s') :
    (s.performAll ops).1 = .ok () ∧ s' = { (s.performAll ops).2 with log := [] } := by
  unfold configure at h
  split at h
  · rename_i heq
    rw [heq]
    exact ⟨rfl, (Except.ok.inj h).symm⟩
  · cases h

/-- **A session whose container was configured**, and nothing else was done. -/
structure Configured (identity : Coordinates) (projects : Registry) (c : Container) (s : Session) :
    Prop where
  identity : s.identity = identity
  projects : s.projects = projects
  container : s.container = c
  /-- It has one builder, which shows the container and has no snapshot. -/
  builder : ∃ b, s.builders = [b] ∧ b.source = .container ∧ b.work = .plain ∧ b.slot.cached = none

variable {identity : Coordinates} {projects : Registry} {c : Container} {s : Session}

theorem Configured.work (h : Configured identity projects c s) : s.work 0 = .plain := by
  obtain ⟨b, hbuilders, -, hwork, -⟩ := h.builder
  rw [Session.work, hbuilders]
  exact hwork

/-- **The first read** of a session that was configured shows all of the container. -/
theorem Configured.first_read (h : Configured identity projects c s) : ∃ x, (s.read 0).1 = .ok x ∧
    x.metadata = (RootMetadata.bare identity projects).attach c.configurations := by
  obtain ⟨b, hbuilders, hsource, hwork, hcached⟩ := h.builder
  have hb : s.builders[0]? = some b := by rw [hbuilders]; rfl
  obtain ⟨x, hread, hmetadata⟩ := read_uncached hb hwork hcached
  refine ⟨x, hread, ?_⟩
  rw [hmetadata, hsource, h.identity, h.projects, h.container]
  rfl

/-- **Operations that configure a new session** are admitted by its container, one after the
other. -/
theorem configured_start {ops : List (Except Failure Operation)}
    (h : ((start identity projects).configure ops).outcome = .ok s) :
    ∃ (done : List Operation) (c : Container), ops = done.map .ok ∧ Container.Becomes {} done c ∧
      Configured identity projects c s := by
  have hempty : (start identity projects).Empty 0 := by simp [start, Empty]
  have hpassive : (start identity projects).Passive := by simp [start, Passive]
  obtain ⟨hok, rfl⟩ := configure_ok h
  obtain ⟨done, c, hdone, hbecomes, hafter, hslots⟩ := performAll_ok hok
  obtain ⟨b, hbuilders, hb⟩ := List.map_eq_singleton_iff.mp hslots.builders
  obtain ⟨hsource, hwork⟩ := Prod.mk.inj hb
  have hnothing : ((start identity projects).performAll ops).2.Empty 0 := by
    rw [hafter]
    exact hempty.after hpassive (by simp)
  exact ⟨done, c, hdone, hbecomes, hslots.identity, hslots.projects, hslots.container, b, hbuilders,
    hsource, hwork, hnothing b (by rw [hbuilders]; rfl)⟩

end Session

/-! ## Edits of one configuration -/

/-- The operation edits the configuration called `name`. -/
def Operation.Edits (op : Operation) (name : String) : Prop :=
  op.target = name ∧ ∀ created, op ≠ .create created

/-- The configuration after the edits of some operations. -/
def Configuration.edited (c : Configuration) (ops : List Operation) : Configuration :=
  ops.foldl (fun c op => op.edit c) c

namespace Container

variable {cs : List Configuration} {c : Configuration} {c' : Container} {name : String}

theorem name_edit (op : Operation) (c : Configuration) : (op.edit c).name = c.name := by
  cases op <;> rfl

/-- An edit under a name that only the last configuration has. -/
theorem apply_edits {op : Operation} (hop : op.Edits name) (hc : c.name = name)
    (hcs : ∀ other ∈ cs, other.name ≠ name) :
    (⟨cs ++ [c]⟩ : Container).apply op = ⟨cs ++ [op.edit c]⟩ := by
  have hsame : (cs.map fun other => if other.name = name then op.edit other else other) = cs :=
    List.map_congr_left (fun other hother => if_neg (hcs other hother)) |>.trans (List.map_id cs)
  rw [apply_edit hop.2, hop.1, List.map_append, List.map_singleton, if_pos hc, hsame]

/-- **Edits under a name that only the last configuration has** reach this one and no other. -/
theorem becomes_edits {ops : List Operation} (hops : ∀ op ∈ ops, op.Edits name)
    (hc : c.name = name) (hcs : ∀ other ∈ cs, other.name ≠ name)
    (h : (⟨cs ++ [c]⟩ : Container).Becomes ops c') : c' = ⟨cs ++ [c.edited ops]⟩ := by
  induction ops generalizing c with
  | nil =>
    cases h
    rfl
  | cons op ops ih =>
    cases h with
    | cons _ hrest =>
      rw [apply_edits (hops op List.mem_cons_self) hc hcs] at hrest
      exact ih (fun op hop => hops op (List.mem_cons_of_mem _ hop)) ((name_edit op c).trans hc)
        hrest

end Container

namespace Configuration

variable (c : Configuration) (name : String)

theorem edited_append (ops more : List Operation) :
    c.edited (ops ++ more) = (c.edited ops).edited more :=
  List.foldl_append

theorem edited_setAttributes (es : List (String × String)) :
    c.edited (es.map fun e => .setAttribute name e.1 e.2) =
      { c with attributes := Dict.insertAll c.attributes es } := by
  induction es generalizing c with
  | nil => rfl
  | cons e es ih => exact ih _

theorem edited_addDependencies (ds : List Dependency) :
    c.edited (ds.map (.addDependency name)) = { c with dependencies := c.dependencies ++ ds } := by
  induction ds generalizing c with
  | nil => simp [edited]
  | cons d ds ih =>
    refine (ih _).trans ?_
    simp [Operation.edit]

theorem edited_addArtifacts (as : List PublishedArtifact) :
    c.edited (as.map (.addArtifact name)) = { c with artifacts := c.artifacts ++ as } := by
  induction as generalizing c with
  | nil => simp [edited]
  | cons a as ih =>
    refine (ih _).trans ?_
    simp [Operation.edit]

end Configuration

/-! ## Sections -/

/-- The dependency on a file. -/
def Dependency.onFile (file : Path) : Dependency := ⟨.file file, Dict.empty⟩

/-- The artifact that a section publishes. -/
def ArtifactSection.published (a : ArtifactSection) : PublishedArtifact := ⟨a.name, a.attributes⟩

namespace ConfigurationSection

variable {s : ConfigurationSection}

/-- The texts of a section read as these dependencies. -/
def Reads (s : ConfigurationSection) (ds : List Dependency) : Prop :=
  List.Forall₂ (fun text d => Dependency.parse text = .ok d) s.dependencies ds

/-- The configuration that a section describes, its texts read as `ds`. -/
def declared (s : ConfigurationSection) (ds : List Dependency) : Configuration where
  name := s.name
  attributes := s.attributes
  dependencies := ds ++ s.files.map Dependency.onFile
  artifacts := s.artifacts.map (·.published)
  locking := s.dependencyLocking

/-- The edits that a section stands for before those of its dependencies. -/
def editsBefore (s : ConfigurationSection) : List Operation :=
  s.attributes.entries.map fun e => .setAttribute s.name e.1 e.2

/-- The edits that it stands for after them. -/
def editsAfter (s : ConfigurationSection) : List Operation :=
  (s.files.map Dependency.onFile).map (.addDependency s.name) ++
    (s.artifacts.map (·.published)).map (.addArtifact s.name) ++
    (if s.dependencyLocking then [.setLocking s.name true] else [])

/-- All the edits that a section stands for, its texts read as `ds`. -/
def edits (s : ConfigurationSection) (ds : List Dependency) : List Operation :=
  s.editsBefore ++ ds.map (.addDependency s.name) ++ s.editsAfter

theorem edits_edit (s : ConfigurationSection) (ds : List Dependency) :
    ∀ op ∈ s.edits ds, op.Edits s.name := by
  intro op hop
  simp only [edits, editsBefore, editsAfter, List.mem_append, List.mem_map, Prod.exists] at hop
  rcases hop with (⟨key, value, -, rfl⟩ | ⟨d, -, rfl⟩) | (⟨d, -, rfl⟩ | ⟨a, -, rfl⟩) | hop
  · exact ⟨rfl, nofun⟩
  · exact ⟨rfl, nofun⟩
  · exact ⟨rfl, nofun⟩
  · exact ⟨rfl, nofun⟩
  · split at hop
    · obtain rfl := List.mem_singleton.mp hop
      exact ⟨rfl, nofun⟩
    · exact absurd hop List.not_mem_nil

/-- **The edits of a section make the configuration that it describes.** -/
theorem edited_edits (s : ConfigurationSection) (ds : List Dependency) :
    ({ name := s.name } : Configuration).edited (s.edits ds) = s.declared ds := by
  have hattributes : Dict.insertAll Dict.empty s.attributes.entries = s.attributes :=
    Dict.ofList_entries s.attributes
  unfold edits editsBefore editsAfter
  simp only [Configuration.edited_append]
  rw [Configuration.edited_setAttributes, Configuration.edited_addDependencies,
    Configuration.edited_addDependencies, Configuration.edited_addArtifacts, hattributes]
  cases hlocking : s.dependencyLocking <;>
    simp [Configuration.edited, Operation.edit, declared, hlocking]

theorem operations_eq (s : ConfigurationSection) :
    s.operations = ((.create s.name :: s.editsBefore).map .ok ++
      s.dependencies.map fun text => (Dependency.parse text).map (.addDependency s.name)) ++
      s.editsAfter.map .ok := by
  unfold operations editsBefore editsAfter
  cases hlocking : s.dependencyLocking <;>
    simp [Function.comp_def, Dependency.onFile, ArtifactSection.published]

/-- The operations of a section, if all its dependencies can be read. -/
theorem operations_eq_ok {done : List Operation} (h : s.operations = done.map .ok) :
    ∃ ds, s.Reads ds ∧ done = .create s.name :: s.edits ds := by
  have hinj {xs ys : List Operation} (h : xs.map (Except.ok (ε := Failure)) = ys.map .ok) :
      xs = ys := List.map_injective_iff.mpr (fun _ _ => Except.ok.inj) h
  rw [operations_eq] at h
  obtain ⟨first, last, rfl, hfirst, hlast⟩ := List.map_eq_append_iff.mp h.symm
  obtain ⟨created, added, rfl, hcreated, hadded⟩ := List.map_eq_append_iff.mp hfirst
  obtain ⟨ds, hreads, rfl⟩ := forall₂_of_map_eq hadded.symm
  rw [hinj hcreated, hinj hlast]
  exact ⟨ds, hreads, rfl⟩

/-- **A section makes one configuration**, the last one. -/
theorem becomes_section {done : List Operation} (h : s.operations = done.map .ok)
    {c c' : Container} (hbecomes : c.Becomes done c') :
    ∃ ds, s.Reads ds ∧ c'.configurations = c.configurations ++ [s.declared ds] := by
  obtain ⟨ds, hreads, rfl⟩ := operations_eq_ok h
  cases hbecomes with
  | cons hcreate hedits =>
    have hnew : ∀ other ∈ c.configurations, other.name ≠ s.name := by
      intro other hother hname
      have hcontains : c.contains s.name = true :=
        Container.contains_iff.mpr (List.mem_map.mpr ⟨other, hother, hname⟩)
      rw [Container.refusal, if_pos hcontains] at hcreate
      cases hcreate
    have hlast := Container.becomes_edits (s.edits_edit ds) rfl hnew hedits
    refine ⟨ds, hreads, ?_⟩
    rw [hlast, edited_edits]

/-- **Sections make one configuration each**, in order. -/
theorem becomes_sections {sections : List ConfigurationSection} {done : List Operation}
    (h : sections.flatMap (·.operations) = done.map .ok) {c c' : Container}
    (hbecomes : c.Becomes done c') :
    ∃ made, c'.configurations = c.configurations ++ made ∧
      List.Forall₂ (fun s configuration => ∃ ds, s.Reads ds ∧ configuration = s.declared ds)
        sections made := by
  induction sections generalizing done c with
  | nil =>
    obtain rfl : done = [] := by simpa using h.symm
    cases hbecomes
    exact ⟨[], by simp, .nil⟩
  | cons s sections ih =>
    rw [List.flatMap_cons] at h
    obtain ⟨first, rest, rfl, hfirst, hrest⟩ := List.map_eq_append_iff.mp h.symm
    obtain ⟨c₁, hbecomes₁, hbecomes₂⟩ := hbecomes.of_append
    obtain ⟨ds, hreads, hc₁⟩ := becomes_section hfirst.symm hbecomes₁
    obtain ⟨made, hmade, hsections⟩ := ih hrest.symm hbecomes₂
    refine ⟨s.declared ds :: made, ?_, .cons ⟨ds, hreads, rfl⟩ hsections⟩
    rw [hmade, hc₁, List.append_assoc]
    rfl

end ConfigurationSection

end Componentry
