import Componentry.Proofs.Workspace.Declaration

/-!
# What a descriptor says of the root, and what the root shows

A descriptor says what the root metadata of its workspace should be: `Descriptor.RootOf` writes it
down section by section, without a mention of registries, containers or snapshots. What the
workspace shows at the first read is this, with one exception. The projects of the build are
registered by path, the project itself first. If the descriptor lists another project at the path of
the project itself (`Descriptor.Shadowed`), that one takes its place, and with it go the schema and
all locked versions. So the root is that of the descriptor as it is seen then (`Descriptor.seen`).

Results:
* `registered`: what is registered at the path of the project.
* `bare_attach_rootOf`: metadata with the declared configurations attached is what should be shown.
* **`root_translates`**: what the first read answers, and when it is what the descriptor says.
* `shadowed_root`: a descriptor for which it is not.
-/

namespace Componentry

/-- Texts that are read as module versions, in order. -/
def ReadAs (texts : List String) (ids : List ModuleVersionId) : Prop :=
  List.Forall₂ (fun text id => ModuleVersionId.parse text = .ok id) texts ids

namespace Descriptor

variable {d : Descriptor}

/-! ## What should be shown -/

/-- The versions locked for the configuration of a section, as the descriptor writes them: none if
the section does not ask for locking, or if the project has no path. -/
def lockTexts (d : Descriptor) (s : ConfigurationSection) : List String :=
  if s.dependencyLocking = true ∧ d.project.path.isSome = true then (d.locks.get? s.name).getD []
  else []

/-- **What the root should show of a section.** -/
structure Shows (d : Descriptor) (s : ConfigurationSection) (c : LocalConfiguration) : Prop where
  name : c.name = s.name
  attributes : c.attributes = s.attributes
  /-- The dependencies in order, and after them the files in order. -/
  dependencies : ∃ ds, s.Reads ds ∧ c.dependencies = ds ++ s.files.map Dependency.onFile
  artifacts : c.artifacts = s.artifacts.map (·.published)
  locked : ReadAs (d.lockTexts s) c.locked

/-- The schema is the set of the declared attribute names, and there is none without a path. -/
def SchemaIs (d : Descriptor) (schema : Option NameSet) : Prop :=
  match d.project.path with
  | none => schema = none
  | some _ => ∃ names, schema = some names ∧
      ∀ name, names.contains name = true ↔ name ∈ d.schema.attributes

/-- **What the root metadata of a descriptor should be.** -/
structure RootOf (d : Descriptor) (m : RootMetadata) : Prop where
  id : m.id = ⟨⟨d.project.group, d.project.name⟩, d.project.version⟩
  status : m.status = d.project.status
  componentId : m.componentId =
    match d.project.path with
    | some path => .project path
    | none => .module ⟨⟨d.project.group, d.project.name⟩, d.project.version⟩
  schema : d.SchemaIs m.schema
  configurations : List.Forall₂ d.Shows d.configurations m.configurations

/-- Another project of the build is listed at the path of the project itself. -/
def Shadowed (d : Descriptor) : Prop := ∃ s ∈ d.projects, d.project.path = some s.path

instance (d : Descriptor) : Decidable d.Shadowed :=
  inferInstanceAs (Decidable (∃ s ∈ d.projects, d.project.path = some s.path))

/-- The descriptor as the root sees it: a project that is shadowed has no schema and no locks. -/
def seen (d : Descriptor) : Descriptor :=
  if d.Shadowed then { d with schema := {}, locks := Dict.empty } else d

theorem seen_project (d : Descriptor) : d.seen.project = d.project := by
  unfold seen
  split <;> rfl

theorem seen_configurations (d : Descriptor) : d.seen.configurations = d.configurations := by
  unfold seen
  split <;> rfl

/-! ## What is registered -/

/-- A set has the names that it was made of. -/
theorem contains_ofNames (names : List String) (name : String) :
    (NameSet.ofNames names).contains name = true ↔ name ∈ names := by
  unfold NameSet.ofNames Dict.contains Dict.ofList
  rw [Dict.get?_insertAll, Dict.get?_empty, Option.or_none, ← not_iff_not, Bool.not_eq_true,
    Option.isSome_eq_false_iff, Option.isNone_iff_eq_none, Dict.lookup_eq_none_iff]
  simp

/-- **A project has the schema and the locks** that a descriptor declares. -/
structure Describes (d : Descriptor) (p : Project) : Prop where
  schema : ∀ name, p.schema.contains name = true ↔ name ∈ d.schema.attributes
  locked : ∀ name, ReadAs ((d.locks.get? name).getD []) (p.locking.state name).locked

theorem readLocks_ok {entry : String × List String} {locked : String × List ModuleVersionId}
    (h : readLocks entry = .ok locked) : locked.1 = entry.1 ∧ ReadAs entry.2 locked.2 := by
  unfold readLocks at h
  cases hids : entry.2.mapM ModuleVersionId.parse with
  | error failure =>
    rw [hids] at h
    cases h
  | ok ids =>
    rw [hids] at h
    obtain rfl := Except.ok.inj h
    exact ⟨rfl, mapM_eq_ok_iff.mp hids⟩

/-- What is locked is found under the name it is declared for. -/
theorem readAs_lookup {entries : List (String × List String)}
    {versions : List (String × List ModuleVersionId)}
    (h : List.Forall₂ (fun entry locked => readLocks entry = .ok locked) entries versions)
    (name : String) :
    ReadAs ((Dict.lookup name entries).getD []) ((Dict.lookup name versions).getD []) := by
  induction h with
  | nil => exact .nil
  | cons hentry _ ih =>
    obtain ⟨hname, hread⟩ := readLocks_ok hentry
    rw [Dict.lookup, Dict.lookup, hname]
    split
    · exact hread
    · exact ih

theorem locked_pinned (versions : Dict String (List ModuleVersionId)) (name : String) :
    ((Locking.pinned versions).state name).locked = (versions.get? name).getD [] := by
  rw [Locking.state]
  cases versions.get? name <;> rfl

theorem keys_readLocks {entries : List (String × List String)}
    {versions : List (String × List ModuleVersionId)}
    (h : List.Forall₂ (fun entry locked => readLocks entry = .ok locked) entries versions) :
    versions.map Prod.fst = entries.map Prod.fst := by
  induction h with
  | nil => rfl
  | cons hentry _ ih => rw [List.map_cons, List.map_cons, ih, (readLocks_ok hentry).1]

/-- The project itself, as the descriptor describes it. -/
theorem ownProject_ok {path : String} {own : Project} (h : d.ownProject path = .ok own) :
    own.path = path ∧ d.Describes own := by
  unfold ownProject at h
  cases hversions : d.locks.entries.mapM readLocks with
  | error fault =>
    rw [hversions] at h
    cases h
  | ok versions =>
    rw [hversions] at h
    obtain rfl := Except.ok.inj h
    have hall := mapM_eq_ok_iff.mp hversions
    have hnodup : (versions.map Prod.fst).Nodup := by
      rw [keys_readLocks hall]
      exact Dict.nodup_of_sorted d.locks.sorted
    refine ⟨rfl, contains_ofNames _, fun name => ?_⟩
    rw [locked_pinned, Dict.ofList, Dict.get?_insertAll, Dict.get?_empty, Option.or_none,
      Dict.lookup_reverse hnodup]
    exact readAs_lookup hall name

/-- Registering projects is writing them under their paths. -/
theorem find?_registerAll (ps : List Project) (path : String) :
    (ps.foldl Registry.register Dict.empty).find? path =
      Dict.lookup path (ps.map fun p => (p.path, p)).reverse := by
  have hinsert : ps.foldl Registry.register Dict.empty =
      Dict.insertAll Dict.empty (ps.map fun p => (p.path, p)) := by
    rw [Dict.insertAll, List.foldl_map]
    rfl
  rw [hinsert, Registry.find?, Dict.get?_insertAll, Dict.get?_empty, Option.or_none]

/-- The other projects, by path. -/
def others (d : Descriptor) : List (String × Project) :=
  d.projects.map fun s => (s.path, { path := s.path })

/-- The other projects have neither schema nor locks. -/
theorem lookup_others (d : Descriptor) (path : String) :
    Dict.lookup path d.others.reverse = none ∧ (∀ s ∈ d.projects, s.path ≠ path) ∨
      Dict.lookup path d.others.reverse = some { path := path } ∧
      ∃ s ∈ d.projects, s.path = path := by
  cases hlookup : Dict.lookup path d.others.reverse with
  | none =>
    refine .inl ⟨rfl, fun s hs hpath => Dict.lookup_eq_none_iff.mp hlookup ?_⟩
    simp only [others, List.map_reverse, List.map_map, List.mem_reverse, List.mem_map]
    exact ⟨s, hs, hpath⟩
  | some p =>
    obtain ⟨s, hs, hentry⟩ := List.mem_map.mp (List.mem_reverse.mp (Dict.mem_of_lookup hlookup))
    obtain ⟨rfl, rfl⟩ := Prod.mk.inj hentry
    exact .inr ⟨rfl, s, hs, rfl⟩

/-- What is registered at the path of the project: one of the other projects, or the project
itself. -/
theorem find?_registry {projects : Registry} (h : d.registry = .ok projects) {path : String}
    (hpath : d.project.path = some path) : ∃ own, d.ownProject path = .ok own ∧
      projects.find? path = (Dict.lookup path d.others.reverse).or (some own) := by
  unfold registry at h
  rw [hpath] at h
  cases hown : d.ownProject path with
  | error fault =>
    simp only [hown] at h
    cases h
  | ok own =>
    simp only [hown] at h
    obtain rfl := Except.ok.inj h
    refine ⟨own, rfl, (find?_registerAll _ path).trans ?_⟩
    rw [List.map_append, List.map_singleton, List.map_map, List.reverse_append, Dict.lookup_append,
      List.reverse_singleton, Dict.lookup, if_pos (ownProject_ok hown).1.symm]
    rfl

/-- **What is registered at the path of the project** is described by the descriptor as it is
seen. -/
theorem registered {projects : Registry} (h : d.registry = .ok projects) {path : String}
    (hpath : d.project.path = some path) :
    ∃ p, projects.find? path = some p ∧ d.seen.Describes p := by
  obtain ⟨own, hown, hfind⟩ := find?_registry h hpath
  rcases d.lookup_others path with ⟨hnone, hne⟩ | ⟨hsome, s, hs, rfl⟩
  · have hshadowed : ¬ d.Shadowed := by
      rintro ⟨s, hs, hpath'⟩
      exact hne s hs (Option.some.inj (hpath'.symm.trans hpath))
    rw [hnone] at hfind
    rw [seen, if_neg hshadowed]
    exact ⟨own, hfind, (ownProject_ok hown).2⟩
  · rw [hsome] at hfind
    rw [seen, if_pos ⟨s, hs, hpath⟩]
    refine ⟨_, hfind, fun name => ?_, fun name => .nil⟩
    simp [Dict.contains]

/-! ## What is shown -/

/-- A configuration that a section declares is shown as it should be, if locked versions are those
of the descriptor. -/
theorem shows_localConfiguration {locking : Locking} {s : ConfigurationSection}
    {ds : List Dependency} (hreads : s.Reads ds)
    (hlocked : s.dependencyLocking = true → ReadAs (d.lockTexts s) (locking.state s.name).locked) :
    d.Shows s (RootMetadata.localConfiguration locking (s.declared ds)) where
  name := rfl
  attributes := rfl
  dependencies := ⟨ds, hreads, rfl⟩
  artifacts := rfl
  locked := by
    unfold RootMetadata.localConfiguration ConfigurationSection.declared
    cases hlocking : s.dependencyLocking with
    | true => exact hlocked hlocking
    | false => simp [lockTexts, hlocking, ReadAs]

theorem coordinates_ok {p : ProjectSection} {identity : Coordinates}
    (h : p.coordinates = .ok identity) :
    identity = ⟨p.group, p.name, p.version, p.path, p.status⟩ := by
  unfold ProjectSection.coordinates at h
  cases hpath : p.path with
  | none =>
    simp only [hpath] at h
    exact (Except.ok.inj h).symm
  | some path =>
    simp only [hpath] at h
    cases hparse : ComponentId.parse path with
    | error failure =>
      rw [hparse] at h
      cases h
    | ok id =>
      rw [hparse] at h
      exact (Except.ok.inj h).symm

/-- The schema and the locked versions of the root are those of the descriptor as it is seen. -/
theorem bare_seen {identity : Coordinates} (hidentity : d.project.coordinates = .ok identity)
    {projects : Registry} (hprojects : d.registry = .ok projects) :
    d.seen.SchemaIs (RootMetadata.bare identity projects).schema ∧
      ∀ s : ConfigurationSection, s.dependencyLocking = true → ReadAs (d.seen.lockTexts s)
        ((RootMetadata.bare identity projects).locking.state s.name).locked := by
  obtain rfl := coordinates_ok hidentity
  unfold SchemaIs lockTexts RootMetadata.bare
  rw [seen_project]
  cases hpath : d.project.path with
  | none => exact ⟨rfl, fun s _ => by simp [ReadAs, Locking.state]⟩
  | some path =>
    obtain ⟨p, hfind, hdescribes⟩ := registered hprojects hpath
    have hbind : (some path).bind projects.find? = some p := hfind
    simp only [hbind]
    refine ⟨⟨p.schema, rfl, hdescribes.schema⟩, fun s hlocking => ?_⟩
    rw [if_pos ⟨hlocking, rfl⟩]
    exact hdescribes.locked s.name

/-- **Metadata with the declared configurations attached** is what the descriptor as it is seen says
of the root. -/
theorem bare_attach_rootOf {identity : Coordinates}
    (hidentity : d.project.coordinates = .ok identity)
    {projects : Registry} (hprojects : d.registry = .ok projects) {made : List Configuration}
    (hmade : List.Forall₂ (fun s configuration => ∃ ds, s.Reads ds ∧ configuration = s.declared ds)
      d.configurations made) :
    d.seen.RootOf ((RootMetadata.bare identity projects).attach made) := by
  obtain ⟨hschema, hlocked⟩ := bare_seen hidentity hprojects
  obtain rfl := coordinates_ok hidentity
  refine ⟨?_, ?_, ?_, hschema, ?_⟩
  · rw [seen_project]
    rfl
  · rw [seen_project]
    rfl
  · rw [seen_project]
    rfl
  · rw [seen_configurations]
    refine List.forall₂_map_right_iff.mpr (hmade.imp ?_)
    rintro s _ ⟨ds, hreads, rfl⟩
    exact shows_localConfiguration hreads (hlocked s)

/-! ## The first read -/

/-- What is put together of a descriptor: the project, the registry, and the session in which all
operations of the configurations were performed. -/
theorem session_of_assemble {base : Path} {w : Workspace}
    (h : (Workspace.assemble d base).outcome = .ok w) :
    ∃ identity projects, d.project.coordinates = .ok identity ∧ d.registry = .ok projects ∧
      ((Session.start identity projects).configure
        (d.configurations.flatMap (·.operations))).outcome = .ok w.session := by
  unfold Workspace.assemble at h
  simp only [Logged.outcome_bind] at h
  obtain ⟨identity, hidentity, h⟩ := exists_of_bind h
  obtain ⟨projects, hprojects, h⟩ := exists_of_bind h
  obtain ⟨session, hsession, h⟩ := exists_of_bind h
  obtain ⟨rules, -, h⟩ := exists_of_bind h
  obtain ⟨replacements, -, h⟩ := exists_of_bind h
  obtain ⟨_, -, h⟩ := exists_of_bind h
  obtain rfl := Except.ok.inj h
  refine ⟨identity, projects, ?_, hprojects, hsession⟩
  unfold Logged.ofClassified at hidentity
  cases hcoordinates : d.project.coordinates with
  | error failure =>
    rw [hcoordinates] at hidentity
    cases hidentity
  | ok c =>
    rw [hcoordinates] at hidentity
    exact congrArg _ (Except.ok.inj hidentity)

/-- **The session of a workspace** has the project, its build and one configuration per section. -/
theorem configured_of_assemble {base : Path} {w : Workspace}
    (h : (Workspace.assemble d base).outcome = .ok w) :
    ∃ identity projects made, d.project.coordinates = .ok identity ∧ d.registry = .ok projects ∧
      List.Forall₂ (fun s configuration => ∃ ds, s.Reads ds ∧ configuration = s.declared ds)
        d.configurations made ∧
      Session.Configured identity projects ⟨made⟩ w.session := by
  obtain ⟨identity, projects, hidentity, hprojects, hsession⟩ := session_of_assemble h
  obtain ⟨done, c, hdone, hbecomes, hconfigured⟩ := Session.configured_start hsession
  obtain ⟨made, hmade, hsections⟩ := ConfigurationSection.becomes_sections hdone hbecomes
  obtain rfl : c = ⟨made⟩ := congrArg Container.mk hmade
  exact ⟨identity, projects, made, hidentity, hprojects, hsections, hconfigured⟩

/-- **The first read of the root** answers what the descriptor as it is seen says of it. -/
theorem first_read {base : Path} {w : Workspace}
    (h : (Workspace.assemble d base).outcome = .ok w) :
    ∃ snapshot, (w.session.read 0).1 = .ok snapshot ∧ d.seen.RootOf snapshot.metadata := by
  obtain ⟨identity, projects, made, hidentity, hprojects, hsections, hconfigured⟩ :=
    configured_of_assemble h
  obtain ⟨x, hread, hmetadata⟩ := hconfigured.first_read
  refine ⟨x, hread, ?_⟩
  rw [hmetadata]
  exact bare_attach_rootOf hidentity hprojects hsections

/-! ## When the root is what the descriptor says -/

/-- The descriptor declares nothing that a project could lose when it is shadowed: no attribute
names, and no locked versions for a configuration that asks for them. -/
def NothingToLose (d : Descriptor) : Prop :=
  d.schema.attributes = [] ∧ ∀ s ∈ d.configurations, d.lockTexts s = []

theorem lockTexts_seen (h : d.Shadowed) (s : ConfigurationSection) : d.seen.lockTexts s = [] := by
  unfold lockTexts
  rw [seen, if_pos h]
  simp

/-- The root of a project that is shadowed has a schema without names. -/
theorem schema_of_shadowed (h : d.Shadowed) {m : RootMetadata} (hseen : d.seen.RootOf m) :
    ∃ names, m.schema = some names ∧
      ∀ name, names.contains name = true ↔ name ∈ ([] : List String) := by
  have ⟨other, _, hpath⟩ := h
  have hschema := hseen.schema
  unfold SchemaIs at hschema
  rw [seen_project, hpath, seen, if_pos h] at hschema
  exact hschema

/-- What is shown without locks and should be shown with the declared ones has none declared. -/
theorem lockTexts_eq_nil (h : d.Shadowed) {s : ConfigurationSection} {c : LocalConfiguration}
    (hseen : d.seen.Shows s c) (hshows : d.Shows s c) : d.lockTexts s = [] := by
  have hlocked := hseen.locked
  rw [lockTexts_seen h, ReadAs, List.forall₂_nil_left_iff] at hlocked
  have htexts := hshows.locked
  rwa [hlocked, ReadAs, List.forall₂_nil_right_iff] at htexts

/-- If the root of a project that is shadowed is what the descriptor says, nothing was lost. -/
theorem nothingToLose_of_rootOf (h : d.Shadowed) {m : RootMetadata} (hseen : d.seen.RootOf m)
    (hroot : d.RootOf m) : d.NothingToLose := by
  constructor
  · have ⟨other, _, hpath⟩ := h
    obtain ⟨names, hnames, hnone⟩ := schema_of_shadowed h hseen
    have hdeclared := hroot.schema
    unfold SchemaIs at hdeclared
    rw [hpath] at hdeclared
    obtain ⟨names', hnames', hall⟩ := hdeclared
    obtain rfl : names = names' := Option.some.inj (hnames.symm.trans hnames')
    exact List.eq_nil_iff_forall_not_mem.mpr fun name hname =>
      absurd ((hnone name).mp ((hall name).mpr hname)) List.not_mem_nil
  · have hconfigurations := hseen.configurations
    rw [seen_configurations] at hconfigurations
    have hboth : List.Forall₂ (fun s c => d.lockTexts s = [] ∧ d.Shows s c) d.configurations
        m.configurations :=
      List.Forall₂.mp (fun s c hseen hshows => ⟨lockTexts_eq_nil h hseen hshows, hshows⟩)
        hconfigurations hroot.configurations
    exact ((List.forall₂_and_left _ _).mp hboth).1

/-- If there is nothing to lose, the root of a project that is shadowed is what the descriptor
says. -/
theorem rootOf_of_nothingToLose (h : d.Shadowed) {m : RootMetadata} (hseen : d.seen.RootOf m)
    (hnothing : d.NothingToLose) : d.RootOf m := by
  have ⟨other, _, hpath⟩ := h
  have ⟨hid, hstatus, hcomponent, _, hconfigurations⟩ := hseen
  rw [seen_project] at hid hstatus hcomponent
  rw [seen_configurations] at hconfigurations
  obtain ⟨hattributes, hlocks⟩ := hnothing
  refine ⟨hid, hstatus, hcomponent, ?_, ?_⟩
  · unfold SchemaIs
    rw [hpath, hattributes]
    exact schema_of_shadowed h hseen
  · refine ((List.forall₂_and_left _ _).mpr ⟨hlocks, hconfigurations⟩).imp ?_
    rintro s c ⟨hnone, hshows⟩
    have hlocked := hshows.locked
    rw [lockTexts_seen h, ← hnone] at hlocked
    exact ⟨hshows.name, hshows.attributes, hshows.dependencies, hshows.artifacts, hlocked⟩

/-- **What the root shows of a descriptor.** Of every descriptor that is accepted, the first read of
the root succeeds. It answers what the descriptor says of the root, unless another project is listed
at the path of the project itself and there is something to lose by that: then it answers what the
descriptor would say without a schema and without locks. -/
theorem root_translates {base : Path} {w : Workspace}
    (h : (Workspace.assemble d base).outcome = .ok w) :
    ∃ snapshot, (w.session.read 0).1 = .ok snapshot ∧ d.seen.RootOf snapshot.metadata ∧
      (d.RootOf snapshot.metadata ↔ (d.Shadowed → d.NothingToLose)) := by
  obtain ⟨snapshot, hread, hseen⟩ := first_read h
  refine ⟨snapshot, hread, hseen, ?_⟩
  by_cases hshadowed : d.Shadowed
  · exact ⟨fun hroot _ => nothingToLose_of_rootOf hshadowed hseen hroot,
      fun hnothing => rootOf_of_nothingToLose hshadowed hseen (hnothing hshadowed)⟩
  · rw [seen, if_neg hshadowed] at hseen
    exact iff_of_true hseen fun h => absurd h hshadowed

/-- A project with a schema and a locked configuration, and another project at `path`. -/
def lockedApp (path : String) : Descriptor where
  project := { group := "org.example", name := "app", version := "1.0", path := some ":app" }
  schema := { attributes := ["usage"] }
  configurations := [{
    name := "runtime"
    dependencyLocking := true
    dependencies := ["org.example:lib:1.0"] }]
  locks := Dict.ofList [("runtime", ["org.example:lib:2.0"])]
  projects := [{ path := path }]

/-- With the other project at a path of its own, the root is what the descriptor says. -/
theorem root_translates_apart :
    ∃ w snapshot, (Workspace.assemble (lockedApp ":lib") "/work").outcome = .ok w ∧
      (w.session.read 0).1 = .ok snapshot ∧ (lockedApp ":lib").RootOf snapshot.metadata := by
  obtain ⟨w, hw⟩ : ∃ w, (Workspace.assemble (lockedApp ":lib") "/work").outcome = .ok w := ⟨_, rfl⟩
  obtain ⟨snapshot, hread, -, hroot⟩ := root_translates hw
  have hshadowed : ¬ (lockedApp ":lib").Shadowed := by decide
  exact ⟨w, snapshot, hw, hread, hroot.mpr fun h => absurd h hshadowed⟩

/-- **With the other project at the path of the project itself**, the root has no schema and no
locked version, though the descriptor declares both. -/
theorem shadowed_root :
    ∃ w snapshot, (Workspace.assemble (lockedApp ":app") "/work").outcome = .ok w ∧
      (w.session.read 0).1 = .ok snapshot ∧
      snapshot.metadata.schema = some Dict.empty ∧
      snapshot.metadata.configurations.map (·.locked) = [[]] ∧
      ¬ (lockedApp ":app").RootOf snapshot.metadata := by
  refine ⟨_, _, rfl, rfl, rfl, rfl, fun hroot => ?_⟩
  obtain ⟨names, hnames, hall⟩ := hroot.schema
  obtain rfl := Option.some.inj hnames
  exact absurd ((hall "usage").mpr List.mem_cons_self) (by decide)

end Descriptor

end Componentry
