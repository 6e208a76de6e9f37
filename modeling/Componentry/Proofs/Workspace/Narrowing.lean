import Componentry.Command.Run
import Componentry.Proofs.Command.Printing
import Componentry.Proofs.Workspace.RootTranslation

/-!
# Narrowing commutes with building

Metadata of some configurations only can be had in two ways. A builder over a narrower source finds
these configurations, and attaches them. Or all configurations are attached, with the versions that
are locked for them, and those that are not wanted are left out of the metadata. Both come to the
same, so the root that is shown for some names is that of the project with the named configurations
only.

* `RootMetadata.restrict names m`: the metadata with the named configurations only.
* `RootMetadata.NarrowsTo m names answer`: what should be answered for some names, `m` being the
  metadata of the project.
* `Session.Narrows names source i j s`: both builders answer, builder `j` with all that the source
  holds, and builder `i` with its restriction.

Results:
* `attach_named`: selecting configurations by name before they are attached is selecting them after
  it.
* `narrows_derived`: what a builder that was derived for some names has to do with one over all.
* `narrowsTo_rootMetadata`: what a workspace answers that is asked for the root of some names.
* **`narrowing_commutes`**: builders, and the command that shows the root. What it prints of the
  metadata is `RootMetadata.printed`.
-/

namespace Componentry

namespace RootMetadata

variable {m : RootMetadata}

/-- **The metadata with the named configurations only**, in the order they have. -/
def restrict (names : List String) (m : RootMetadata) : RootMetadata :=
  { m with configurations := m.configurations.filter fun c => c.name ∈ names }

/-- The names of the configurations, in order. -/
def names (m : RootMetadata) : List String := m.configurations.map (·.name)

/-- **What should be shown for some names.** Without names that is all of the metadata. Names that
all exist, in any order and as often as one likes, restrict it. Otherwise the first name is reported
that does not exist. -/
inductive NarrowsTo (m : RootMetadata) : List String → Except Fault RootMetadata → Prop
  | all : NarrowsTo m [] (.ok m)
  | named {names : List String} : names ≠ [] → (∀ name ∈ names, name ∈ m.names) →
      NarrowsTo m names (.ok (m.restrict names))
  | missing {before after : List String} {missing : String} :
      (∀ name ∈ before, name ∈ m.names) → missing ∉ m.names →
      NarrowsTo m (before ++ missing :: after) (.error (.failure (.configurationNotFound missing)))

/-- **Selecting before attaching is selecting after it.** -/
theorem attach_named (names : List String) (source : Source) (container : Container) :
    m.attach ((Source.named names source).read container) =
      (m.attach (source.read container)).restrict names := by
  rw [attach_read, attach_read, shown_named]
  simp only [restrict, List.contains_eq_mem]

theorem names_attach (given : List Configuration) :
    (m.attach given).names = given.map (·.name) := by
  simp [names, attach, localConfiguration]

end RootMetadata

namespace Session

variable {s : Session} {i j k : Nat} {names : List String}

/-- **Two builders answer**, builder `j` with all configurations of a source, in order, and builder
`i` with the restriction of this. -/
def Narrows (names : List String) (source : Source) (i j : Nat) (s : Session) : Prop :=
  ∃ x y, (s.read i).1 = .ok x ∧ (s.read j).1 = .ok y ∧
    y.metadata.names = (source.read s.container).map (·.name) ∧
    x.metadata = y.metadata.restrict names

/-- Two builders without a snapshot, one of them over the named configurations of the other one's
source. -/
theorem narrows_uncached {b full : Builder} (hb : s.builders[i]? = some b)
    (hfull : s.builders[j]? = some full) (hsource : b.source = .named names full.source)
    (hwork : b.work = .plain) (hwork' : full.work = .plain) (hcached : b.slot.cached = none)
    (hcached' : full.slot.cached = none) : s.Narrows names full.source i j := by
  obtain ⟨x, hx, hmetadata⟩ := read_uncached hb hwork hcached
  obtain ⟨y, hy, hmetadata'⟩ := read_uncached hfull hwork' hcached'
  refine ⟨x, y, hx, hy, ?_, ?_⟩
  · rw [hmetadata', RootMetadata.names_attach]
  · rw [hmetadata, hmetadata', hsource, RootMetadata.attach_named]

/-- A new builder has an empty slot. -/
theorem derived_step (s : Session) (k : Nat) (source : Source) :
    (s.step (.derive k source)).2.builders[s.builders.length]? = some ⟨source, s.work k, {}⟩ :=
  List.getElem?_concat_length

/-- A builder that is derived keeps its source and its work, whatever happens later. -/
theorem derived_after (s : Session) (k : Nat) (source : Source) (actions : List Action) :
    ∃ slot, (s.after (.derive k source :: actions)).builders[s.builders.length]? =
      some ⟨source, s.work k, slot⟩ :=
  (prolongs_after _ actions).builder (derived_step s k source)

/-- **A builder that was derived for some names**, some time ago, and a builder over all
configurations of the same source. -/
theorem narrows_derived {full : Builder} {actions : List Action} (hwork : s.work k = .plain)
    (hcached : (s.after (.derive k (.named names full.source) :: actions)).isCached
      s.builders.length = false)
    (hfull : (s.after (.derive k (.named names full.source) :: actions)).builders[j]? = some full)
    (hwork' : full.work = .plain) (hcached' : full.slot.cached = none) :
    (s.after (.derive k (.named names full.source) :: actions)).Narrows names full.source
      s.builders.length j := by
  obtain ⟨slot, hb⟩ := derived_after s k (.named names full.source) actions
  rw [isCached, slot_eq hb, Option.isSome_eq_false_iff, Option.isNone_iff_eq_none] at hcached
  exact narrows_uncached hb hfull rfl hwork hwork' hcached hcached'

/-- Reading the named configurations of the container with a new builder. -/
theorem readNamed_restrict (hwork : s.work 0 = .plain) (names : List String) :
    ∃ x, (s.readNamed names).1 = .ok x ∧ x.metadata =
      ((RootMetadata.bare s.identity s.projects).attach s.container.configurations).restrict
        names := by
  obtain ⟨x, hx, hmetadata⟩ := read_uncached (derived_step s 0 (.named names .container)) hwork rfl
  exact ⟨x, hx, hmetadata.trans (RootMetadata.attach_named names .container _)⟩

end Session

/-! ## The command -/

/-- All of some names exist in a container, or one of them is the first that does not. -/
theorem Container.all_or_first_missing (c : Container) (names : List String) :
    (names.find? fun name => !c.contains name) = none ∧ (∀ name ∈ names, name ∈ c.names) ∨
      ∃ before missing after, (names.find? fun name => !c.contains name) = some missing ∧
        names = before ++ missing :: after ∧ (∀ name ∈ before, name ∈ c.names) ∧
        missing ∉ c.names := by
  cases hfind : names.find? fun name => !c.contains name with
  | none =>
    refine .inl ⟨rfl, fun name hname => contains_iff.mp ?_⟩
    simpa using List.find?_eq_none.mp hfind name hname
  | some missing =>
    obtain ⟨hmissing, before, after, rfl, hbefore⟩ := List.find?_eq_some_iff_append.mp hfind
    refine .inr ⟨before, missing, after, rfl, rfl, fun name hname => contains_iff.mp ?_,
      fun hmem => ?_⟩
    · simpa using hbefore name hname
    · rw [contains_iff.mpr hmem] at hmissing
      cases hmissing

namespace Workspace

variable {w : Workspace} {identity : Coordinates} {projects : Registry} {c : Container}

/-- A workspace that was loaded was put together of a descriptor that was read. -/
theorem assemble_of_load {path : Path} {descriptor : Except Fault Descriptor}
    (h : (load path descriptor).outcome = .ok w) :
    ∃ d, descriptor = .ok d ∧ (assemble d (path.parent.getD "")).outcome = .ok w := by
  unfold load at h
  simp only [Logged.outcome_bind] at h
  obtain ⟨d, hd, h⟩ := exists_of_bind h
  obtain ⟨_, -, h⟩ := exists_of_bind h
  exact ⟨d, hd, h⟩

/-- **The root that a workspace shows for some names**, if nothing was read of it yet. -/
theorem narrowsTo_rootMetadata (h : Session.Configured identity projects c w.session)
    (names : List String) : ∃ y, (w.session.read 0).1 = .ok y ∧
      y.metadata.names = w.session.container.names ∧
      y.metadata.NarrowsTo names (w.rootMetadata names).outcome := by
  obtain ⟨y, hread, hmetadata⟩ := h.first_read
  have hnames : y.metadata.names = w.session.container.names := by
    rw [hmetadata, RootMetadata.names_attach, h.container]
    rfl
  refine ⟨y, hread, hnames, ?_⟩
  unfold rootMetadata
  rcases w.session.container.all_or_first_missing names with
    ⟨hfind, hall⟩ | ⟨before, missing, after, hfind, rfl, hbefore, hmissing⟩
  · rw [← hnames] at hall
    rw [hfind]
    by_cases hempty : names = []
    · subst hempty
      simp only [if_pos, hread]
      exact .all
    · obtain ⟨x, hx, hrestrict⟩ := Session.readNamed_restrict h.work names
      have hshown : x.metadata = y.metadata.restrict names := by
        rw [hrestrict, hmetadata, h.identity, h.projects, h.container]
      simp only [if_neg hempty, hx, Except.map, hshown]
      exact .named hempty hall
  · rw [← hnames] at hbefore hmissing
    rw [hfind]
    exact .missing hbefore hmissing

end Workspace

/-- **Narrowing commutes with building.** Let a builder be derived over the named configurations of
a source, from one that attaches what it finds, and let anything happen then. If it has no snapshot,
it answers the restriction of what any builder without a snapshot answers that attaches all
configurations of the source. And of all descriptors that are accepted, the command that shows the
root prints for some names the restriction of the metadata that the project has, in either format,
or reports the first name that does not exist. -/
theorem narrowing_commutes :
    (∀ (s : Session) (k j : Nat) (names : List String) (full : Builder)
        (actions : List Session.Action),
      let t := s.after (.derive k (.named names full.source) :: actions)
      s.work k = .plain → t.isCached s.builders.length = false → t.builders[j]? = some full →
      full.work = .plain → full.slot.cached = none →
      t.Narrows names full.source s.builders.length j) ∧
    ∀ (i : Invocation) (colors : Bool) (path : Path) (descriptor : Except Fault Descriptor)
        (w : Workspace) (names : List String) (format : OutputFormat),
      i.command = .root names format → (Workspace.load path descriptor).outcome = .ok w →
      ∃ y answer, (w.session.read 0).1 = .ok y ∧
        y.metadata.names = w.session.container.names ∧ y.metadata.NarrowsTo names answer ∧
        (i.run colors path descriptor).outcome =
          answer.map fun m => m.printed (i.colors colors) format := by
  constructor
  · intro s k j names full actions t hwork hcached hfull hwork' hcached'
    exact Session.narrows_derived hwork hcached hfull hwork' hcached'
  · intro i colors path descriptor w names format hcommand hload
    obtain ⟨d, -, hassemble⟩ := Workspace.assemble_of_load hload
    obtain ⟨identity, projects, made, -, -, -, hconfigured⟩ :=
      Descriptor.configured_of_assemble hassemble
    obtain ⟨y, hread, hnames, hnarrows⟩ := Workspace.narrowsTo_rootMetadata hconfigured names
    refine ⟨y, _, hread, hnames, hnarrows, ?_⟩
    simp only [← RootMetadata.print_eq]
    unfold Invocation.run Command.run
    rw [Logged.outcome_bind, hload, hcommand]
    exact Logged.outcome_bind _ _

/-- A builder that is derived while the container is empty, for a name that is given twice and one
that never exists. And the command over a project with two configurations: given one of them twice
it prints that one, in both formats, and given a name that does not exist it prints nothing. -/
theorem narrowing_commutes_of_app :
    let s := Session.start ⟨"org.example", "app", "1.0", none, "integration"⟩ Dict.empty
    let names := ["test", "none", "test"]
    let app := { Descriptor.lockedApp ":lib" with
      configurations := { name := "test" } :: (Descriptor.lockedApp ":lib").configurations }
    let asked (names : List String) (format : OutputFormat) : Invocation :=
      { command := .root names format }
    let run (i : Invocation) := (i.run true "/work/cmeta.toml" (.ok app)).outcome
    (s.after [.derive 0 (.named names .container), .perform (.create "runtime"),
      .perform (.create "test")]).Narrows names .container 1 0 ∧
    (∃ w, (Workspace.load "/work/cmeta.toml" (.ok app)).outcome = .ok w ∧
      w.session.container.names = ["test", "runtime"] ∧
      ∀ wanted format, ∃ y answer, (w.session.read 0).1 = .ok y ∧
        y.metadata.NarrowsTo wanted answer ∧
        run (asked wanted format) = answer.map fun m => m.printed true format) ∧
    (run (asked ["runtime", "runtime"] .text)).toOption = some
      ("\x1b[1morg.example:app:1.0\x1b[0m (project :app)\n" ++
        "  status: integration\n" ++
        "  schema: usage\n" ++
        "  \x1b[32mruntime\x1b[0m \x7b\x7d\n" ++
        "    dependency org.example:lib:1.0\n" ++
        "    locked org.example:lib:2.0\n") ∧
    (run (asked ["runtime", "runtime"] .json)).toOption = some
      ("\x7b\n" ++
        "  \"id\": \"org.example:app:1.0\",\n" ++
        "  \"component\": \x7b\n    \"kind\": \"project\",\n    \"path\": \":app\"\n  \x7d,\n" ++
        "  \"status\": \"integration\",\n" ++
        "  \"schema\": [\n    \"usage\"\n  ],\n" ++
        "  \"configurations\": [\n    \x7b\n" ++
        "      \"name\": \"runtime\",\n      \"attributes\": \x7b\x7d,\n" ++
        "      \"dependencies\": [\n        \"org.example:lib:1.0\"\n      ],\n" ++
        "      \"artifacts\": [],\n" ++
        "      \"locked\": [\n        \"org.example:lib:2.0\"\n      ]\n" ++
        "    \x7d\n  ]\n\x7d\n") ∧
    run (asked ["runtime", "main"] .json) = .error (.failure (.configurationNotFound "main")) := by
  intro s names app asked run
  -- The root builder was told of both configurations, so its slot is no longer the one it started
  -- with.
  let root : Builder := { slot := { generation := 2 } }
  obtain ⟨w, hload, hnames⟩ : ∃ w, (Workspace.load "/work/cmeta.toml" (.ok app)).outcome = .ok w ∧
      w.session.container.names = ["test", "runtime"] := ⟨_, rfl, rfl⟩
  refine ⟨narrowing_commutes.1 s 0 0 names root _ rfl rfl rfl rfl rfl,
    ⟨w, hload, hnames, fun wanted format => ?_⟩, ?_, ?_, rfl⟩
  · obtain ⟨y, answer, hread, -, hnarrows, hrun⟩ :=
      narrowing_commutes.2 (asked wanted format) true "/work/cmeta.toml" _ w wanted format rfl hload
    exact ⟨y, answer, hread, hnarrows, hrun⟩
  · decide +kernel
  · decide +kernel

end Componentry
