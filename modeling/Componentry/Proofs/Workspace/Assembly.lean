import Componentry.Proofs.Replacement.Cycle
import Componentry.Proofs.Replacement.Order
import Componentry.Proofs.Rule.Registration
import Componentry.Proofs.Workspace.Check
import Componentry.Proofs.Workspace.Declaration

/-!
# Exactly the sound descriptors assemble

A workspace is put together in stages, and each stage is decided by its checks (`Decides`): reading
the path and the locked versions, declaring configurations, rules and replacements. What a stage
needs of the sections before it is carried along: the names that are taken, the inputs that rules
may have, and the graph of the replacements.

The configurations are declared by operations on a container, and `Container.perform` is what one of
them comes to. Only a creation can be refused; every other operation is about a configuration that
was created before.

Results:
* `decides_registry`, `decides_configurations`, `decides_rules`, `decides_replacements`: the stages.
* `leads_concat`: one replacement more redirects the edge of its module.
* `perform_edit`: no operation is refused other than a creation.
* **`assembles_iff_sound`**: sound descriptors assemble, and for others the first check that does
  not pass says why.
-/

namespace Componentry

open Relation

/-! ## The project and its locked versions -/

/-- A text that is read is decided by one check. -/
theorem Decides.read {α : Type} {c : Check} {x : Except Failure α} {P : α → Prop}
    {explained : Failure → Fault} (hpasses : c.Passes ↔ ∃ a, x = .ok a)
    (hok : ∀ a, x = .ok a → P a)
    (herror : ∀ failure, x = .error failure → c.Reports (explained failure)) :
    Decides [c] (x.mapError explained) P := by
  cases x with
  | ok a => exact .passes (hpasses.mpr ⟨a, rfl⟩) (hok a rfl)
  | error failure =>
    refine .fails (fun h => ?_) (herror failure rfl)
    obtain ⟨a, ha⟩ := hpasses.mp h
    exact absurd ha (by simp)

theorem mapError_mapM {α β ε ε' : Type} {f : α → Except ε β} {g : ε → ε'} (xs : List α) :
    (xs.mapM f).mapError g = xs.mapM fun x => (f x).mapError g := by
  induction xs with
  | nil => rfl
  | cons x rest ih =>
    rw [List.mapM_cons, List.mapM_cons, ← ih]
    cases f x with
    | error e => rfl
    | ok y => cases rest.mapM f <;> rfl

namespace Descriptor

variable {d : Descriptor}

theorem decides_path (d : Descriptor) :
    Decides (d.project.path.toList.map .path) (d.project.coordinates.mapError .failure)
      fun _ => True := by
  unfold ProjectSection.coordinates
  cases d.project.path with
  | none => exact .nothing trivial
  | some path =>
    refine Decides.read ?_ (fun _ _ => trivial) fun failure hfailure => ?_
    · cases hparse : ComponentId.parse path with
      | ok id => simp [Check.Passes, hparse, Except.map]
      | error failure => simp [Check.Passes, hparse, Except.map]
    · cases hparse : ComponentId.parse path with
      | ok id => simp [hparse, Except.map] at hfailure
      | error failure' =>
        obtain rfl : failure' = failure := by simpa [hparse, Except.map] using hfailure
        exact ⟨failure', hparse, rfl⟩

/-- What explains a locked version that cannot be read. -/
def lockNote (configuration : String) : String :=
  s!"Invalid lock entry for configuration '{configuration}'"

theorem readLocks_eq (entry : String × List String) :
    readLocks entry = (entry.2.mapM fun text => (ModuleVersionId.parse text).mapError fun failure =>
      .noted (lockNote entry.1) (.failure failure)).map (entry.1, ·) := by
  unfold readLocks
  rw [← mapError_mapM]
  cases entry.2.mapM ModuleVersionId.parse <;> rfl

theorem decides_locks (entry : String × List String) :
    Decides (entry.2.map (.lock entry.1)) (readLocks entry) fun _ => True := by
  rw [readLocks_eq, List.map_eq_flatMap]
  refine Decides.map (Q := fun _ => True) (Decides.mapM (Q := fun _ => True) (fun text => ?_) _)
    fun _ _ => trivial
  exact .read Iff.rfl (fun _ _ => trivial) fun failure hfailure => ⟨failure, hfailure, rfl⟩

theorem decides_registry (d : Descriptor) : Decides d.lockChecks d.registry fun _ => True := by
  unfold registry lockChecks
  refine Decides.map (P := fun _ => True) ?_ fun _ _ => trivial
  cases d.project.path with
  | none => exact .nothing trivial
  | some path =>
    refine Decides.map (P := fun _ => True) ?_ fun _ _ => trivial
    refine Decides.map (Decides.mapM (Q := fun _ => True) decides_locks _) fun _ _ => trivial

end Descriptor

/-! ## Operations on a container -/

namespace Container

variable {c c' : Container} {op : Operation} {ops : List Operation} {name : String}

/-- The container after an operation, or why there is none. -/
def perform (c : Container) : Except Failure Operation → Except Fault Container
  | .error failure => .error failure
  | .ok op =>
    match c.refusal op with
    | some failure => .error failure
    | none => .ok (c.apply op)

theorem perform_ok (h : c.refusal op = none) : c.perform (.ok op) = .ok (c.apply op) := by
  rw [perform, h]

theorem refusal_of_mem (hop : ∀ created, op ≠ .create created) (h : op.target ∈ c.names) :
    c.refusal op = none := by
  rw [refusal_edit hop, if_pos (contains_iff.mpr h)]

theorem names_apply_edit (hop : op.Edits name) (h : name ∈ c.names) :
    (c.apply op).names = c.names := by
  have hnames := (changes_edit hop.2 (hop.1.symm ▸ h)).names.1
  rwa [Operation.created?_edit hop.2, Option.toList_none, List.append_nil] at hnames

/-- **Edits of a configuration that exists are admitted**, and the names stay the same. -/
theorem foldlM_perform_edits (hops : ∀ op ∈ ops, op.Edits name) (h : name ∈ c.names) :
    ∃ c', (ops.map .ok).foldlM perform c = .ok c' ∧ c'.names = c.names := by
  induction ops generalizing c with
  | nil => exact ⟨c, rfl, rfl⟩
  | cons op rest ih =>
    obtain ⟨hop, hrest⟩ := List.forall_mem_cons.mp hops
    have hnames : (c.apply op).names = c.names := names_apply_edit hop h
    obtain ⟨c', hfold, hc'⟩ := ih hrest (hnames.symm ▸ h)
    refine ⟨c', ?_, hc'.trans hnames⟩
    rw [List.map_cons, List.foldlM_cons, perform_ok (refusal_of_mem hop.2 (hop.1.symm ▸ h))]
    exact hfold

/-- A configuration that was created stays. -/
theorem Becomes.mem_names (h : c.Becomes ops c')
    (hname : name ∈ c.names ∨ .create name ∈ ops) : name ∈ c'.names := by
  induction h with
  | nil => exact hname.resolve_right List.not_mem_nil
  | @cons c c' op ops hop _ ih =>
    obtain ⟨-, hchanges⟩ | ⟨failure, hfailure, -⟩ := c.changes_or_refuses op
    · rw [hchanges.names.1, List.mem_append] at ih
      rcases hname with hname | hname
      · exact ih (.inl (.inl hname))
      · rcases List.mem_cons.mp hname with rfl | hname
        · exact ih (.inl (.inr (by simp [Operation.created?])))
        · exact ih (.inr hname)
    · exact absurd (hop.symm.trans hfailure) (by simp)

end Container

/-- **What a session is configured to** is what its container admits. -/
theorem Session.outcome_configure (s : Session) (ops : List (Except Failure Operation)) :
    (s.configure ops).outcome.map (·.container) = ops.foldlM Container.perform s.container := by
  induction ops generalizing s with
  | nil => rfl
  | cons result rest ih =>
    rw [List.foldlM_cons]
    cases result with
    | error failure => rfl
    | ok op =>
      cases hrefusal : s.container.refusal op with
      | some failure =>
        have hperform : s.perform op = (.error failure, s) := by rw [perform, hrefusal]
        rw [Container.perform, hrefusal, configure, performAll, hperform]
        rfl
      | none =>
        rw [Container.perform_ok hrefusal]
        refine Eq.trans ?_ (ih { s.announce op.kind with container := s.container.apply op })
        rw [configure, configure, performAll, perform_eq hrefusal]

/-! ## The configurations -/

namespace ConfigurationSection

variable {s : ConfigurationSection} {before : List ConfigurationSection} {c : Container}

theorem edits_before (s : ConfigurationSection) : ∀ op ∈ s.editsBefore, op.Edits s.name :=
  fun op hop => s.edits_edit [] op (by simp [edits, hop])

theorem edits_after (s : ConfigurationSection) : ∀ op ∈ s.editsAfter, op.Edits s.name :=
  fun op hop => s.edits_edit [] op (by simp [edits, hop])

theorem decides_creation (h : c.names = before.map (·.name)) :
    Decides [.fresh s.name (before.map (·.name))] (c.perform (.ok (.create s.name)))
      fun c' => c'.names = (before ++ [s]).map (·.name) := by
  by_cases hname : s.name ∈ before.map (·.name)
  · have hrefusal : c.refusal (.create s.name) = some (.duplicateConfiguration s.name) :=
      if_pos (Container.contains_iff.mpr (h.symm ▸ hname))
    rw [Container.perform, hrefusal]
    exact .fails (fun hpasses => hpasses hname) rfl
  · have hrefusal : c.refusal (.create s.name) = none :=
      if_neg fun hcontains => hname (h ▸ Container.contains_iff.mp hcontains)
    rw [Container.perform_ok hrefusal]
    refine .passes hname ?_
    rw [List.map_append, ← h]
    simp [Container.names, Container.apply]

/-- The edits of a section have nothing to check once its configuration is created. -/
theorem decides_edits {ops : List Operation} {names : List String}
    (hops : ∀ op ∈ ops, op.Edits s.name) (hname : s.name ∈ names) (h : c.names = names) :
    Decides [] ((ops.map .ok).foldlM Container.perform c) fun c' => c'.names = names := by
  obtain ⟨c', hfold, hc'⟩ := Container.foldlM_perform_edits hops (h.symm ▸ hname)
  rw [hfold]
  exact .nothing (hc'.trans h)

theorem decides_dependency {text : String} {names : List String} (hname : s.name ∈ names)
    (h : c.names = names) :
    Decides [.dependency text] (c.perform ((Dependency.parse text).map (.addDependency s.name)))
      fun c' => c'.names = names := by
  cases hparse : Dependency.parse text with
  | error failure =>
    refine .fails (fun hpasses => ?_) ⟨failure, hparse, rfl⟩
    obtain ⟨found, hfound⟩ := hpasses
    exact absurd (hparse.symm.trans hfound) (by simp)
  | ok found =>
    have hop : (Operation.addDependency s.name found).Edits s.name := ⟨rfl, nofun⟩
    rw [Except.map, Container.perform_ok (Container.refusal_of_mem hop.2 (h.symm ▸ hname))]
    exact .passes ⟨found, hparse⟩ ((Container.names_apply_edit hop (h.symm ▸ hname)).trans h)

theorem along_dependencies (before texts : List String) :
    Check.along (fun _ text => [.dependency text]) before texts = texts.map .dependency := by
  induction texts generalizing before with
  | nil => rfl
  | cons text rest ih => rw [Check.along, ih, List.map_cons, List.singleton_append]

theorem decides_dependencies {names : List String} (hname : s.name ∈ names) (h : c.names = names) :
    Decides (s.dependencies.map .dependency)
      ((s.dependencies.map fun text => (Dependency.parse text).map (.addDependency s.name)).foldlM
        Container.perform c) fun c' => c'.names = names := by
  rw [← along_dependencies [], List.foldlM_map]
  exact Decides.along (g := fun _ c texts => texts.foldlM _ c)
    (I := fun _ c => Container.names c = names)
    (fun _ _ => rfl) (fun _ _ _ _ => List.foldlM_cons) (fun _ _ _ => decides_dependency hname) _ h

/-- **A section is declared unless its name is taken or a dependency of it cannot be read.** -/
theorem decides_operations (h : c.names = before.map (·.name)) :
    Decides (s.checks before) (s.operations.foldlM Container.perform c)
      fun c' => c'.names = (before ++ [s]).map (·.name) := by
  have hname : s.name ∈ (before ++ [s]).map (·.name) := by simp
  -- Creation, edits, dependencies and edits again: only the first and the third have anything to
  -- check.
  have hcreated := (decides_creation (s := s) h).bind fun c hc =>
    decides_edits s.edits_before hname hc
  have hread := hcreated.bind fun c hc => decides_dependencies hname hc
  have hedited := hread.bind fun c hc => decides_edits s.edits_after hname hc
  rw [operations_eq, List.foldlM_append, List.foldlM_append, List.map_cons, List.foldlM_cons]
  simpa only [checks, List.append_nil, List.singleton_append] using hedited

/-- A section starts with the creation of its configuration, and goes on with edits of it. -/
theorem operations_eq_cons (s : ConfigurationSection) : ∃ rest,
    s.operations = .ok (.create s.name) :: rest ∧ ∀ op, .ok op ∈ rest → op.Edits s.name := by
  refine ⟨_, operations_eq s, fun op hop => ?_⟩
  rcases List.mem_append.mp hop with hop | hop
  · rcases List.mem_append.mp hop with hop | hop
    · exact s.edits_before op (by simpa using hop)
    · obtain ⟨text, -, htext⟩ := List.mem_map.mp hop
      cases hparse : Dependency.parse text with
      | error failure => simp [hparse, Except.map] at htext
      | ok found =>
        obtain rfl : .addDependency s.name found = op := by simpa [hparse, Except.map] using htext
        exact ⟨rfl, nofun⟩
  · exact s.edits_after op (by simpa using hop)

/-- **What is not a creation is about a configuration that was created before.** -/
theorem creation_before {sections : List ConfigurationSection}
    {before after : List (Except Failure Operation)} {op : Operation}
    (h : sections.flatMap (·.operations) = before ++ .ok op :: after)
    (hop : ∀ created, op ≠ .create created) : .ok (.create op.target) ∈ before := by
  induction sections generalizing before with
  | nil => simp at h
  | cons s sections ih =>
    obtain ⟨rest, hoperations, hedits⟩ := s.operations_eq_cons
    rw [List.flatMap_cons] at h
    obtain ⟨more, rfl, hmore⟩ | ⟨more, hsection, hmore⟩ := List.append_eq_append_iff.mp h
    · exact List.mem_append_right _ (ih hmore)
    · -- The operation is one of this section's, unless this section is all that comes before it.
      cases more with
      | nil =>
        have hnone : Except.ok (.create op.target) ∈ ([] : List (Except Failure Operation)) :=
          ih hmore.symm
        exact absurd hnone List.not_mem_nil
      | cons first more =>
        obtain rfl := (List.cons.inj hmore).1
        rw [hoperations] at hsection
        cases before with
        | nil =>
          have hfirst := (List.cons.inj hsection).1
          exact absurd (Except.ok.inj hfirst).symm (hop s.name)
        | cons created before =>
          obtain ⟨rfl, rfl⟩ := List.cons.inj hsection
          have htarget := (hedits op (by simp)).1
          rw [htarget]
          exact List.mem_cons_self

/-- **No operation is refused other than a creation**, once those before it are performed. -/
theorem perform_edit {identity : Coordinates} {projects : Registry}
    {sections : List ConfigurationSection} {before after : List (Except Failure Operation)}
    {op : Operation} (h : sections.flatMap (·.operations) = before ++ .ok op :: after)
    (hop : ∀ created, op ≠ .create created)
    (hbefore : ((Session.start identity projects).performAll before).1 = .ok ()) :
    (((Session.start identity projects).performAll before).2.perform op).1 = .ok () := by
  obtain ⟨done, c, rfl, hbecomes, -, hslots⟩ := Session.performAll_ok hbefore
  obtain ⟨created, hmem, hcreated⟩ := List.mem_map.mp (creation_before h hop)
  obtain rfl := Except.ok.inj hcreated
  have htarget : op.target ∈ c.names := hbecomes.mem_names (.inr hmem)
  rw [Session.perform_eq (Container.refusal_of_mem hop (hslots.container ▸ htarget))]

theorem decides_configurations (identity : Coordinates) (projects : Registry)
    (sections : List ConfigurationSection) :
    Decides (Check.along checks [] sections)
      ((Session.start identity projects).configure (sections.flatMap (·.operations))).outcome
      fun s => s.container.names = sections.map (·.name) := by
  refine Decides.of_map (f := Session.container) (Q := fun c => c.names = sections.map (·.name)) ?_
  have hstart : ({} : Container).names = ([] : List ConfigurationSection).map (·.name) := rfl
  rw [Session.outcome_configure]
  exact Decides.along
    (g := fun _ c sections => (sections.flatMap (·.operations)).foldlM Container.perform c)
    (I := fun sections c => Container.names c = sections.map (·.name)) (fun _ _ => rfl)
    (fun _ _ _ _ => by rw [List.flatMap_cons, List.foldlM_append])
    (fun _ _ _ => decides_operations) sections hstart

end ConfigurationSection

/-! ## The rules -/

/-- Where rules can have Ivy descriptors only, a rule that asks for the other one is refused with
it. -/
theorem Rule.unsupported_of_pom {rule : Rule} (h : InputKind.pomDescriptor ∈ rule.inputs) :
    rule.unsupported [.ivyDescriptor] = some
      (.unsupportedInput rule.description "PomDescriptor" ["IvyModuleDescriptor"]) := by
  obtain ⟨pre, post, hinputs, hfirst⟩ := List.eq_append_cons_of_mem h
  refine Rule.unsupported_of_first hinputs (fun kind hkind => ?_) (by decide)
  cases kind with
  | ivyDescriptor => exact List.mem_singleton_self _
  | pomDescriptor => exact absurd hkind hfirst

namespace RuleBook

variable {b : RuleBook} {before : List RuleSection} {s : RuleSection} {index : Nat}

/-- Register the rule of the section at position `index`. -/
def declare (b : RuleBook) (index : Nat) (s : RuleSection) : Except Fault RuleBook := do
  let rule ← s.rule index
  match b.register (.withSpec none ⟨index, rule⟩) with
  | (.error failure, _) => .error failure
  | (.ok _, b) => .ok b

theorem declareAll_cons (b : RuleBook) (index : Nat) (s : RuleSection) (rest : List RuleSection) :
    b.declareAll index (s :: rest) =
      b.declare index s >>= fun b => b.declareAll (index + 1) rest := by
  rw [declareAll, declare]
  cases s.rule index with
  | error fault => rfl
  | ok rule =>
    simp only [bind, Except.bind]
    rcases b.register (.withSpec none ⟨index, rule⟩) with ⟨outcome, next⟩
    cases outcome <;> rfl

theorem decides_pattern (index : Nat) (s : RuleSection) :
    Decides (s.module.toList.map (.pattern index)) (s.rule index) fun rule =>
      rule.description = s.description index ∧ rule.inputs = s.inputs := by
  unfold RuleSection.rule
  cases s.module with
  | none => exact .nothing ⟨rfl, rfl⟩
  | some text =>
    cases hcompile : Glob.compile text with
    | ok tokens =>
      dsimp only
      rw [hcompile]
      exact .passes ⟨tokens, hcompile⟩ ⟨rfl, rfl⟩
    | error e =>
      dsimp only
      rw [hcompile]
      refine .fails (fun hpasses => ?_) ⟨e, hcompile, rfl⟩
      obtain ⟨tokens, htokens⟩ := hpasses
      exact absurd (hcompile.symm.trans htokens) (by simp)

theorem mem_inputs_iff :
    InputKind.pomDescriptor ∈ s.inputs ↔ InputKind.pomDescriptor ∈ s.requires := by
  unfold RuleSection.inputs
  rw [List.mem_eraseDups, List.mem_append]
  cases s.statusFromBranch <;> simp

theorem decides_inputs {rule : Rule} (hb : b.supported = [.ivyDescriptor])
    (hdescription : rule.description = s.description index) (hinputs : rule.inputs = s.inputs) :
    Decides [.inputs index s]
      (match b.register (.withSpec none ⟨index, rule⟩) with
        | (.error failure, _) => .error failure
        | (.ok _, b) => .ok b)
      fun b => b.supported = [.ivyDescriptor] := by
  by_cases hpom : InputKind.pomDescriptor ∈ s.requires
  · have hrefused := Rule.unsupported_of_pom (hinputs ▸ mem_inputs_iff.mpr hpom)
    rw [register, add, hb, hrefused, hdescription]
    exact .fails (fun hpasses => hpasses hpom) rfl
  · have hgranted : rule.unsupported b.supported = none := by
      rw [hb, Rule.unsupported_eq_none_iff, hinputs]
      intro kind hkind
      cases kind with
      | ivyDescriptor => exact List.mem_singleton_self _
      | pomDescriptor => exact absurd (mem_inputs_iff.mp hkind) hpom
    have hsupported : (b.register (.withSpec none ⟨index, rule⟩)).2.supported = b.supported :=
      supported_register
    obtain ⟨failure, hfailure, -⟩ | ⟨-, hadd⟩ := b.add_cases ⟨none, ⟨index, rule⟩⟩
    · exact absurd (hgranted.symm.trans hfailure) (by simp)
    · rw [register, hadd] at hsupported ⊢
      exact .passes hpom (hsupported.trans hb)

/-- **A rule is registered unless its pattern cannot be read or it asks for what rules cannot
have.** -/
theorem decides_rule (h : b.supported = [.ivyDescriptor]) :
    Decides (s.checks before) (b.declare before.length s) fun b => b.supported = [.ivyDescriptor] :=
  (decides_pattern before.length s).bind fun _ ⟨hdescription, hinputs⟩ =>
    decides_inputs h hdescription hinputs

theorem decides_rules (sections : List RuleSection) :
    Decides (Check.along RuleSection.checks [] sections) (declareAll {} 0 sections)
      fun b => b.supported = [.ivyDescriptor] :=
  Decides.along (g := fun index b sections => declareAll b index sections) (fun _ _ => rfl)
    (fun index b s rest => declareAll_cons b index s rest) (fun _ _ _ => decides_rule) sections rfl

end RuleBook

/-! ## The replacements -/

section

variable {r : Replacements} {before : List ReplacementSection} {s : ReplacementSection}
  {m t : ModuleId}

/-- **One replacement more redirects the edge of its module.** -/
theorem ReplacementSection.leads_concat (hm : ModuleId.parse s.module = .ok m)
    (ht : ModuleId.parse s.replacedBy = .ok t) (hr : r.Leads = Leads before) :
    Leads (before ++ [s]) = r.LeadsWith m t := by
  funext a b
  unfold Replacements.LeadsWith Replacements.LeadsApart
  rw [hr]
  refine propext ⟨?_, ?_⟩
  · rintro ⟨pre, x, post, hsplit, ha, hb, hlast⟩
    -- Either the new section is the last one about `a`, or it comes after that and is not about
    -- `a`.
    obtain rfl | ⟨post, y, rfl⟩ := post.eq_nil_or_concat'
    · obtain ⟨-, hx⟩ := List.append_inj' hsplit rfl
      obtain rfl := List.singleton_inj.mp hx
      exact .inr ⟨Except.ok.inj (ha.symm.trans hm), Except.ok.inj (hb.symm.trans ht)⟩
    · rw [← List.cons_append, ← List.append_assoc] at hsplit
      obtain ⟨hbefore, hy⟩ := List.append_inj' hsplit rfl
      obtain rfl := List.singleton_inj.mp hy
      refine .inl ⟨?_, pre, x, post, hbefore, ha, hb, fun later hlater => ?_⟩
      · rintro rfl
        exact hlast s (by simp) hm
      · exact hlast later (List.mem_append_left _ hlater)
  · rintro (⟨hne, pre, x, post, rfl, ha, hb, hlast⟩ | ⟨rfl, rfl⟩)
    · refine ⟨pre, x, post ++ [s], by simp, ha, hb, fun later hlater => ?_⟩
      rcases List.mem_append.mp hlater with hlater | hlater
      · exact hlast later hlater
      · rw [List.mem_singleton.mp hlater, hm]
        exact fun h => hne (Except.ok.inj h).symm
    · exact ⟨before, s, [], rfl, hm, ht, fun _ h => absurd h List.not_mem_nil⟩

namespace Replacements

/-- What the sections so far leave to the next one: the graph that they declare, without a cycle. -/
def Follows (r : Replacements) (before : List ReplacementSection) : Prop :=
  r.Acyclic ∧ r.Leads = ReplacementSection.Leads before

theorem decides_module (text : String) :
    Decides [.module text] ((ModuleId.parse text).mapError .failure) fun m =>
      ModuleId.parse text = .ok m :=
  .read Iff.rfl (fun _ hm => hm) fun _ hfailure =>
    congrArg Fault.failure (ModuleId.parse_error hfailure)

/-- **A replacement is declared unless it closes a cycle**, and then this is what is reported. -/
theorem decides_declaration (h : r.Follows before) (hm : ModuleId.parse s.module = .ok m)
    (ht : ModuleId.parse s.replacedBy = .ok t) :
    Decides [.acyclic before s] ((r.declare ⟨m, t, s.reason⟩).mapError .failure)
      fun r => r.Follows (before ++ [s]) := by
  obtain ⟨hacyclic, hleads⟩ := h
  have hconcat := ReplacementSection.leads_concat hm ht hleads
  have hcloses := exists_transGen_leadsWith_iff (m := m) (t := t) hacyclic
  rw [← hconcat] at hcloses
  -- The walk looks for a way back from the target only; as there was no cycle before, any cycle
  -- that the sections have now is one through the new edge.
  by_cases hback : ReflTransGen (r.LeadsApart m) t m
  · obtain ⟨way, hway⟩ := exists_way_iff.mpr hback
    have hcycle : r.cycle? m t = some (m :: way ++ [m]) := by
      rw [cycle?, walk_eq_some_iff.mpr ⟨hway, hway.length_le_size⟩]
      rfl
    rw [declare, hcycle]
    refine .fails (fun hpasses => hpasses (hcloses.mpr hback))
      ⟨m, t, way, hm, ht, hway.not_mem, ?_, rfl⟩
    obtain ⟨hhead, hchain⟩ := hway.isChain
    rw [hconcat, List.cons_append, List.isChain_cons]
    refine ⟨fun x hx => ?_, hchain.imp fun _ _ => leadsWith_of_leadsApart⟩
    rw [hhead] at hx
    exact .inr ⟨rfl, (Option.some.inj hx).symm⟩
  · rw [declare_of_not_reaches hback]
    refine .passes (fun hcycle => hback (hcloses.mp hcycle)) ⟨?_, ?_⟩
    · exact (acyclic_insert_iff hacyclic _).mpr hback
    · exact (leads_insert _).trans hconcat.symm

/-- **A section is declared unless one of its texts is not a module or it closes a cycle.** -/
theorem decides_section (h : r.Follows before) :
    Decides (s.checks before) ((r.request s.request).mapError .failure)
      fun r => r.Follows (before ++ [s]) := by
  have hrequest : (r.request s.request).mapError .failure =
      (ModuleId.parse s.module).mapError Fault.failure >>= fun m =>
        (ModuleId.parse s.replacedBy).mapError .failure >>= fun t =>
          (r.declare ⟨m, t, s.reason⟩).mapError .failure := by
    unfold request ReplacementRequest.read ReplacementDeclaration.parse ReplacementSection.request
    dsimp only
    cases ModuleId.parse s.module with
    | error failure => rfl
    | ok m => cases ModuleId.parse s.replacedBy <;> rfl
  rw [hrequest]
  refine (decides_module s.module).bind fun m hm => ?_
  exact (decides_module s.replacedBy).bind fun t ht => decides_declaration h hm ht

theorem outcome_declareAll_cons (r : Replacements) (s : ReplacementSection)
    (rest : List ReplacementSection) : (r.declareAll (s :: rest)).outcome =
      (r.request s.request).mapError .failure >>= fun r => (r.declareAll rest).outcome := by
  have hrequest : r.request s.request = s.declaration.bind r.declare := rfl
  rw [declareAll, hrequest]
  simp only [Logged.outcome_bind]
  cases s.declaration with
  | error failure => rfl
  | ok d => cases r.declare d <;> rfl

theorem follows_nil : Follows Dict.empty [] := by
  refine ⟨acyclic_empty, funext fun a => funext fun b => propext ⟨?_, ?_⟩⟩
  · rintro ⟨p, hp, -⟩
    exact absurd hp (by simp [replacementOf])
  · rintro ⟨pre, x, post, hsplit, -⟩
    simp at hsplit

theorem decides_replacements (sections : List ReplacementSection) :
    Decides (Check.along ReplacementSection.checks [] sections)
      (declareAll Dict.empty sections).outcome fun r => r.Follows sections :=
  Decides.along (g := fun _ r sections => (declareAll r sections).outcome) (I := fun before r =>
    Follows r before) (fun _ _ => rfl) (fun _ r s rest => outcome_declareAll_cons r s rest)
    (fun _ _ _ => decides_section) sections follows_nil

end Replacements

end

/-! ## The workspace -/

namespace Descriptor

theorem decides_assemble (d : Descriptor) (base : Path) :
    Decides d.checks (Workspace.assemble d base).outcome fun _ => True := by
  unfold Workspace.assemble checks
  simp only [Logged.outcome_bind]
  refine d.decides_path.bind fun identity _ => d.decides_registry.bind fun projects _ => ?_
  refine (ConfigurationSection.decides_configurations _ _ d.configurations).bind fun session _ => ?_
  refine (RuleBook.decides_rules d.rules).bind fun rules _ => ?_
  rw [← List.append_nil (Check.along ReplacementSection.checks [] d.replacements)]
  exact (Replacements.decides_replacements d.replacements).bind
    fun replacements _ => .nothing trivial

/-- **Exactly the sound descriptors assemble.** Of any other, the first check that does not pass
says why there is no workspace. What is not checked cannot go wrong: among the operations that
declare the configurations, each one that is not a creation is performed once those before it
are. -/
theorem assembles_iff_sound (d : Descriptor) (base : Path) :
    ((∃ w, (Workspace.assemble d base).outcome = .ok w) ↔ d.Sound) ∧
      (∀ fault, (Workspace.assemble d base).outcome = .error fault →
        ∃ before c after, d.checks = before ++ c :: after ∧ (∀ b ∈ before, b.Passes) ∧
          ¬ c.Passes ∧ c.Reports fault) ∧
      ∀ identity projects before op after,
        d.configurations.flatMap (·.operations) = before ++ .ok op :: after →
        (∀ created, op ≠ .create created) →
        ((Session.start identity projects).performAll before).1 = .ok () →
        (((Session.start identity projects).performAll before).2.perform op).1 = .ok () := by
  have hdecides := d.decides_assemble base
  refine ⟨?_, hdecides.first, fun _ _ _ _ _ => ConfigurationSection.perform_edit⟩
  rw [sound_iff]
  exact hdecides.iff

/-- Two configurations have one name, and what is replaced is no module: the name is reported. -/
theorem assembles_iff_sound_repeated :
    let d : Descriptor :=
      { project := ⟨"org", "app", "1", defaultStatus, none⟩
        configurations := [{ name := "api" }, { name := "api" }]
        replacements := [⟨"log", "log:core", none⟩] }
    (Workspace.assemble d ".").outcome = .error (.failure (.duplicateConfiguration "api")) ∧
      ¬ d.Sound := by
  intro d
  have houtcome : (Workspace.assemble d ".").outcome =
      .error (.failure (.duplicateConfiguration "api")) := rfl
  refine ⟨houtcome, fun hsound => ?_⟩
  obtain ⟨w, hw⟩ := (assembles_iff_sound d ".").1.mpr hsound
  exact absurd (houtcome.symm.trans hw) (by simp)

end Descriptor

end Componentry
