import Mathlib.Data.List.Induction
import Componentry.Proofs.Rule.Process
import Componentry.Workspace

/-!
# What declared rules come to

A rule section is `applicable` to a component if its pattern covers the module and, should it need
the Ivy descriptor, the component is an Ivy one. That depends on the identity and the format of the
component, which no rule changes, so it can be told of every section beforehand. What the rules make
of the details then has a closed form (`RuleSection.detailsAfter`): scheme and changing flag are
those of the last applicable section that declares one, attributes are merged, and the status goes
through each applicable section once.

Results:
* `declareAll_ok`: declared sections become rules, one each and in order.
* `runAll_edits`: the edits of a section never fail, and come to `RuleSection.revise`.
* `Declares.passes`: what the turn of a declared rule comes to.
* `foldl_apply`: turn after turn, this is the closed form.
* **`process_declared`**: what comes of declared rules on a component.
-/

namespace Componentry

/-! ## The closed form -/

namespace Component

/-- Whether the component was published with an Ivy descriptor. -/
def isIvy (c : Component) : Bool :=
  match c.format with
  | .ivy .. => true
  | _ => false

/-- The branch in the Ivy descriptor of the component, if it has one. -/
def branch? (c : Component) : Option String :=
  match c.format with
  | .ivy branch _ => branch
  | _ => none

/-- Ivy components supply their descriptor, and no others do. -/
theorem input_eq_some {c : Component} (h : c.isIvy = true) :
    ∃ given, c.input .ivyDescriptor = some given ∧ given.branch = c.branch? := by
  unfold isIvy at h
  unfold input branch?
  cases hformat : c.format with
  | ivy branch extraInfo => exact ⟨_, rfl, rfl⟩
  | maven packaging => rw [hformat] at h; exact absurd h (by simp)
  | gradle => rw [hformat] at h; exact absurd h (by simp)

theorem input_eq_none {c : Component} (h : c.isIvy = false) (kind : InputKind) :
    c.input kind = none := by
  unfold isIvy at h
  unfold input
  cases kind with
  | ivyDescriptor =>
    cases hformat : c.format with
    | ivy branch extraInfo => rw [hformat] at h; exact absurd h (by simp)
    | _ => rfl
  | pomDescriptor => rfl

end Component

namespace RuleSection

/-- Whether the pattern of a section covers a module; without a pattern all are. -/
def covers (s : RuleSection) (id : ModuleId) : Bool :=
  match s.module with
  | none => true
  | some pattern =>
    match Glob.compile pattern with
    | .ok tokens => Glob.covers tokens id.display.toList
    | .error _ => false

/-- Whether a section needs the Ivy descriptor: because it says so, or for the branch. -/
def needsIvy (s : RuleSection) : Bool := s.requires.contains .ivyDescriptor || s.statusFromBranch

/-- **Whether a section is applicable to a component.** -/
def applicable (s : RuleSection) (c : Component) : Bool :=
  s.covers c.id.toModuleId && (!s.needsIvy || c.isIvy)

/-- The status after a section: replaced, then appended to, then replaced by the branch. -/
def statusAfter (branch : Option String) (status : String) (s : RuleSection) : String :=
  let status := s.setStatus.getD status
  let status := status ++ s.appendStatus.getD ""
  if s.statusFromBranch then branch.getD status else status

/-- **What sections make of the details of a component**, in closed form. -/
def detailsAfter (sections : List RuleSection) (c : Component) : Details :=
  let applied := sections.filter (·.applicable c)
  { status := applied.foldl (statusAfter c.branch?) c.details.status
    scheme := (applied.reverse.findSome? (·.statusScheme)).getD c.details.scheme
    changing := (applied.reverse.findSome? (·.changing)).getD c.details.changing
    attributes := applied.foldl (fun attributes s => attributes.merge s.attributes)
      c.details.attributes }

/-! ## The edits of a section -/

/-- What one applicable section makes of details. -/
def revise (s : RuleSection) (branch : Option String) (d : Details) : Details where
  status := statusAfter branch d.status s
  scheme := s.statusScheme.getD d.scheme
  changing := s.changing.getD d.changing
  attributes := d.attributes.merge s.attributes

end RuleSection

namespace Edit

variable {inputs : List IvyDescriptor} {d d' d'' : Details} {edits more : List Edit}

/-- Edits that do not fail leave the others to be made. -/
theorem runAll_append (h : runAll inputs d edits = (.done, d')) :
    runAll inputs d (edits ++ more) = runAll inputs d' more := by
  induction edits generalizing d with
  | nil =>
    rw [runAll] at h
    rw [(Prod.mk.inj h).2]
    rfl
  | cons edit rest ih =>
    rw [runAll] at h
    rw [List.cons_append, runAll]
    split at h
    · exact ih h
    · rename_i hstopped
      exact absurd h (fun h => hstopped _ h)

theorem runAll_setScheme (value : Option (List String)) (d : Details) :
    runAll inputs d (value.map setScheme).toList =
      (.done, { d with scheme := value.getD d.scheme }) := by
  cases value <;> rfl

theorem runAll_setStatus (value : Option String) (d : Details) :
    runAll inputs d (value.map setStatus).toList =
      (.done, { d with status := value.getD d.status }) := by
  cases value <;> rfl

theorem runAll_appendStatus (ending : Option String) (d : Details) :
    runAll inputs d (ending.map appendStatus).toList =
      (.done, { d with status := d.status ++ ending.getD "" }) := by
  cases ending with
  | none =>
    rw [Option.getD_none, String.append_empty]
    rfl
  | some _ => rfl

theorem runAll_statusFromBranch (wanted : Bool) (d : Details) :
    runAll inputs d (if wanted then [statusFromBranch] else []) =
      (.done, { d with status :=
        if wanted then (inputs.findSome? (·.branch)).getD d.status else d.status }) := by
  cases wanted with
  | false => rfl
  | true =>
    simp only [if_true, runAll, run]
    cases inputs.findSome? (·.branch) <;> rfl

theorem runAll_setChanging (value : Option Bool) (d : Details) :
    runAll inputs d (value.map setChanging).toList =
      (.done, { d with changing := value.getD d.changing }) := by
  cases value <;> rfl

/-- Setting attributes one by one merges them in. -/
theorem runAll_setAttribute (entries : List (String × String)) (d : Details) :
    runAll inputs d (entries.map fun e => setAttribute e.1 e.2) =
      (.done, { d with attributes := d.attributes.insertAll entries }) := by
  induction entries generalizing d with
  | nil => rfl
  | cons e rest ih =>
    rw [List.map_cons, runAll]
    exact ih _

end Edit

namespace RuleSection

/-- **The edits of a section never fail**, and come to its revision. -/
theorem runAll_edits (s : RuleSection) {inputs : List IvyDescriptor} (d : Details)
    {branch : Option String}
    (hbranch : s.statusFromBranch = true → inputs.findSome? (·.branch) = branch) :
    Edit.runAll inputs d s.edits = (.done, s.revise branch d) := by
  simp only [edits, List.append_assoc]
  rw [Edit.runAll_append (Edit.runAll_setScheme ..), Edit.runAll_append (Edit.runAll_setStatus ..),
    Edit.runAll_append (Edit.runAll_appendStatus ..),
    Edit.runAll_append (Edit.runAll_statusFromBranch ..),
    Edit.runAll_append (Edit.runAll_setChanging ..), Edit.runAll_setAttribute]
  unfold revise statusAfter
  by_cases hwanted : s.statusFromBranch = true
  · rw [hbranch hwanted]
    rfl
  · simp only [hwanted]
    rfl

end RuleSection

/-! ## One declared rule -/

/-- The rule of an entry is the one that a section declares, and was accepted. -/
structure RuleSection.Declares (s : RuleSection) (e : Entry) : Prop where
  spec : e.spec = none
  isFor : ∀ id details, e.action.rule.isFor id details = s.covers id.toModuleId
  inputs : e.action.rule.inputs = s.inputs
  body : e.action.rule.body = Body.ofEdits s.edits
  /-- Rules that need anything else are not accepted. -/
  supported : ∀ kind ∈ s.inputs, kind = .ivyDescriptor

namespace RuleSection

variable {s : RuleSection} {e : Entry} {c : Component}

/-- What the turn of a section makes of a component. -/
def apply (c : Component) (s : RuleSection) : Component :=
  if s.applicable c then { c with details := s.revise c.branch? c.details } else c

theorem mem_inputs_iff : InputKind.ivyDescriptor ∈ s.inputs ↔ s.needsIvy = true := by
  unfold inputs needsIvy
  rw [List.mem_eraseDups, List.mem_append, Bool.or_eq_true, List.contains_iff_mem]
  cases s.statusFromBranch <;> simp

/-- An applicable section's rule applies, and is given the branch if it asks for it. -/
theorem Declares.appliesTo (h : s.Declares e) (hc : s.applicable c = true) :
    ∃ given, e.AppliesTo c given ∧
      (s.statusFromBranch = true → given.findSome? (·.branch) = c.branch?) := by
  obtain ⟨hcovers, hivy⟩ := (Bool.and_eq_true _ _).mp hc
  have happlies : ∀ given,
      List.Forall₂ (fun kind found => c.input kind = some found) s.inputs given →
      e.AppliesTo c given := fun given hgiven =>
    { spec := fun spec hspec => absurd (h.spec.symm.trans hspec) (by simp)
      isFor := (h.isFor c.id c.details).trans hcovers
      inputs := h.inputs ▸ hgiven }
  cases hneeds : s.needsIvy with
  | false =>
    have hnone : s.inputs = [] := by
      refine List.eq_nil_iff_forall_not_mem.mpr fun kind hkind => ?_
      rw [h.supported kind hkind, mem_inputs_iff, hneeds] at hkind
      exact absurd hkind (by simp)
    refine ⟨[], happlies [] (hnone ▸ .nil), fun hbranch => ?_⟩
    unfold needsIvy at hneeds
    rw [hbranch, Bool.or_true] at hneeds
    exact absurd hneeds (by simp)
  | true =>
    rw [hneeds] at hivy
    obtain ⟨found, hfound, hbranch⟩ := Component.input_eq_some hivy
    -- Whatever a rule is given, it is the same descriptor each time.
    refine ⟨s.inputs.map fun _ => found, happlies _ ?_, fun _ => ?_⟩
    · rw [List.forall₂_map_right_iff, List.forall₂_same]
      intro kind hkind
      rw [h.supported kind hkind, hfound]
    · obtain ⟨kind, rest, hinputs⟩ := List.exists_cons_of_ne_nil
        (List.ne_nil_of_mem (mem_inputs_iff.mpr hneeds))
      rw [hinputs, List.map_cons, List.findSome?_cons, hbranch]
      cases hnone : c.branch? with
      | some branch => rfl
      | none =>
        refine List.findSome?_eq_none_iff.mpr fun given hgiven => ?_
        obtain ⟨_, -, rfl⟩ := List.mem_map.mp hgiven
        exact hbranch.trans hnone

/-- The rule of a section that is not applicable does not apply. -/
theorem Declares.not_appliesTo (h : s.Declares e) (hc : s.applicable c = false)
    (given : List IvyDescriptor) : ¬ e.AppliesTo c given := by
  intro happlies
  have hcovers : s.covers c.id.toModuleId = true :=
    (h.isFor c.id c.details).symm.trans happlies.isFor
  have hall : ∀ {kinds : List InputKind} {given : List IvyDescriptor},
      List.Forall₂ (fun kind found => c.input kind = some found) kinds given →
      ∀ kind ∈ kinds, c.input kind ≠ none := by
    intro kinds given hgiven
    induction hgiven with
    | nil => exact fun _ h => absurd h List.not_mem_nil
    | cons hfound _ ih =>
      intro kind hkind
      rcases List.mem_cons.mp hkind with rfl | hkind
      · simp [hfound]
      · exact ih kind hkind
  unfold applicable at hc
  rw [hcovers, Bool.true_and, Bool.or_eq_false_iff, Bool.not_eq_false'] at hc
  have hinput : InputKind.ivyDescriptor ∈ e.action.rule.inputs := by
    rw [h.inputs]
    exact mem_inputs_iff.mpr hc.1
  exact hall happlies.inputs _ hinput (Component.input_eq_none hc.2 _)

/-- **What the turn of a declared rule comes to.** -/
theorem Declares.passes (h : s.Declares e) (c : Component) : e.Passes c (apply c s) := by
  unfold apply
  by_cases hc : s.applicable c = true
  · rw [if_pos hc]
    obtain ⟨given, happlies, hbranch⟩ := h.appliesTo hc
    refine .edits happlies ?_
    rw [h.body]
    exact s.runAll_edits c.details hbranch
  · rw [if_neg hc]
    exact .idle (h.not_appliesTo (Bool.eq_false_iff.mpr hc))

/-- Declared rules are all passed. -/
theorem exists_passed {sections : List RuleSection} {entries : List Entry}
    (h : List.Forall₂ Declares sections entries) (c : Component) :
    ∃ events, Passed entries c events (sections.foldl apply c) := by
  induction h generalizing c with
  | nil => exact ⟨[], .nil⟩
  | cons hdeclares _ ih =>
    obtain ⟨events, hpassed⟩ := ih (apply c _)
    exact ⟨_, .cons (hdeclares.passes c) hpassed⟩

/-! ## All of them -/

/-- Rules do not change which rules are applicable. -/
theorem applicable_details (s : RuleSection) (c : Component) (details : Details) :
    s.applicable { c with details := details } = s.applicable c := rfl

/-- The closed form with one more section at the end. -/
theorem detailsAfter_concat (sections : List RuleSection) (s : RuleSection) (c : Component) :
    detailsAfter (sections ++ [s]) c =
      if s.applicable c then s.revise c.branch? (detailsAfter sections c)
      else detailsAfter sections c := by
  unfold detailsAfter
  dsimp only
  rw [List.filter_append]
  by_cases hc : s.applicable c = true
  · have hlast : [s].filter (·.applicable c) = [s] := by simp [hc]
    rw [if_pos hc, hlast]
    simp only [List.foldl_append, List.foldl_cons, List.foldl_nil, List.reverse_append,
      List.reverse_singleton, List.singleton_append, List.findSome?_cons, revise]
    cases s.statusScheme <;> cases s.changing <;> rfl
  · have hlast : [s].filter (·.applicable c) = [] := by simp [hc]
    rw [if_neg hc, hlast, List.append_nil]

/-- **Turn after turn, the sections come to their outcome.** -/
theorem foldl_apply (sections : List RuleSection) (c : Component) :
    sections.foldl apply c = { c with details := detailsAfter sections c } := by
  induction sections using List.reverseRecOn with
  | nil => rfl
  | append_singleton sections s ih =>
    rw [List.foldl_append, ih, detailsAfter_concat]
    change apply _ s = _
    unfold apply
    rw [applicable_details]
    split <;> rfl

end RuleSection

/-! ## Declared rule books -/

namespace RuleBook

open RuleSection

/-- A rule that is declared and accepted. -/
theorem declares_of_rule {s : RuleSection} {index : Nat} {rule : Rule}
    (hrule : s.rule index = .ok rule) (hsupported : rule.unsupported [.ivyDescriptor] = none) :
    s.Declares { action := ⟨index, rule⟩ } := by
  have hfor : ∀ isFor : ModuleId → Bool, (∀ id, isFor id = s.covers id) →
      rule = s.ruleFor index isFor → s.Declares { action := ⟨index, rule⟩ } := by
    rintro isFor hcovers rfl
    refine ⟨rfl, fun id _ => hcovers id.toModuleId, rfl, rfl, fun kind hkind => ?_⟩
    have hnone := List.find?_eq_none.mp (Option.map_eq_none_iff.mp hsupported) kind hkind
    simpa using hnone
  unfold RuleSection.rule at hrule
  split at hrule
  · rename_i hmodule
    refine hfor _ (fun id => ?_) (Except.ok.inj hrule).symm
    unfold covers
    rw [hmodule]
  · rename_i pattern hmodule
    split at hrule
    · rename_i tokens htokens
      refine hfor _ (fun id => ?_) (Except.ok.inj hrule).symm
      unfold covers
      rw [hmodule]
      dsimp only
      rw [htokens]
      exact Glob.isMatch_eq_covers tokens id.display.toList
    · exact absurd hrule (by simp)

/-- A rule with a new number is added at the end, if it is accepted. -/
theorem register_new {b b' : RuleBook} {action : RuleInstance} {done : Unit}
    (hnew : ∀ e ∈ b.entries, e.action.number < action.number)
    (h : b.register (.withSpec none action) = (.ok done, b')) :
    action.rule.unsupported b.supported = none ∧
      b' = { b with entries := b.entries ++ [{ action := action }] } := by
  have hfresh :
      ¬ b.entries.any (fun known => known.key == Entry.key { action := action }) = true := by
    rw [List.any_eq_true]
    rintro ⟨e, he, hkey⟩
    have hnumber : e.action.number = action.number :=
      congrArg Prod.snd (eq_of_beq hkey)
    exact absurd (hnew e he) (by omega)
  unfold register add at h
  dsimp only at h
  split at h
  · exact absurd (Prod.mk.inj h).1 (by simp)
  · rename_i hsupported
    rw [if_neg hfresh] at h
    exact ⟨hsupported, (Prod.mk.inj h).2.symm⟩

/-- **Declared sections become rules**, one each and in order, after those that are there. -/
theorem declareAll_ok {sections : List RuleSection} {b b' : RuleBook} {index : Nat}
    (hsupported : b.supported = [.ivyDescriptor])
    (hnumbers : ∀ e ∈ b.entries, e.action.number < index)
    (h : b.declareAll index sections = .ok b') :
    ∃ entries, b'.entries = b.entries ++ entries ∧ List.Forall₂ Declares sections entries := by
  induction sections generalizing b index with
  | nil =>
    rw [declareAll] at h
    obtain rfl := Except.ok.inj h
    exact ⟨[], (List.append_nil _).symm, .nil⟩
  | cons s rest ih =>
    rw [declareAll] at h
    split at h
    · exact absurd h (by simp)
    · rename_i rule hrule
      split at h
      · exact absurd h (by simp)
      · rename_i b₁ hregister
        obtain ⟨haccepted, hadded⟩ := register_new hnumbers hregister
        have hentries : b₁.entries = b.entries ++ [{ action := ⟨index, rule⟩ }] := by rw [hadded]
        have hsupported' : b₁.supported = [.ivyDescriptor] := by rw [hadded]; exact hsupported
        have hnumbers' : ∀ e ∈ b₁.entries, e.action.number < index + 1 := by
          intro e he
          rw [hentries] at he
          rcases List.mem_append.mp he with he | he
          · exact Nat.lt_succ_of_lt (hnumbers e he)
          · rw [List.mem_singleton.mp he]
            exact Nat.lt_succ_self index
        obtain ⟨more, hmore, hdeclares⟩ := ih hsupported' hnumbers' h
        rw [hentries, List.append_assoc] at hmore
        exact ⟨_, hmore, .cons (declares_of_rule hrule (hsupported ▸ haccepted)) hdeclares⟩

/-- **What comes of declared rules on a component.** No rule fails, the details are those of the
closed form, and processing succeeds if and only if its status is in its scheme; if it is not, the
failure names both. -/
theorem process_declared {sections : List RuleSection} {b : RuleBook}
    (h : declareAll {} 0 sections = .ok b) (c : Component) :
    (∃ events, Passed b.entries c events { c with details := detailsAfter sections c }) ∧
    (b.process c).component = { c with details := detailsAfter sections c } ∧
    (b.process c).outcome =
      if (detailsAfter sections c).status ∈ (detailsAfter sections c).scheme then .ok ()
      else .error (.failure (.unexpectedStatus c.id.display (detailsAfter sections c).status
        (detailsAfter sections c).scheme)) := by
  obtain ⟨entries, hentries, hdeclares⟩ :=
    declareAll_ok rfl (fun _ h => absurd h List.not_mem_nil) h
  obtain ⟨events, hpassed⟩ := exists_passed hdeclares c
  have hall : b.entries = entries := hentries
  rw [foldl_apply, ← hall] at hpassed
  refine ⟨⟨events, hpassed⟩, ?_⟩
  unfold process
  rw [processAll_of_passed hpassed]
  exact ⟨rfl, rfl⟩

/-- Rules that mark what was checked, and take statuses from branches. -/
def checking : List RuleSection :=
  [{ module := some "org.example:*", statusFromBranch := true, changing := some true,
      attributes := .single "kind" "branch" },
    { module := some "com.*", setStatus := some "unused" },
    { statusScheme := some ["main-checked", "release"], appendStatus := some "-checked",
      attributes := .single "checked" "yes" },
    { requires := [.ivyDescriptor], changing := some false }]

/-- A library, as it was published. -/
def library (format : Format) : Component where
  id := ⟨⟨"org.example", "lib"⟩, "1"⟩
  format := format

/-- The status of the library is in the scheme if it comes from the branch, and is not otherwise. -/
theorem process_declared_checking :
    ∃ b, declareAll {} 0 checking = .ok b ∧
      (b.process (library (.ivy (some "main") Dict.empty))).outcome = .ok () ∧
      (b.process (library (.ivy (some "main") Dict.empty))).component.details =
        { status := "main-checked", scheme := ["main-checked", "release"], changing := false
          attributes := (Attributes.single "kind" "branch").insert "checked" "yes" } ∧
      (b.process (library (.maven "jar"))).outcome =
        .error (.failure (.unexpectedStatus "org.example:lib:1" "integration-checked"
          ["main-checked", "release"])) := by
  obtain ⟨b, hb⟩ : ∃ b, declareAll {} 0 checking = .ok b := ⟨_, rfl⟩
  have hivy : detailsAfter checking (library (.ivy (some "main") Dict.empty)) =
      { status := "main-checked", scheme := ["main-checked", "release"], changing := false
        attributes := (Attributes.single "kind" "branch").insert "checked" "yes" } := by decide
  have hmaven : detailsAfter checking (library (.maven "jar")) =
      { status := "integration-checked", scheme := ["main-checked", "release"], changing := false
        attributes := .single "checked" "yes" } := by decide
  obtain ⟨-, hcomponent, houtcome⟩ := process_declared hb (library (.ivy (some "main") Dict.empty))
  obtain ⟨-, -, hfault⟩ := process_declared hb (library (.maven "jar"))
  rw [hivy] at hcomponent houtcome
  rw [hmaven] at hfault
  refine ⟨b, hb, ?_, ?_, ?_⟩
  · rw [houtcome, if_pos (by decide)]
  · rw [hcomponent]
  · rw [hfault, if_neg (by decide)]
    rfl

end RuleBook

end Componentry
