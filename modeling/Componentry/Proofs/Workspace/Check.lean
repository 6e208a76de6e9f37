import Componentry.Workspace
import Mathlib.Data.List.Induction
import Mathlib.Data.List.Nodup
import Mathlib.Logic.Relation

/-!
# What is checked of a descriptor

The form of a descriptor leaves some things open: whether its texts name what they should, whether
configurations have names of their own, whether rules ask for inputs there are, whether replacements
go round in circles. Each of these questions is a `Check`. It passes or it does not, and if it does
not, it has something to report.

`Descriptor.checks` lists the checks in the order in which they are made, and `Descriptor.Sound`
says what it means that all of them pass. Both speak of the descriptor only: what may depend on
earlier sections, like the name of a configuration or a replacement, is said with these sections.

* `ReplacementSection.Leads`: the graph of replacements that sections declare.
* `Decides`: an outcome is decided by checks, made in order up to the first that does not pass.

Results:
* **`sound_iff`**: a descriptor is sound if and only if all its checks pass.
* `Decides.bind`: one thing after another is decided by its checks one after another.
* `Decides.along`: so is a run over a list, if each step is decided by the checks of its entry.
-/

namespace Componentry

open Relation

/-- Sections that declare replacements replace module `a` by `b`: so says the last one about `a`. -/
def ReplacementSection.Leads (sections : List ReplacementSection) (a b : ModuleId) : Prop :=
  ∃ before s after, sections = before ++ s :: after ∧ ModuleId.parse s.module = .ok a ∧
    ModuleId.parse s.replacedBy = .ok b ∧ ∀ later ∈ after, ModuleId.parse later.module ≠ .ok a

/-- One question about a descriptor. -/
inductive Check where
  /-- The path of the project is the text of a component. -/
  | path (text : String)
  /-- What is locked for a configuration is a module version. -/
  | lock (configuration text : String)
  /-- A configuration has none of the names of those before it. -/
  | fresh (name : String) (before : List String)
  /-- A dependency is the text of a component. -/
  | dependency (text : String)
  /-- What the rule at position `index` is for is a pattern. -/
  | pattern (index : Nat) (text : String)
  /-- The rule at position `index` asks for no descriptor that rules cannot have. -/
  | inputs (index : Nat) (rule : RuleSection)
  /-- What is replaced, or replaces, is a module. -/
  | module (text : String)
  /-- A replacement closes no cycle with those before it. -/
  | acyclic (before : List ReplacementSection) (replacement : ReplacementSection)

namespace Check

/-- When a check passes. -/
def Passes : Check → Prop
  | path text => ∃ id, ComponentId.parse text = .ok id
  | lock _ text => ∃ id, ModuleVersionId.parse text = .ok id
  | fresh name before => name ∉ before
  | dependency text => ∃ found, Dependency.parse text = .ok found
  | pattern _ text => ∃ tokens, Glob.compile text = .ok tokens
  | inputs _ rule => InputKind.pomDescriptor ∉ rule.requires
  | module text => ∃ id, ModuleId.parse text = .ok id
  | acyclic before s => ¬ ∃ a, TransGen (ReplacementSection.Leads (before ++ [s])) a a

/-- What a check reports that does not pass. -/
def Reports : Check → Fault → Prop
  | path text, fault => ∃ failure, ComponentId.parse text = .error failure ∧
      fault = .failure failure
  | lock configuration text, fault => ∃ failure, ModuleVersionId.parse text = .error failure ∧
      fault = .noted s!"Invalid lock entry for configuration '{configuration}'" (.failure failure)
  | fresh name _, fault => fault = .failure (.duplicateConfiguration name)
  | dependency text, fault =>
    ∃ failure, Dependency.parse text = .error failure ∧ fault = .failure failure
  | pattern index text, fault => ∃ e, Glob.compile text = .error e ∧
      fault = .noted ("Invalid module pattern in rule #" ++ toString (index + 1)) (.text e.display)
  | inputs index rule, fault => fault = .failure
      (.unsupportedInput (rule.description index) "PomDescriptor" ["IvyModuleDescriptor"])
  | module text, fault =>
    fault = .failure (.invalidModule text "expected 'group:name'")
  | acyclic before s, fault => ∃ m t way, ModuleId.parse s.module = .ok m ∧
      ModuleId.parse s.replacedBy = .ok t ∧ m ∉ way ∧
      (m :: way ++ [m]).IsChain (ReplacementSection.Leads (before ++ [s])) ∧
      fault = .failure (.replacementCycle m.display t.display
        (" -> ".intercalate ((m :: way ++ [m]).map ModuleId.display)))

/-- The checks of a list in which each entry is checked with those before it. -/
def along {α : Type} (f : List α → α → List Check) : List α → List α → List Check
  | _, [] => []
  | before, x :: rest => f before x ++ along f (before ++ [x]) rest

end Check

/-- The checks of a configuration: its name before its dependencies. -/
def ConfigurationSection.checks (before : List ConfigurationSection) (s : ConfigurationSection) :
    List Check :=
  .fresh s.name (before.map (·.name)) :: s.dependencies.map .dependency

/-- The checks of a rule: its pattern before its inputs. -/
def RuleSection.checks (before : List RuleSection) (s : RuleSection) : List Check :=
  s.module.toList.map (.pattern before.length) ++ [.inputs before.length s]

/-- The checks of a replacement: its module before its target. -/
def ReplacementSection.checks (before : List ReplacementSection) (s : ReplacementSection) :
    List Check :=
  [.module s.module, .module s.replacedBy, .acyclic before s]

namespace Descriptor

/-- The checks of the locked versions, by configuration name. Nobody asks for the locked versions of
a project without a path. -/
def lockChecks (d : Descriptor) : List Check :=
  match d.project.path with
  | none => []
  | some _ => d.locks.entries.flatMap fun entry => entry.2.map (.lock entry.1)

/-- **The checks of a descriptor**, in order. -/
def checks (d : Descriptor) : List Check :=
  d.project.path.toList.map .path ++ (d.lockChecks ++
    (Check.along ConfigurationSection.checks [] d.configurations ++
      (Check.along RuleSection.checks [] d.rules ++
        Check.along ReplacementSection.checks [] d.replacements)))

/-- **A descriptor has nothing to object to.** -/
structure Sound (d : Descriptor) : Prop where
  path : ∀ path, d.project.path = some path → ∃ id, ComponentId.parse path = .ok id
  locks : d.project.path ≠ none → ∀ entry ∈ d.locks.entries, ∀ text ∈ entry.2,
    ∃ id, ModuleVersionId.parse text = .ok id
  names : (d.configurations.map (·.name)).Nodup
  dependencies : ∀ s ∈ d.configurations, ∀ text ∈ s.dependencies,
    ∃ found, Dependency.parse text = .ok found
  patterns : ∀ s ∈ d.rules, ∀ text, s.module = some text → ∃ tokens, Glob.compile text = .ok tokens
  inputs : ∀ s ∈ d.rules, InputKind.pomDescriptor ∉ s.requires
  modules : ∀ s ∈ d.replacements,
    (∃ m, ModuleId.parse s.module = .ok m) ∧ ∃ t, ModuleId.parse s.replacedBy = .ok t
  /-- No replacement closes a cycle with those before it. -/
  acyclic : ∀ before s after, d.replacements = before ++ s :: after →
    ¬ ∃ a, TransGen (ReplacementSection.Leads (before ++ [s])) a a

end Descriptor

/-! ## Sound descriptors -/

section

variable {α : Type} {xs : List α}

theorem Check.forall_along {f : List α → α → List Check} {P : Check → Prop} :
    ∀ {before xs : List α}, (∀ c ∈ along f before xs, P c) ↔
      ∀ pre x post, xs = pre ++ x :: post → ∀ c ∈ f (before ++ pre) x, P c
  | _, [] => by simp [along]
  | before, x :: rest => by
    rw [along, List.forall_mem_append, forall_along]
    constructor
    · rintro ⟨hx, hrest⟩ pre y post hsplit
      cases pre with
      | nil =>
        obtain ⟨rfl, -⟩ := List.cons.inj hsplit
        rwa [List.append_nil]
      | cons z pre =>
        obtain ⟨rfl, htail⟩ := List.cons.inj hsplit
        have hy := hrest pre y post htail
        rwa [← List.append_cons] at hy
    · intro h
      refine ⟨?_, fun pre y post hsplit => ?_⟩
      · have hx := h [] x rest rfl
        rwa [List.append_nil] at hx
      · rw [List.append_assoc]
        exact h (x :: pre) y post (congrArg (x :: ·) hsplit)

/-- What is said of each entry with those before it, but not about them, is said of each entry. -/
theorem forall_split_iff {P : α → Prop} :
    (∀ pre x post, xs = pre ++ x :: post → P x) ↔ ∀ x ∈ xs, P x := by
  constructor
  · intro h x hx
    obtain ⟨pre, post, hsplit⟩ := List.append_of_mem hx
    exact h pre x post hsplit
  · rintro h pre x post rfl
    exact h x (List.mem_append_right pre List.mem_cons_self)

theorem nodup_map_iff {β : Type} {f : α → β} :
    (xs.map f).Nodup ↔ ∀ pre x post, xs = pre ++ x :: post → f x ∉ pre.map f := by
  constructor
  · rintro h pre x post rfl hmem
    rw [List.map_append, List.map_cons] at h
    exact (List.nodup_append.mp h).2.2 _ hmem _ List.mem_cons_self rfl
  · intro h
    induction xs using List.reverseRecOn with
    | nil => exact List.nodup_nil
    | append_singleton xs x ih =>
      have hlast := h xs x [] rfl
      rw [List.map_append, List.map_singleton]
      refine List.nodup_append.mpr ⟨ih fun pre y post hsplit => ?_, List.nodup_singleton _, ?_⟩
      · exact h pre y (post ++ [x]) (by rw [hsplit, List.append_assoc]; rfl)
      · rintro a ha b hb rfl
        obtain rfl := List.mem_singleton.mp hb
        exact hlast ha

end

namespace Descriptor

theorem forall_lockChecks {d : Descriptor} : (∀ c ∈ d.lockChecks, c.Passes) ↔
    (d.project.path ≠ none → ∀ entry ∈ d.locks.entries, ∀ text ∈ entry.2,
      ∃ id, ModuleVersionId.parse text = .ok id) := by
  unfold lockChecks
  cases d.project.path with
  | none => simp
  | some path =>
    simp only [List.forall_mem_flatMap, List.forall_mem_map]
    exact ⟨fun h _ => h, fun h => h (by simp)⟩

theorem forall_configurationChecks {sections : List ConfigurationSection} :
    (∀ c ∈ Check.along ConfigurationSection.checks [] sections, c.Passes) ↔
      (sections.map (·.name)).Nodup ∧
        ∀ s ∈ sections, ∀ text ∈ s.dependencies, ∃ found, Dependency.parse text = .ok found := by
  rw [Check.forall_along, nodup_map_iff, ← forall_split_iff]
  simp only [ConfigurationSection.checks, List.forall_mem_cons, List.forall_mem_map,
    List.nil_append]
  exact ⟨fun h => ⟨fun pre s post hs => (h pre s post hs).1,
    fun pre s post hs => (h pre s post hs).2⟩,
    fun h pre s post hs => ⟨h.1 pre s post hs, h.2 pre s post hs⟩⟩

theorem forall_ruleChecks {sections : List RuleSection} :
    (∀ c ∈ Check.along RuleSection.checks [] sections, c.Passes) ↔
      ∀ s ∈ sections, (∀ text, s.module = some text → ∃ tokens, Glob.compile text = .ok tokens) ∧
        InputKind.pomDescriptor ∉ s.requires := by
  rw [Check.forall_along, ← forall_split_iff]
  simp only [RuleSection.checks, List.forall_mem_append, List.forall_mem_singleton,
    List.forall_mem_map, Option.mem_toList]
  exact Iff.rfl

theorem forall_replacementChecks {sections : List ReplacementSection} :
    (∀ c ∈ Check.along ReplacementSection.checks [] sections, c.Passes) ↔
      (∀ s ∈ sections,
        (∃ m, ModuleId.parse s.module = .ok m) ∧ ∃ t, ModuleId.parse s.replacedBy = .ok t) ∧
      ∀ before s after, sections = before ++ s :: after →
        ¬ ∃ a, TransGen (ReplacementSection.Leads (before ++ [s])) a a := by
  rw [Check.forall_along, ← forall_split_iff]
  simp only [ReplacementSection.checks, List.forall_mem_cons, List.nil_append]
  exact ⟨fun h => ⟨fun pre s post hs => ⟨(h pre s post hs).1, (h pre s post hs).2.1⟩,
      fun pre s post hs => (h pre s post hs).2.2.1⟩,
    fun h pre s post hs => ⟨(h.1 pre s post hs).1, (h.1 pre s post hs).2, h.2 pre s post hs,
      fun _ hc => absurd hc List.not_mem_nil⟩⟩

/-- **A descriptor is sound if and only if all its checks pass.** -/
theorem sound_iff {d : Descriptor} : d.Sound ↔ ∀ c ∈ d.checks, c.Passes := by
  unfold checks
  simp only [List.forall_mem_append, List.forall_mem_map, Option.mem_toList, forall_lockChecks,
    forall_configurationChecks, forall_ruleChecks, forall_replacementChecks]
  constructor
  · intro h
    exact ⟨h.path, h.locks, ⟨h.names, h.dependencies⟩,
      fun s hs => ⟨h.patterns s hs, h.inputs s hs⟩, h.modules, h.acyclic⟩
  · rintro ⟨hpath, hlocks, ⟨hnames, hdependencies⟩, hrules, hmodules, hacyclic⟩
    exact ⟨hpath, hlocks, hnames, hdependencies, fun s hs => (hrules s hs).1,
      fun s hs => (hrules s hs).2, hmodules, hacyclic⟩

end Descriptor

/-! ## Outcomes that checks decide -/

/-- **An outcome is decided by checks**: it is there if all of them pass, and then it is as `P`
says; if it is a fault, this is what the first check reports that does not pass. -/
structure Decides {α : Type} (checks : List Check) (x : Except Fault α) (P : α → Prop) : Prop where
  done : ∀ a, x = .ok a → (∀ c ∈ checks, c.Passes) ∧ P a
  first : ∀ fault, x = .error fault → ∃ before c after, checks = before ++ c :: after ∧
    (∀ b ∈ before, b.Passes) ∧ ¬ c.Passes ∧ c.Reports fault

namespace Decides

variable {α β : Type} {checks more : List Check} {x : Except Fault α} {P : α → Prop}
  {Q : β → Prop} {c : Check}

/-- There may be nothing to check. -/
theorem nothing {a : α} (h : P a) : Decides [] (.ok a) P where
  done := fun b hb => ⟨fun _ h => absurd h List.not_mem_nil, Except.ok.inj hb ▸ h⟩
  first := fun _ h => absurd h (by simp)

theorem passes {a : α} (hc : c.Passes) (h : P a) : Decides [c] (.ok a) P where
  done := fun b hb => ⟨fun d hd => List.mem_singleton.mp hd ▸ hc, Except.ok.inj hb ▸ h⟩
  first := fun _ h => absurd h (by simp)

theorem fails {fault : Fault} (hc : ¬ c.Passes) (h : c.Reports fault) :
    Decides [c] (.error fault) P where
  done := fun _ h => absurd h (by simp)
  first := fun _ hfault => ⟨[], c, [], rfl, fun _ h => absurd h List.not_mem_nil, hc,
    Except.error.inj hfault ▸ h⟩

/-- **One thing after another** is decided by its checks one after another. -/
theorem bind {f : α → Except Fault β} (h : Decides checks x P)
    (hf : ∀ a, P a → Decides more (f a) Q) : Decides (checks ++ more) (x >>= f) Q := by
  cases x with
  | error fault =>
    refine ⟨fun _ h => absurd h (by simp [Bind.bind, Except.bind]), fun fault' hfault => ?_⟩
    obtain rfl : fault = fault' := Except.error.inj hfault
    obtain ⟨before, c, after, rfl, hbefore, hc, hreports⟩ := h.first fault rfl
    exact ⟨before, c, after ++ more, by simp, hbefore, hc, hreports⟩
  | ok a =>
    obtain ⟨hpass, ha⟩ := h.done a rfl
    refine ⟨fun b hb => ?_, fun fault hfault => ?_⟩
    · obtain ⟨hmore, hQ⟩ := (hf a ha).done b hb
      exact ⟨List.forall_mem_append.mpr ⟨hpass, hmore⟩, hQ⟩
    · obtain ⟨before, c, after, rfl, hbefore, hc, hreports⟩ := (hf a ha).first fault hfault
      exact ⟨checks ++ before, c, after, by simp, List.forall_mem_append.mpr ⟨hpass, hbefore⟩, hc,
        hreports⟩

theorem map {f : α → β} (h : Decides checks x P) (hf : ∀ a, P a → Q (f a)) :
    Decides checks (x.map f) Q := by
  cases x with
  | error fault =>
    exact ⟨fun _ h => absurd h (by simp [Except.map]),
      fun _ hfault => h.first _ (congrArg _ (Except.error.inj hfault))⟩
  | ok a =>
    obtain ⟨hpass, ha⟩ := h.done a rfl
    exact ⟨fun b hb => ⟨hpass, Except.ok.inj hb ▸ hf a ha⟩,
      fun _ h => absurd h (by simp [Except.map])⟩

/-- What decides a part of an outcome decides the outcome. -/
theorem of_map {f : α → β} (h : Decides checks (x.map f) Q) :
    Decides checks x fun a => Q (f a) := by
  cases x with
  | error fault =>
    exact ⟨fun _ h => absurd h (by simp),
      fun _ hfault => h.first _ (congrArg _ (Except.error.inj hfault))⟩
  | ok a =>
    obtain ⟨hpass, ha⟩ := h.done (f a) rfl
    exact ⟨fun b hb => ⟨hpass, Except.ok.inj hb ▸ ha⟩, fun _ h => absurd h (by simp)⟩

/-- **The same for each entry of a list**, the results being collected. -/
theorem mapM {f : α → Except Fault β} {checks : α → List Check}
    (hf : ∀ a, Decides (checks a) (f a) Q) :
    ∀ xs : List α, Decides (xs.flatMap checks) (xs.mapM f) fun ys => ∀ y ∈ ys, Q y
  | [] => .nothing (by simp)
  | x :: rest => by
    rw [List.flatMap_cons, List.mapM_cons]
    refine (hf x).bind fun y hy => ?_
    refine (mapM hf rest).map (f := (y :: ·)) fun ys hys => ?_
    exact List.forall_mem_cons.mpr ⟨hy, hys⟩

/-- **A run over a list**, one step for each entry. What a step relies on is said of the entries
before it, and it says the same with its own entry. -/
theorem along {f : List α → α → List Check} {step : Nat → β → α → Except Fault β}
    {g : Nat → β → List α → Except Fault β} {I : List α → β → Prop}
    (hnil : ∀ i b, g i b [] = .ok b)
    (hcons : ∀ i b x rest, g i b (x :: rest) = step i b x >>= fun b => g (i + 1) b rest)
    (hstep : ∀ before b x, I before b →
      Decides (f before x) (step before.length b x) (I (before ++ [x]))) :
    ∀ {before : List α} {b : β} (xs : List α), I before b →
      Decides (Check.along f before xs) (g before.length b xs) (I (before ++ xs))
  | before, b, [], h => by
    rw [hnil, List.append_nil]
    exact .nothing h
  | before, b, x :: rest, h => by
    rw [hcons, Check.along]
    refine (hstep before b x h).bind fun b hb => ?_
    have hrest := along hnil hcons hstep rest hb
    rwa [List.length_append, List.append_assoc] at hrest

/-- The outcome is there if and only if all checks pass. -/
theorem iff (h : Decides checks x P) : (∃ a, x = .ok a) ↔ ∀ c ∈ checks, c.Passes := by
  constructor
  · rintro ⟨a, ha⟩
    exact (h.done a ha).1
  · intro hall
    cases x with
    | ok a => exact ⟨a, rfl⟩
    | error fault =>
      obtain ⟨before, c, after, rfl, -, hc, -⟩ := h.first fault rfl
      exact absurd (hall c (List.mem_append_right before List.mem_cons_self)) hc

end Decides

end Componentry
