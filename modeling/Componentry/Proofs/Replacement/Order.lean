import Mathlib.Data.List.Nodup
import Mathlib.Data.List.Perm.Basic
import Componentry.Proofs.Identity.Notation
import Componentry.Proofs.Replacement.Acyclic
import Componentry.Proofs.Workspace.Declaration

/-!
# The order of replacements does not matter

Declarations that are about different modules do not overwrite each other. After all of them are
accepted, the graph of the replacements is the graph of the declarations (`Asks`), whatever their
order was. So they are all accepted in one order (`AllGranted`) if and only if this graph has no
cycle, which does not speak of an order.

Results:
* `granted_or_refused`: a run of requests goes through, or there is a first one that is refused.
* `leads_run`: the graph after requests that are all granted.
* `allGranted_iff`: requests are all granted if and only if their graph has no cycle.
* `AllGranted.perm`, `refused_of_cyclic`: what this means for other orders of the same requests.
* `declareAll_eq_ok_iff`, `assemble_perm`: what this comes to for the replacements of a descriptor.
* **`order_irrelevant`**: the results for all permutations of requests, and of replacement sections.
-/

namespace Componentry

open Relation

namespace Replacements

/-- Module `a` is to be replaced by `b`, says one of the declarations. -/
def Asks (ds : List ReplacementDeclaration) (a b : ModuleId) : Prop :=
  ∃ d ∈ ds, d.module = a ∧ d.replacement.target = b

/-- The requests are granted one after the other. -/
def AllGranted (r : Replacements) : List ReplacementRequest → Prop
  | [] => True
  | q :: rest => ∃ next, r.request q = .ok next ∧ next.AllGranted rest

/-- The requests are read as the declarations, in order. -/
def ReadAs (qs : List ReplacementRequest) (ds : List ReplacementDeclaration) : Prop :=
  List.Forall₂ (fun q d => q.read = .ok d) qs ds

variable {r r' : Replacements} {m : ModuleId} {p : Replacement} {qs qs' : List ReplacementRequest}
  {ds ds' made : List ReplacementDeclaration}

/-! ## One run -/

theorem module_of_read {q : ReplacementRequest} {d : ReplacementDeclaration}
    (h : q.read = .ok d) : ModuleId.parse q.module = .ok d.module := by
  unfold ReplacementRequest.read ReplacementDeclaration.parse at h
  split at h
  · exact absurd h (by simp)
  · rename_i m hm
    split at h
    · exact absurd h (by simp)
    · rw [hm, ← Except.ok.inj h]

theorem AllGranted.exists_readAs (h : r.AllGranted qs) : ∃ ds, ReadAs qs ds := by
  induction qs generalizing r with
  | nil => exact ⟨[], .nil⟩
  | cons q rest ih =>
    obtain ⟨next, hq, hrest⟩ := h
    obtain ⟨ds, hds⟩ := ih hrest
    rcases request_cases r q with ⟨failure, herror⟩ | ⟨d, hread, -, -⟩
    · exact absurd (hq.symm.trans herror) (by simp)
    · exact ⟨d :: ds, .cons hread hds⟩

/-- If all requests are granted, what they ask for is what is accepted. -/
theorem AllGranted.accepted_eq (h : r.AllGranted qs) (hread : ReadAs qs ds) :
    r.accepted qs = ds := by
  induction hread generalizing r with
  | nil => rfl
  | cons hq _ ih =>
    obtain ⟨next, hnext, hrest⟩ := h
    rw [accepted_of_ok hq hnext, ih hrest]

/-- **A run of readable requests goes through, or there is a first one that is refused**, because
the replacements made up to then lead back from its target. -/
theorem granted_or_refused (hread : ReadAs qs ds) (r : Replacements) :
    r.AllGranted qs ∨ ∃ pre q post made d rest, qs = pre ++ q :: post ∧ ds = made ++ d :: rest ∧
      ReadAs pre made ∧ r.AllGranted pre ∧ q.read = .ok d ∧
      ReflTransGen ((r.run pre).LeadsApart d.module) d.replacement.target d.module := by
  induction hread generalizing r with
  | nil => exact .inl trivial
  | @cons q d qs ds hq hrest ih =>
    by_cases hback : ReflTransGen (r.LeadsApart d.module) d.replacement.target d.module
    · exact .inr ⟨[], q, qs, [], d, ds, rfl, rfl, .nil, trivial, hq, hback⟩
    · have hnext := (request_of_read hq).trans (declare_of_not_reaches hback)
      rcases ih (Dict.insert r d.module d.replacement) with hall |
        ⟨pre, q', post, made, d', rest, rfl, rfl, hpre, hgranted, hread', hback'⟩
      · exact .inl ⟨_, hnext, hall⟩
      · refine .inr ⟨q :: pre, q', post, d :: made, d', rest, rfl, rfl, .cons hq hpre,
          ⟨_, hnext, hgranted⟩, hread', ?_⟩
        have hrun : r.run (q :: pre) = run (Dict.insert r d.module d.replacement) pre := by
          rw [run, List.foldl_cons, after_of_ok hnext]
          rfl
        rw [hrun]
        exact hback'

/-! ## Requests about different modules -/

/-- If no module is declared twice, the last declaration of a module is any of it. -/
theorem lastFor_eq_some_iff (hdistinct : (made.map (·.module)).Nodup) :
    lastFor m made = some p ↔ ⟨m, p⟩ ∈ made := by
  induction made generalizing p with
  | nil => simp [lastFor]
  | cons d rest ih =>
    obtain ⟨hnew, hrest⟩ := List.nodup_cons.mp hdistinct
    rw [lastFor_cons, List.mem_cons, ← ih hrest]
    by_cases hm : d.module = m
    · have hnone : lastFor m rest = none := by
        refine Option.eq_none_iff_forall_ne_some.mpr fun p' hp' => hnew ?_
        exact List.mem_map.mpr ⟨_, (ih hrest).mp hp', hm.symm⟩
      subst hm
      obtain ⟨module, replacement⟩ := d
      simp [hnone, eq_comm]
    · have hne : (⟨m, p⟩ : ReplacementDeclaration) ≠ d := by
        rintro rfl
        exact hm rfl
      simp [hm, hne]

/-- **After requests about different modules that are all granted**, the replacements are those that
they ask for. -/
theorem AllGranted.replacementOf_iff (h : AllGranted Dict.empty qs) (hread : ReadAs qs ds)
    (hdistinct : (ds.map (·.module)).Nodup) :
    (run Dict.empty qs).replacementOf m = some p ↔ ⟨m, p⟩ ∈ ds := by
  rw [replacementOf_run, h.accepted_eq hread, ← lastFor_eq_some_iff hdistinct]
  simp [replacementOf]

theorem leads_run (h : AllGranted Dict.empty qs) (hread : ReadAs qs ds)
    (hdistinct : (ds.map (·.module)).Nodup) : (run Dict.empty qs).Leads = Asks ds := by
  funext a b
  refine propext ⟨?_, ?_⟩
  · rintro ⟨p, hp, rfl⟩
    exact ⟨_, (h.replacementOf_iff hread hdistinct).mp hp, rfl, rfl⟩
  · rintro ⟨d, hd, rfl, rfl⟩
    exact ⟨d.replacement, (h.replacementOf_iff hread hdistinct).mpr hd, rfl⟩

/-- **Requests about different modules are all granted if and only if what they ask for has no
cycle.** -/
theorem allGranted_iff (hread : ReadAs qs ds) (hdistinct : (ds.map (·.module)).Nodup) :
    AllGranted Dict.empty qs ↔ ¬ ∃ a, TransGen (Asks ds) a a := by
  constructor
  · rintro h ⟨a, ha⟩
    rw [← leads_run h hread hdistinct] at ha
    exact acyclic_run qs acyclic_empty a ha
  · intro hacyclic
    rcases granted_or_refused hread Dict.empty with h |
      ⟨pre, q, post, made, d, rest, -, rfl, hpre, hgranted, -, hback⟩
    · exact h
    · -- The way back from the target is made of replacements that are asked for, and so is the
      -- edge.
      have hmade : (made.map (·.module)).Nodup := by
        rw [List.map_append] at hdistinct
        exact hdistinct.sublist (List.sublist_append_left _ _)
      have hasks : (run Dict.empty pre).LeadsApart d.module ≤ Asks (made ++ d :: rest) := by
        rintro a b ⟨-, hleads⟩
        rw [leads_run hgranted hpre hmade] at hleads
        obtain ⟨d', hd', hedge⟩ := hleads
        exact ⟨d', List.mem_append_left _ hd', hedge⟩
      have hedge : Asks (made ++ d :: rest) d.module d.replacement.target :=
        ⟨d, List.mem_append_right _ List.mem_cons_self, rfl, rfl⟩
      exact absurd ⟨d.module, .head' hedge (ReflTransGen.mono hasks _ _ hback)⟩ hacyclic

theorem asks_perm (h : ds'.Perm ds) : Asks ds' = Asks ds := by
  funext a b
  exact propext (exists_congr fun d => and_congr_left' h.mem_iff)

/-- **What is granted in one order is granted in every order**, and makes the same replacements, if
no two requests are about the same module. -/
theorem AllGranted.perm (h : AllGranted Dict.empty qs) (hread : ReadAs qs ds)
    (hdistinct : (ds.map (·.module)).Nodup) (hperm : qs'.Perm qs) :
    AllGranted Dict.empty qs' ∧ run Dict.empty qs' = run Dict.empty qs := by
  obtain ⟨ds', hread', hds⟩ := List.perm_comp_forall₂ hperm hread
  have hdistinct' : (ds'.map (·.module)).Nodup := (hds.map _).nodup_iff.mpr hdistinct
  have h' : AllGranted Dict.empty qs' := by
    rw [allGranted_iff hread' hdistinct', asks_perm hds]
    exact (allGranted_iff hread hdistinct).mp h
  refine ⟨h', Dict.ext_get? fun m => Option.ext fun p => ?_⟩
  have hiff := h.replacementOf_iff (m := m) (p := p) hread hdistinct
  have hiff' := h'.replacementOf_iff (m := m) (p := p) hread' hdistinct'
  exact hiff'.trans (hds.mem_iff.trans hiff.symm)

/-- **If what requests about different modules ask for has a cycle**, one of them is refused with a
cycle. -/
theorem refused_of_cyclic (hread : ReadAs qs ds) (hdistinct : (ds.map (·.module)).Nodup)
    (hcyclic : ∃ a, TransGen (Asks ds) a a) :
    ∃ pre q post d cycle, qs = pre ++ q :: post ∧ q.read = .ok d ∧
      (run Dict.empty pre).request q = .error
        (.replacementCycle d.module.display d.replacement.target.display cycle) := by
  rcases granted_or_refused hread Dict.empty with h |
    ⟨pre, q, post, made, d, rest, hsplit, -, -, -, hq, hback⟩
  · exact absurd hcyclic ((allGranted_iff hread hdistinct).mp h)
  · obtain ⟨cycle, hcycle⟩ := declare_of_reaches hback
    exact ⟨pre, q, post, d, cycle, hsplit, hq, (request_of_read hq).trans hcycle⟩

end Replacements

/-! ## The replacements of a descriptor -/

/-- The request that a section makes. -/
def ReplacementSection.request (s : ReplacementSection) : ReplacementRequest :=
  ⟨s.module, s.replacedBy, s.reason⟩

namespace Replacements

variable {r r' : Replacements} {sections sections' : List ReplacementSection}

/-- **Sections are declared if and only if their requests are all granted**, and come to the
same. -/
theorem declareAll_eq_ok_iff : (r.declareAll sections).outcome = .ok r' ↔
    r.AllGranted (sections.map (·.request)) ∧ r.run (sections.map (·.request)) = r' := by
  induction sections generalizing r with
  | nil =>
    rw [declareAll]
    simp [AllGranted, run]
  | cons s rest ih =>
    have hrequest : r.request s.request = s.declaration.bind r.declare := rfl
    rw [declareAll, List.map_cons, AllGranted, run, List.foldl_cons, after, hrequest]
    simp only [Logged.outcome_bind]
    cases hdeclaration : s.declaration with
    | error failure => simp [Logged.ofClassified, Except.mapError, bind, Except.bind]
    | ok d =>
      cases hdeclare : r.declare d with
      | error failure =>
        simp [Logged.ofClassified, Except.mapError, bind, Except.bind, hdeclare]
      | ok next =>
        simp only [Logged.ofClassified, Except.mapError, bind, Except.bind, hdeclare,
          Logged.record, Except.ok.injEq, exists_eq_left']
        exact ih

/-- Sections about different modules make requests about different modules. -/
theorem nodup_of_readAs {ds : List ReplacementDeclaration}
    (hread : ReadAs (sections.map (·.request)) ds) (hdistinct : (sections.map (·.module)).Nodup) :
    (ds.map (·.module)).Nodup := by
  have htexts : (ds.map (·.module)).map ModuleId.display = sections.map (·.module) := by
    generalize hqs : sections.map (·.request) = qs at hread
    induction hread generalizing sections with
    | nil => simpa using hqs
    | @cons q d qs ds hq _ ih =>
      cases sections with
      | nil => simp at hqs
      | cons s rest =>
        obtain ⟨rfl, hrest⟩ := List.cons.inj hqs
        rw [List.map_cons, List.map_cons, List.map_cons, ih (List.nodup_cons.mp hdistinct).2 hrest]
        exact congrArg (· :: rest.map (·.module)) (ModuleId.display_of_parse (module_of_read hq))
  exact List.Nodup.of_map _ (htexts ▸ hdistinct)

/-- **Sections about different modules are declared in any order or in none**, and come to the
same. -/
theorem declareAll_perm (hperm : sections'.Perm sections)
    (hdistinct : (sections.map (·.module)).Nodup)
    (h : (declareAll Dict.empty sections).outcome = .ok r) :
    (declareAll Dict.empty sections').outcome = .ok r := by
  obtain ⟨hgranted, rfl⟩ := declareAll_eq_ok_iff.mp h
  obtain ⟨ds, hread⟩ := hgranted.exists_readAs
  have hds := nodup_of_readAs hread hdistinct
  obtain ⟨hgranted', hrun⟩ := hgranted.perm hread hds (hperm.map (·.request))
  exact declareAll_eq_ok_iff.mpr ⟨hgranted', hrun⟩

end Replacements

/-- **A descriptor loads with its replacement sections in any order or in none**, and what it
describes is the same. -/
theorem Workspace.assemble_perm {d : Descriptor} {base : Path} {sections : List ReplacementSection}
    (hperm : sections.Perm d.replacements) (hdistinct : (d.replacements.map (·.module)).Nodup)
    {w : Workspace} (h : (assemble d base).outcome = .ok w) :
    (assemble { d with replacements := sections } base).outcome =
      .ok { w with descriptor := { d with replacements := sections } } := by
  unfold assemble at h ⊢
  simp only [Logged.outcome_bind] at h ⊢
  obtain ⟨identity, hidentity, h⟩ := exists_of_bind h
  obtain ⟨projects, hprojects, h⟩ := exists_of_bind h
  obtain ⟨session, hsession, h⟩ := exists_of_bind h
  obtain ⟨rules, hrules, h⟩ := exists_of_bind h
  obtain ⟨replacements, hreplacements, h⟩ := exists_of_bind h
  obtain ⟨_, -, h⟩ := exists_of_bind h
  obtain rfl := Except.ok.inj h
  have hregistry : Descriptor.registry { d with replacements := sections } = d.registry := rfl
  rw [hregistry, hidentity, hprojects]
  simp only [bind, Except.bind]
  rw [hsession]
  simp only [hrules, Replacements.declareAll_perm hperm hdistinct hreplacements]
  rfl

namespace Replacements

/-- **The order of replacements does not matter.** Take requests that can be read and are about
different modules. If what they ask for has no cycle, then they are all granted in every order, and
every order makes the same replacements, which are the ones asked for. If it has one, then in every
order some request is refused with a cycle. So whether a descriptor loads does not depend on the
order of its replacement sections, if they are about different modules, and neither does what it
describes. -/
theorem order_irrelevant :
    (∀ qs ds, ReadAs qs ds → (ds.map (·.module)).Nodup →
      ((¬ ∃ a, TransGen (Asks ds) a a) → ∀ qs', qs'.Perm qs →
        AllGranted Dict.empty qs' ∧ run Dict.empty qs' = run Dict.empty qs ∧
          ∀ m p, (run Dict.empty qs').replacementOf m = some p ↔ ⟨m, p⟩ ∈ ds) ∧
      ((∃ a, TransGen (Asks ds) a a) → ∀ qs', qs'.Perm qs →
        ∃ pre q post d cycle, qs' = pre ++ q :: post ∧ q.read = .ok d ∧
          (run Dict.empty pre).request q = .error
            (.replacementCycle d.module.display d.replacement.target.display cycle))) ∧
    ∀ (d : Descriptor) (base : Path) (sections : List ReplacementSection),
      sections.Perm d.replacements → (d.replacements.map (·.module)).Nodup →
      ((∃ w, (Workspace.assemble { d with replacements := sections } base).outcome = .ok w) ↔
        ∃ w, (Workspace.assemble d base).outcome = .ok w) ∧
      ∀ w, (Workspace.assemble d base).outcome = .ok w →
        (Workspace.assemble { d with replacements := sections } base).outcome =
          .ok { w with descriptor := { d with replacements := sections } } := by
  refine ⟨fun qs ds hread hdistinct => ⟨fun hacyclic qs' hperm => ?_, fun hcyclic qs' hperm => ?_⟩,
    fun d base sections hperm hdistinct => ⟨⟨?_, ?_⟩, ?_⟩⟩
  · have hgranted := (allGranted_iff hread hdistinct).mpr hacyclic
    obtain ⟨hgranted', hrun⟩ := hgranted.perm hread hdistinct hperm
    refine ⟨hgranted', hrun, fun m p => ?_⟩
    rw [hrun]
    exact hgranted.replacementOf_iff hread hdistinct
  · obtain ⟨ds', hread', hds⟩ := List.perm_comp_forall₂ hperm hread
    have hdistinct' : (ds'.map (·.module)).Nodup := (hds.map _).nodup_iff.mpr hdistinct
    rw [← asks_perm hds] at hcyclic
    exact refused_of_cyclic hread' hdistinct' hcyclic
  · rintro ⟨w, hw⟩
    have hdistinct' : (sections.map (·.module)).Nodup := (hperm.map _).nodup_iff.mpr hdistinct
    exact ⟨_, Workspace.assemble_perm (d := { d with replacements := sections }) hperm.symm
      hdistinct' hw⟩
  · rintro ⟨w, hw⟩
    exact ⟨_, Workspace.assemble_perm hperm hdistinct hw⟩
  · intro w hw
    exact Workspace.assemble_perm hperm hdistinct hw

/-- The request to replace a module of the group `g` by another one. -/
def ask (a b : String) : ReplacementRequest := ⟨"g:" ++ a, "g:" ++ b, none⟩

/-- What it is read as. -/
def asked (a b : String) : ReplacementDeclaration := ⟨⟨"g", a⟩, ⟨⟨"g", b⟩, none⟩⟩

/-- A chain goes through from its end too, and of two modules that are to replace each other one is
refused, whichever comes first. -/
theorem order_irrelevant_chain :
    (AllGranted Dict.empty [ask "b" "c", ask "a" "b"] ∧
      run Dict.empty [ask "b" "c", ask "a" "b"] = run Dict.empty [ask "a" "b", ask "b" "c"]) ∧
    ∃ pre q post d cycle, [ask "b" "a", ask "a" "b"] = pre ++ q :: post ∧ q.read = .ok d ∧
      (run Dict.empty pre).request q = .error
        (.replacementCycle d.module.display d.replacement.target.display cycle) := by
  have hchain : ReadAs [ask "a" "b", ask "b" "c"] [asked "a" "b", asked "b" "c"] :=
    .cons rfl (.cons rfl .nil)
  have hpair : ReadAs [ask "a" "b", ask "b" "a"] [asked "a" "b", asked "b" "a"] :=
    .cons rfl (.cons rfl .nil)
  have hacyclic : ¬ ∃ a, TransGen (Asks [asked "a" "b", asked "b" "c"]) a a :=
    (allGranted_iff hchain (by decide)).mp ⟨_, rfl, _, rfl, trivial⟩
  have hcyclic : ∃ a, TransGen (Asks [asked "a" "b", asked "b" "a"]) a a := by
    refine ⟨⟨"g", "a"⟩, .head (b := ⟨"g", "b"⟩) ?_ (.single ?_)⟩
    · exact ⟨_, List.mem_cons_self, rfl, rfl⟩
    · exact ⟨_, List.mem_cons_of_mem _ List.mem_cons_self, rfl, rfl⟩
  obtain ⟨hgranted, hrun, -⟩ :=
    (order_irrelevant.1 _ _ hchain (by decide)).1 hacyclic _ (List.Perm.swap ..)
  exact ⟨⟨hgranted, hrun⟩,
    (order_irrelevant.1 _ _ hpair (by decide)).2 hcyclic _ (List.Perm.swap ..)⟩

end Replacements

end Componentry
