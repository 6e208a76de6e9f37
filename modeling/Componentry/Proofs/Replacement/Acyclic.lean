import Componentry.Replacement
import Mathlib.Logic.Relation

/-!
# Replacements stay acyclic, and only cycles are refused

A request to replace a module is read (`ReplacementRequest.read`) and then declared; a request that
fails leaves the replacements as they are (`Replacements.after`). `Replacements.run` makes a list of
requests one after another, and `Replacements.accepted` lists the declarations that got through.

The graph of the replacements is `Leads`; each module has at most one edge. `LeadsApart m` is the
graph without the edge of `m`, and `LeadsWith m t` the one in which `m` leads to `t` instead. A
`Way` is a list of modules that leads to a goal and stops there, which is what `Replacements.walk`
looks for.

Results:
* `walk_eq_some_iff`: the walk finds exactly the ways that its steps suffice for, and
  `Way.length_le_size` says that the number of entries always suffices. So `isSome_cycle?_iff`:
  a cycle is found iff the target leads back to the module without the module's own edge.
* `exists_transGen_leadsWith_iff`: in an acyclic graph this is so iff the graph with the new edge
  has a cycle.
* `acyclic_insert_iff`: a declaration keeps the graph acyclic iff its target does not lead back.
* `replacementOf_run`: after a run, each module has the replacement of its last accepted
  declaration.
* **`run_sound`**: all of this of every map that requests make out of the empty one.
-/

namespace Componentry

open Relation

/-- A request to replace a module, as it is written. -/
structure ReplacementRequest where
  module : String
  target : String
  reason : Option String := none
  deriving DecidableEq, Repr

/-- The declaration that a request makes, if both of its modules can be read. -/
def ReplacementRequest.read (q : ReplacementRequest) : Except Failure ReplacementDeclaration :=
  ReplacementDeclaration.parse q.module q.target q.reason

namespace Replacements

/-! ## Requests -/

/-- The replacements with a request granted, or why it is not. -/
def request (r : Replacements) (q : ReplacementRequest) : Except Failure Replacements :=
  q.read.bind r.declare

/-- The replacements after a request. -/
def after (r : Replacements) (q : ReplacementRequest) : Replacements :=
  match r.request q with
  | .ok next => next
  | .error _ => r

/-- The replacements after some requests. -/
def run (r : Replacements) (qs : List ReplacementRequest) : Replacements := qs.foldl after r

/-- The declarations of a run that are accepted, in order. -/
def accepted (r : Replacements) : List ReplacementRequest → List ReplacementDeclaration
  | [] => []
  | q :: rest =>
    match q.read, r.request q with
    | .ok d, .ok next => d :: next.accepted rest
    | _, _ => r.accepted rest

/-- What the last of some declarations for `module` says. -/
def lastFor (module : ModuleId) (made : List ReplacementDeclaration) : Option Replacement :=
  (made.reverse.find? fun d => d.module == module).map (·.replacement)

/-! ## The graph of replacements -/

/-- Module `a` is replaced by `b`. -/
def Leads (r : Replacements) (a b : ModuleId) : Prop :=
  ∃ p, r.replacementOf a = some p ∧ p.target = b

/-- Module `a` is replaced by `b`, the replacement of `m` left out. -/
def LeadsApart (r : Replacements) (m a b : ModuleId) : Prop := a ≠ m ∧ r.Leads a b

/-- Module `a` is replaced by `b` once `m` is replaced by `t`. -/
def LeadsWith (r : Replacements) (m t a b : ModuleId) : Prop :=
  r.LeadsApart m a b ∨ a = m ∧ b = t

/-- No module is replaced by itself, directly or by way of others. -/
def Acyclic (r : Replacements) : Prop := ∀ m, ¬ TransGen r.Leads m m

/-- The modules from `x` on that lead to `goal`, which is not among them. -/
def Way (r : Replacements) (goal : ModuleId) : ModuleId → List ModuleId → Prop
  | x, [] => x = goal
  | x, y :: rest => x = y ∧ x ≠ goal ∧ ∃ p, r.replacementOf x = some p ∧ r.Way goal p.target rest

variable {r : Replacements} {m t a b c x goal : ModuleId}

theorem leadsApart_le_leads : r.LeadsApart m ≤ r.Leads := fun _ _ h => h.2

/-! ## Ways -/

theorem Way.unique : ∀ {x : ModuleId} {l l' : List ModuleId},
    r.Way goal x l → r.Way goal x l' → l = l'
  | _, [], [], _, _ => rfl
  | _, [], _ :: _, h, h' => absurd h h'.2.1
  | _, _ :: _, [], h, h' => absurd h' h.2.1
  | x, y :: l, z :: l', ⟨hy, _, p, hp, h⟩, ⟨hz, _, q, hq, h'⟩ => by
    obtain rfl := Option.some.inj (hp.symm.trans hq)
    rw [← hy, ← hz, Way.unique h h']

/-- From any module of a way on, the rest of it is a way. -/
theorem Way.drop : ∀ {x : ModuleId} {pre l : List ModuleId},
    r.Way goal x (pre ++ a :: l) → r.Way goal a (a :: l)
  | _, [], _, h => h.1 ▸ h
  | _, _ :: _, _, ⟨_, _, _, _, h⟩ => h.drop

/-- A way meets no module twice: it would go round for ever. -/
theorem Way.nodup : ∀ {x : ModuleId} {l : List ModuleId}, r.Way goal x l → l.Nodup
  | _, [], _ => List.nodup_nil
  | x, y :: l, h => by
    obtain ⟨rfl, _, p, _, hrest⟩ := id h
    refine List.nodup_cons.mpr ⟨fun hx => ?_, hrest.nodup⟩
    obtain ⟨pre, post, rfl⟩ := List.append_of_mem hx
    have hpost : r.Way goal x (x :: post) := hrest.drop
    have heq := congrArg List.length (h.unique hpost)
    simp only [List.length_cons, List.length_append] at heq
    omega

theorem Way.subset_keys : ∀ {x : ModuleId} {l : List ModuleId}, r.Way goal x l → l ⊆ r.keys
  | _, [], _ => List.nil_subset _
  | _, _ :: _, ⟨hy, _, _, hp, h⟩ =>
    List.cons_subset.mpr ⟨hy ▸ Dict.mem_keys_of_get? hp, h.subset_keys⟩

/-- A way has no more modules than there are entries. -/
theorem Way.length_le_size {l : List ModuleId} (h : r.Way goal x l) : l.length ≤ r.size := by
  have hle : l.length ≤ r.keys.length := h.nodup.length_le_of_subset h.subset_keys
  rwa [Dict.keys, List.length_map] at hle

/-- **There is a way iff the goal is reached** without the goal's own replacement. -/
theorem exists_way_iff : (∃ l, r.Way goal x l) ↔ ReflTransGen (r.LeadsApart goal) x goal := by
  constructor
  · rintro ⟨l, h⟩
    induction l generalizing x with
    | nil =>
      obtain rfl : x = goal := h
      exact .refl
    | cons y rest ih =>
      obtain ⟨_, hx, p, hp, hrest⟩ := h
      exact .head ⟨hx, p, hp, rfl⟩ (ih hrest)
  · intro h
    induction h using ReflTransGen.head_induction_on with
    | refl => exact ⟨[], rfl⟩
    | head hstep _ ih =>
      obtain ⟨l, hl⟩ := ih
      obtain ⟨hx, p, hp, rfl⟩ := hstep
      exact ⟨_ :: l, rfl, hx, p, hp, hl⟩

theorem walk_goal (fuel : Nat) : r.walk goal fuel goal = some [] := by
  unfold walk
  rw [if_pos rfl]

theorem walk_zero (hx : x ≠ goal) : r.walk goal 0 x = none := by
  unfold walk
  rw [if_neg hx]

theorem walk_succ (hx : x ≠ goal) (fuel : Nat) :
    r.walk goal (fuel + 1) x =
      (r.replacementOf x).bind fun p => (r.walk goal fuel p.target).map (x :: ·) := by
  rw [walk.eq_def]
  simp only [if_neg hx, replacementOf]
  cases Dict.get? r x <;> rfl

/-- **The walk finds exactly the ways** that its steps suffice for. -/
theorem walk_eq_some_iff {fuel : Nat} {l : List ModuleId} :
    r.walk goal fuel x = some l ↔ r.Way goal x l ∧ l.length ≤ fuel := by
  induction fuel generalizing x l with
  | zero =>
    by_cases hx : x = goal
    · subst hx
      rw [walk_goal, Option.some.injEq]
      refine ⟨fun h => h ▸ ⟨rfl, Nat.le_refl _⟩, fun ⟨_, h⟩ => ?_⟩
      exact (List.length_eq_zero_iff.mp (Nat.le_zero.mp h)).symm
    · rw [walk_zero hx]
      refine ⟨fun h => absurd h (by simp), fun ⟨hway, h⟩ => ?_⟩
      rw [List.length_eq_zero_iff.mp (Nat.le_zero.mp h)] at hway
      exact absurd hway hx
  | succ fuel ih =>
    by_cases hx : x = goal
    · subst hx
      rw [walk_goal, Option.some.injEq]
      refine ⟨fun h => h ▸ ⟨rfl, Nat.zero_le _⟩, fun ⟨hway, _⟩ => ?_⟩
      exact Way.unique (show r.Way x x [] from rfl) hway
    · rw [walk_succ hx]
      simp only [Option.bind_eq_some_iff, Option.map_eq_some_iff]
      constructor
      · rintro ⟨p, hp, rest, hrest, rfl⟩
        obtain ⟨hway, hlen⟩ := ih.mp hrest
        exact ⟨⟨rfl, hx, p, hp, hway⟩, Nat.succ_le_succ hlen⟩
      · rintro ⟨hway, hlen⟩
        cases l with
        | nil => exact absurd hway hx
        | cons y rest =>
          obtain ⟨rfl, _, p, hp, hrest⟩ := hway
          exact ⟨p, hp, rest, ih.mpr ⟨hrest, Nat.le_of_succ_le_succ hlen⟩, rfl⟩

/-- **A cycle is found iff there is one**: iff the target leads back to the module without the
module's own replacement. -/
theorem isSome_cycle?_iff :
    (r.cycle? m t).isSome ↔ ReflTransGen (r.LeadsApart m) t m := by
  rw [cycle?, Option.isSome_map, ← exists_way_iff, Option.isSome_iff_exists]
  constructor
  · rintro ⟨l, h⟩
    exact ⟨l, (walk_eq_some_iff.mp h).1⟩
  · rintro ⟨l, h⟩
    exact ⟨l, walk_eq_some_iff.mpr ⟨h, h.length_le_size⟩⟩

/-! ## The graph with a new edge -/

theorem leadsWith_of_leadsApart (h : r.LeadsApart m a b) : r.LeadsWith m t a b := Or.inl h

/-- A path in the graph with the new edge either does without it, or leads to its start and goes on
from its end. -/
theorem transGen_leadsWith (h : TransGen (r.LeadsWith m t) a b) :
    TransGen (r.LeadsApart m) a b ∨
      ReflTransGen (r.LeadsApart m) a m ∧ ReflTransGen (r.LeadsApart m) t b := by
  induction h with
  | single hstep =>
    rcases hstep with hstep | ⟨rfl, rfl⟩
    · exact Or.inl (.single hstep)
    · exact Or.inr ⟨.refl, .refl⟩
  | tail _ hstep ih =>
    rcases hstep with hstep | ⟨rfl, rfl⟩
    · rcases ih with ih | ⟨hto, hfrom⟩
      · exact Or.inl (ih.tail hstep)
      · exact Or.inr ⟨hto, hfrom.tail hstep⟩
    · rcases ih with ih | ⟨hto, _⟩
      · exact Or.inr ⟨ih.to_reflTransGen, .refl⟩
      · exact Or.inr ⟨hto, .refl⟩

/-- **The new edge closes a cycle iff its target leads back**: what is found by looking at the whole
graph is what is found by walking from the target. -/
theorem exists_transGen_leadsWith_iff (hr : r.Acyclic) :
    (∃ a, TransGen (r.LeadsWith m t) a a) ↔ ReflTransGen (r.LeadsApart m) t m := by
  constructor
  · rintro ⟨a, h⟩
    rcases transGen_leadsWith h with h | ⟨hto, hfrom⟩
    · exact absurd (TransGen.mono leadsApart_le_leads _ _ h) (hr a)
    · exact hfrom.trans hto
  · intro h
    have hback : ReflTransGen (r.LeadsWith m t) t m :=
      ReflTransGen.mono (fun _ _ => leadsWith_of_leadsApart) _ _ h
    exact ⟨m, .head' (Or.inr ⟨rfl, rfl⟩) hback⟩

/-! ## Declarations -/

theorem replacementOf_insert (p : Replacement) :
    replacementOf (Dict.insert r m p) a = if a = m then some p else r.replacementOf a :=
  Dict.get?_insert r m a p

/-- A declaration redirects the edge of its module. -/
theorem leads_insert (p : Replacement) : Leads (Dict.insert r m p) = r.LeadsWith m p.target := by
  funext a b
  unfold Leads LeadsWith LeadsApart
  rw [replacementOf_insert]
  by_cases ha : a = m
  · simp [ha, eq_comm]
  · simp [ha, Leads]

/-- **A declaration keeps the graph acyclic iff its target does not lead back.** -/
theorem acyclic_insert_iff (hr : r.Acyclic) (p : Replacement) :
    Acyclic (Dict.insert r m p) ↔ ¬ ReflTransGen (r.LeadsApart m) p.target m := by
  rw [← exists_transGen_leadsWith_iff hr, not_exists, Acyclic, leads_insert]

/-- A declaration whose target leads back is refused with the cycle. -/
theorem declare_of_reaches {d : ReplacementDeclaration}
    (h : ReflTransGen (r.LeadsApart d.module) d.replacement.target d.module) :
    ∃ cycle, r.declare d = .error
      (.replacementCycle d.module.display d.replacement.target.display cycle) := by
  obtain ⟨way, hway⟩ := Option.isSome_iff_exists.mp (isSome_cycle?_iff.mpr h)
  refine ⟨" -> ".intercalate (way.map ModuleId.display), ?_⟩
  rw [declare, hway]

/-- Any other declaration is carried out. -/
theorem declare_of_not_reaches {d : ReplacementDeclaration}
    (h : ¬ ReflTransGen (r.LeadsApart d.module) d.replacement.target d.module) :
    r.declare d = .ok (Dict.insert r d.module d.replacement) := by
  have hnone : r.cycle? d.module d.replacement.target = none := by
    rwa [← isSome_cycle?_iff, Option.not_isSome_iff_eq_none] at h
  rw [declare, hnone]

/-- A declaration is carried out iff its target does not lead back, and then it keeps the graph
acyclic. -/
theorem declare_eq_ok {d : ReplacementDeclaration} {next : Replacements}
    (h : r.declare d = .ok next) :
    next = Dict.insert r d.module d.replacement ∧
      ¬ ReflTransGen (r.LeadsApart d.module) d.replacement.target d.module := by
  by_cases hback : ReflTransGen (r.LeadsApart d.module) d.replacement.target d.module
  · obtain ⟨cycle, hcycle⟩ := declare_of_reaches hback
    rw [hcycle] at h
    exact absurd h (by simp)
  · rw [declare_of_not_reaches hback] at h
    exact ⟨(Except.ok.inj h).symm, hback⟩

/-! ## Runs of requests -/

theorem request_of_read {q : ReplacementRequest} {d : ReplacementDeclaration}
    (h : q.read = .ok d) : r.request q = r.declare d := by
  unfold request
  rw [h]
  rfl

theorem after_of_ok {q : ReplacementRequest} {next : Replacements} (h : r.request q = .ok next) :
    r.after q = next := by
  rw [after, h]

/-- **A request that fails changes nothing.** -/
theorem after_of_error {q : ReplacementRequest} {failure : Failure}
    (h : r.request q = .error failure) : r.after q = r := by
  rw [after, h]

theorem accepted_of_ok {q : ReplacementRequest} {d : ReplacementDeclaration} {next : Replacements}
    (hread : q.read = .ok d) (h : r.request q = .ok next) (qs : List ReplacementRequest) :
    r.accepted (q :: qs) = d :: next.accepted qs := by
  rw [accepted, hread, h]

theorem accepted_of_error {q : ReplacementRequest} {failure : Failure}
    (h : r.request q = .error failure) (qs : List ReplacementRequest) :
    r.accepted (q :: qs) = r.accepted qs := by
  rw [accepted, h]
  cases q.read <;> rfl

/-- What a request comes to: it fails, or its declaration is carried out. -/
theorem request_cases (r : Replacements) (q : ReplacementRequest) :
    (∃ failure, r.request q = .error failure) ∨
      ∃ d, q.read = .ok d ∧ r.request q = .ok (Dict.insert r d.module d.replacement) ∧
        ¬ ReflTransGen (r.LeadsApart d.module) d.replacement.target d.module := by
  cases hq : r.request q with
  | error failure => exact Or.inl ⟨failure, rfl⟩
  | ok next =>
    cases hread : q.read with
    | error failure =>
      rw [request, hread] at hq
      exact absurd hq (by simp [Except.bind])
    | ok d =>
      obtain ⟨rfl, hback⟩ := declare_eq_ok (request_of_read hread ▸ hq)
      exact Or.inr ⟨d, rfl, rfl, hback⟩

theorem acyclic_after (hr : r.Acyclic) (q : ReplacementRequest) : (r.after q).Acyclic := by
  rcases request_cases r q with ⟨failure, h⟩ | ⟨d, -, h, hback⟩
  · rwa [after_of_error h]
  · rw [after_of_ok h]
    exact (acyclic_insert_iff hr d.replacement).mpr hback

/-- **Requests keep the graph acyclic.** -/
theorem acyclic_run : ∀ {r : Replacements} (qs : List ReplacementRequest),
    r.Acyclic → (r.run qs).Acyclic
  | _, [], hr => hr
  | _, q :: qs, hr => acyclic_run qs (acyclic_after hr q)

theorem acyclic_empty : Acyclic Dict.empty := by
  intro m h
  obtain ⟨b, ⟨p, hp, -⟩, -⟩ := TransGen.head'_iff.mp h
  exact absurd hp (by simp [replacementOf])

theorem lastFor_cons (d : ReplacementDeclaration) (made : List ReplacementDeclaration) :
    lastFor m (d :: made) =
      (lastFor m made).or (if d.module = m then some d.replacement else none) := by
  unfold lastFor
  rw [List.reverse_cons, List.find?_append, List.find?_singleton]
  cases made.reverse.find? fun d => d.module == m with
  | some last => rfl
  | none => by_cases h : d.module = m <;> simp [h]

/-- **Each module has the replacement of its last accepted declaration**, or the one from before the
run. -/
theorem replacementOf_run : ∀ (r : Replacements) (qs : List ReplacementRequest) (m : ModuleId),
    (r.run qs).replacementOf m = (lastFor m (r.accepted qs)).or (r.replacementOf m)
  | _, [], _ => rfl
  | r, q :: qs, m => by
    have ih := replacementOf_run (r.after q) qs m
    change ((r.after q).run qs).replacementOf m = _
    rw [ih]
    rcases request_cases r q with ⟨failure, h⟩ | ⟨d, hread, h, -⟩
    · rw [after_of_error h, accepted_of_error h]
    · rw [after_of_ok h, accepted_of_ok hread h, lastFor_cons, replacementOf_insert]
      cases lastFor m (accepted (Dict.insert r d.module d.replacement) qs) with
      | some last => rfl
      | none => by_cases hm : m = d.module <;> simp [hm, eq_comm]

/-- What holds of replacements that the declarations `made` led to. -/
structure Sound (r : Replacements) (made : List ReplacementDeclaration) : Prop where
  /-- No chain of replacements leads from a module to itself. -/
  acyclic : r.Acyclic
  /-- A readable request is refused with the cycle iff the replacements lead from its target to its
  module, the module's own replacement left out. -/
  refused_iff : ∀ q d, q.read = .ok d →
    ((∃ cycle, r.request q = .error
        (.replacementCycle d.module.display d.replacement.target.display cycle)) ↔
      ReflTransGen (r.LeadsApart d.module) d.replacement.target d.module)
  /-- That is so iff the graph that the request asks for has a cycle anywhere. -/
  cyclic_iff : ∀ d : ReplacementDeclaration,
    ReflTransGen (r.LeadsApart d.module) d.replacement.target d.module ↔
      ∃ a, TransGen (r.LeadsWith d.module d.replacement.target) a a
  /-- Any other readable request is granted, and changes the replacement of its module only. -/
  granted : ∀ q d, q.read = .ok d →
    ¬ ReflTransGen (r.LeadsApart d.module) d.replacement.target d.module →
    r.request q = .ok (r.after q) ∧
      ∀ x, (r.after q).replacementOf x =
        if x = d.module then some d.replacement else r.replacementOf x
  /-- A request that cannot be read is refused as such. -/
  unreadable : ∀ q failure, q.read = .error failure → r.request q = .error failure
  /-- A refused request leaves every entry as it was. -/
  unchanged : ∀ q failure, r.request q = .error failure → (r.after q).entries = r.entries
  /-- A module has the replacement of its last declaration. -/
  replacementOf_eq : ∀ m, r.replacementOf m = lastFor m made
  /-- The entries are these replacements. -/
  mem_entries_iff : ∀ m p, (m, p) ∈ r.entries ↔ lastFor m made = some p
  /-- The entries are in strictly increasing order of group, then name. -/
  ordered : r.entries.Pairwise fun e f =>
    e.1.group < f.1.group ∨ e.1.group = f.1.group ∧ e.1.name < f.1.name
  /-- A module takes part iff it is replaced, or replaces another one now. -/
  participates_iff : ∀ m, r.participates m = true ↔
    (lastFor m made).isSome ∨ ∃ n p, lastFor n made = some p ∧ p.target = m

/-- A module takes part iff it has an entry or is the target of one. -/
theorem participates_iff_entries : r.participates m = true ↔
    (r.replacementOf m).isSome ∨ ∃ n p, r.replacementOf n = some p ∧ p.target = m := by
  simp only [participates, Dict.contains, Dict.values, Bool.or_eq_true, List.any_map,
    List.any_eq_true, Function.comp_apply, beq_iff_eq]
  refine or_congr Iff.rfl ⟨?_, ?_⟩
  · rintro ⟨⟨n, p⟩, he, ht⟩
    exact ⟨n, p, (Dict.mem_entries_iff r).mp he, ht⟩
  · rintro ⟨n, p, hp, ht⟩
    exact ⟨(n, p), (Dict.mem_entries_iff r).mpr hp, ht⟩

/-- **Runs of requests are sound**: the graph stays acyclic, exactly the requests that would close a
cycle are refused, refused requests change nothing, and look-ups, listing and participation are
those of the last accepted declaration of each module. -/
theorem run_sound (qs : List ReplacementRequest) :
    Sound (run Dict.empty qs) (accepted Dict.empty qs) := by
  have hacyclic : (run Dict.empty qs).Acyclic := acyclic_run qs acyclic_empty
  have hlast : ∀ m, (run Dict.empty qs).replacementOf m = lastFor m (accepted Dict.empty qs) := by
    intro m
    rw [replacementOf_run]
    exact Option.or_none
  refine
    { acyclic := hacyclic
      refused_iff := fun q d hread => ?_
      cyclic_iff := fun d => (exists_transGen_leadsWith_iff hacyclic).symm
      granted := fun q d hread hback => ?_
      unreadable := fun q failure hread => ?_
      unchanged := fun q failure h => by rw [after_of_error h]
      replacementOf_eq := hlast
      mem_entries_iff := fun m p => ?_
      ordered := (run Dict.empty qs).sorted
      participates_iff := fun m => ?_ }
  · rw [request_of_read hread]
    refine ⟨fun ⟨cycle, h⟩ => Classical.byContradiction fun hback => ?_, declare_of_reaches⟩
    rw [declare_of_not_reaches hback] at h
    exact absurd h (by simp)
  · have hok := (request_of_read hread).trans (declare_of_not_reaches hback)
    rw [after_of_ok hok]
    exact ⟨hok, fun x => replacementOf_insert d.replacement⟩
  · rw [request, hread]
    rfl
  · rw [Dict.mem_entries_iff, ← hlast]
    rfl
  · rw [participates_iff_entries]
    simp only [hlast]

end Replacements

end Componentry
