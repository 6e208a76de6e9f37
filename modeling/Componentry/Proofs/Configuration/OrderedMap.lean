import Mathlib.Data.List.Forall2
import Componentry.Proofs.Root.Announcement

/-!
# The container is an ordered map whose changes are announced

Configurations are found by name, and kept in the order in which they were created. A change adds a
new configuration at the end, or it changes one part of the configuration that it names; which part,
and how, is written down here change by change, next to the kind that the change is announced as.
All listeners are told of a change once, before it is carried out. A change that is refused is no
change at all.

* `Configuration.SameBut field c c'`: the configurations differ in one part at most.
* `Operation.Updates op kind c c'`: what a change makes of the configuration that it names, and its
  kind.
* `Container.Changes c op kind c'`, `Container.Refuses c op failure`: what a change makes of a
  container, and why it may be refused.
* `Told kind s s'`: every listener was told once of a change of this kind.
* `carriedOut s ops`: the operations of a run that are not refused.

Results:
* `changes_or_refuses`: a container carries a change out as it should, or refuses it for a reason.
* `told_announce`: an announcement tells every listener once.
* **`updates_announced`**: names, announcements and changes of all runs from the empty container.
-/

namespace Componentry

/-! ## What a change makes of a configuration -/

/-- The parts of a configuration, its name apart. -/
inductive Configuration.Field where
  | attributes
  | dependencies
  | artifacts
  | locking
  | strategy
  | roles

/-- **The configurations are the same in all but one part.** -/
structure Configuration.SameBut (field : Configuration.Field) (c c' : Configuration) : Prop where
  name : c'.name = c.name
  attributes : field ≠ .attributes → c'.attributes = c.attributes
  dependencies : field ≠ .dependencies → c'.dependencies = c.dependencies
  artifacts : field ≠ .artifacts → c'.artifacts = c.artifacts
  locking : field ≠ .locking → c'.locking = c.locking
  strategy : field ≠ .strategy → c'.strategy = c.strategy
  consumable : field ≠ .roles → c'.consumable = c.consumable
  resolvable : field ≠ .roles → c'.resolvable = c.resolvable

/-- The attributes are the same, but for one that has a new value. -/
def Attributes.Puts (key value : String) (a a' : Attributes) : Prop :=
  ∀ k, a'.get? k = if k = key then some value else a.get? k

/-- The dependencies are the same, but for an attribute of those that are addressed by `text`. -/
def Dependency.PutsAll (text key value : String) (ds ds' : List Dependency) : Prop :=
  List.Forall₂ (fun d d' => d'.target = d.target ∧
    (d.text = text → Attributes.Puts key value d.attributes d'.attributes) ∧
    (d.text ≠ text → d'.attributes = d.attributes)) ds ds'

/-- **What a change makes of the configuration that it names**, and the kind it is announced as. -/
inductive Operation.Updates : Operation → MutationKind → Configuration → Configuration → Prop
  /-- Dependencies are added at the end. -/
  | addDependency {name : String} {d : Dependency} {c c' : Configuration} :
      c.SameBut .dependencies c' → c'.dependencies = c.dependencies ++ [d] →
      Updates (.addDependency name d) .dependencies c c'
  /-- And so are artifacts. -/
  | addArtifact {name : String} {a : PublishedArtifact} {c c' : Configuration} :
      c.SameBut .artifacts c' → c'.artifacts = c.artifacts ++ [a] →
      Updates (.addArtifact name a) .artifacts c c'
  | setAttribute {name key value : String} {c c' : Configuration} :
      c.SameBut .attributes c' → Attributes.Puts key value c.attributes c'.attributes →
      Updates (.setAttribute name key value) .dependencyAttributes c c'
  | setDependencyAttribute {name text key value : String} {c c' : Configuration} :
      c.SameBut .dependencies c' →
      Dependency.PutsAll text key value c.dependencies c'.dependencies →
      Updates (.setDependencyAttribute name text key value) .dependencyAttributes c c'
  /-- Locked versions count as dependencies. -/
  | setLocking {name : String} {enabled : Bool} {c c' : Configuration} :
      c.SameBut .locking c' → c'.locking = enabled →
      Updates (.setLocking name enabled) .dependencies c c'
  | setStrategy {name : String} {strategy : Strategy} {c c' : Configuration} :
      c.SameBut .strategy c' → c'.strategy = strategy →
      Updates (.setStrategy name strategy) .strategy c c'
  | setRoles {name : String} {consumable resolvable : Bool} {c c' : Configuration} :
      c.SameBut .roles c' → c'.consumable = consumable → c'.resolvable = resolvable →
      Updates (.setRoles name consumable resolvable) .role c c'

theorem Attributes.puts_insert (key value : String) (a : Attributes) :
    Attributes.Puts key value a (a.insert key value) := fun k => Dict.get?_insert a key k value

/-- **Every edit is an update**, of the kind that the operation is announced as. -/
theorem Operation.updates_edit {op : Operation} (hop : ∀ name, op ≠ .create name)
    (c : Configuration) : op.Updates op.kind c (op.edit c) := by
  cases op with
  | create name => exact absurd rfl (hop name)
  | addDependency name d => exact .addDependency (by constructor <;> simp [edit]) rfl
  | addArtifact name a => exact .addArtifact (by constructor <;> simp [edit]) rfl
  | setAttribute name key value =>
    exact .setAttribute (by constructor <;> simp [edit]) (Attributes.puts_insert key value _)
  | setDependencyAttribute name text key value =>
    refine .setDependencyAttribute (by constructor <;> simp [edit]) ?_
    refine List.forall₂_map_right_iff.mpr (List.forall₂_same.mpr fun d _ => ?_)
    by_cases htext : d.text = text
    · rw [if_pos htext]
      exact ⟨rfl, fun _ => Attributes.puts_insert key value _, fun h => absurd htext h⟩
    · rw [if_neg htext]
      exact ⟨rfl, fun h => absurd h htext, fun _ => rfl⟩
  | setLocking name enabled => exact .setLocking (by constructor <;> simp [edit]) rfl
  | setStrategy name strategy => exact .setStrategy (by constructor <;> simp [edit]) rfl
  | setRoles name consumable resolvable => exact .setRoles (by constructor <;> simp [edit]) rfl rfl

/-! ## What a change makes of a container -/

namespace Container

variable {c c' : Container} {op : Operation}

/-- **What a change makes of a container**: a configuration is added at the end under a new name, or
one that exists is updated and all others stay as they are, in the same places. -/
inductive Changes (c : Container) : Operation → MutationKind → Container → Prop
  | created {name : String} : name ∉ c.names →
      Changes c (.create name) .dependencies ⟨c.configurations ++ [{ name := name }]⟩
  | updated {op : Operation} {kind : MutationKind} {c' : Container} :
      (∀ name, op ≠ .create name) → op.target ∈ c.names →
      List.Forall₂ (fun x x' =>
          (x.name = op.target → op.Updates kind x x') ∧ (x.name ≠ op.target → x' = x))
        c.configurations c'.configurations →
      Changes c op kind c'

/-- **Why a change is refused**: it creates what exists already, or is about what does not exist. -/
inductive Refuses (c : Container) : Operation → Failure → Prop
  | created {name : String} : name ∈ c.names →
      Refuses c (.create name) (.duplicateConfiguration name)
  | updated {op : Operation} : (∀ name, op ≠ .create name) → op.target ∉ c.names →
      Refuses c op (.configurationNotFound op.target)

theorem contains_iff {name : String} : c.contains name = true ↔ name ∈ c.names := by
  simp [contains, names]

/-- Carrying out a change of configurations that exist. -/
theorem apply_edit (hop : ∀ name, op ≠ .create name) (c : Container) :
    c.apply op = ⟨c.configurations.map fun configuration =>
      if configuration.name = op.target then op.edit configuration else configuration⟩ := by
  cases op with
  | create name => exact absurd rfl (hop name)
  | _ => rfl

theorem refusal_edit (hop : ∀ name, op ≠ .create name) (c : Container) :
    c.refusal op = if c.contains op.target then none
      else some (.configurationNotFound op.target) := by
  cases op with
  | create name => exact absurd rfl (hop name)
  | _ => rfl

theorem changes_edit (hop : ∀ name, op ≠ .create name) (h : op.target ∈ c.names) :
    c.Changes op op.kind (c.apply op) := by
  rw [apply_edit hop]
  refine .updated hop h (List.forall₂_map_right_iff.mpr (List.forall₂_same.mpr fun x _ => ?_))
  by_cases hx : x.name = op.target
  · rw [if_pos hx]
    exact ⟨fun _ => Operation.updates_edit hop x, fun h => absurd hx h⟩
  · rw [if_neg hx]
    exact ⟨fun h => absurd h hx, fun _ => rfl⟩

/-- **A container carries a change out as it should, or refuses it for a reason.** -/
theorem changes_or_refuses (c : Container) (op : Operation) :
    c.refusal op = none ∧ c.Changes op op.kind (c.apply op) ∨
      ∃ failure, c.refusal op = some failure ∧ c.Refuses op failure := by
  by_cases hop : ∃ name, op = .create name
  · obtain ⟨name, rfl⟩ := hop
    rw [refusal]
    split
    · rename_i h
      exact .inr ⟨_, rfl, .created (contains_iff.mp h)⟩
    · rename_i h
      exact .inl ⟨rfl, .created fun hname => h (contains_iff.mpr hname)⟩
  · have hedit : ∀ name, op ≠ .create name := fun name h => hop ⟨name, h⟩
    rw [refusal_edit hedit]
    split
    · rename_i h
      exact .inl ⟨rfl, changes_edit hedit (contains_iff.mp h)⟩
    · rename_i h
      exact .inr ⟨_, rfl, .updated hedit fun hname => h (contains_iff.mpr hname)⟩

end Container

/-! ## Names -/

/-- The name of the configuration that an operation creates. -/
def Operation.created? : Operation → Option String
  | .create name => some name
  | _ => none

theorem Operation.created?_edit {op : Operation} (hop : ∀ name, op ≠ .create name) :
    op.created? = none := by
  cases op with
  | create name => exact absurd rfl (hop name)
  | _ => rfl

theorem Operation.Updates.name {op : Operation} {kind : MutationKind} {x x' : Configuration}
    (h : op.Updates kind x x') : x'.name = x.name := by
  cases h <;> exact Configuration.SameBut.name ‹_›

/-- Names are only added, at the end, and only new ones. -/
theorem Container.Changes.names {c c' : Container} {op : Operation} {kind : MutationKind}
    (h : c.Changes op kind c') :
    c'.names = c.names ++ op.created?.toList ∧ ∀ name ∈ op.created?, name ∉ c.names := by
  cases h with
  | created hnew => exact ⟨by simp [Container.names, Operation.created?],
      by simpa [Operation.created?]⟩
  | updated hop htarget hall =>
    have hnames : List.Forall₂ (· = ·) (c.configurations.map (·.name))
        (c'.configurations.map (·.name)) := by
      rw [List.forall₂_map_left_iff, List.forall₂_map_right_iff]
      refine hall.imp fun x x' ⟨hself, hother⟩ => ?_
      by_cases hx : x.name = op.target
      · exact (hself hx).name.symm
      · rw [hother hx]
    rw [List.forall₂_eq_eq_eq] at hnames
    rw [Operation.created?_edit hop]
    exact ⟨by simpa [Container.names] using hnames.symm, by simp⟩

/-- Distinct names stay distinct. -/
theorem Container.Changes.nodup {c c' : Container} {op : Operation} {kind : MutationKind}
    (h : c.Changes op kind c') (hnames : c.names.Nodup) : c'.names.Nodup := by
  obtain ⟨heq, hnew⟩ := h.names
  rw [heq, List.nodup_append]
  refine ⟨hnames, ?_, fun name hname other hother => ?_⟩
  · cases op.created? <;> simp
  · rintro rfl
    exact hnew name (Option.mem_toList.mp hother) hname

namespace Session

variable {s s' : Session} {i j : Nat} {kind : MutationKind}

/-! ## Announcements -/

/-- **Every listener was told once of a change**, as often as it is registered: recorders remember
its kind, and builders count it if it makes their metadata stale. -/
structure Told (kind : MutationKind) (s s' : Session) : Prop where
  heard : s'.heard = s.heard ++ List.replicate (s.listeners.count .recorder) kind
  counted : ∀ j < s.builders.length, (s'.slot j).generation =
    (s.slot j).generation + if kind.affectsRoot then s.listeners.count (.builder j) else 0

/-- Reading tells nobody of anything. -/
theorem generation_readWith (s : Session) (i j : Nat) :
    ((s.readWith id i).2.slot j).generation = (s.slot j).generation := by
  by_cases hj : i = j
  · subst hj
    rcases readWith_inv id s i with ⟨-, fault, h⟩ | ⟨b, x, -, -, -, h⟩ | ⟨b, s', hclear, h⟩
    · rw [h]
    · rw [h]
      rfl
    · rw [h, slot_eq hclear.builder]
      rcases rebuild_cases id s' i b with ⟨fault, hr⟩ | ⟨x, -, -, hstores⟩
      · rw [hr, id, slot_eq hclear.cleared]
        rfl
      · have hstored := hstores.stored
        rw [id, hclear.cleared] at hstored
        rw [slot_eq hstored]
        rfl
  · rw [(touches_readWith s i).others j hj]

theorem heard_rebuild (s : Session) (i : Nat) (b : Builder) :
    (rebuild id s i b).2.heard = s.heard := by
  unfold rebuild
  dsimp only
  split
  · rfl
  · dsimp only
    split <;> rfl

theorem heard_readWith (s : Session) (i : Nat) : (s.readWith id i).2.heard = s.heard := by
  unfold readWith
  split
  · rfl
  · split
    · exact heard_rebuild s i _
    · dsimp only
      split
      · rfl
      · exact heard_rebuild _ i _

theorem generation_notify (s : Session) (i : Nat) (kind : MutationKind) {j : Nat}
    (hj : j < s.builders.length) : ((s.notify i kind).slot j).generation =
      (s.slot j).generation + if kind.affectsRoot ∧ i = j then 1 else 0 := by
  by_cases hi : i = j
  · subst hi
    have hb := List.getElem?_eq_getElem hj
    unfold notify
    split
    · rename_i hkind
      rw [if_pos ⟨hkind, rfl⟩, slot_eq hb]
      exact congrArg Slot.generation (slot_modifySlot_self hb Slot.invalidate)
    · rename_i hkind
      rw [if_neg fun h => hkind h.1]
      rfl
  · rw [if_neg fun h => hi h.2, (touches_notify s i kind).others j hi]
    rfl

theorem heard_notify (s : Session) (i : Nat) (kind : MutationKind) :
    (s.notify i kind).heard = s.heard := by
  unfold notify
  split <;> rfl

theorem length_builders (h : SlotsOnly s s') : s'.builders.length = s.builders.length := by
  simpa using congrArg List.length h.builders

/-- Some listeners that are told one after another. -/
theorem told_tellAll (kind : MutationKind) (ls : List Listener) (s : Session) :
    (ls.foldl (tell kind) s).heard = s.heard ++ List.replicate (ls.count .recorder) kind ∧
      ∀ j < s.builders.length, ((ls.foldl (tell kind) s).slot j).generation =
        (s.slot j).generation + if kind.affectsRoot then ls.count (.builder j) else 0 := by
  induction ls generalizing s with
  | nil => exact ⟨by simp, by simp⟩
  | cons l ls ih =>
    obtain ⟨hheard, hcounted⟩ := ih (s.tell kind l)
    rw [length_builders (slotsOnly_tell kind s l)] at hcounted
    rw [List.foldl_cons, hheard]
    refine ⟨?_, fun j hj => (hcounted j hj).trans ?_⟩
    · cases l with
      | recorder => simp [tell, List.replicate_succ]
      | builder i => simp [tell, heard_notify]
      | reader i => simp [tell, heard_readWith]
    · cases l with
      | recorder => simp [tell, slot]
      | builder i =>
        rw [tell, generation_notify s i kind hj]
        by_cases hkind : kind.affectsRoot = true
        · simp [hkind, List.count_cons]
          omega
        · simp [hkind]
      | reader i => simp [tell, generation_readWith]

/-- **An announcement tells every listener once.** -/
theorem told_announce (s : Session) (kind : MutationKind) : Told kind s (s.announce kind) := by
  obtain ⟨hheard, hcounted⟩ := told_tellAll kind s.listeners s
  exact ⟨hheard, hcounted⟩

/-! ## Runs -/

/-- The operations of a run that are not refused. -/
def carriedOut (s : Session) : List Operation → List Operation
  | [] => []
  | op :: rest =>
    match s.perform op with
    | (.ok _, next) => op :: next.carriedOut rest
    | (.error _, next) => next.carriedOut rest

/-- **An operation is carried out and announced, or refused and nothing happens.** -/
theorem perform_cases (s : Session) (op : Operation) :
    ((s.perform op).1 = .ok () ∧ s.container.Changes op op.kind (s.perform op).2.container ∧
        Told op.kind s (s.perform op).2) ∨
      ∃ failure, s.perform op = (.error failure, s) ∧ s.container.Refuses op failure := by
  rcases s.container.changes_or_refuses op with ⟨hrefusal, hchanges⟩ | ⟨failure, hrefusal, hrefuses⟩
  · rw [perform_eq hrefusal]
    have htold := told_announce s op.kind
    exact .inl ⟨rfl, hchanges, htold.heard, htold.counted⟩
  · refine .inr ⟨failure, ?_, hrefuses⟩
    unfold perform
    rw [hrefusal]

theorem carriedOut_done {op : Operation} (h : (s.perform op).1 = .ok ()) (rest : List Operation) :
    s.carriedOut (op :: rest) = op :: (s.perform op).2.carriedOut rest := by
  rw [carriedOut]
  split
  · rename_i heq
    rw [heq]
  · rename_i heq
    rw [heq] at h
    cases h

theorem carriedOut_refused {op : Operation} {failure : Failure}
    (h : s.perform op = (.error failure, s)) (rest : List Operation) :
    s.carriedOut (op :: rest) = s.carriedOut rest := by
  rw [carriedOut, h]

theorem after_perform (s : Session) (op : Operation) (rest : List Action) :
    s.after (.perform op :: rest) = (s.perform op).2.after rest := by
  rw [← step_perform]
  rfl

theorem listeners_perform (s : Session) (op : Operation) :
    (s.perform op).2.listeners = s.listeners := by
  unfold perform
  split
  · rfl
  · exact (slotsOnly_announce s op.kind).listeners

/-- **Names are those of the operations that are carried out**, in order, and stay distinct. -/
theorem names_after (s : Session) (ops : List Operation) (hnames : s.container.names.Nodup) :
    (s.after (ops.map .perform)).container.names =
        s.container.names ++ (s.carriedOut ops).filterMap Operation.created? ∧
      (s.after (ops.map .perform)).container.names.Nodup := by
  induction ops generalizing s with
  | nil => exact ⟨by simp [after, run, carriedOut], hnames⟩
  | cons op ops ih =>
    rw [List.map_cons, after_perform]
    rcases perform_cases s op with ⟨hdone, hchanges, -⟩ | ⟨failure, hrefused, -⟩
    · obtain ⟨heq, hnodup⟩ := ih (s.perform op).2 (hchanges.nodup hnames)
      refine ⟨?_, hnodup⟩
      rw [heq, hchanges.names.1, carriedOut_done hdone, List.filterMap_cons]
      cases op.created? <;> simp
    · rw [hrefused, carriedOut_refused hrefused]
      exact ih s hnames

/-- **What recorders hear** are the kinds of the operations that are carried out, in order. -/
theorem heard_after (s : Session) (ops : List Operation) :
    (s.after (ops.map .perform)).heard = s.heard ++ (s.carriedOut ops).flatMap
      fun op => List.replicate (s.listeners.count .recorder) op.kind := by
  induction ops generalizing s with
  | nil => simp [after, run, carriedOut]
  | cons op ops ih =>
    rw [List.map_cons, after_perform]
    rcases perform_cases s op with ⟨hdone, -, htold⟩ | ⟨failure, hrefused, -⟩
    · rw [ih, htold.heard, listeners_perform, carriedOut_done hdone, List.flatMap_cons,
        List.append_assoc]
    · rw [hrefused, carriedOut_refused hrefused]
      exact ih s

/-- **The container is an ordered map whose changes are announced.** After any operations on a
session with an empty container, whatever its listeners are, the names of the configurations are
distinct, and they are those of the operations that created them, in order; and the recorders have
heard of each operation that was carried out, in order. Any further operation is carried out as it
should and every listener is told once of its kind, or it is refused for a reason, and then nothing
happens at all. -/
theorem updates_announced {s : Session} (ops : List Operation) (hs : s.container = {}) :
    let t := s.after (ops.map .perform)
    t.container.names.Nodup ∧
      t.container.names = (s.carriedOut ops).filterMap Operation.created? ∧
      t.heard = s.heard ++ (s.carriedOut ops).flatMap
        (fun op => List.replicate (s.listeners.count .recorder) op.kind) ∧
      ∀ op, (∃ kind, (t.perform op).1 = .ok () ∧
          t.container.Changes op kind (t.perform op).2.container ∧ Told kind t (t.perform op).2) ∨
        ∃ failure, t.perform op = (.error failure, t) ∧ t.container.Refuses op failure := by
  intro t
  have hempty : s.container.names = [] := by rw [hs]; rfl
  obtain ⟨heq, hnodup⟩ := names_after s ops (by rw [hempty]; exact List.nodup_nil)
  rw [hempty, List.nil_append] at heq
  refine ⟨hnodup, heq, heard_after s ops, fun op => ?_⟩
  exact (perform_cases t op).imp_left fun h => ⟨op.kind, h⟩

/-- Two recorders and a builder hear of the operations that are carried out; two of six are
refused. -/
theorem updates_announced_to_recorders :
    let s : Session :=
      { identity := ⟨"org", "app", "1", none, defaultStatus⟩
        listeners := [.recorder, .builder 0, .recorder]
        builders := [{}] }
    let lib : Dependency := { target := .module ⟨⟨"org", "lib"⟩, "1"⟩ }
    let ops : List Operation := [.create "runtime", .addDependency "runtime" lib, .create "runtime",
      .setRoles "missing" true false, .setDependencyAttribute "runtime" "org:lib:1" "usage" "api",
      .create "api"]
    let t := s.after (ops.map .perform)
    t.container.names.Nodup ∧
      t.container.names = (s.carriedOut ops).filterMap Operation.created? ∧
      t.heard = s.heard ++ (s.carriedOut ops).flatMap
        (fun op => List.replicate (s.listeners.count .recorder) op.kind) ∧
      ∀ op, (∃ kind, (t.perform op).1 = .ok () ∧
          t.container.Changes op kind (t.perform op).2.container ∧ Told kind t (t.perform op).2) ∨
        ∃ failure, t.perform op = (.error failure, t) ∧ t.container.Refuses op failure := by
  intro s lib ops
  exact updates_announced ops rfl

end Session

end Componentry
