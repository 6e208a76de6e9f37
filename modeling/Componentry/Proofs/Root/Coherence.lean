import Componentry.Root.Session

/-!
# Served root metadata is current

A builder serves the snapshot in its slot as long as nobody tells it to forget it. This file shows
that what it serves is nevertheless what it would build: every snapshot agrees with the container as
it is when it is read.

* `Passive`: no listener reads when it is told of a change. `Fresh`: moreover nothing was read yet.
  `Guarded`: some may, but none reads builder `i` when it is told after the builder.
* `Source.Faithful`: the source is the container, or a list, or a choice by name from such a one, or
  anything else that does not choose by what the root does not show.
* `Passes i s s'`: what may happen to builder `i` while somebody else acts. Either its slot stays,
  and then a builder that listens would attach the same configurations as before, if its source is
  faithful; or its slot is emptied and its generation goes up.
* `Kept i P s`: the snapshot in slot `i` is the metadata of an earlier identity `P` knows of, with
  the configurations attached that its source, if faithful, holds **now**.
* `Current`: what a reader of the metadata can rely on.

Results:
* `faithful_container`, `faithful_fixed`, `Faithful.named`: an operation whose kind does not affect
  root metadata does not change what such a source lets the root show.
* `emptied_announce`: a change that is announced empties the slots of the builders that are told.
* `Passes.step`: where no listener reads, whatever happens except a read of builder `i` passes it.
* `Kept.passes`, `Kept.readWith`: both ways of going on keep the invariant. A change that arrives in
  the middle of a build is seen by the generation: the snapshot is stored only if the source still
  shows what was attached.
* **`read_current`**: after any actions, a builder that listened before its first read serves
  metadata that is current.
-/

namespace Componentry

/-! ## What the root shows of a container -/

namespace RootMetadata

variable {m : RootMetadata} {locking : Locking}

/-- Operations that do not affect root metadata keep what the root shows of their configuration. -/
theorem localConfiguration_edit {op : Operation} (h : op.kind.affectsRoot = false)
    (c : Configuration) :
    localConfiguration locking (op.edit c) = localConfiguration locking c := by
  cases op with
  | setStrategy _ _ => rfl
  | setRoles _ _ _ => rfl
  | _ => cases h

/-- An operation that does not affect root metadata edits an existing configuration. -/
theorem configurations_apply {op : Operation} (h : op.kind.affectsRoot = false)
    (container : Container) :
    (container.apply op).configurations = container.configurations.map fun c =>
      if c.name = op.target then op.edit c else c := by
  cases op with
  | setStrategy _ _ => rfl
  | setRoles _ _ _ => rfl
  | _ => cases h

/-- What the root shows of a source. -/
def shown (locking : Locking) (source : Source) (container : Container) :
    List LocalConfiguration :=
  (source.read container).map (localConfiguration locking)

theorem attach_read (m : RootMetadata) (source : Source) (container : Container) :
    m.attach (source.read container) =
      { m with configurations := shown m.locking source container } := rfl

/-- Selecting configurations by name is selecting what is shown of them by name. -/
theorem shown_named (names : List String) (source : Source) (container : Container) :
    shown locking (.named names source) container =
      (shown locking source container).filter fun c => names.contains c.name := by
  unfold shown Source.named
  dsimp only
  rw [List.filter_map]
  rfl

end RootMetadata

/-- **Changes that do not affect root metadata are not shown**: the source does not choose by
strategies or roles. -/
def Source.Faithful (source : Source) : Prop :=
  ∀ {op : Operation}, op.kind.affectsRoot = false → ∀ container locking,
    RootMetadata.shown locking source (container.apply op) =
      RootMetadata.shown locking source container

namespace Source

theorem faithful_container : container.Faithful := by
  intro op h container locking
  unfold RootMetadata.shown Source.container
  simp only [RootMetadata.configurations_apply h, List.map_map]
  refine List.map_congr_left fun c _ => ?_
  simp only [Function.comp_apply]
  split
  · exact RootMetadata.localConfiguration_edit h c
  · rfl

theorem faithful_fixed (configurations : List Configuration) : (fixed configurations).Faithful :=
  fun _ _ _ => rfl

/-- Choosing by name keeps a source faithful. -/
theorem Faithful.named {source : Source} (h : source.Faithful) (names : List String) :
    (named names source).Faithful := by
  intro op hkind container locking
  rw [RootMetadata.shown_named, RootMetadata.shown_named, h hkind]

end Source

open RootMetadata

/-- Coordinates that are one component have one place in the build. -/
theorem Coordinates.projectPath_eq {a b : Coordinates} (h : a.componentId = b.componentId) :
    a.projectPath = b.projectPath := by
  unfold componentId at h
  cases ha : a.projectPath <;> cases hb : b.projectPath <;> simp_all

namespace Session

variable {s s' s'' : Session} {i j : Nat}

/-! ## Runs -/

/-- The session after some actions. -/
def after (s : Session) (actions : List Action) : Session := (s.run actions).2

theorem after_append (first second : List Action) :
    s.after (first ++ second) = (s.after first).after second := by
  induction first generalizing s with
  | nil => rfl
  | cons a first ih => exact ih

/-- No listener reads when it is told of a change. -/
def Passive (s : Session) : Prop := ∀ j, .reader j ∉ s.listeners

/-- Nothing is cached, and no listener reads. -/
structure Fresh (s : Session) : Prop where
  empty : ∀ b ∈ s.builders, b.slot.cached = none
  passive : s.Passive

/-- Builder `i` is told of changes. -/
def Listens (s : Session) (i : Nat) : Prop := .builder i ∈ s.listeners

/-- Builder `i` is told of changes, and nobody who is told later reads it then. -/
def Guarded (s : Session) (i : Nat) : Prop :=
  ∃ before rest, s.listeners = before ++ .builder i :: rest ∧ .reader i ∉ rest

theorem Guarded.listens (h : s.Guarded i) : s.Listens i := by
  obtain ⟨before, rest, hsplit, -⟩ := h
  unfold Listens
  rw [hsplit]
  simp

theorem Passive.guarded (hs : s.Passive) (hl : s.Listens i) : s.Guarded i := by
  obtain ⟨before, rest, hsplit⟩ := List.append_of_mem hl
  refine ⟨before, rest, hsplit, fun h => hs i ?_⟩
  rw [hsplit]
  simp [h]

/-- Builder `i` has no snapshot. -/
def Empty (s : Session) (i : Nat) : Prop :=
  ∀ b, s.builders[i]? = some b → b.slot.cached = none

/-! ## What others do to a builder -/

/-- What may become of a builder's slot while others act, `same` saying that its source shows what
it did. -/
inductive SlotPasses (same : Prop) (old new : Slot) : Prop
  | kept (cached : new.cached = old.cached) (generation : new.generation = old.generation)
      (shown : same)
  | emptied (cached : new.cached = none) (generation : old.generation < new.generation)

/-- Builder `i` shows the same in both sessions. -/
def ShowsSame (i : Nat) (s s' : Session) (b : Builder) : Prop :=
  s.Listens i → b.source.Faithful → ∀ locking,
    shown locking b.source s'.container = shown locking b.source s.container

/-- What any action leaves alone: the projects, and the listeners there are. -/
structure Grows (s s' : Session) : Prop where
  projects : s'.projects = s.projects
  passive : s.Passive → s'.Passive
  listeners : s.listeners ⊆ s'.listeners

/-- **What may happen to builder `i` while it is not read.** -/
structure Passes (i : Nat) (s s' : Session) : Prop extends Grows s s' where
  /-- The builder keeps its source and its work. -/
  present : ∀ b, s.builders[i]? = some b →
    ∃ slot, s'.builders[i]? = some { b with slot := slot } ∧
      SlotPasses (ShowsSame i s s' b) b.slot slot
  /-- A new builder starts without a snapshot. -/
  absent : s.builders[i]? = none → s'.Empty i

theorem Grows.trans (h : Grows s s') (h' : Grows s' s'') : Grows s s'' where
  projects := h'.projects.trans h.projects
  passive := h'.passive ∘ h.passive
  listeners := fun _ hl => h'.listeners (h.listeners hl)

/-- Sessions with the same projects and listeners. -/
theorem Grows.of_eq (hprojects : s'.projects = s.projects)
    (hlisteners : s'.listeners = s.listeners) : Grows s s' where
  projects := hprojects
  passive := fun h j => hlisteners ▸ h j
  listeners := fun _ hl => hlisteners ▸ hl

namespace Passes

theorem refl (i : Nat) (s : Session) : Passes i s s where
  toGrows := Grows.of_eq rfl rfl
  present := fun b hb => ⟨b.slot, hb, .kept rfl rfl fun _ _ _ => rfl⟩
  absent := fun h b hb => absurd (h.symm.trans hb) (by simp)

theorem empty (h : Passes i s s') (hs : s.Empty i) : s'.Empty i := by
  cases hb : s.builders[i]? with
  | none => exact h.absent hb
  | some b =>
    obtain ⟨slot, hb', hslot⟩ := h.present b hb
    intro b' h'
    obtain rfl := Option.some.inj (hb'.symm.trans h')
    rcases hslot with ⟨hcached, -, -⟩ | ⟨hcached, -⟩
    · exact hcached.trans (hs b hb)
    · exact hcached

theorem trans (h : Passes i s s') (h' : Passes i s' s'') : Passes i s s'' where
  toGrows := h.toGrows.trans h'.toGrows
  present := by
    intro b hb
    obtain ⟨slot, hb', hslot⟩ := h.present b hb
    obtain ⟨slot', hb'', hslot'⟩ := h'.present _ hb'
    refine ⟨slot', hb'', ?_⟩
    rcases hslot with ⟨hc, hg, hsame⟩ | ⟨hc, hg⟩ <;>
      rcases hslot' with ⟨hc', hg', hsame'⟩ | ⟨hc', hg'⟩
    · exact .kept (hc'.trans hc) (hg'.trans hg) fun hl hfaithful locking =>
        (hsame' (h.listeners hl) hfaithful locking).trans (hsame hl hfaithful locking)
    · exact .emptied hc' (hg ▸ hg')
    · exact .emptied (hc'.trans hc) (hg'.symm ▸ hg)
    · exact .emptied hc' (Nat.lt_trans hg hg')
  absent := fun hb => h'.empty (h.absent hb)

/-- Nothing that `Passes` speaks of changes. -/
theorem of_eq (hprojects : s'.projects = s.projects) (hlisteners : s'.listeners = s.listeners)
    (hcontainer : s'.container = s.container) (hbuilders : s'.builders[i]? = s.builders[i]?) :
    Passes i s s' where
  toGrows := Grows.of_eq hprojects hlisteners
  present := fun b hb => ⟨b.slot, hbuilders.trans hb, .kept rfl rfl fun _ _ _ => by rw [hcontainer]⟩
  absent := fun h b hb => absurd ((hbuilders.trans h).symm.trans hb) (by simp)

theorem record (s : Session) (e : Event) : Passes i s (s.record e) := of_eq rfl rfl rfl rfl

theorem modifySlot_other (hj : j ≠ i) (s : Session) (f : Slot → Slot) :
    Passes i s (s.modifySlot j f) := by
  refine of_eq rfl rfl rfl ?_
  simp [modifySlot, hj]

end Passes

theorem getElem?_modifySlot (s : Session) (i : Nat) (f : Slot → Slot) :
    (s.modifySlot i f).builders[i]? = s.builders[i]?.map fun b => { b with slot := f b.slot } := by
  simp [modifySlot]

/-- Being told of a change that affects root metadata empties the slot. -/
theorem passes_invalidate (s : Session) (i j : Nat) :
    Passes i s (s.modifySlot j Slot.invalidate) := by
  by_cases hj : j = i
  · subst hj
    refine { toGrows := Grows.of_eq rfl rfl, present := ?_, absent := ?_ }
    · intro b hb
      exact ⟨b.slot.invalidate, by rw [getElem?_modifySlot, hb]; rfl,
        .emptied rfl (Nat.lt_succ_self _)⟩
    · intro h b hb
      rw [getElem?_modifySlot, h] at hb
      exact absurd hb (by simp)
  · exact Passes.modifySlot_other hj s _

theorem notify_container (s : Session) (i : Nat) (kind : MutationKind) :
    (s.notify i kind).container = s.container := by
  unfold notify
  split <;> rfl

theorem passes_notify (s : Session) (i j : Nat) (kind : MutationKind) :
    Passes i s (s.notify j kind) := by
  unfold notify
  split
  · exact (passes_invalidate s i j).trans (Passes.record _ _)
  · exact Passes.refl i s

/-! ## Reads -/

/-- Session `s'` is `s` with the slot of builder `i` cleared for a new snapshot. -/
structure Clears (i : Nat) (s s' : Session) (b : Builder) : Prop where
  identity : s'.identity = s.identity
  projects : s'.projects = s.projects
  container : s'.container = s.container
  listeners : s'.listeners = s.listeners
  builder : s.builders[i]? = some b
  cleared : s'.builders[i]? = some { b with slot := b.slot.clear }
  others : ∀ j, i ≠ j → s'.builders[j]? = s.builders[j]?

/-- Session `s'` is `s` with a new snapshot of builder `i`, built since `generation`. -/
structure Stores (i : Nat) (generation : Nat) (snapshot : Snapshot) (s s' : Session) : Prop where
  projects : s'.projects = s.projects
  container : s'.container = s.container
  listeners : s'.listeners = s.listeners
  stored : s'.builders[i]? =
    s.builders[i]?.map fun b => { b with slot := b.slot.store generation snapshot }
  others : ∀ j, i ≠ j → s'.builders[j]? = s.builders[j]?

theorem Clears.grows {b : Builder} (h : Clears i s s' b) : Grows s s' :=
  Grows.of_eq h.projects h.listeners

theorem others_modifySlot (s : Session) (i : Nat) (f : Slot → Slot) (j : Nat) (hj : i ≠ j) :
    (s.modifySlot i f).builders[j]? = s.builders[j]? := by
  simp [modifySlot, hj]

theorem clears_self {b : Builder} (hb : s.builders[i]? = some b) (hc : b.slot.cached = none) :
    Clears i s s b := by
  have hclear : b.slot.clear = b.slot := by rw [Slot.clear, ← hc]
  exact ⟨rfl, rfl, rfl, rfl, hb, by rw [hclear]; exact hb, fun _ _ => rfl⟩

theorem clears_modifySlot {b : Builder} (hb : s.builders[i]? = some b) (e : Event) :
    Clears i s ((s.record e).modifySlot i Slot.clear) b := by
  refine ⟨rfl, rfl, rfl, rfl, hb, ?_, others_modifySlot (s.record e) i _⟩
  rw [getElem?_modifySlot]
  exact congrArg (Option.map _) hb

theorem stores_modifySlot (s : Session) (i : Nat) (e : Event) (generation : Nat)
    (snapshot : Snapshot) :
    Stores i generation snapshot s
      ((s.record e).modifySlot i (·.store generation snapshot)) :=
  ⟨rfl, rfl, rfl, getElem?_modifySlot (s.record e) i _, others_modifySlot (s.record e) i _⟩

theorem Stores.record {generation : Nat} {snapshot : Snapshot}
    (h : Stores i generation snapshot s s') (e : Event) :
    Stores i generation snapshot s (s'.record e) :=
  ⟨h.projects, h.container, h.listeners, h.stored, h.others⟩

/-- What a read comes to, whatever the builder does first: there is no builder, its snapshot is
served, or a new one is built. -/
theorem readWith_inv (before : Session → Session) (s : Session) (i : Nat) :
    (s.builders[i]? = none ∧ ∃ fault, s.readWith before i = (.error fault, s)) ∨
      (∃ b snapshot, s.builders[i]? = some b ∧ b.slot.cached = some snapshot ∧
        snapshot.metadata.componentId = s.identity.componentId ∧
        s.readWith before i = (.ok snapshot, s.record (.rootReused s.identity.componentId))) ∨
      ∃ b s', Clears i s s' b ∧ s.readWith before i = rebuild before s' i b := by
  unfold readWith
  cases hb : s.builders[i]? with
  | none => exact Or.inl ⟨rfl, _, rfl⟩
  | some b =>
    refine Or.inr ?_
    cases hc : b.slot.cached with
    | none => exact Or.inr ⟨b, s, clears_self hb hc, by simp only [hc]⟩
    | some snapshot =>
      by_cases hid : snapshot.metadata.componentId = s.identity.componentId
      · exact Or.inl ⟨b, snapshot, rfl, hc, hid, by simp only [hc, if_pos hid]⟩
      · refine Or.inr ⟨b, _, clears_modifySlot hb
          (.rootDiscarded snapshot.metadata.componentId s.identity.componentId), ?_⟩
        simp only [hc, if_neg hid]

theorem attach_eq_ok {work : Work} {m metadata : RootMetadata} {given : List Configuration}
    (h : work.attach m given = .ok metadata) : metadata = m.attach given := by
  unfold Work.attach at h
  split at h
  · split at h
    · exact absurd h (by simp)
    · exact (Except.ok.inj h).symm
  · exact (Except.ok.inj h).symm

/-- **What building comes to**: it fails, or it makes a snapshot of what the builder's source held
before, and stores it. -/
theorem rebuild_cases (before : Session → Session) (s : Session) (i : Nat) (b : Builder) :
    (∃ fault, rebuild before s i b = (.error fault, before s)) ∨
      ∃ snapshot, (rebuild before s i b).1 = .ok snapshot ∧
        snapshot.metadata =
          (bare s.identity s.projects).attach (b.source.read s.container) ∧
        Stores i (s.slot i).generation snapshot (before s) (rebuild before s i b).2 := by
  unfold rebuild
  dsimp only
  cases hattach : b.work.attach (bare s.identity s.projects) (b.source.read s.container) with
  | error fault => exact Or.inl ⟨fault, rfl⟩
  | ok metadata =>
    refine Or.inr ⟨_, rfl, attach_eq_ok hattach, ?_⟩
    dsimp only
    split
    · exact stores_modifySlot _ _ _ _ _
    · exact (stores_modifySlot _ _ _ _ _).record _

theorem slot_eq {b : Builder} (hb : s.builders[i]? = some b) : s.slot i = b.slot := by
  rw [slot, hb]
  rfl

/-- Reading one builder passes the others, if what that builder does first does. -/
theorem passes_readWith {before : Session → Session} (hj : j ≠ i)
    (hbefore : ∀ {s' b}, Clears j s s' b → Passes i s' (before s')) :
    Passes i s (s.readWith before j).2 := by
  rcases readWith_inv before s j with ⟨-, fault, h⟩ | ⟨b, snapshot, -, -, -, h⟩ | ⟨b, s', hclear, h⟩
  · rw [h]
    exact Passes.refl i s
  · rw [h]
    exact Passes.record s _
  · rw [h]
    have hcleared : Passes i s s' := Passes.of_eq hclear.projects hclear.listeners
      hclear.container (hclear.others i hj)
    have hprepare := hcleared.trans (hbefore hclear)
    rcases rebuild_cases before s' j b with ⟨fault, hr⟩ | ⟨snapshot, -, -, hstore⟩
    · rw [hr]
      exact hprepare
    · exact hprepare.trans (Passes.of_eq hstore.projects hstore.listeners hstore.container
        (hstore.others i hj))

/-- A reader does not change the container. -/
theorem container_readWith (s : Session) (i : Nat) :
    (s.readWith id i).2.container = s.container := by
  rcases readWith_inv id s i with ⟨-, fault, h⟩ | ⟨b, snapshot, -, -, -, h⟩ | ⟨b, s', hclear, h⟩
  · rw [h]
  · rw [h]
    rfl
  · rw [h]
    rcases rebuild_cases id s' i b with ⟨fault, hr⟩ | ⟨snapshot, -, -, hstore⟩
    · rw [hr]
      exact hclear.container
    · exact hstore.container.trans hclear.container

/-! ## Announcements and changes -/

/-- A listener that does not read builder `i`, told of a change. -/
theorem passes_tell {l : Listener} (hl : l ≠ .reader i) (s : Session) (kind : MutationKind) :
    Passes i s (s.tell kind l) ∧ (s.tell kind l).container = s.container := by
  cases l with
  | recorder => exact ⟨Passes.of_eq rfl rfl rfl rfl, rfl⟩
  | builder j => exact ⟨passes_notify s i j kind, notify_container s j kind⟩
  | reader j =>
    have hj : j ≠ i := fun h => hl (h ▸ rfl)
    exact ⟨passes_readWith hj fun _ => Passes.refl i _, container_readWith s j⟩

/-- Several listeners that do not read it, told of a change one after another. -/
theorem passes_tellAll (kind : MutationKind) : ∀ (ls : List Listener) (s : Session),
    .reader i ∉ ls →
    Passes i s (ls.foldl (tell kind) s) ∧ (ls.foldl (tell kind) s).container = s.container
  | [], s, _ => ⟨Passes.refl i s, rfl⟩
  | l :: ls, s, h => by
    obtain ⟨hl, hc⟩ := passes_tell (fun h' => h (h' ▸ List.mem_cons_self)) s kind
    obtain ⟨hls, hc'⟩ := passes_tellAll kind ls (s.tell kind l)
      fun h' => h (List.mem_cons_of_mem l h')
    exact ⟨hl.trans hls, hc'.trans hc⟩

/-- Builder `i` stays, and its slot is not of an earlier generation. -/
def Ages (i : Nat) (s s' : Session) : Prop :=
  ∀ b, s.builders[i]? = some b → ∃ slot, s'.builders[i]? = some { b with slot := slot } ∧
    b.slot.generation ≤ slot.generation

/-- A builder that was told of a change has an empty slot of a later generation. -/
def Emptied (i : Nat) (s s' : Session) : Prop :=
  ∀ b, s.builders[i]? = some b → ∃ slot, s'.builders[i]? = some { b with slot := slot } ∧
    slot.cached = none ∧ b.slot.generation < slot.generation

theorem Passes.ages (h : Passes i s s') : Ages i s s' := by
  intro b hb
  obtain ⟨slot, hb', hslot⟩ := h.present b hb
  refine ⟨slot, hb', ?_⟩
  rcases hslot with ⟨-, hg, -⟩ | ⟨-, hg⟩
  · exact Nat.le_of_eq hg.symm
  · exact Nat.le_of_lt hg

theorem Ages.trans (h : Ages i s s') (h' : Ages i s' s'') : Ages i s s'' := by
  intro b hb
  obtain ⟨slot, hb', hg⟩ := h b hb
  obtain ⟨slot', hb'', hg'⟩ := h' _ hb'
  exact ⟨slot', hb'', Nat.le_trans hg hg'⟩

/-- Being told of a change empties a slot whatever it held by then. -/
theorem Ages.emptied (h : Ages i s s') (h' : Emptied i s' s'') : Emptied i s s'' := by
  intro b hb
  obtain ⟨slot, hb', hg⟩ := h b hb
  obtain ⟨slot', hb'', hc, hg'⟩ := h' _ hb'
  exact ⟨slot', hb'', hc, Nat.lt_of_le_of_lt hg hg'⟩

/-- A reader may fill the slot of a builder, but it tells it of nothing. -/
theorem ages_readWith (s : Session) (i : Nat) : Ages i s (s.readWith id i).2 := by
  intro b hb
  rcases readWith_inv id s i with ⟨-, fault, h⟩ | ⟨-, snapshot, -, -, -, h⟩ | ⟨b', s', hclear, h⟩
  · rw [h]
    exact ⟨b.slot, hb, Nat.le_refl _⟩
  · rw [h]
    exact ⟨b.slot, hb, Nat.le_refl _⟩
  · rw [h]
    obtain rfl : b' = b := Option.some.inj (hclear.builder.symm.trans hb)
    rcases rebuild_cases id s' i b' with ⟨fault, hr⟩ | ⟨snapshot, -, -, hstore⟩
    · rw [hr]
      exact ⟨b'.slot.clear, hclear.cleared, Nat.le_refl _⟩
    · refine ⟨b'.slot.clear.store (s'.slot i).generation snapshot, ?_, Nat.le_refl _⟩
      rw [hstore.stored, id_eq, hclear.cleared]
      rfl

theorem ages_tell (i : Nat) (kind : MutationKind) (s : Session) (l : Listener) :
    Ages i s (s.tell kind l) := by
  by_cases hl : l = .reader i
  · subst hl
    exact ages_readWith s i
  · exact (passes_tell hl s kind).1.ages

theorem ages_tellAll (i : Nat) (kind : MutationKind) (ls : List Listener) (s : Session) :
    Ages i s (ls.foldl (tell kind) s) := by
  induction ls generalizing s with
  | nil => exact (Passes.refl i s).ages
  | cons l ls ih => exact (ages_tell i kind s l).trans (ih _)

theorem Emptied.passes (h : Emptied i s s') (h' : Passes i s' s'') : Emptied i s s'' := by
  intro b hb
  obtain ⟨slot, hb', hc, hg⟩ := h b hb
  obtain ⟨slot', hb'', hslot⟩ := h'.present _ hb'
  refine ⟨slot', hb'', ?_⟩
  rcases hslot with ⟨hc', hg', -⟩ | ⟨hc', hg'⟩
  · exact ⟨hc'.trans hc, hg'.symm ▸ hg⟩
  · exact ⟨hc', Nat.lt_trans hg hg'⟩

theorem emptied_notify (s : Session) (i : Nat) {kind : MutationKind} (h : kind.affectsRoot = true) :
    Emptied i s (s.notify i kind) := by
  intro b hb
  refine ⟨b.slot.invalidate, ?_, rfl, Nat.lt_succ_self _⟩
  rw [notify, if_pos h]
  exact (getElem?_modifySlot s i _).trans (by rw [hb]; rfl)

/-- **A change that affects root metadata empties every slot that listens**, unless it is filled by
somebody who is told later. -/
theorem emptied_announce (hg : s.Guarded i) {kind : MutationKind} (h : kind.affectsRoot = true) :
    Emptied i s (s.announce kind) := by
  obtain ⟨before, rest, hsplit, hrest⟩ := hg
  unfold announce
  rw [hsplit, List.foldl_append, List.foldl_cons]
  have hbefore := ages_tellAll i kind before s
  have htold := emptied_notify (before.foldl (tell kind) s) i h
  exact hbefore.emptied (htold.passes (passes_tellAll kind rest _ hrest).1)

/-- **Changing the container passes every builder**: a builder that listens is told, or the change
is not shown. -/
theorem passes_perform (hs : s.Passive) (i : Nat) (op : Operation) :
    Passes i s (s.perform op).2 := by
  unfold perform
  cases s.container.refusal op with
  | some failure => exact Passes.refl i s
  | none =>
    obtain ⟨hpass, hcontainer⟩ : Passes i s (s.announce op.kind) ∧
        (s.announce op.kind).container = s.container :=
      passes_tellAll op.kind s.listeners s (hs i)
    refine ⟨⟨hpass.projects, hpass.passive, hpass.listeners⟩, fun b hb => ?_, hpass.absent⟩
    obtain ⟨slot, hb', hslot⟩ := hpass.present b hb
    refine ⟨slot, hb', ?_⟩
    rcases hslot with ⟨hc, hg, -⟩ | ⟨hc, hg⟩
    · refine .kept hc hg fun hl hfaithful locking => ?_
      have hkind : op.kind.affectsRoot = false := by
        refine Bool.eq_false_iff.mpr fun htrue => ?_
        obtain ⟨slot', hb'', -, hg'⟩ := emptied_announce (hs.guarded hl) htrue b hb
        obtain rfl : slot' = slot :=
          congrArg Builder.slot (Option.some.inj (hb''.symm.trans hb'))
        exact Nat.ne_of_lt hg' hg.symm
      change shown locking b.source ((s.announce op.kind).container.apply op) = _
      rw [hcontainer, hfaithful hkind]
    · exact .emptied hc hg

/-- What a builder does before it attaches configurations passes a builder that declaring `lazy`
passes. -/
theorem passes_prepare_of (h : Passes i s (s.perform (.create "lazy")).2) (work : Work) :
    Passes i s (prepare work s) := by
  cases work with
  | plain => exact Passes.refl i s
  | failOn _ _ => exact Passes.refl i s
  | rename _ => exact Passes.of_eq rfl rfl rfl rfl
  | declareLazy =>
    unfold prepare
    dsimp only
    split
    · exact Passes.refl i s
    · exact h

/-- It passes every builder, itself included, where no listener reads. -/
theorem passes_prepare (hs : s.Passive) (i : Nat) (work : Work) : Passes i s (prepare work s) :=
  passes_prepare_of (passes_perform hs i _) work

/-- **What a read comes to**: there is no builder, its snapshot is served, or a new one is built. -/
theorem read_cases (s : Session) (i : Nat) :
    (∃ fault, s.read i = (.error fault, s)) ∨
      (∃ b snapshot, s.builders[i]? = some b ∧ b.slot.cached = some snapshot ∧
        snapshot.metadata.componentId = s.identity.componentId ∧
        s.read i = (.ok snapshot, s.record (.rootReused s.identity.componentId))) ∨
      ∃ b s', Clears i s s' b ∧ s.read i = rebuild (prepare (s.work i)) s' i b :=
  (readWith_inv (prepare (s.work i)) s i).imp_left And.right

/-- Reading one builder passes the others. -/
theorem passes_read (hs : s.Passive) (hj : j ≠ i) : Passes i s (s.read j).2 :=
  passes_readWith hj fun hclear => passes_prepare (hclear.grows.passive hs) i _

/-- Reading a builder leaves projects and listeners alone. -/
theorem grows_read (hs : s.Passive) (i : Nat) : Grows s (s.read i).2 :=
  -- A read of one builder passes any other index, whether there is a builder or not.
  (passes_read hs (Nat.ne_of_lt (Nat.lt_succ_self i))).toGrows

theorem step_read (s : Session) (i : Nat) : (s.step (.read i)).2 = (s.read i).2 := by
  unfold Session.step
  dsimp only
  split <;> rename_i heq <;> rw [heq]

theorem step_perform (s : Session) (op : Operation) :
    (s.step (.perform op)).2 = (s.perform op).2 := by
  unfold Session.step
  dsimp only
  split <;> rename_i heq <;> rw [heq]

/-- Whatever is neither a change to the container nor a read passes every builder. -/
theorem passes_aside {a : Action} (hperform : ∀ op, a ≠ .perform op) (hread : ∀ j, a ≠ .read j) :
    Passes i s (s.step a).2 := by
  cases a with
  | perform op => exact absurd rfl (hperform op)
  | setIdentity identity => exact Passes.of_eq rfl rfl rfl rfl
  | notify j kind => exact passes_notify s i j kind
  | read j => exact absurd rfl (hread j)
  | derive j source =>
    refine ⟨Grows.of_eq rfl rfl, fun b hb => ⟨b.slot, ?_, .kept rfl rfl fun _ _ _ => rfl⟩,
      fun h b hb => ?_⟩
    · have hi : i < s.builders.length := (List.getElem?_eq_some_iff.mp hb).1
      exact (List.getElem?_append_left hi).trans hb
    · have hi : s.builders.length ≤ i := List.getElem?_eq_none_iff.mp h
      have hmem := List.mem_of_getElem? ((List.getElem?_append_right hi).symm.trans hb)
      rw [List.mem_singleton.mp hmem]
  | attach j =>
    refine ⟨⟨rfl, fun h k hk => ?_, fun l hl => List.mem_append_left _ hl⟩,
      fun b hb => ⟨b.slot, hb, .kept rfl rfl fun _ _ _ => rfl⟩,
      fun h b hb => absurd (h.symm.trans hb) (by simp)⟩
    rcases List.mem_append.mp hk with hk | hk
    · exact h k hk
    · exact absurd (List.mem_singleton.mp hk) (by simp)

/-- **Whatever happens except its own reads passes a builder.** -/
theorem Passes.step (hs : s.Passive) {a : Action} (ha : a ≠ .read i) :
    Passes i s (s.step a).2 := by
  cases a with
  | perform op =>
    rw [step_perform]
    exact passes_perform hs i op
  | read j =>
    rw [step_read]
    exact passes_read hs fun hj => ha (hj ▸ rfl)
  | setIdentity _ => exact passes_aside nofun nofun
  | notify _ _ => exact passes_aside nofun nofun
  | derive _ _ => exact passes_aside nofun nofun
  | attach _ => exact passes_aside nofun nofun

/-- Every action leaves projects and listeners alone. -/
theorem grows_step (hs : s.Passive) (a : Action) : Grows s (s.step a).2 := by
  by_cases ha : a = .read 0
  · rw [ha, step_read]
    exact grows_read hs 0
  · exact (Passes.step hs ha).toGrows

/-! ## The invariant of a slot -/

/-- Metadata is that of a project without configurations, with some attached that show what the
source holds, if it is faithful. -/
def Shows (source : Source) (container : Container) (bare metadata : RootMetadata) : Prop :=
  ∃ given, metadata = bare.attach given ∧ (source.Faithful → ∀ locking,
    given.map (localConfiguration locking) = shown locking source container)

theorem Shows.refl (source : Source) (container : Container) (bare : RootMetadata) :
    Shows source container bare (bare.attach (source.read container)) :=
  ⟨_, rfl, fun _ _ => rfl⟩

theorem Shows.of_eq {source : Source} {c c' : Container} {bare metadata : RootMetadata}
    (h : Shows source c bare metadata)
    (hsame : source.Faithful → ∀ locking, shown locking source c' = shown locking source c) :
    Shows source c' bare metadata := by
  obtain ⟨given, hmetadata, hgiven⟩ := h
  exact ⟨given, hmetadata, fun hfaithful locking =>
    (hgiven hfaithful locking).trans (hsame hfaithful locking).symm⟩

/-- **A snapshot in slot `i` is what would be built now**, up to the identity it was built for, of
which `P` knows. -/
def Kept (i : Nat) (P : Coordinates → Snapshot → Prop) (s : Session) : Prop :=
  ∀ b snapshot, s.builders[i]? = some b → b.slot.cached = some snapshot →
    ∃ origin, P origin snapshot ∧
      Shows b.source s.container (bare origin s.projects) snapshot.metadata

variable {P : Coordinates → Snapshot → Prop}

theorem Empty.kept (h : s.Empty i) : Kept i P s := fun b _ hb hc =>
  absurd ((h b hb).symm.trans hc) (by simp)

/-- The invariant survives whatever passes the builder, if it listens. -/
theorem Kept.passes (hk : Kept i P s) (hl : s.Listens i) (h : Passes i s s') : Kept i P s' := by
  cases hb : s.builders[i]? with
  | none => exact (h.absent hb).kept
  | some b =>
    obtain ⟨slot, hb', hslot⟩ := h.present b hb
    intro b' snapshot h' hc
    obtain rfl := Option.some.inj (hb'.symm.trans h')
    rcases hslot with ⟨hc', -, hsame⟩ | ⟨hc', -⟩
    · obtain ⟨origin, hP, hm⟩ := hk b snapshot hb (hc'.symm.trans hc)
      rw [h.projects]
      exact ⟨origin, hP, hm.of_eq (hsame hl)⟩
    · exact absurd (hc'.symm.trans hc) (by simp)

/-- **Reading keeps the invariant**, if what the builder does first passes it: a snapshot is stored
only if nothing was shown differently while it was built. -/
theorem Kept.readWith {before : Session → Session} (hk : Kept i P s) (hl : s.Listens i)
    (hbefore : ∀ {s' b}, Clears i s s' b → Passes i s' (before s'))
    (hP : ∀ snapshot, (s.readWith before i).1 = .ok snapshot → P s.identity snapshot) :
    Kept i P (s.readWith before i).2 := by
  rcases readWith_inv before s i with ⟨-, fault, h⟩ | ⟨b, snapshot, -, -, -, h⟩ | ⟨b, s₁, hclear, h⟩
  · rwa [h]
  · rw [h]
    exact hk
  · rw [h] at hP ⊢
    have hgrows := hclear.grows
    have hempty : Kept i P s₁ := Empty.kept fun b' hb' => by
      rw [← Option.some.inj (hclear.cleared.symm.trans hb')]
      rfl
    have hprepare := hbefore hclear
    have hkept : Kept i P (before s₁) := hempty.passes (hgrows.listeners hl) hprepare
    rcases rebuild_cases before s₁ i b with ⟨fault, hr⟩ | ⟨snapshot, hr, hm, hstore⟩
    · rwa [hr]
    · intro b' snapshot' hb' hc
      obtain ⟨slot, hb₂, hslot⟩ := hprepare.present _ hclear.cleared
      rw [hstore.stored, hb₂] at hb'
      obtain rfl := Option.some.inj hb'
      rw [hstore.projects, hstore.container]
      -- An equal generation rules out that the slot was emptied while the builder worked.
      by_cases hgen : slot.generation = (s₁.slot i).generation
      · obtain rfl : snapshot = snapshot' := by
          simpa [Slot.store, hgen] using hc
        rw [slot_eq hclear.cleared] at hgen
        rcases hslot with ⟨-, -, hsame⟩ | ⟨-, hlt⟩
        · refine ⟨s.identity, hP snapshot hr, ?_⟩
          rw [hm, hclear.identity, hprepare.projects]
          exact (Shows.refl _ _ _).of_eq (hsame (hgrows.listeners hl))
        · exact absurd hgen.symm (Nat.ne_of_lt hlt)
      · refine hkept { b with slot := slot } snapshot' hb₂ ?_
        simpa [Slot.store, hgen] using hc

theorem Kept.read (hk : Kept i P s) (hs : s.Passive) (hl : s.Listens i)
    (hP : ∀ snapshot, (s.read i).1 = .ok snapshot → P s.identity snapshot) :
    Kept i P (s.read i).2 :=
  hk.readWith hl (fun hclear => passes_prepare (hclear.grows.passive hs) i _) hP

/-- What a successful read answers: a snapshot for the present identity that shows what the
builder's source holds, made for an identity that is known or for the present one. -/
theorem Kept.of_read_ok (hk : Kept i P s) {snapshot : Snapshot}
    (hP : P s.identity snapshot) (h : (s.read i).1 = .ok snapshot) :
    ∃ b origin, s.builders[i]? = some b ∧ P origin snapshot ∧
      snapshot.metadata.componentId = s.identity.componentId ∧
      Shows b.source s.container (bare origin s.projects) snapshot.metadata := by
  rcases read_cases s i with ⟨fault, hr⟩ | ⟨b, served, hb, hc, hid, hr⟩ | ⟨b, s₁, hclear, hr⟩
  · rw [hr] at h
    exact absurd h (by simp)
  · rw [hr] at h
    obtain rfl := Except.ok.inj h
    obtain ⟨origin, hPo, hm⟩ := hk b served hb hc
    exact ⟨b, origin, hb, hPo, hid, hm⟩
  · rw [hr] at h
    rcases rebuild_cases (prepare (s.work i)) s₁ i b with ⟨fault, hr'⟩ | ⟨built, hr', hm, -⟩
    · rw [hr'] at h
      exact absurd h (by simp)
    · obtain rfl := Except.ok.inj (hr'.symm.trans h)
      rw [hclear.identity, hclear.projects, hclear.container] at hm
      exact ⟨b, s.identity, hclear.builder, hP, by rw [hm]; rfl, hm ▸ Shows.refl _ _ _⟩

/-! ## Runs -/

/-- The read of builder `i` that ends some actions, or one before it, was made as `origin` and
answered `snapshot`. -/
def Answered (s : Session) (i : Nat) (actions : List Action) (origin : Coordinates)
    (snapshot : Snapshot) : Prop :=
  ∃ before rest, actions ++ [.read i] = before ++ .read i :: rest ∧
    (s.after before).identity = origin ∧ ((s.after before).read i).1 = .ok snapshot

/-- **What a reader can rely on** at `m`, read from `source` in session `s`: schema, locking and
configurations are those of now, and so is the component, which is what `origin` was made for. -/
structure Current (s : Session) (source : Source) (origin : Coordinates) (m : RootMetadata) :
    Prop where
  componentId : m.componentId = s.identity.componentId
  /-- The schema of the project at the module's place, if there is one. -/
  schema : m.schema = (s.identity.projectPath.bind s.projects.find?).map (·.schema)
  /-- The locking of that project; nothing is locked without one. -/
  locking : m.locking =
    ((s.identity.projectPath.bind s.projects.find?).map (·.locking)).getD .off
  /-- All configurations of the source, in order, as they are now. -/
  configurations : source.Faithful →
    m.configurations = (source.read s.container).map (localConfiguration m.locking)
  id : m.id = origin.id
  status : m.status = origin.status
  /-- The module it was made for is the same component. -/
  origin : origin.componentId = s.identity.componentId

theorem Current.of_attach {source : Source} {origin : Coordinates} {m : RootMetadata}
    (hid : m.componentId = s.identity.componentId)
    (hm : Shows source s.container (bare origin s.projects) m) : s.Current source origin m := by
  obtain ⟨given, rfl, hgiven⟩ := hm
  have horigin : origin.componentId = s.identity.componentId := hid
  have hpath := Coordinates.projectPath_eq horigin
  refine ⟨hid, ?_, ?_, fun hfaithful => hgiven hfaithful _, rfl, rfl, horigin⟩
  · rw [← hpath]
    rfl
  · rw [← hpath]
    rfl

theorem grows_after : ∀ {s : Session} (actions : List Action), s.Passive →
    Grows s (s.after actions)
  | _, [], _ => Grows.of_eq rfl rfl
  | _, a :: rest, hs =>
    (grows_step hs a).trans (grows_after rest ((grows_step hs a).passive hs))

/-- A builder that was not read has no snapshot. -/
theorem Empty.after : ∀ {s : Session} {actions : List Action}, s.Empty i → s.Passive →
    Action.read i ∉ actions → (s.after actions).Empty i
  | _, [], h, _, _ => h
  | _, a :: rest, h, hs, hread => by
    have hstep : Passes i _ _ := Passes.step hs fun ha : a = .read i =>
      hread (ha ▸ List.mem_cons_self)
    exact (hstep.empty h).after (hstep.passive hs) fun hrest =>
      hread (List.mem_cons_of_mem a hrest)

/-- **Runs keep the invariant** of a builder that listens. -/
theorem Kept.after : ∀ {s : Session} {actions : List Action}, Kept i P s → s.Passive →
    s.Listens i →
    (∀ before rest snapshot, actions = before ++ .read i :: rest →
      ((s.after before).read i).1 = .ok snapshot → P (s.after before).identity snapshot) →
    Kept i P (s.after actions)
  | _, [], hk, _, _, _ => hk
  | s, a :: rest, hk, hs, hl, hP => by
    have hgrows := grows_step hs a
    have hstep : Kept i P (s.step a).2 := by
      by_cases ha : a = .read i
      · subst ha
        rw [step_read]
        exact hk.read hs hl fun snapshot => hP [] rest snapshot rfl
      · exact hk.passes hl (Passes.step hs ha)
    exact hstep.after (hgrows.passive hs) (hgrows.listeners hl)
      fun before rest' snapshot hsplit => hP (a :: before) rest' snapshot (by rw [hsplit]; rfl)

/-- **Served root metadata is current.** Let nothing be cached in a session `s`, and let builder `i`
be told of changes before it is first read. Whatever happens, each later read that succeeds answers
metadata of the present component with the schema, the locking and the configurations of now, and
with the coordinates and the status under which this read or an earlier one answered the very same
snapshot. The configurations are those of now if the builder's source is faithful, as the container
is, every list, and every choice by name among those of a faithful one. -/
theorem read_current {early late : List Action} {snapshot : Snapshot}
    (hs : s.Fresh) (hearly : Action.read i ∉ early) (hlistens : (s.after early).Listens i)
    (hread : ((s.after (early ++ late)).read i).1 = .ok snapshot) :
    ∃ b origin, (s.after (early ++ late)).builders[i]? = some b ∧
      s.Answered i (early ++ late) origin snapshot ∧
      (s.after (early ++ late)).Current b.source origin snapshot.metadata := by
  have hempty : (s.after early).Empty i :=
    Empty.after (fun b hb => hs.empty b (List.mem_of_getElem? hb)) hs.passive hearly
  have hpassive := (grows_after early hs.passive).passive hs.passive
  have hkept : Kept i (s.Answered i (early ++ late)) (s.after (early ++ late)) := by
    rw [after_append]
    refine Kept.after hempty.kept hpassive hlistens fun before rest snapshot hsplit hok => ?_
    rw [← after_append] at hok ⊢
    refine ⟨early ++ before, rest ++ [.read i], ?_, rfl, hok⟩
    rw [hsplit]
    simp
  obtain ⟨b, origin, hb, hanswered, hid, hm⟩ :=
    hkept.of_read_ok ⟨early ++ late, [], rfl, rfl, hread⟩ hread
  exact ⟨b, origin, hb, hanswered, Current.of_attach hid hm⟩

/-- A project whose roles and version change after its first read: the snapshot that is served shows
the version of that read. -/
theorem read_current_setRoles :
    let app (version : String) : Coordinates := ⟨"org", "app", version, some ":app", defaultStatus⟩
    let s : Session := { identity := app "1", builders := [{}] }
    let late : List Action := [.perform (.create "runtime"), .read 0,
      .perform (.setRoles "runtime" false true), .setIdentity (app "2")]
    let m := (bare (app "1") Dict.empty).attach [{ name := "runtime" }]
    ∃ b origin, (s.after ([.attach 0] ++ late)).builders[0]? = some b ∧ b.source.Faithful ∧
      s.Answered 0 ([.attach 0] ++ late) origin ⟨0, 0, m⟩ ∧
      (s.after ([.attach 0] ++ late)).Current b.source origin m := by
  intro app s late m
  have hs : s.Fresh := ⟨by simp [s], by simp [s, Passive]⟩
  have hlistens : (s.after [.attach 0]).Listens 0 := by simp [s, after, run, step, Listens]
  have hread : ((s.after ([.attach 0] ++ late)).read 0).1 = .ok ⟨0, 0, m⟩ := rfl
  obtain ⟨b, origin, hb, hanswered, hcurrent⟩ := read_current hs (by simp) hlistens hread
  have hsource : some b.source = some .container := congrArg (Option.map Builder.source) hb.symm
  exact ⟨b, origin, hb, Option.some.inj hsource ▸ Source.faithful_container, hanswered, hcurrent⟩

end Session

end Componentry
