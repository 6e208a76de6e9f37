import Componentry.Proofs.Root.Coherence

/-!
# A snapshot is kept exactly as long as it may be

Between two reads of a builder that attaches what it finds, a snapshot is lost for two reasons only:
something costs it, or the project is another component at the second read.

* `Costs i s a`: the action is a change to the container of an invalidating kind that is carried
  out, or an invalidating notification of builder `i` itself. Refused changes, changes of strategy
  and roles, other notifications and changes of identity are not among these.
* `Reads i s a`: builder `i` is read, be it by the action itself or by a listener that reads when it
  hears of a change.
* `Sometime P s actions`: one of the actions is as `P` says in the session it finds.
* `Spares i s s'`, `Empties i s s'`: what becomes of slot `i` while the builder is not read.

Results:
* `spares_step`, `empties_step`: an action that does not read the builder empties its slot if it
  costs the snapshot, and otherwise leaves the slot alone.
* `spares_after`, `empties_after`: so do runs.
* `readWith_cases`: a read serves the snapshot in the slot, or it builds one with the next number.
* **`read_same_iff`**: two reads with none in between answer the same snapshot if and only if
  nothing in between costs it and the project is the same component at both.
-/

namespace Componentry

/-- The changes that make root metadata stale when they are carried out, whatever they change. -/
def Operation.isInvalidating : Operation → Bool
  | create _ => true
  | addDependency _ _ => true
  | addArtifact _ _ => true
  | setAttribute _ _ _ => true
  | setDependencyAttribute _ _ _ _ => true
  | setLocking _ _ => true
  | setStrategy _ _ => false
  | setRoles _ _ _ => false

theorem Operation.affectsRoot_kind (op : Operation) : op.kind.affectsRoot = op.isInvalidating := by
  cases op <;> rfl

/-- The snapshots are one and the same. -/
def Snapshot.SameAs (x y : Snapshot) : Prop := x.builder = y.builder ∧ x.serial = y.serial

/-- A snapshot with a later number is another one. -/
theorem Snapshot.not_sameAs_of_lt {x y : Snapshot} (h : x.serial < y.serial) : ¬ y.SameAs x :=
  fun hsame => Nat.ne_of_gt h hsame.2

namespace Session

variable {s s' s'' : Session} {i j : Nat}

/-- Every builder attaches the configurations it finds, and does nothing else. -/
def Plain (s : Session) : Prop := ∀ b ∈ s.builders, b.work = .plain

/-- The action costs builder `i` its snapshot. -/
inductive Costs (i : Nat) (s : Session) : Action → Prop where
  | performed {op : Operation} : op.isInvalidating = true → (s.perform op).1 = .ok () →
      Costs i s (.perform op)
  | notified {kind : MutationKind} : kind.affectsRoot = true → Costs i s (.notify i kind)

/-- The action reads builder `i`, itself or by way of a listener. -/
inductive Reads (i : Nat) (s : Session) : Action → Prop where
  | read : Reads i s (.read i)
  | heard {op : Operation} : .reader i ∈ s.listeners → (s.perform op).1 = .ok () →
      Reads i s (.perform op)

/-- **At some point of the run, the next action is as `P` says** in the session it finds. -/
def Sometime (P : Session → Action → Prop) (s : Session) (actions : List Action) : Prop :=
  ∃ done a rest, actions = done ++ a :: rest ∧ P (s.after done) a

theorem not_sometime_nil (P : Session → Action → Prop) : ¬ Sometime P s [] := by
  rintro ⟨done, a, rest, h, -⟩
  simp at h

/-- What happened stays so whatever happens later. -/
theorem Sometime.append {P : Session → Action → Prop} {actions : List Action}
    (h : Sometime P s actions) (later : List Action) : Sometime P s (actions ++ later) := by
  obtain ⟨done, a, rest, rfl, hP⟩ := h
  exact ⟨done, a, rest ++ later, by simp, hP⟩

theorem Sometime.imp {P Q : Session → Action → Prop} {actions : List Action}
    (h : Sometime P s actions) (hPQ : ∀ t a, P t a → Q t a) : Sometime Q s actions := by
  obtain ⟨done, a, rest, hsplit, hP⟩ := h
  exact ⟨done, a, rest, hsplit, hPQ _ _ hP⟩

theorem sometime_cons {P : Session → Action → Prop} {a : Action} {rest : List Action} :
    Sometime P s (a :: rest) ↔ P s a ∨ Sometime P (s.step a).2 rest := by
  constructor
  · rintro ⟨done, b, later, h, hP⟩
    cases done with
    | nil =>
      obtain ⟨rfl, rfl⟩ := List.cons.inj h
      exact .inl hP
    | cons c done =>
      obtain ⟨rfl, rfl⟩ := List.cons.inj h
      exact .inr ⟨done, b, later, rfl, hP⟩
  · rintro (hP | ⟨done, b, later, rfl, hP⟩)
    · exact ⟨[], a, rest, rfl, hP⟩
    · exact ⟨a :: done, b, later, rfl, hP⟩

/-! ## What stays -/

/-- Only slots, the log and what was heard differ. -/
structure SlotsOnly (s s' : Session) : Prop where
  identity : s'.identity = s.identity
  container : s'.container = s.container
  projects : s'.projects = s.projects
  listeners : s'.listeners = s.listeners
  builders : s'.builders.map (fun b => (b.source, b.work)) =
    s.builders.map fun b => (b.source, b.work)

/-- Only the slot of builder `j` differs, the log and what was heard apart. -/
structure Touches (j : Nat) (s s' : Session) : Prop extends SlotsOnly s s' where
  others : ∀ i, j ≠ i → s'.slot i = s.slot i

/-- Listeners and builders are only added, and only plain builders to plain ones. -/
structure Extends (s s' : Session) : Prop where
  listeners : s.listeners ⊆ s'.listeners
  length : s.builders.length ≤ s'.builders.length
  plain : s.Plain → s'.Plain

theorem SlotsOnly.refl (s : Session) : SlotsOnly s s := ⟨rfl, rfl, rfl, rfl, rfl⟩

theorem SlotsOnly.trans (h : SlotsOnly s s') (h' : SlotsOnly s' s'') : SlotsOnly s s'' :=
  ⟨h'.identity.trans h.identity, h'.container.trans h.container, h'.projects.trans h.projects,
    h'.listeners.trans h.listeners, h'.builders.trans h.builders⟩

theorem slot_of_builder (h : s'.builders[i]? = s.builders[i]?) : s'.slot i = s.slot i := by
  unfold slot
  rw [h]

theorem slot_modifySlot_self {b : Builder} (hb : s.builders[i]? = some b) (f : Slot → Slot) :
    (s.modifySlot i f).slot i = f b.slot := by
  unfold slot
  rw [getElem?_modifySlot, hb]
  rfl

theorem Touches.refl (j : Nat) (s : Session) : Touches j s s := ⟨.refl s, fun _ _ => rfl⟩

theorem Touches.trans (h : Touches j s s') (h' : Touches j s' s'') : Touches j s s'' :=
  ⟨h.toSlotsOnly.trans h'.toSlotsOnly, fun i hj => (h'.others i hj).trans (h.others i hj)⟩

theorem Touches.record (j : Nat) (s : Session) (e : Event) : Touches j s (s.record e) :=
  ⟨⟨rfl, rfl, rfl, rfl, rfl⟩, fun _ _ => rfl⟩

theorem Touches.modifySlot (j : Nat) (s : Session) (f : Slot → Slot) :
    Touches j s (s.modifySlot j f) := by
  refine ⟨⟨rfl, rfl, rfl, rfl, ?_⟩, fun i hj => slot_of_builder (others_modifySlot s j f i hj)⟩
  unfold Session.modifySlot
  refine List.ext_getElem? fun k => ?_
  simp only [List.getElem?_map, List.getElem?_modify]
  cases s.builders[k]? with
  | none => simp
  | some b => by_cases hk : j = k <;> simp [hk]

theorem plain_iff : s.Plain ↔
    ∀ p ∈ s.builders.map (fun b => (b.source, b.work)), p.2 = .plain := by
  simp [Plain]

theorem SlotsOnly.extends (h : SlotsOnly s s') : Extends s s' where
  listeners := fun _ hl => h.listeners ▸ hl
  length := by
    have hlength := congrArg List.length h.builders
    simp only [List.length_map] at hlength
    omega
  plain := fun hs => by
    rw [plain_iff, h.builders]
    exact plain_iff.mp hs

theorem Extends.trans (h : Extends s s') (h' : Extends s' s'') : Extends s s'' where
  listeners := fun _ hl => h'.listeners (h.listeners hl)
  length := Nat.le_trans h.length h'.length
  plain := h'.plain ∘ h.plain

theorem Plain.work (hs : s.Plain) (i : Nat) : s.work i = .plain := by
  unfold Session.work
  cases hb : s.builders[i]? with
  | none => rfl
  | some b => exact hs b (List.mem_of_getElem? hb)

/-- A builder that attaches what it finds does nothing to the session first. -/
theorem read_eq_of_plain (h : s.work i = .plain) : s.read i = s.readWith id i := by
  unfold Session.read
  rw [h]
  rfl

theorem Plain.read_eq (hs : s.Plain) (i : Nat) : s.read i = s.readWith id i :=
  read_eq_of_plain (hs.work i)

/-! ## Slots -/

/-- The slot of builder `i` has what it had, and no snapshot was built for it. -/
structure Spares (i : Nat) (s s' : Session) : Prop where
  cached : (s'.slot i).cached = (s.slot i).cached
  built : (s'.slot i).built = (s.slot i).built

/-- The slot of builder `i` is empty, and no snapshot was built for it. -/
structure Empties (i : Nat) (s s' : Session) : Prop where
  cached : (s'.slot i).cached = none
  built : (s'.slot i).built = (s.slot i).built

theorem Spares.of_slot_eq (h : s'.slot i = s.slot i) : Spares i s s' := by
  constructor
  · rw [h]
  · rw [h]

theorem Spares.trans (h : Spares i s s') (h' : Spares i s' s'') : Spares i s s'' :=
  ⟨h'.cached.trans h.cached, h'.built.trans h.built⟩

theorem Spares.empties (h : Spares i s s') (h' : Empties i s' s'') : Empties i s s'' :=
  ⟨h'.cached, h'.built.trans h.built⟩

theorem Empties.spares (h : Empties i s s') (h' : Spares i s' s'') : Empties i s s'' :=
  ⟨h'.cached.trans h.cached, h'.built.trans h.built⟩

theorem Empties.trans (h : Empties i s s') (h' : Empties i s' s'') : Empties i s s'' :=
  ⟨h'.cached, h'.built.trans h.built⟩

/-- Emptying the slot of a builder that is not there changes nothing, as it has an empty slot. -/
theorem empties_invalidate (s : Session) (i : Nat) :
    Empties i s (s.modifySlot i Slot.invalidate) := by
  cases hb : s.builders[i]? with
  | none =>
    have hslot : ∀ s : Session, s.builders[i]? = none → s.slot i = {} := by
      intro s hb
      rw [slot, hb]
      rfl
    have hb' : (s.modifySlot i Slot.invalidate).builders[i]? = none := by
      rw [getElem?_modifySlot, hb]
      rfl
    constructor
    · rw [hslot _ hb']
    · rw [hslot _ hb', hslot _ hb]
  | some b =>
    constructor
    · rw [slot_modifySlot_self hb]
      rfl
    · rw [slot_modifySlot_self hb, slot_eq hb]
      rfl

theorem touches_notify (s : Session) (j : Nat) (kind : MutationKind) :
    Touches j s (s.notify j kind) := by
  unfold notify
  split
  · exact (Touches.modifySlot j s _).trans (.record j _ _)
  · exact Touches.refl j s

theorem notify_of_not_affectsRoot {kind : MutationKind} (h : kind.affectsRoot = false) (s : Session)
    (j : Nat) : s.notify j kind = s := by
  unfold notify
  rw [if_neg (by simp [h])]

theorem empties_notify {kind : MutationKind} (h : kind.affectsRoot = true) (s : Session) (i : Nat) :
    Empties i s (s.notify i kind) := by
  unfold notify
  rw [if_pos h]
  exact (empties_invalidate s i).spares (.of_slot_eq rfl)

/-! ## Reads -/

theorem attach_of_plain {work : Work} (h : work = .plain) (m : RootMetadata)
    (given : List Configuration) : work.attach m given = .ok (m.attach given) := by
  rw [h]
  rfl

/-- A builder that does nothing else and takes what it finds builds a snapshot, and keeps it. -/
theorem rebuild_of_attach {b b' : Builder} {m : RootMetadata} (hb : s.builders[i]? = some b')
    (hattach : b.work.attach (RootMetadata.bare s.identity s.projects)
      (b.source.read s.container) = .ok m) :
    ∃ x, (rebuild id s i b).1 = .ok x ∧ x.builder = i ∧ x.serial = b'.slot.built ∧
      x.metadata = m ∧ ((rebuild id s i b).2.slot i).cached = some x ∧
      ((rebuild id s i b).2.slot i).built = b'.slot.built + 1 := by
  let x : Snapshot := ⟨i, (s.slot i).built, m⟩
  let recorded := s.record (.rootBuilt m.componentId (b.source.read s.container).length)
  have hrebuild : rebuild id s i b =
      (.ok x, recorded.modifySlot i (·.store (s.slot i).generation x)) := by
    unfold rebuild
    dsimp only [id]
    rw [hattach]
    exact Prod.ext rfl (if_pos rfl)
  have hrecorded : recorded.builders[i]? = some b' := hb
  rw [hrebuild]
  refine ⟨x, rfl, rfl, congrArg Slot.built (slot_eq hb), rfl, ?_⟩
  rw [slot_modifySlot_self hrecorded, slot_eq hb]
  exact ⟨if_pos rfl, rfl⟩

theorem touches_rebuild (s : Session) (j : Nat) (b : Builder) :
    Touches j s (rebuild id s j b).2 := by
  unfold rebuild
  dsimp only
  split
  · exact Touches.refl j s
  · dsimp only
    split
    · exact (Touches.record j s _).trans (.modifySlot j _ _)
    · exact ((Touches.record j s _).trans (.modifySlot j _ _)).trans (.record j _ _)

/-- A read touches the slot of the builder that is read, and no other one. -/
theorem touches_readWith (s : Session) (j : Nat) : Touches j s (s.readWith id j).2 := by
  unfold readWith
  split
  · exact Touches.refl j s
  · split
    · exact touches_rebuild s j _
    · dsimp only
      split
      · exact Touches.record j s _
      · exact ((Touches.record j s _).trans (.modifySlot j _ _)).trans (touches_rebuild _ j _)

/-- **What a read of a builder comes to that does nothing else and takes what it finds**: the
snapshot in its slot is served, or there is none for this component and one with the next number is
built and kept. -/
theorem readWith_cases {b : Builder} {m : RootMetadata} (hb : s.builders[i]? = some b)
    (hattach : b.work.attach (RootMetadata.bare s.identity s.projects)
      (b.source.read s.container) = .ok m) :
    (∃ x, b.slot.cached = some x ∧ x.metadata.componentId = s.identity.componentId ∧
        (s.readWith id i).1 = .ok x ∧ (s.readWith id i).2.slot i = b.slot) ∨
      (∀ x, b.slot.cached = some x → x.metadata.componentId ≠ s.identity.componentId) ∧
        ∃ x, (s.readWith id i).1 = .ok x ∧ x.builder = i ∧ x.serial = b.slot.built ∧
          x.metadata = m ∧ ((s.readWith id i).2.slot i).cached = some x ∧
          ((s.readWith id i).2.slot i).built = b.slot.built + 1 := by
  unfold readWith
  rw [hb]
  dsimp only
  cases hcached : b.slot.cached with
  | none => exact .inr ⟨fun x h => absurd h (by simp), rebuild_of_attach hb hattach⟩
  | some x =>
    dsimp only
    by_cases hid : x.metadata.componentId = s.identity.componentId
    · rw [if_pos hid]
      exact .inl ⟨x, rfl, hid, rfl, slot_eq hb⟩
    · rw [if_neg hid]
      have hclear := clears_modifySlot hb
        (.rootDiscarded x.metadata.componentId s.identity.componentId)
      have hbuilt := rebuild_of_attach (b := b) hclear.cleared hattach
      exact .inr ⟨fun y h => Option.some.inj h ▸ hid, hbuilt⟩

/-! ## Being told of changes -/

theorem slotsOnly_tell (kind : MutationKind) (s : Session) (l : Listener) :
    SlotsOnly s (s.tell kind l) := by
  cases l with
  | recorder => exact ⟨rfl, rfl, rfl, rfl, rfl⟩
  | builder j => exact (touches_notify s j kind).toSlotsOnly
  | reader j => exact (touches_readWith s j).toSlotsOnly

theorem slotsOnly_tellAll (kind : MutationKind) (ls : List Listener) (s : Session) :
    SlotsOnly s (ls.foldl (tell kind) s) := by
  induction ls generalizing s with
  | nil => exact SlotsOnly.refl s
  | cons l ls ih => exact (slotsOnly_tell kind s l).trans (ih _)

theorem slotsOnly_announce (s : Session) (kind : MutationKind) : SlotsOnly s (s.announce kind) :=
  slotsOnly_tellAll kind s.listeners s

/-- A listener that does not read builder `i` leaves its slot alone or empties it; it leaves it
alone if the change does not affect root metadata. -/
theorem tell_slot {l : Listener} (hl : l ≠ .reader i) (s : Session) (kind : MutationKind) :
    Spares i s (s.tell kind l) ∨ kind.affectsRoot = true ∧ Empties i s (s.tell kind l) := by
  cases l with
  | recorder => exact .inl (.of_slot_eq rfl)
  | builder j =>
    by_cases hj : j = i
    · subst hj
      by_cases hkind : kind.affectsRoot = true
      · exact .inr ⟨hkind, empties_notify hkind s j⟩
      · have hsame := notify_of_not_affectsRoot (Bool.eq_false_iff.mpr hkind) s j
        exact .inl (.of_slot_eq (congrArg (slot · j) hsame))
    · exact .inl (.of_slot_eq ((touches_notify s j kind).others i hj))
  | reader j =>
    have hj : j ≠ i := fun h => hl (h ▸ rfl)
    exact .inl (.of_slot_eq ((touches_readWith s j).others i hj))

theorem tellAll_slot (kind : MutationKind) (ls : List Listener) (hls : .reader i ∉ ls)
    (s : Session) : Spares i s (ls.foldl (tell kind) s) ∨
      kind.affectsRoot = true ∧ Empties i s (ls.foldl (tell kind) s) := by
  induction ls generalizing s with
  | nil => exact .inl (.of_slot_eq rfl)
  | cons l ls ih =>
    have hl : l ≠ .reader i := fun h => hls (h ▸ List.mem_cons_self)
    have hrest := ih (fun h => hls (List.mem_cons_of_mem l h)) (s.tell kind l)
    rcases tell_slot hl s kind with h | ⟨hkind, h⟩
    · rcases hrest with hrest | ⟨hkind, hrest⟩
      · exact .inl (h.trans hrest)
      · exact .inr ⟨hkind, h.empties hrest⟩
    · rcases hrest with hrest | ⟨-, hrest⟩
      · exact .inr ⟨hkind, h.spares hrest⟩
      · exact .inr ⟨hkind, h.trans hrest⟩

/-- **A change that does not affect root metadata leaves every slot alone.** -/
theorem spares_announce (hreader : .reader i ∉ s.listeners) {kind : MutationKind}
    (h : kind.affectsRoot = false) : Spares i s (s.announce kind) := by
  rcases tellAll_slot kind s.listeners hreader s with hspares | ⟨hkind, -⟩
  · exact hspares
  · exact absurd (h.symm.trans hkind) (by simp)

/-- **A change that affects it empties every slot that listens.** -/
theorem empties_announce (hl : s.Listens i) (hreader : .reader i ∉ s.listeners)
    {kind : MutationKind} (h : kind.affectsRoot = true) : Empties i s (s.announce kind) := by
  obtain ⟨before, rest, hsplit⟩ := List.append_of_mem hl
  have hbefore : .reader i ∉ before := fun h => hreader (by simp [hsplit, h])
  have hrest : .reader i ∉ rest := fun h => hreader (by simp [hsplit, h])
  unfold announce
  rw [hsplit, List.foldl_append, List.foldl_cons]
  have hnotify := empties_notify h (before.foldl (tell kind) s) i
  have hlast : Empties i (before.foldl (tell kind) s)
      (rest.foldl (tell kind) ((before.foldl (tell kind) s).notify i kind)) := by
    rcases tellAll_slot kind rest hrest ((before.foldl (tell kind) s).notify i kind) with
      hspares | ⟨-, hempties⟩
    · exact hnotify.spares hspares
    · exact hnotify.trans hempties
  rcases tellAll_slot kind before hbefore s with hspares | ⟨-, hempties⟩
  · exact hspares.empties hlast
  · exact hempties.trans hlast

/-! ## One action -/

theorem extends_step (hs : s.Plain) (a : Action) : Extends s (s.step a).2 := by
  cases a with
  | perform op =>
    rw [step_perform]
    unfold perform
    split
    · exact (SlotsOnly.refl s).extends
    · have h := (slotsOnly_announce s op.kind).extends
      exact ⟨h.listeners, h.length, h.plain⟩
  | setIdentity identity => exact ⟨fun _ h => h, Nat.le_refl _, fun h => h⟩
  | notify j kind => exact (touches_notify s j kind).extends
  | read j =>
    rw [step_read, hs.read_eq]
    exact (touches_readWith s j).extends
  | derive j source =>
    refine ⟨fun _ h => h, by simp [step], fun _ b hb => ?_⟩
    rcases List.mem_append.mp hb with hb | hb
    · exact hs b hb
    · rw [List.mem_singleton.mp hb]
      exact hs.work j
  | attach j => exact ⟨fun _ hl => List.mem_append_left _ hl, Nat.le_refl _, fun h => h⟩

/-- The announcement of a change that is carried out is what happens to slots. -/
theorem slot_perform {op : Operation} (h : (s.perform op).1 = .ok ()) :
    (s.perform op).2.slot i = (s.announce op.kind).slot i := by
  unfold perform at h ⊢
  split
  · rename_i hrefusal
    rw [hrefusal] at h
    cases h
  · rfl

/-- A refused change does nothing. -/
theorem perform_refused {op : Operation} (h : (s.perform op).1 ≠ .ok ()) :
    (s.perform op).2 = s := by
  unfold perform at h ⊢
  split
  · rfl
  · rename_i hrefusal
    rw [hrefusal] at h
    exact absurd rfl h

/-- A builder that is not there has the slot that new builders start with. -/
theorem slot_derive (s : Session) (j : Nat) (source : Source) :
    (s.step (.derive j source)).2.slot i = s.slot i := by
  unfold slot step
  rw [List.getElem?_append]
  split
  · rfl
  · rename_i hi
    rw [List.getElem?_eq_none_iff.mpr (Nat.le_of_not_lt hi)]
    cases i - s.builders.length <;> rfl

/-- **What does not cost the snapshot leaves the slot alone**, unless it reads the builder. -/
theorem spares_step (hs : s.Plain) {a : Action} (hread : ¬ Reads i s a) (hcosts : ¬ Costs i s a) :
    Spares i s (s.step a).2 := by
  cases a with
  | perform op =>
    rw [step_perform]
    by_cases hok : (s.perform op).1 = .ok ()
    · have hreader : .reader i ∉ s.listeners := fun h => hread (.heard h hok)
      have hkind : op.kind.affectsRoot = false := by
        rw [op.affectsRoot_kind]
        exact Bool.eq_false_iff.mpr fun h => hcosts (.performed h hok)
      exact (spares_announce hreader hkind).trans (.of_slot_eq (slot_perform hok))
    · rw [perform_refused hok]
      exact .of_slot_eq rfl
  | setIdentity identity => exact .of_slot_eq rfl
  | notify j kind =>
    by_cases hj : j = i
    · subst hj
      have hkind : kind.affectsRoot = false :=
        Bool.eq_false_iff.mpr fun h => hcosts (.notified h)
      exact .of_slot_eq (congrArg (slot · j) (notify_of_not_affectsRoot hkind s j))
    · exact .of_slot_eq ((touches_notify s j kind).others i hj)
  | read j =>
    have hj : j ≠ i := fun hj => hread (hj ▸ .read)
    rw [step_read, hs.read_eq]
    exact .of_slot_eq ((touches_readWith s j).others i hj)
  | derive j source => exact .of_slot_eq (slot_derive s j source)
  | attach j => exact .of_slot_eq rfl

/-- **What costs the snapshot empties the slot** of a builder that listens. -/
theorem empties_step (hl : s.Listens i) {a : Action} (hread : ¬ Reads i s a)
    (hcosts : Costs i s a) : Empties i s (s.step a).2 := by
  cases hcosts with
  | @performed op hinvalidating hok =>
    rw [step_perform]
    have hreader : .reader i ∉ s.listeners := fun h => hread (.heard h hok)
    have hkind : op.kind.affectsRoot = true := by rw [op.affectsRoot_kind, hinvalidating]
    exact (empties_announce hl hreader hkind).spares (.of_slot_eq (slot_perform hok))
  | notified hkind => exact empties_notify hkind s i

/-! ## Numbers of snapshots -/

/-- The snapshot in slot `i` is one of those the builder made. -/
def Numbered (i : Nat) (s : Session) : Prop :=
  ∀ x, (s.slot i).cached = some x → x.builder = i ∧ x.serial < (s.slot i).built

theorem Spares.numbered (h : Spares i s s') (hn : Numbered i s) : Numbered i s' := by
  intro x hx
  rw [h.cached] at hx
  rw [h.built]
  exact hn x hx

theorem Empties.numbered (h : Empties i s s') : Numbered i s' := by
  intro x hx
  rw [h.cached] at hx
  exact absurd hx (by simp)

theorem Numbered.readWith (hn : Numbered i s) (hs : s.Plain) : Numbered i (s.readWith id i).2 := by
  cases hb : s.builders[i]? with
  | none =>
    unfold Session.readWith
    rw [hb]
    exact hn
  | some b =>
    rcases readWith_cases hb (attach_of_plain (hs b (List.mem_of_getElem? hb)) _ _) with
      ⟨x, -, -, -, hslot⟩ | ⟨-, x, -, hbuilder, hserial, -, hcached, hbuilt⟩
    · rw [← slot_eq hb] at hslot
      exact (Spares.of_slot_eq hslot).numbered hn
    · intro y hy
      obtain rfl := Option.some.inj (hcached.symm.trans hy)
      exact ⟨hbuilder, by omega⟩

theorem Numbered.tell (hn : Numbered i s) (hs : s.Plain) (kind : MutationKind) (l : Listener) :
    Numbered i (s.tell kind l) := by
  by_cases hl : l = .reader i
  · subst hl
    exact hn.readWith hs
  · rcases tell_slot hl s kind with hspares | ⟨-, hempties⟩
    · exact hspares.numbered hn
    · exact hempties.numbered

theorem Numbered.tellAll (hn : Numbered i s) (hs : s.Plain) (kind : MutationKind)
    (ls : List Listener) : Numbered i (ls.foldl (Session.tell kind) s) := by
  induction ls generalizing s with
  | nil => exact hn
  | cons l ls ih => exact ih (hn.tell hs kind l) ((slotsOnly_tell kind s l).extends.plain hs)

/-- All actions number snapshots, those that read the builder included. -/
theorem Numbered.step (hn : Numbered i s) (hs : s.Plain) (a : Action) :
    Numbered i (s.step a).2 := by
  cases a with
  | perform op =>
    rw [step_perform]
    by_cases hok : (s.perform op).1 = .ok ()
    · exact (Spares.of_slot_eq (slot_perform hok)).numbered (hn.tellAll hs op.kind s.listeners)
    · rw [perform_refused hok]
      exact hn
  | notify j kind => exact hn.tell hs kind (.builder j)
  | read j =>
    rw [step_read, hs.read_eq]
    by_cases hj : j = i
    · subst hj
      exact hn.readWith hs
    · exact (Spares.of_slot_eq ((touches_readWith s j).others i hj)).numbered hn
  | setIdentity identity => exact hn
  | derive j source =>
    have hread : ¬ Reads i s (.derive j source) := fun h => nomatch h
    have hcosts : ¬ Costs i s (.derive j source) := fun h => nomatch h
    exact (spares_step hs hread hcosts).numbered hn
  | attach j => exact hn

/-! ## Runs -/

theorem extends_after (hs : s.Plain) (actions : List Action) : Extends s (s.after actions) := by
  induction actions generalizing s with
  | nil => exact (SlotsOnly.refl s).extends
  | cons a rest ih =>
    have h := extends_step hs a
    exact h.trans (ih (h.plain hs))

theorem Numbered.after (hn : Numbered i s) (hs : s.Plain) (actions : List Action) :
    Numbered i (s.after actions) := by
  induction actions generalizing s with
  | nil => exact hn
  | cons a rest ih => exact ih (hn.step hs a) ((extends_step hs a).plain hs)

/-- **A run that does not read the builder spares its slot if nothing costs the snapshot.** -/
theorem spares_after (hs : s.Plain) {actions : List Action} (hread : ¬ Sometime (Reads i) s actions)
    (hcosts : ¬ Sometime (Costs i) s actions) : Spares i s (s.after actions) := by
  induction actions generalizing s with
  | nil => exact .of_slot_eq rfl
  | cons a rest ih =>
    rw [sometime_cons, not_or] at hread hcosts
    exact (spares_step hs hread.1 hcosts.1).trans
      (ih ((extends_step hs a).plain hs) hread.2 hcosts.2)

/-- **And it empties the slot otherwise**, if the builder listens. -/
theorem empties_after (hs : s.Plain) (hl : s.Listens i) {actions : List Action}
    (hread : ¬ Sometime (Reads i) s actions) (hcosts : Sometime (Costs i) s actions) :
    Empties i s (s.after actions) := by
  induction actions generalizing s with
  | nil => exact absurd hcosts (not_sometime_nil _)
  | cons a rest ih =>
    rw [sometime_cons, not_or] at hread
    have hext := extends_step hs a
    have hs' := hext.plain hs
    by_cases hrest : Sometime (Costs i) (s.step a).2 rest
    · have hlast := ih hs' (hext.listeners hl) hread.2 hrest
      by_cases ha : Costs i s a
      · exact (empties_step hl hread.1 ha).trans hlast
      · exact (spares_step hs hread.1 ha).empties hlast
    · have ha : Costs i s a := (sometime_cons.mp hcosts).resolve_right hrest
      exact (empties_step hl hread.1 ha).spares (spares_after hs' hread.2 hrest)

theorem Empty.slot (h : s.Empty i) : (s.slot i).cached = none := by
  unfold Session.slot
  cases hb : s.builders[i]? with
  | none => rfl
  | some b => exact h b hb

/-- A read leaves the snapshot that it answers in the slot. -/
theorem read_cached (hs : s.Plain) (hi : i < s.builders.length) :
    ∃ x, (s.read i).1 = .ok x ∧ x.metadata.componentId = s.identity.componentId ∧
      ((s.read i).2.slot i).cached = some x := by
  have hb : s.builders[i]? = some s.builders[i] := List.getElem?_eq_getElem hi
  rw [hs.read_eq]
  rcases readWith_cases hb (attach_of_plain (hs _ (List.getElem_mem hi)) _ _) with
    ⟨x, hcached, hid, hok, hslot⟩ | ⟨-, x, hok, -, -, hm, hcached, -⟩
  · exact ⟨x, hok, hid, hslot ▸ hcached⟩
  · exact ⟨x, hok, by rw [hm]; rfl, hcached⟩

/-- A builder that attaches what it finds, and has no snapshot, makes one of what there is now. -/
theorem read_uncached {b : Builder} (hb : s.builders[i]? = some b) (hwork : b.work = .plain)
    (hcached : b.slot.cached = none) : ∃ x, (s.read i).1 = .ok x ∧
      x.metadata =
        (RootMetadata.bare s.identity s.projects).attach (b.source.read s.container) := by
  have hplain : s.work i = .plain := by rw [work, hb]; exact hwork
  rw [read_eq_of_plain hplain]
  rcases readWith_cases hb (attach_of_plain hwork _ _) with
    ⟨x, hx, -⟩ | ⟨-, x, hok, -, -, hmetadata, -⟩
  · exact absurd (hcached.symm.trans hx) (by simp)
  · exact ⟨x, hok, hmetadata⟩

/-- **A snapshot is kept exactly as long as it may be.** Let all builders attach what they find, and
let builder `i` have no snapshot in a session `s`. Whatever happens before, two reads of the builder
with none in between, from the first of which on it is told of changes, both succeed; they answer
the same snapshot if and only if nothing in between costs it and the project is the same component
at both reads, whatever it was in between. -/
theorem read_same_iff {before between : List Action} (hempty : s.Empty i) (hplain : s.Plain)
    (hi : i < (s.after before).builders.length) (hlistens : (s.after before).Listens i)
    (hbetween : ¬ Sometime (Reads i) (s.after (before ++ [.read i])) between) :
    ∃ x y, ((s.after before).read i).1 = .ok x ∧
      ((s.after (before ++ .read i :: between)).read i).1 = .ok y ∧
      (y.SameAs x ↔
        ¬ Sometime (Costs i) (s.after (before ++ [.read i])) between ∧
          (s.after (before ++ .read i :: between)).identity.componentId =
            (s.after before).identity.componentId) ∧
      (y.SameAs x → y = x) := by
  have hs₁ := (extends_after hplain before).plain hplain
  have hn₁ : Numbered i (s.after before) :=
    Numbered.after (fun x hx => absurd (hempty.slot.symm.trans hx) (by simp)) hplain before
  obtain ⟨x, hx, hxid, hxcached⟩ := read_cached hs₁ hi
  -- The session after the first read, and the one before the second.
  rw [← step_read] at hxcached
  have hext := extends_step hs₁ (.read i)
  have hs₂ := hext.plain hs₁
  have hn₂ := hn₁.step hs₁ (.read i)
  have hfirst : s.after (before ++ [.read i]) = ((s.after before).step (.read i)).2 :=
    after_append _ _
  have hsecond : s.after (before ++ .read i :: between) =
      ((s.after before).step (.read i)).2.after between := after_append _ _
  rw [hfirst] at hbetween ⊢
  rw [hsecond]
  generalize ((s.after before).step (.read i)).2 = s₂ at *
  have hext' := extends_after hs₂ between
  have hs₃ := hext'.plain hs₂
  have hi₃ : i < (s₂.after between).builders.length :=
    Nat.lt_of_lt_of_le hi (Nat.le_trans hext.length hext'.length)
  have hb := List.getElem?_eq_getElem hi₃
  obtain ⟨hxbuilder, hxserial⟩ := hn₂ x hxcached
  have hread := readWith_cases hb (attach_of_plain (hs₃ _ (List.getElem_mem hi₃)) _ _)
  rw [← hs₃.read_eq, ← slot_eq hb] at hread
  by_cases hcosts : Sometime (Costs i) s₂ between
  · -- The slot is empty, and the second read builds a snapshot of a later number.
    have hempties := empties_after hs₂ (hext.listeners hlistens) hbetween hcosts
    rcases hread with ⟨y, hcached, -⟩ | ⟨-, y, hy, -, hserial, -⟩
    · exact absurd (hempties.cached.symm.trans hcached) (by simp)
    · rw [hempties.built] at hserial
      have hne : ¬ y.SameAs x := Snapshot.not_sameAs_of_lt (hserial ▸ hxserial)
      exact ⟨x, y, hx, hy, iff_of_false hne fun h => h.1 hcosts, fun h => absurd h hne⟩
  · have hspares := spares_after hs₂ hbetween hcosts
    rcases hread with ⟨y, hcached, hid, hy, -⟩ | ⟨hother, y, hy, -, hserial, -⟩
    · obtain rfl : x = y := Option.some.inj ((hspares.cached.trans hxcached).symm.trans hcached)
      exact ⟨x, x, hx, hy, iff_of_true ⟨rfl, rfl⟩ ⟨hcosts, hid.symm.trans hxid⟩, fun _ => rfl⟩
    · rw [hspares.built] at hserial
      have hne : ¬ y.SameAs x := Snapshot.not_sameAs_of_lt (hserial ▸ hxserial)
      have hid := hother x (hspares.cached.trans hxcached)
      exact ⟨x, y, hx, hy, iff_of_false hne fun h => hid (hxid.trans h.2.symm),
        fun h => absurd h hne⟩

/-- A project that is moved and moved back, a change that is refused, one of roles, another builder
that is made and read, and a new status: none of this costs the snapshot. -/
theorem read_same_iff_moved_back :
    let app (path status : String) : Coordinates := ⟨"org", "app", "1", some path, status⟩
    let s : Session := { identity := app ":app" "integration", builders := [{}] }
    let before : List Action := [.attach 0, .perform (.create "runtime")]
    let between : List Action := [.perform (.create "runtime"),
      .perform (.setRoles "runtime" false true), .setIdentity (app ":moved" "integration"),
      .derive 0 .container, .read 1, .setIdentity (app ":app" "release")]
    ∃ x y, ((s.after before).read 0).1 = .ok x ∧
      ((s.after (before ++ .read 0 :: between)).read 0).1 = .ok y ∧
      (y.SameAs x ↔
        ¬ Sometime (Costs 0) (s.after (before ++ [.read 0])) between ∧
          (s.after (before ++ .read 0 :: between)).identity.componentId =
            (s.after before).identity.componentId) ∧
      (y.SameAs x → y = x) := by
  intro app s before between
  have hempty : s.Empty 0 := by simp [s, Empty]
  have hplain : s.Plain := by simp [s, Plain]
  have hi : 0 < (s.after before).builders.length := by decide
  have hlistens : (s.after before).Listens 0 := by
    unfold Listens
    decide
  have hbetween : ¬ Sometime (Reads 0) (s.after (before ++ [.read 0])) between := by
    have hperform : ∀ (s : Session) (op : Operation), .reader 0 ∉ s.listeners →
        ¬ Reads 0 s (.perform op) := fun s op hl h => by
      cases h with
      | heard hmem _ => exact hl hmem
    simp only [between, sometime_cons, not_sometime_nil, or_false, not_or]
    exact ⟨hperform _ _ (by decide), hperform _ _ (by decide), nofun, nofun, nofun, nofun⟩
  exact read_same_iff hempty hplain hi hlistens hbetween

end Session

end Componentry
