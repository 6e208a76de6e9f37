import Componentry.Proofs.Root.Retention

/-!
# Builders are isolated from each other

The builders of a session share its identity, its projects and its container, and each has a slot of
its own, and a source that goes by the container in any way it likes. If no builder does anything to
the session while it works, then nothing that is done with the others shows in what one builder
answers: not that they are read, not that they are told of changes, and not that they are registered
with the container.

* `Harmless`: every builder attaches what it finds, or fails on a name.
* `Action.concerns i`: all actions concern builder `i`, except reads, notifications and
  registrations of other builders. `Listener.concerns i`: a listener that tells or reads builder
  `i`.
* `Alike i s s'`: the sessions differ in slots of other builders, in listeners that do not concern
  builder `i`, in the log and in what was heard, at most.
* `observed i s actions`: what builder `i` shows of a run: the replies to the actions that concern
  it, and whether it has a snapshot after each of them.

Results:
* `alike_step`: an action that does not concern a builder leaves the session alike for it.
* `Alike.step`: an action that does has the same reply in alike sessions, and keeps them alike.
* **`observed_eq`**: in alike sessions, runs that have the actions in common which concern a builder
  look the same to it.
-/

namespace Componentry

/-- The builder does nothing to the session while it works. -/
def Work.Harmless : Work → Prop
  | .plain => True
  | .failOn _ _ => True
  | .declareLazy => False
  | .rename _ => False

/-- The listener empties or fills the slot of builder `i`. -/
def Listener.concerns (i : Nat) : Listener → Bool
  | .builder j => j == i
  | .reader j => j == i
  | .recorder => false

namespace Session

variable {s s' s'' t t' : Session} {i j : Nat}

/-- The action is about builder `i`, or about what all builders share. -/
def Action.concerns (i : Nat) : Action → Bool
  | .read j => j == i
  | .notify j _ => j == i
  | .attach j => j == i
  | .perform _ => true
  | .setIdentity _ => true
  | .derive _ _ => true

/-- No builder does anything to the session while it works. -/
def Harmless (s : Session) : Prop := ∀ b ∈ s.builders, b.work.Harmless

/-- **The sessions are the same for builder `i`.** -/
structure Alike (i : Nat) (s s' : Session) : Prop where
  identity : s'.identity = s.identity
  projects : s'.projects = s.projects
  container : s'.container = s.container
  listeners : s'.listeners.filter (·.concerns i) = s.listeners.filter (·.concerns i)
  builders : s'.builders.map (fun b => (b.source, b.work)) =
    s.builders.map fun b => (b.source, b.work)
  slot : s'.slot i = s.slot i

/-- **What builder `i` shows of a run**: the replies to the actions that concern it, and whether it
has a snapshot after each of them. -/
def observed (i : Nat) (s : Session) : List Action → List (Reply × Bool)
  | [] => []
  | a :: rest =>
    let next := (s.step a).2
    if a.concerns i then ((s.step a).1, next.isCached i) :: next.observed i rest
    else next.observed i rest

/-! ## Builders that do nothing else -/

theorem harmless_iff : s.Harmless ↔
    ∀ p ∈ s.builders.map (fun b => (b.source, b.work)), p.2.Harmless := by
  simp [Harmless]

theorem Harmless.work (hs : s.Harmless) (i : Nat) : (s.work i).Harmless := by
  unfold Session.work
  cases hb : s.builders[i]? with
  | none => trivial
  | some b => exact hs b (List.mem_of_getElem? hb)

theorem prepare_harmless {work : Work} (h : work.Harmless) : prepare work = id := by
  cases work with
  | plain => rfl
  | failOn _ _ => rfl
  | declareLazy => exact h.elim
  | rename _ => exact h.elim

/-- Reading a builder that does nothing else is reading without side effects. -/
theorem Harmless.read_eq (hs : s.Harmless) (i : Nat) : s.read i = s.readWith id i := by
  unfold Session.read
  rw [prepare_harmless (hs.work i)]

theorem SlotsOnly.harmless (h : SlotsOnly s s') (hs : s.Harmless) : s'.Harmless := by
  rw [harmless_iff, h.builders]
  exact harmless_iff.mp hs

/-- New builders do the work of old ones. -/
theorem Harmless.step (hs : s.Harmless) (a : Action) : (s.step a).2.Harmless := by
  cases a with
  | perform op =>
    rw [step_perform]
    unfold perform
    split
    · exact hs
    · exact (slotsOnly_announce s op.kind).harmless hs
  | read j =>
    rw [step_read, hs.read_eq]
    exact (touches_readWith s j).harmless hs
  | notify j kind => exact (touches_notify s j kind).harmless hs
  | derive j source =>
    intro b hb
    rcases List.mem_append.mp hb with hb | hb
    · exact hs b hb
    · rw [List.mem_singleton.mp hb]
      exact hs.work j
  | setIdentity identity => exact hs
  | attach j => exact hs

/-! ## Alike sessions -/

namespace Alike

theorem refl (i : Nat) (s : Session) : Alike i s s := ⟨rfl, rfl, rfl, rfl, rfl, rfl⟩

theorem symm (h : Alike i s s') : Alike i s' s :=
  ⟨h.identity.symm, h.projects.symm, h.container.symm, h.listeners.symm, h.builders.symm,
    h.slot.symm⟩

theorem trans (h : Alike i s s') (h' : Alike i s' s'') : Alike i s s'' :=
  ⟨h'.identity.trans h.identity, h'.projects.trans h.projects, h'.container.trans h.container,
    h'.listeners.trans h.listeners, h'.builders.trans h.builders, h'.slot.trans h.slot⟩

theorem harmless (h : Alike i s s') (hs : s.Harmless) : s'.Harmless := by
  rw [harmless_iff, h.builders]
  exact harmless_iff.mp hs

/-- Builder `i` is the same in both. -/
theorem builder (h : Alike i s s') : s'.builders[i]? = s.builders[i]? := by
  have hget := congrArg (·[i]?) h.builders
  have hslot := h.slot
  unfold Session.slot at hslot
  simp only [List.getElem?_map] at hget
  cases hb : s.builders[i]? with
  | none =>
    rw [hb] at hget
    exact Option.map_eq_none_iff.mp hget
  | some b =>
    rw [hb] at hget hslot
    obtain ⟨b', hb', heq⟩ := Option.map_eq_some_iff.mp hget
    rw [hb'] at hslot ⊢
    obtain ⟨hsource, hwork⟩ := Prod.mk.inj heq
    have hsame : b'.slot = b.slot := hslot
    cases b
    cases b'
    simp_all

/-- Whoever builder `i` works like does the same work in both. -/
theorem work (h : Alike i s s') (j : Nat) : s'.work j = s.work j := by
  have hget := congrArg (fun l => (l[j]?.map Prod.snd).getD Work.plain) h.builders
  simpa [Session.work, Option.map_map, Function.comp_def] using hget

/-- Sessions stay alike if only slots change and slot `i` changes alike. -/
theorem of_slotsOnly (h : Alike i s s') (ht : SlotsOnly s t) (ht' : SlotsOnly s' t')
    (hslot : t'.slot i = t.slot i) : Alike i t t' where
  identity := by rw [ht.identity, ht'.identity, h.identity]
  projects := by rw [ht.projects, ht'.projects, h.projects]
  container := by rw [ht.container, ht'.container, h.container]
  listeners := by rw [ht.listeners, ht'.listeners, h.listeners]
  builders := by rw [ht.builders, ht'.builders, h.builders]
  slot := hslot

end Alike

/-- Touching the slot of another builder leaves the session alike. -/
theorem Touches.alike (h : Touches j s s') (hj : j ≠ i) : Alike i s s' :=
  (Alike.refl i s).of_slotsOnly (SlotsOnly.refl s) h.toSlotsOnly (h.others i hj)

/-! ## Reads and announcements -/

theorem slot_modifySlot (h : Alike i s s') (f : Slot → Slot) :
    (s'.modifySlot i f).slot i = (s.modifySlot i f).slot i :=
  slot_of_builder (by rw [getElem?_modifySlot, getElem?_modifySlot, h.builder])

theorem Alike.notify (h : Alike i s s') (kind : MutationKind) :
    Alike i (s.notify i kind) (s'.notify i kind) := by
  refine h.of_slotsOnly (touches_notify s i kind).toSlotsOnly
    (touches_notify s' i kind).toSlotsOnly ?_
  unfold Session.notify
  split
  · exact slot_modifySlot h Slot.invalidate
  · exact h.slot

/-- What a builder makes of what it finds, and what it leaves in its slot. -/
theorem rebuild_id (s : Session) (i : Nat) (b : Builder) :
    (∃ fault, b.work.attach (RootMetadata.bare s.identity s.projects) (b.source.read s.container) =
        .error fault ∧ rebuild id s i b = (.error fault, s)) ∨
      ∃ m, b.work.attach (RootMetadata.bare s.identity s.projects) (b.source.read s.container) =
        .ok m ∧ (rebuild id s i b).1 = .ok ⟨i, (s.slot i).built, m⟩ ∧
        (rebuild id s i b).2.slot i =
          (s.modifySlot i
            (·.store (s.slot i).generation ⟨i, (s.slot i).built, m⟩)).slot i := by
  unfold rebuild
  dsimp only [id]
  cases hattach : b.work.attach (RootMetadata.bare s.identity s.projects)
      (b.source.read s.container) with
  | error fault => exact .inl ⟨fault, rfl, rfl⟩
  | ok m =>
    refine .inr ⟨m, rfl, rfl, ?_⟩
    dsimp only
    split <;> rfl

/-- What is built depends on what alike sessions have in common. -/
theorem Alike.rebuild (h : Alike i s s') (b : Builder) :
    (Session.rebuild id s' i b).1 = (Session.rebuild id s i b).1 ∧
      Alike i (Session.rebuild id s i b).2 (Session.rebuild id s' i b).2 := by
  have hslots := h.of_slotsOnly (touches_rebuild s i b).toSlotsOnly
    (touches_rebuild s' i b).toSlotsOnly
  have hrebuild := rebuild_id s' i b
  rw [h.identity, h.projects, h.container, h.slot] at hrebuild
  rcases rebuild_id s i b with ⟨fault, hattach, hs⟩ | ⟨m, hattach, hs, hslot⟩
  · rcases hrebuild with ⟨fault', hattach', hs'⟩ | ⟨m', hattach', -⟩
    · obtain rfl := Except.error.inj (hattach'.symm.trans hattach)
      rw [hs, hs']
      exact ⟨rfl, h⟩
    · exact absurd (hattach'.symm.trans hattach) (by simp)
  · rcases hrebuild with ⟨fault', hattach', -⟩ | ⟨m', hattach', hs', hslot'⟩
    · exact absurd (hattach'.symm.trans hattach) (by simp)
    · obtain rfl := Except.ok.inj (hattach'.symm.trans hattach)
      refine ⟨hs'.trans hs.symm, hslots ?_⟩
      rw [hslot, hslot']
      exact slot_modifySlot h _

/-- **Alike sessions answer a read alike**, and stay alike. -/
theorem Alike.readWith (h : Alike i s s') :
    (s'.readWith id i).1 = (s.readWith id i).1 ∧
      Alike i (s.readWith id i).2 (s'.readWith id i).2 := by
  unfold Session.readWith
  rw [h.builder, h.identity]
  cases s.builders[i]? with
  | none => exact ⟨rfl, h⟩
  | some b =>
    dsimp only
    cases b.slot.cached with
    | none => exact h.rebuild b
    | some x =>
      dsimp only
      have hrecord : ∀ e, Alike i (s.record e) (s'.record e) := fun e =>
        h.of_slotsOnly (Touches.record i s e).toSlotsOnly (Touches.record i s' e).toSlotsOnly h.slot
      split
      · exact ⟨rfl, hrecord _⟩
      · refine Alike.rebuild ?_ b
        exact (hrecord _).of_slotsOnly (Touches.modifySlot i _ _).toSlotsOnly
          (Touches.modifySlot i _ _).toSlotsOnly (slot_modifySlot (hrecord _) _)

/-- A listener that does not concern a builder is of no account to it. -/
theorem alike_tell {l : Listener} (hl : l.concerns i = false) (s : Session) (kind : MutationKind) :
    Alike i s (s.tell kind l) := by
  cases l with
  | recorder => exact ⟨rfl, rfl, rfl, rfl, rfl, rfl⟩
  | builder j => exact (touches_notify s j kind).alike (beq_eq_false_iff_ne.mp hl)
  | reader j => exact (touches_readWith s j).alike (beq_eq_false_iff_ne.mp hl)

theorem Alike.tell (h : Alike i s s') {l : Listener} (hl : l.concerns i = true)
    (kind : MutationKind) : Alike i (s.tell kind l) (s'.tell kind l) := by
  cases l with
  | recorder => cases hl
  | builder j =>
    obtain rfl : j = i := beq_iff_eq.mp hl
    exact h.notify kind
  | reader j =>
    obtain rfl : j = i := beq_iff_eq.mp hl
    exact h.readWith.2

/-- Of the listeners, those that concern the builder count. -/
theorem Alike.tellAll (h : Alike i s s') (kind : MutationKind) (ls : List Listener) :
    Alike i (ls.foldl (Session.tell kind) s)
      ((ls.filter (·.concerns i)).foldl (Session.tell kind) s') := by
  induction ls generalizing s s' with
  | nil => exact h
  | cons l ls ih =>
    rw [List.filter_cons]
    split
    · rename_i hl
      exact ih (h.tell hl kind)
    · rename_i hl
      exact ih ((alike_tell (Bool.eq_false_iff.mpr hl) s kind).symm.trans h)

theorem Alike.announce (h : Alike i s s') (kind : MutationKind) :
    Alike i (s.announce kind) (s'.announce kind) := by
  have hs := h.tellAll kind s.listeners
  have hs' := (Alike.refl i s').tellAll kind s'.listeners
  rw [h.listeners] at hs'
  exact hs.trans hs'.symm

/-- **Alike sessions answer changes to the container alike**, and stay alike. -/
theorem Alike.perform (h : Alike i s s') (op : Operation) :
    (s'.perform op).1 = (s.perform op).1 ∧ Alike i (s.perform op).2 (s'.perform op).2 := by
  unfold Session.perform
  rw [h.container]
  cases s.container.refusal op with
  | some failure => exact ⟨rfl, h⟩
  | none =>
    have hannounce := h.announce op.kind
    exact ⟨rfl, hannounce.identity, hannounce.projects,
      congrArg (Container.apply · op) hannounce.container, hannounce.listeners,
      hannounce.builders, hannounce.slot⟩

/-! ## Actions -/

/-- **An action that does not concern a builder leaves the session alike for it.** -/
theorem alike_step (hs : s.Harmless) {a : Action} (ha : a.concerns i = false) :
    Alike i s (s.step a).2 := by
  cases a with
  | read j =>
    rw [step_read, hs.read_eq]
    exact (touches_readWith s j).alike (beq_eq_false_iff_ne.mp ha)
  | notify j kind => exact (touches_notify s j kind).alike (beq_eq_false_iff_ne.mp ha)
  | attach j =>
    refine ⟨rfl, rfl, rfl, ?_, rfl, rfl⟩
    have hlistener : (Listener.builder j).concerns i = false := ha
    simp [Session.step, hlistener]
  | perform op => cases ha
  | setIdentity identity => cases ha
  | derive j source => cases ha

theorem reply_perform (s : Session) (op : Operation) :
    (s.step (.perform op)).1 =
      match (s.perform op).1 with
      | .ok _ => .done
      | .error failure => .refused failure := by
  unfold Session.step
  dsimp only
  split <;> rename_i heq <;> rw [heq]

theorem reply_read (s : Session) (i : Nat) :
    (s.step (.read i)).1 =
      match (s.read i).1 with
      | .ok x => .snapshot x
      | .error fault => .failed fault := by
  unfold Session.step
  dsimp only
  split <;> rename_i heq <;> rw [heq]

/-- **An action that concerns a builder has the same reply in alike sessions**, and they stay
alike. -/
theorem Alike.step (h : Alike i s s') (hs : s.Harmless) {a : Action} (ha : a.concerns i = true) :
    (s'.step a).1 = (s.step a).1 ∧ Alike i (s.step a).2 (s'.step a).2 := by
  cases a with
  | perform op =>
    rw [reply_perform, reply_perform, step_perform, step_perform, (h.perform op).1]
    exact ⟨rfl, (h.perform op).2⟩
  | read j =>
    obtain rfl : j = i := beq_iff_eq.mp ha
    rw [reply_read, reply_read, step_read, step_read, hs.read_eq, (h.harmless hs).read_eq,
      h.readWith.1]
    exact ⟨rfl, h.readWith.2⟩
  | notify j kind =>
    obtain rfl : j = i := beq_iff_eq.mp ha
    exact ⟨rfl, h.notify kind⟩
  | setIdentity identity =>
    exact ⟨rfl, rfl, h.projects, h.container, h.listeners, h.builders, h.slot⟩
  | derive j source =>
    have hlength : s'.builders.length = s.builders.length := by
      simpa using congrArg List.length h.builders
    refine ⟨congrArg Reply.builder hlength, h.identity, h.projects, h.container, h.listeners,
      ?_, ?_⟩
    · simp only [Session.step, List.map_append, h.builders, h.work]
    · rw [slot_derive, slot_derive, h.slot]
  | attach j =>
    refine ⟨rfl, h.identity, h.projects, h.container, ?_, h.builders, h.slot⟩
    simp only [Session.step, List.filter_append, h.listeners]

/-! ## Runs -/

/-- Leaving out what does not concern a builder is of no account to it. -/
theorem observed_filter (h : Alike i s s') (hs : s.Harmless) (actions : List Action) :
    s'.observed i (actions.filter (·.concerns i)) = s.observed i actions := by
  induction actions generalizing s s' with
  | nil => rfl
  | cons a rest ih =>
    rw [List.filter_cons, observed]
    split
    · rename_i ha
      obtain ⟨hreply, hnext⟩ := h.step hs ha
      rw [observed, if_pos ha, hreply, ih hnext (hs.step a), isCached, isCached, hnext.slot]
    · rename_i ha
      exact ih ((alike_step hs (Bool.eq_false_iff.mpr ha)).symm.trans h) (hs.step a)

theorem Harmless.after (hs : s.Harmless) (actions : List Action) : (s.after actions).Harmless := by
  induction actions generalizing s with
  | nil => exact hs
  | cons a rest ih => exact ih (hs.step a)

/-- **Builders are isolated from each other.** Let no builder do anything to the session while it
works, and let two sessions be the same for builder `i`: other listeners may be registered, and
other slots be filled. Two runs that have the actions in common which concern the builder, with any
reads, notifications and registrations of other builders in between, look the same to it: its reads
answer the same snapshots or faults, and it has a snapshot after the same actions. All the other
actions leave its slot alone. -/
theorem observed_eq {actions actions' : List Action} (hs : s.Harmless) (h : Alike i s s')
    (hactions : actions'.filter (·.concerns i) = actions.filter (·.concerns i)) :
    s'.observed i actions' = s.observed i actions ∧
      ∀ done a, a.concerns i = false →
        (s.after (done ++ [a])).slot i = (s.after done).slot i := by
  refine ⟨?_, fun done a ha => ?_⟩
  · rw [← observed_filter (Alike.refl i s') (h.harmless hs), hactions, observed_filter h hs]
  · rw [after_append]
    exact (alike_step (hs.after done) ha).slot

/-- A builder over the configurations that may be consumed, next to one that shows all and is
derived from again. In one session the other one is registered and read and told of changes, in the
other session it is not. -/
theorem observed_eq_without_others :
    let session (listeners : List Listener) : Session :=
      { identity := ⟨"org", "app", "1", some ":app", defaultStatus⟩
        container := ⟨[{ name := "api" }]⟩
        listeners := listeners
        builders := [{}, { source := { read := fun c => c.configurations.filter (·.consumable) }
                           work := .failOn "bad" (.text "no bad ones") }] }
    let s := session [.builder 0, .builder 1, .reader 0]
    let s' := session [.recorder, .builder 1]
    let actions : List Action :=
      [.read 0, .read 1, .notify 0 .artifacts, .perform (.create "runtime"),
      .read 0, .derive 0 (.fixed []), .read 2, .attach 2, .read 1,
      .perform (.setAttribute "api" "usage" "compile"), .notify 2 .dependencies, .read 1]
    let actions' : List Action := [.read 1, .perform (.create "runtime"), .derive 0 (.fixed []),
      .read 1, .perform (.setAttribute "api" "usage" "compile"), .read 1]
    s'.observed 1 actions' = s.observed 1 actions ∧
      ∀ done a, a.concerns 1 = false →
        (s.after (done ++ [a])).slot 1 = (s.after done).slot 1 := by
  intro session s s' actions actions'
  have hs : s.Harmless := by simp [s, session, Harmless, Work.Harmless]
  exact observed_eq hs ⟨rfl, rfl, rfl, rfl, rfl, rfl⟩ rfl

end Session

end Componentry
