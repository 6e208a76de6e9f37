import Componentry.Proofs.Root.Retention

/-!
# Reading while a change is announced

Listeners hear of a change one after another, and the change is carried out when the last of them
has heard of it. A listener may read in between, and what it reads shows the container as it was.
This file shows that such a snapshot does not outlive the change, if the builder that made it is
told after its readers are (`Guarded`), and that it does if one of them is told after the builder.
All other listeners may stand anywhere, and read.

* `UpToDate i s`: the snapshot in slot `i`, if there is one, shows what its source holds now.
* `Prolongs s s'`: listeners and builders are only added, and no reader is.
* `Answers s b answer`: what a read of a builder like `b` may answer in session `s`.

Results:
* `UpToDate.tell`: a snapshot that is made during an announcement is up to date until the change is
  carried out.
* `UpToDate.perform`: and then it is gone, or the change does not show.
* `UpToDate.step`, `UpToDate.after`: so nothing that happens leaves a snapshot behind its container.
* `Attaches.holds_announce`: a reader that is told after the builder leaves a snapshot behind.
* **`read_after_change`**: once a change that affects root metadata has been carried out, every read
  answers from the container with the change in it, if the builder was told after its readers; and
  otherwise the next one answers from the container as it was.
* `read_misses_change`: three builders that do not show a change they were told of.
-/

namespace Componentry

open RootMetadata

namespace Session

variable {s s' s'' : Session} {i j : Nat}

/-! ## What runs add -/

/-- Listeners and builders are only added, and no reader is. -/
structure Prolongs (s s' : Session) : Prop where
  listeners : ∃ added, s'.listeners = s.listeners ++ added ∧ ∀ j, .reader j ∉ added
  builders : (s.builders.map fun b => (b.source, b.work)) <+:
    s'.builders.map fun b => (b.source, b.work)

namespace Prolongs

theorem of_eq (hlisteners : s'.listeners = s.listeners)
    (hbuilders : s'.builders.map (fun b => (b.source, b.work)) =
      s.builders.map fun b => (b.source, b.work)) : Prolongs s s' where
  listeners := ⟨[], by rw [hlisteners, List.append_nil], by simp⟩
  builders := hbuilders ▸ List.prefix_rfl

theorem refl (s : Session) : Prolongs s s := of_eq rfl rfl

theorem trans (h : Prolongs s s') (h' : Prolongs s' s'') : Prolongs s s'' where
  listeners := by
    obtain ⟨added, heq, hadded⟩ := h.listeners
    obtain ⟨more, heq', hmore⟩ := h'.listeners
    refine ⟨added ++ more, by rw [heq', heq, List.append_assoc], fun j hj => ?_⟩
    rcases List.mem_append.mp hj with hj | hj
    · exact hadded j hj
    · exact hmore j hj
  builders := h.builders.trans h'.builders

/-- Only the slot of one builder differs. -/
theorem of_slot {f : Slot → Slot} (hlisteners : s'.listeners = s.listeners)
    (hself : s'.builders[i]? = s.builders[i]?.map fun b => { b with slot := f b.slot })
    (hothers : ∀ j, i ≠ j → s'.builders[j]? = s.builders[j]?) : Prolongs s s' := by
  refine of_eq hlisteners (List.ext_getElem? fun j => ?_)
  rw [List.getElem?_map, List.getElem?_map]
  by_cases hj : i = j
  · subst hj
    rw [hself]
    cases s.builders[i]? <;> rfl
  · rw [hothers j hj]

/-- A builder keeps its place, its source and its work. -/
theorem builder (h : Prolongs s s') {b : Builder} (hb : s.builders[i]? = some b) :
    ∃ slot, s'.builders[i]? = some { b with slot := slot } := by
  have hi : i < s.builders.length := (List.getElem?_eq_some_iff.mp hb).1
  obtain ⟨added, hadded⟩ := h.builders
  have hget : (s'.builders.map fun b => (b.source, b.work))[i]? = some (b.source, b.work) := by
    rw [← hadded, List.getElem?_append_left (by simpa using hi), List.getElem?_map, hb]
    rfl
  rw [List.getElem?_map] at hget
  obtain ⟨b', hb', heq⟩ := Option.map_eq_some_iff.mp hget
  obtain ⟨hsource, hwork⟩ := Prod.mk.inj heq
  refine ⟨b'.slot, hb'.trans ?_⟩
  rw [← hsource, ← hwork]

/-- Builders that were told after their readers still are. -/
theorem guarded (h : Prolongs s s') (hg : s.Guarded i) : s'.Guarded i := by
  obtain ⟨added, heq, hadded⟩ := h.listeners
  obtain ⟨before, rest, hsplit, hrest⟩ := hg
  refine ⟨before, rest ++ added, by rw [heq, hsplit]; simp, fun hmem => ?_⟩
  rcases List.mem_append.mp hmem with hmem | hmem
  · exact hrest hmem
  · exact hadded i hmem

end Prolongs

theorem SlotsOnly.prolongs (h : SlotsOnly s s') : Prolongs s s' := .of_eq h.listeners h.builders

theorem Clears.prolongs {b : Builder} (h : Clears i s s' b) : Prolongs s s' :=
  .of_slot h.listeners (h.cleared.trans (by rw [h.builder]; rfl)) h.others

theorem Stores.prolongs {generation : Nat} {x : Snapshot} (h : Stores i generation x s s') :
    Prolongs s s' :=
  .of_slot (f := (·.store generation x)) h.listeners h.stored h.others

theorem prolongs_perform (s : Session) (op : Operation) : Prolongs s (s.perform op).2 := by
  unfold perform
  split
  · exact .refl s
  · have h := (slotsOnly_announce s op.kind).prolongs
    exact ⟨h.listeners, h.builders⟩

theorem prolongs_prepare (s : Session) (work : Work) : Prolongs s (prepare work s) := by
  cases work with
  | plain => exact .refl s
  | failOn _ _ => exact .refl s
  | rename _ => exact .of_eq rfl rfl
  | declareLazy =>
    unfold prepare
    dsimp only
    split
    · exact .refl s
    · exact prolongs_perform s _

theorem prolongs_read (s : Session) (j : Nat) : Prolongs s (s.read j).2 := by
  rcases read_cases s j with ⟨fault, h⟩ | ⟨b, x, -, -, -, h⟩ | ⟨b, s', hclear, h⟩
  · rw [h]
    exact .refl s
  · rw [h]
    exact .of_eq rfl rfl
  · rw [h]
    have hprepare := hclear.prolongs.trans (prolongs_prepare s' (s.work j))
    rcases rebuild_cases (prepare (s.work j)) s' j b with ⟨fault, hr⟩ | ⟨x, -, -, hstore⟩
    · rw [hr]
      exact hprepare
    · exact hprepare.trans hstore.prolongs

theorem prolongs_step (s : Session) (a : Action) : Prolongs s (s.step a).2 := by
  cases a with
  | perform op =>
    rw [step_perform]
    exact prolongs_perform s op
  | read j =>
    rw [step_read]
    exact prolongs_read s j
  | setIdentity identity => exact .of_eq rfl rfl
  | notify j kind => exact (touches_notify s j kind).toSlotsOnly.prolongs
  | derive j source =>
    refine ⟨(Prolongs.refl s).listeners, ?_⟩
    unfold step
    rw [List.map_append]
    exact List.prefix_append _ _
  | attach j => exact ⟨⟨[.builder j], rfl, by simp⟩, (Prolongs.refl s).builders⟩

theorem prolongs_after (s : Session) (actions : List Action) : Prolongs s (s.after actions) := by
  induction actions generalizing s with
  | nil => exact .refl s
  | cons a rest ih => exact (prolongs_step s a).trans (ih _)

/-! ## Announcements -/

/-- The snapshot in slot `i`, if there is one, shows what the builder's source holds now. -/
def UpToDate (i : Nat) (s : Session) : Prop := Kept i (fun _ _ => True) s

/-- **A snapshot that a listener makes shows the container as it still is.** -/
theorem UpToDate.tell (h : UpToDate i s) (hl : s.Listens i) (kind : MutationKind) (l : Listener) :
    UpToDate i (s.tell kind l) := by
  by_cases hreader : l = .reader i
  · subst hreader
    exact Kept.readWith h hl (fun _ => Passes.refl i _) fun _ _ => trivial
  · exact Kept.passes h hl (passes_tell hreader s kind).1

theorem UpToDate.tellAll (h : UpToDate i s) (hl : s.Listens i) (kind : MutationKind)
    (ls : List Listener) : UpToDate i (ls.foldl (Session.tell kind) s) := by
  induction ls generalizing s with
  | nil => exact h
  | cons l ls ih =>
    have hl' : (s.tell kind l).Listens i := by
      unfold Listens
      rw [(slotsOnly_tell kind s l).listeners]
      exact hl
    exact ih (h.tell hl kind l) hl'

/-- A change that does not affect root metadata leaves it so when it is carried out. -/
theorem UpToDate.apply (h : UpToDate i s) {op : Operation} (hkind : op.kind.affectsRoot = false) :
    UpToDate i { s with container := s.container.apply op } := by
  intro b x hb hc
  obtain ⟨origin, -, hm⟩ := h b x hb hc
  exact ⟨origin, trivial, hm.of_eq fun hfaithful => hfaithful hkind s.container⟩

/-- What carrying out a change comes to. -/
theorem perform_eq {op : Operation} (h : s.container.refusal op = none) :
    s.perform op = (.ok (), { s.announce op.kind with container := s.container.apply op }) := by
  unfold perform
  rw [h]
  dsimp only
  rw [(slotsOnly_announce s op.kind).container]

/-- A change that is carried out was not refused. -/
theorem refusal_of_performed {op : Operation} (h : (s.perform op).1 = .ok ()) :
    s.container.refusal op = none := by
  cases hrefusal : s.container.refusal op with
  | none => rfl
  | some failure =>
    unfold perform at h
    rw [hrefusal] at h
    exact absurd h (by simp)

theorem identity_perform (s : Session) (op : Operation) :
    (s.perform op).2.identity = s.identity ∧ (s.perform op).2.projects = s.projects := by
  unfold perform
  split
  · exact ⟨rfl, rfl⟩
  · exact ⟨(slotsOnly_announce s op.kind).identity, (slotsOnly_announce s op.kind).projects⟩

/-- **Carrying out a change that affects root metadata leaves no snapshot behind.** -/
theorem emptied_perform (hg : s.Guarded i) {op : Operation} (hkind : op.kind.affectsRoot = true)
    (h : s.container.refusal op = none) : Emptied i s (s.perform op).2 := by
  rw [perform_eq h]
  exact emptied_announce hg hkind

/-- It passes the builder, whoever was told before it. -/
theorem passes_perform_guarded (hg : s.Guarded i) {op : Operation}
    (hkind : op.kind.affectsRoot = true) : Passes i s (s.perform op).2 := by
  cases hrefusal : s.container.refusal op with
  | some failure =>
    unfold perform
    rw [hrefusal]
    exact Passes.refl i s
  | none =>
    have hempty := emptied_perform hg hkind hrefusal
    rw [perform_eq hrefusal] at hempty ⊢
    have hslots := slotsOnly_announce s op.kind
    refine ⟨Grows.of_eq hslots.projects hslots.listeners, fun b hb => ?_, fun hnone b hb => ?_⟩
    · obtain ⟨slot, hb', hc, hg'⟩ := hempty b hb
      exact ⟨slot, hb', .emptied hc hg'⟩
    · have hget := congrArg (·[i]?) hslots.builders
      simp only [List.getElem?_map, hnone, show (s.announce op.kind).builders[i]? = some b from hb]
        at hget
      exact absurd hget (by simp)

/-- **A change leaves every snapshot gone or up to date.** -/
theorem UpToDate.perform (h : UpToDate i s) (hg : s.Guarded i) (op : Operation) :
    UpToDate i (s.perform op).2 := by
  by_cases hkind : op.kind.affectsRoot = true
  · exact Kept.passes h hg.listens (passes_perform_guarded hg hkind)
  · unfold Session.perform
    split
    · exact h
    · exact (h.tellAll hg.listens op.kind s.listeners).apply (Bool.eq_false_iff.mpr hkind)

/-! ## Runs -/

/-- What a builder does first declares `lazy` at most, and passes. -/
theorem passes_prepare_guarded (hg : s.Guarded i) (work : Work) : Passes i s (prepare work s) :=
  passes_prepare_of (passes_perform_guarded hg rfl) work

/-- Reads leave every snapshot gone or up to date, that of the builder itself and those of
others. -/
theorem UpToDate.read (h : UpToDate i s) (hg : s.Guarded i) (j : Nat) :
    UpToDate i (s.read j).2 := by
  have hbefore : ∀ {s' b}, Clears j s s' b → Passes i s' (prepare (s.work j) s') :=
    fun hclear => passes_prepare_guarded (hclear.prolongs.guarded hg) _
  by_cases hj : j = i
  · subst hj
    exact Kept.readWith h hg.listens hbefore fun _ _ => trivial
  · exact Kept.passes h hg.listens (passes_readWith hj hbefore)

theorem UpToDate.step (h : UpToDate i s) (hg : s.Guarded i) (a : Action) :
    UpToDate i (s.step a).2 := by
  cases a with
  | perform op =>
    rw [step_perform]
    exact h.perform hg op
  | read j =>
    rw [step_read]
    exact h.read hg j
  | setIdentity _ => exact Kept.passes h hg.listens (passes_aside nofun nofun)
  | notify _ _ => exact Kept.passes h hg.listens (passes_aside nofun nofun)
  | derive _ _ => exact Kept.passes h hg.listens (passes_aside nofun nofun)
  | attach _ => exact Kept.passes h hg.listens (passes_aside nofun nofun)

/-- **Nothing that happens leaves a snapshot behind its container.** -/
theorem UpToDate.after (h : UpToDate i s) (hg : s.Guarded i) (actions : List Action) :
    UpToDate i (s.after actions) := by
  induction actions generalizing s with
  | nil => exact h
  | cons a rest ih => exact ih (h.step hg a) ((prolongs_step s a).guarded hg)

/-! ## Answers -/

/-- **What a read of a builder like `b` may answer in session `s`.** -/
inductive Answers (s : Session) (b : Builder) : Except Fault Snapshot → Prop
  /-- The metadata of now, in particular all that the builder's source holds now. -/
  | current {x : Snapshot} {origin : Coordinates} :
      s.Current b.source origin x.metadata → Answers s b (.ok x)
  /-- The builder does not take a configuration of this name. -/
  | failed {name : String} {why : Fault} {c : Configuration} :
      b.work = .failOn name why → c ∈ b.source.read s.container → c.name = name →
        Answers s b (.error why)

/-- Answers do not depend on the slot. -/
theorem Answers.of_slot {b : Builder} {slot : Slot} {answer : Except Fault Snapshot}
    (h : s.Answers { b with slot := slot } answer) : s.Answers b answer := by
  cases h with
  | current h => exact .current h
  | failed hwork hc hname => exact .failed hwork hc hname

/-- Attaching fails only on a configuration of a name that is refused. -/
theorem attach_eq_error {work : Work} {m : RootMetadata} {given : List Configuration} {why : Fault}
    (h : work.attach m given = .error why) :
    ∃ name, work = .failOn name why ∧ ∃ c ∈ given, c.name = name := by
  unfold Work.attach at h
  split at h
  · split at h
    · rename_i hany
      obtain ⟨c, hc, hname⟩ := List.any_eq_true.mp hany
      exact ⟨_, by rw [Except.error.inj h], c, hc, beq_iff_eq.mp hname⟩
    · exact absurd h (by simp)
  · exact absurd h (by simp)

/-- Building fails only where the builder refuses what its source holds. -/
theorem rebuild_eq_error {before : Session → Session} {b : Builder} {why : Fault}
    (h : (rebuild before s i b).1 = .error why) :
    ∃ name, b.work = .failOn name why ∧ ∃ c ∈ b.source.read s.container, c.name = name := by
  unfold rebuild at h
  dsimp only at h
  split at h
  · rename_i fault hattach
    obtain rfl : fault = why := Except.error.inj h
    exact attach_eq_error hattach
  · exact absurd h (by simp)

/-- **A builder whose snapshot is up to date answers from what is there now.** -/
theorem UpToDate.answers (h : UpToDate i s) {b : Builder} (hb : s.builders[i]? = some b) :
    s.Answers b (s.read i).1 := by
  cases hread : (s.read i).1 with
  | ok x =>
    obtain ⟨b', origin, hb', -, hid, hm⟩ := Kept.of_read_ok h trivial hread
    obtain rfl : b' = b := Option.some.inj (hb'.symm.trans hb)
    exact .current (Current.of_attach hid hm)
  | error why =>
    unfold Session.read at hread
    rcases readWith_inv (prepare (s.work i)) s i with ⟨hnone, -⟩ | ⟨b', x, -, -, -, heq⟩ |
        ⟨b', s', hclear, heq⟩
    · exact absurd (hnone.symm.trans hb) (by simp)
    · rw [heq] at hread
      exact absurd hread (by simp)
    · rw [heq] at hread
      obtain rfl : b' = b := Option.some.inj (hclear.builder.symm.trans hb)
      obtain ⟨name, hwork, c, hc, hname⟩ := rebuild_eq_error hread
      rw [hclear.container] at hc
      exact .failed hwork hc hname

/-- A builder without a snapshot makes one of what its source holds. -/
theorem metadata_of_read {b : Builder} {x : Snapshot} (hb : s.builders[i]? = some b)
    (hcached : b.slot.cached = none) (h : (s.read i).1 = .ok x) :
    x.metadata = (bare s.identity s.projects).attach (b.source.read s.container) := by
  rcases read_cases s i with ⟨fault, hr⟩ | ⟨b', y, hb', hy, -, -⟩ | ⟨b', s', hclear, hr⟩
  · rw [hr] at h
    exact absurd h (by simp)
  · obtain rfl : b' = b := Option.some.inj (hb'.symm.trans hb)
    exact absurd (hcached.symm.trans hy) (by simp)
  · obtain rfl : b' = b := Option.some.inj (hclear.builder.symm.trans hb)
    rw [hr] at h
    rcases rebuild_cases (prepare (s.work i)) s' i b' with ⟨fault, hr'⟩ | ⟨y, hr', hm, -⟩
    · rw [hr'] at h
      exact absurd h (by simp)
    · obtain rfl := Except.ok.inj (hr'.symm.trans h)
      rwa [hclear.identity, hclear.projects, hclear.container] at hm

/-! ## Late readers -/

/-- The slot of builder `i` has a snapshot with this metadata. -/
def Holds (i : Nat) (m : RootMetadata) (s : Session) : Prop :=
  ∃ x, (s.slot i).cached = some x ∧ x.metadata = m

/-- Builder `b` is the one at place `i`, its slot apart, and this is what it makes of what it
finds. -/
structure Attaches (i : Nat) (b : Builder) (m : RootMetadata) (s : Session) : Prop where
  builder : ∃ slot, s.builders[i]? = some { b with slot := slot }
  attach : b.work.attach (bare s.identity s.projects) (b.source.read s.container) = .ok m

theorem Attaches.of_slotsOnly {b : Builder} {m : RootMetadata} (h : Attaches i b m s)
    (hslots : SlotsOnly s s') : Attaches i b m s' where
  builder := by
    obtain ⟨slot, hb⟩ := h.builder
    obtain ⟨slot', hb'⟩ := hslots.prolongs.builder hb
    exact ⟨slot', hb'⟩
  attach := by
    rw [hslots.identity, hslots.projects, hslots.container]
    exact h.attach

/-- What listeners do that do not concern a builder leaves its slot alone. -/
theorem slot_tell {l : Listener} (hbuilder : l ≠ .builder i) (hreader : l ≠ .reader i)
    (s : Session) (kind : MutationKind) : (s.tell kind l).slot i = s.slot i := by
  cases l with
  | recorder => rfl
  | builder j => exact (touches_notify s j kind).others i fun hj => hbuilder (hj ▸ rfl)
  | reader j => exact (touches_readWith s j).others i fun hj => hreader (hj ▸ rfl)

/-- Once a reader was told, the slot has what the builder makes of the container as it still is,
unless it had something else. -/
theorem Attaches.holds_reader {b : Builder} {m : RootMetadata} (h : Attaches i b m s)
    (hopen : (s.slot i).cached = none ∨ Holds i m s) (kind : MutationKind) :
    Holds i m (s.tell kind (.reader i)) := by
  obtain ⟨slot, hb⟩ := h.builder
  rcases readWith_cases hb h.attach with ⟨x, hcached, -, -, hslot⟩ | ⟨-, x, -, -, -, hm, hcached, -⟩
  · rw [← slot_eq hb] at hcached hslot
    obtain ⟨y, hy, hm⟩ := hopen.resolve_left fun hnone => by simp [hnone] at hcached
    exact ⟨y, (congrArg Slot.cached hslot).trans hy, hm⟩
  · exact ⟨x, hcached, hm⟩

theorem Attaches.holds_tellAll {b : Builder} {m : RootMetadata} (kind : MutationKind)
    {ls : List Listener} (hbuilder : .builder i ∉ ls) (h : Attaches i b m s)
    (hopen : (s.slot i).cached = none ∨ Holds i m s) (hread : .reader i ∈ ls ∨ Holds i m s) :
    Holds i m (ls.foldl (Session.tell kind) s) := by
  induction ls generalizing s with
  | nil => exact hread.resolve_left List.not_mem_nil
  | cons l ls ih =>
    have hnext := h.of_slotsOnly (slotsOnly_tell kind s l)
    have hrest : .builder i ∉ ls := fun hmem => hbuilder (List.mem_cons_of_mem l hmem)
    by_cases hl : l = .reader i
    · subst hl
      have hholds := h.holds_reader hopen kind
      exact ih hrest hnext (.inr hholds) (.inr hholds)
    · have hslot := slot_tell (fun hl' => hbuilder (hl' ▸ List.mem_cons_self)) hl s kind
      unfold Holds at hopen hread ih
      rw [← hslot] at hopen hread
      refine ih hrest hnext hopen (hread.imp_left fun hmem => ?_)
      exact (List.mem_cons.mp hmem).resolve_left (Ne.symm hl)

/-- A builder is not told after its readers if one of them is told last. -/
theorem not_guarded_of_getLast? (h : s.listeners.getLast? = some (.reader i)) : ¬ s.Guarded i := by
  rintro ⟨before, rest, hsplit, hnone⟩
  rw [hsplit] at h
  rcases List.eq_nil_or_concat rest with rfl | ⟨first, l, rfl⟩
  · simp at h
  · simp [List.getLast?_cons] at h
    simp [h] at hnone

/-- **A reader that is told after the builder leaves a snapshot of the container as it still
is.** -/
theorem Attaches.holds_announce {b : Builder} {m : RootMetadata} (h : Attaches i b m s)
    (hl : s.Listens i) (hg : ¬ s.Guarded i) {kind : MutationKind}
    (hkind : kind.affectsRoot = true) : Holds i m (s.announce kind) := by
  -- The builder is told for the last time before `rest` is.
  obtain ⟨rest, before, hsplit, hlast⟩ := List.eq_append_cons_of_mem (List.mem_reverse.mpr hl)
  rw [List.reverse_eq_iff, List.reverse_append, List.reverse_cons, List.append_assoc] at hsplit
  have hreader : .reader i ∈ rest.reverse := Classical.byContradiction fun hnone =>
    hg ⟨before.reverse, rest.reverse, hsplit, hnone⟩
  unfold announce
  rw [hsplit, List.foldl_append, List.singleton_append, List.foldl_cons]
  have htold := (slotsOnly_tellAll kind before.reverse s).trans
    (slotsOnly_tell kind (before.reverse.foldl (tell kind) s) (.builder i))
  exact (h.of_slotsOnly htold).holds_tellAll kind (fun hmem => hlast (List.mem_reverse.mp hmem))
    (.inl (empties_notify hkind _ i).cached) (.inl hreader)

/-- A snapshot of the present component is served. -/
theorem read_of_cached {b : Builder} {x : Snapshot} (hb : s.builders[i]? = some b)
    (hcached : b.slot.cached = some x) (hid : x.metadata.componentId = s.identity.componentId) :
    (s.read i).1 = .ok x := by
  unfold Session.read readWith
  rw [hb]
  dsimp only
  rw [hcached]
  dsimp only
  rw [if_pos hid]

/-- **No read is older than a change that was carried out**, if those listeners that read builder
`i` are told of changes before it is. Take a change that affects root metadata, whatever listeners
there are and whatever was read before. When it has been carried out, the container is changed. If
the builder is told after its readers, it has no snapshot then: the first read makes one of what its
source holds now, and whatever happens later, each read answers metadata that is current, or the
builder refuses a configuration. If a reader is told after it, the first read answers what the
builder made of the container as it was. -/
theorem read_after_change {op : Operation} {b : Builder} (hb : s.builders[i]? = some b)
    (hkind : op.kind.affectsRoot = true) (hdone : (s.perform op).1 = .ok ()) :
    (s.perform op).2.container = s.container.apply op ∧
      (s.Guarded i → ((s.perform op).2.slot i).cached = none ∧
        (∀ x, ((s.perform op).2.read i).1 = .ok x → x.metadata =
          (bare s.identity s.projects).attach (b.source.read (s.container.apply op))) ∧
        ∀ later,
          ((s.perform op).2.after later).Answers b (((s.perform op).2.after later).read i).1) ∧
      (s.Listens i → ¬ s.Guarded i → ∀ m,
        b.work.attach (bare s.identity s.projects) (b.source.read s.container) = .ok m →
        ∃ x, ((s.perform op).2.read i).1 = .ok x ∧ x.metadata = m) := by
  have hrefusal := refusal_of_performed hdone
  have hcontainer : (s.perform op).2.container = s.container.apply op := by rw [perform_eq hrefusal]
  obtain ⟨hidentity, hprojects⟩ := s.identity_perform op
  refine ⟨hcontainer, fun hg => ?_, fun hl hg m hattach => ?_⟩
  · obtain ⟨slot, hb', hc, -⟩ := emptied_perform hg hkind hrefusal b hb
    have hempty : UpToDate i (s.perform op).2 := Empty.kept fun b' hb'' => by
      rw [← Option.some.inj (hb'.symm.trans hb'')]
      exact hc
    refine ⟨by rw [slot_eq hb', hc], fun x hx => ?_, fun later => ?_⟩
    · have hm := metadata_of_read hb' hc hx
      rwa [hidentity, hprojects, hcontainer] at hm
    · have hafter := hempty.after ((prolongs_perform s op).guarded hg) later
      obtain ⟨slot', hlast⟩ := (prolongs_after (s.perform op).2 later).builder hb'
      exact .of_slot (b := b) (hafter.answers hlast)
  · have hattaches : Attaches i b m s := ⟨⟨b.slot, hb⟩, hattach⟩
    obtain ⟨x, hcached, hm⟩ := hattaches.holds_announce hl hg hkind
    rw [← slot_perform hdone] at hcached
    obtain ⟨slot, hb'⟩ := (prolongs_perform s op).builder hb
    rw [slot_eq hb'] at hcached
    refine ⟨x, read_of_cached hb' hcached ?_, hm⟩
    rw [hm, attach_eq_ok hattach, hidentity]
    rfl

/-- A listener reads the builder before it is told of the change, and others read a second builder,
which shows less, before and after both are told. The second one misses the change. -/
theorem read_after_change_among_readers :
    let s : Session :=
      { identity := ⟨"org", "app", "1", none, defaultStatus⟩
        container := ⟨[{ name := "api" }]⟩
        listeners := [.reader 0, .recorder, .reader 1, .builder 0, .builder 1, .reader 1]
        builders := [{}, {}] }
    let changed := (s.perform (.create "runtime")).2
    let later : List Action := [.read 1, .read 0, .perform (.setRoles "runtime" false true),
      .perform (.setAttribute "api" "usage" "compile")]
    changed.container = ⟨[{ name := "api" }, { name := "runtime" }]⟩ ∧
      s.Guarded 0 ∧ (changed.slot 0).cached = none ∧
      (changed.after later).Answers {} ((changed.after later).read 0).1 ∧
      s.Listens 1 ∧ ¬ s.Guarded 1 ∧ ∃ x, (changed.read 1).1 = .ok x ∧
        x.metadata = (bare s.identity s.projects).attach [{ name := "api" }] := by
  intro s changed later
  have hdone : (s.perform (.create "runtime")).1 = .ok () := rfl
  have hg : s.Guarded 0 :=
    ⟨[.reader 0, .recorder, .reader 1], [.builder 1, .reader 1], rfl, by simp⟩
  have hl : s.Listens 1 := by simp [Listens, s]
  have hlate : ¬ s.Guarded 1 := not_guarded_of_getLast? rfl
  obtain ⟨-, hguarded, -⟩ := read_after_change (i := 0) (b := {}) rfl rfl hdone
  obtain ⟨hcached, -, hanswers⟩ := hguarded hg
  obtain ⟨-, -, hmissed⟩ := read_after_change (i := 1) (b := {}) rfl rfl hdone
  exact ⟨rfl, hg, hcached, hanswers later, hl, hlate, hmissed hl hlate _ rfl⟩

/-- **Builders that are told of a change and do not show it**: one that shows other configurations,
one that refuses the new configuration, and one that is read once more after it was told and before
the change is carried out. -/
theorem read_misses_change :
    let change : Operation := .create "runtime"
    let session (listeners : List Listener) (b : Builder) : Session :=
      { identity := ⟨"org", "app", "1", none, defaultStatus⟩, listeners, builders := [b] }
    let narrow := session [.builder 0] { source := .named ["api"] .container }
    let strict := session [.builder 0] { work := .failOn "runtime" (.text "no runtime") }
    let late := session [.builder 0, .reader 0] {}
    change.kind.affectsRoot = true ∧
      (∀ s ∈ [narrow, strict, late], s.Listens 0 ∧ (s.perform change).1 = .ok () ∧
        (s.perform change).2.container = ⟨[{ name := "runtime" }]⟩) ∧
      (∃ x, ((narrow.perform change).2.read 0).1 = .ok x ∧ x.metadata.configurations = []) ∧
      ((strict.perform change).2.read 0).1 = .error (.text "no runtime") ∧
      ∃ x, ((late.perform change).2.read 0).1 = .ok x ∧ x.metadata.configurations = [] := by
  intro change session narrow strict late
  refine ⟨rfl, fun s hs => ?_, ⟨_, rfl, rfl⟩, rfl, ⟨_, rfl, rfl⟩⟩
  simp only [List.mem_cons, List.not_mem_nil, or_false] at hs
  rcases hs with rfl | rfl | rfl
  · exact ⟨by simp [Listens, narrow, session], rfl, rfl⟩
  · exact ⟨by simp [Listens, strict, session], rfl, rfl⟩
  · exact ⟨by simp [Listens, late, session], rfl, rfl⟩

end Session

end Componentry
