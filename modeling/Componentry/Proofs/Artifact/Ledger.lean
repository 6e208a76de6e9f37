import Componentry.Proofs.Artifact.Admission
import Mathlib.Data.List.Forall2

/-!
# The memo as a ledger of work

Every call for work is entered into the memo, and nothing else is. A call to a producer is entered
at the place of the artifact that it was made for (`Resolution.Enters`), a call for a transform
under its identity and what was requested. A memo is a `Ledger` if its entries are those of the
calls, one for one and in the order of the calls, and no two of them stand at one place or under one
key: then no work was called for twice.

`Memo.Stays` says that a later memo still has every outcome of an earlier one.

Results:
* `Act.ledger`, `Act.stays`: what a view does for an artifact enters its call, if it makes one, and
  leaves the entries there are. Work is called for only if there is no entry for it.
* `Tour.memo_cases`: what one thing that the user does can do to the memo.
* **`ledger_tour`**: the memo of every tour is a ledger.
* **`stays_tour`**: its outcomes stay, whatever is done next.
-/

namespace Componentry

/-! ## Calls for work -/

/-- A call to a producer. -/
structure BuildCall where
  /-- The calls that were made before. -/
  before : History
  id : ArtifactId

/-- A call for a transform. -/
structure TransformCall where
  /-- The calls that were made before. -/
  before : History
  id : ArtifactId
  file : Path
  own : Attributes
  requested : Attributes

namespace TransformCall

/-- What the outcome is kept under. -/
def key (c : TransformCall) : TransformKey := (c.id, c.requested)

/-- What is kept of the answer of a pipeline. -/
def outcome (pipeline : Pipeline) (c : TransformCall) : Except String (List Path) :=
  Memo.kept (pipeline.transform c.before c.id c.file c.own c.requested).outcome

end TransformCall

namespace Trail

/-- The calls to producers on a trail. -/
def builds (t : Trail) : List BuildCall :=
  t.filterMap fun e =>
    match e.2 with
    | .produced id => some ⟨e.1, id⟩
    | _ => none

/-- The calls for transforms on a trail. -/
def transforms (t : Trail) : List TransformCall :=
  t.filterMap fun e =>
    match e.2 with
    | .transformed id file own requested => some ⟨e.1, id, file, own, requested⟩
    | _ => none

theorem builds_append (t t' : Trail) : builds (t ++ t') = builds t ++ builds t' :=
  List.filterMap_append

theorem transforms_append (t t' : Trail) : transforms (t ++ t') = transforms t ++ transforms t' :=
  List.filterMap_append

/-- Calls that are not for work are not listed. -/
theorem idle {calls : List Call} (h : ∀ c ∈ calls, ¬ c.IsWork) (history : History) :
    builds (Trail.from history calls) = [] ∧ transforms (Trail.from history calls) = [] := by
  induction calls generalizing history with
  | nil => exact ⟨rfl, rfl⟩
  | cons c rest ih =>
    obtain ⟨hbuilds, htransforms⟩ :=
      ih (fun c hc => h c (List.mem_cons_of_mem _ hc)) (history ++ [c])
    have hc := h c List.mem_cons_self
    cases c with
    | produced _ => exact absurd trivial hc
    | transformed _ _ _ _ => exact absurd trivial hc
    | filtered _ _ => exact ⟨hbuilds, htransforms⟩
    | asked _ _ _ => exact ⟨hbuilds, htransforms⟩

end Trail

/-- The trail of all calls that were made. -/
def Memo.trail (m : Memo) : Trail := Trail.from [] m.calls

theorem Memo.trail_eq_append {m m' : Memo} (new : List Call) (h : m'.calls = m.calls ++ new) :
    m'.trail = m.trail ++ Trail.from m.calls new := by
  rw [trail, h, Trail.from_append, List.nil_append]
  rfl

/-! ## Ledgers -/

/-- A call to a producer is entered at the place of an artifact that the producer builds: with the
answer that the producer gave to it. -/
def Resolution.Enters (r : Resolution) (entry : Place × Except String Path) (c : BuildCall) :
    Prop :=
  ∃ a producer, r.Has a ∧ a.artifact.source = .built producer ∧ a.place = entry.1 ∧
    a.artifact.id = c.id ∧ entry.2 = Memo.kept (producer c.before c.id).outcome

/-- **Each entry is that of one call**, and each call for work has an entry of its own. The entries
are listed from the latest one on. -/
structure Memo.Ledger (r : Resolution) (m : Memo) : Prop where
  builds : List.Forall₂ r.Enters m.builds m.trail.builds.reverse
  /-- No artifact is built twice. -/
  places : (m.builds.map Prod.fst).Nodup
  transforms : m.transforms =
    m.trail.transforms.reverse.map fun c => (c.key, c.outcome r.pipeline)
  /-- No artifact is transformed twice to satisfy one request. -/
  keys : (m.transforms.map Prod.fst).Nodup

/-- The outcomes in a memo are those in a later one. -/
structure Memo.Stays (m m' : Memo) : Prop where
  builds : ∀ {place outcome}, m.build? place = some outcome → m'.build? place = some outcome
  transforms : ∀ {key outcome}, m.transform? key = some outcome → m'.transform? key = some outcome

namespace Memo

variable {r : Resolution} {m m' m'' : Memo}

theorem ledger_empty (r : Resolution) : Ledger r {} :=
  ⟨.nil, List.nodup_nil, rfl, List.nodup_nil⟩

/-- More calls that are not for work do not matter. -/
theorem Ledger.idle (h : m.Ledger r) {new : List Call} (hcalls : m'.calls = m.calls ++ new)
    (hidle : ∀ c ∈ new, ¬ c.IsWork) (hbuilds : m'.builds = m.builds)
    (htransforms : m'.transforms = m.transforms) : m'.Ledger r := by
  obtain ⟨hnobuilds, hnotransforms⟩ := Trail.idle hidle m.calls
  have htrail := trail_eq_append new hcalls
  refine ⟨?_, hbuilds ▸ h.places, ?_, htransforms ▸ h.keys⟩
  · rw [htrail, Trail.builds_append, hnobuilds, List.append_nil, hbuilds]
    exact h.builds
  · rw [htrail, Trail.transforms_append, hnotransforms, List.append_nil, htransforms]
    exact h.transforms

/-- A call to a producer is entered. -/
theorem Ledger.build (h : m.Ledger r) {a : PlacedArtifact} {producer : Producer} (ha : r.Has a)
    (hsource : a.artifact.source = .built producer) (hnew : m.build? a.place = none) :
    (m.built a producer).Ledger r := by
  have htrail : (m.built a producer).trail = m.trail ++ [(m.calls, .produced a.artifact.id)] :=
    trail_eq_append (m := m) [.produced a.artifact.id] rfl
  refine ⟨?_, ?_, ?_, h.keys⟩
  · rw [htrail, Trail.builds_append, List.reverse_append]
    exact .cons ⟨a, producer, ha, hsource, rfl, rfl, rfl⟩ h.builds
  · exact List.nodup_cons.mpr ⟨Dict.lookup_eq_none_iff.mp hnew, h.places⟩
  · have hnone : Trail.transforms [(m.calls, .produced a.artifact.id)] = [] := rfl
    rw [htrail, Trail.transforms_append, hnone, List.append_nil]
    exact h.transforms

/-- A call for a transform is entered. -/
theorem Ledger.transform (h : m.Ledger r) {id : ArtifactId} {requested : Attributes} (file : Path)
    (own : Attributes) (hnew : m.transform? (id, requested) = none) :
    (m.afterTransform r.pipeline id file own requested).Ledger r := by
  have htrail : (m.afterTransform r.pipeline id file own requested).trail =
      m.trail ++ [(m.calls, .transformed id file own requested)] :=
    trail_eq_append (m := m) [.transformed id file own requested] rfl
  refine ⟨?_, h.places, ?_, ?_⟩
  · have hnone : Trail.builds [(m.calls, .transformed id file own requested)] = [] := rfl
    rw [htrail, Trail.builds_append, hnone, List.append_nil]
    exact h.builds
  · rw [htrail, Trail.transforms_append, List.reverse_append, List.map_append, ← h.transforms]
    rfl
  · exact List.nodup_cons.mpr ⟨Dict.lookup_eq_none_iff.mp hnew, h.keys⟩

/-- What a call for a transform was answered is what is kept under its key. -/
theorem Ledger.transform? (h : m.Ledger r) {c : TransformCall} (hc : c ∈ m.trail.transforms) :
    m.transform? c.key = some (c.outcome r.pipeline) := by
  refine Dict.lookup_of_nodup h.keys ?_
  rw [h.transforms]
  exact List.mem_map.mpr ⟨c, List.mem_reverse.mpr hc, rfl⟩

namespace Stays

theorem refl (m : Memo) : m.Stays m := ⟨id, id⟩

theorem trans (h : m.Stays m') (h' : m'.Stays m'') : m.Stays m'' :=
  ⟨h'.builds ∘ h.builds, h'.transforms ∘ h.transforms⟩

/-- Nothing that was kept changes. -/
theorem of_eq (hbuilds : m'.builds = m.builds) (htransforms : m'.transforms = m.transforms) :
    m.Stays m' where
  builds := fun h => by rwa [build?, hbuilds]
  transforms := fun h => by rwa [transform?, htransforms]

end Stays

end Memo

namespace View

variable {v : View}

/-- **What a view does for an artifact enters its call**, if it makes one for work. -/
theorem Act.ledger {s s' : Trail × Memo} (h : v.Act s s') (hm : s.2.Ledger v.resolution) :
    s'.2.Ledger v.resolution := by
  cases h with
  | log _ => exact hm.idle (List.append_nil _).symm (fun _ h => absurd h List.not_mem_nil) rfl rfl
  | ask _ _ => exact hm.idle rfl (fun c hc => by rw [List.mem_singleton.mp hc]; exact id) rfl rfl
  | build ha hsource _ hnew => exact hm.build ha.has hsource hnew
  | transform _ _ _ _ hnew => exact hm.transform _ _ hnew

theorem Move.ledger {s s' : Trail × Memo} (h : v.Move s s') (hm : s.2.Ledger v.resolution) :
    s'.2.Ledger v.resolution := by
  cases h with
  | act h => exact h.ledger hm
  | judge _ _ => exact hm.idle rfl (fun c hc => by rw [List.mem_singleton.mp hc]; exact id) rfl rfl

theorem Moves.ledger {s s' : Trail × Memo} (h : v.Moves s s') (hm : s.2.Ledger v.resolution) :
    s'.2.Ledger v.resolution := by
  induction h with
  | refl => exact hm
  | tail _ hmove ih => exact hmove.ledger ih

/-- What a view does for an artifact leaves the outcomes there are. -/
theorem Act.stays {s s' : Trail × Memo} (h : v.Act s s') : s.2.Stays s'.2 := by
  cases h with
  | log _ => exact .of_eq rfl rfl
  | ask _ _ => exact .of_eq rfl rfl
  | @build t m a _ _ _ _ hnew =>
    refine ⟨fun {place outcome} hkept => ?_, id⟩
    have hplace : place ≠ a.place := by
      rintro rfl
      exact absurd (hnew.symm.trans hkept) (by simp)
    exact (if_neg hplace).trans hkept
  | @transform t m a _ _ _ _ _ hnew =>
    refine ⟨id, fun {key outcome} hkept => ?_⟩
    have hkey : key ≠ (a.artifact.id, v.requested) := by
      rintro rfl
      exact absurd (hnew.symm.trans hkept) (by simp)
    exact (if_neg hkey).trans hkept

theorem Moves.stays {s s' : Trail × Memo} (h : v.Moves s s') : s.2.Stays s'.2 := by
  induction h with
  | refl => exact .refl _
  | tail _ hmove ih =>
    cases hmove with
    | act h => exact ih.trans h.stays
    | judge _ _ => exact ih.trans (.of_eq rfl rfl)

end View

/-! ## Tours -/

/-- **What one thing does to the memo**: the moves of a view of the resolution, or only questions to
filters. -/
theorem Tour.memo_cases {r : Resolution} {t : Tour} (ht : t.InPlace r) (a : Tour.Action) :
    (∃ (v : View) (s s' : Trail), v.resolution = r ∧
        v.Moves (s, t.memo) (s', (Tour.step r t a).memo)) ∨
      ∃ new, (Tour.step r t a).memo = { t.memo with calls := t.memo.calls ++ new } ∧
        ∀ c ∈ new, ¬ c.IsWork := by
  rcases Tour.step_cases r t a with ⟨hmemo, -⟩ | ⟨i, w, -, hw, hstep⟩ | ⟨v, -, component, hstep⟩
  · exact Or.inr ⟨[], by rw [hmemo, List.append_nil], fun _ h => absurd h List.not_mem_nil⟩
  · have hmem := List.mem_of_getElem? hw
    rw [hstep]
    exact Or.inl ⟨w.view, _, _, ht.resolution_eq hmem,
      (Walk.next_moves (ht.walks w hmem).2 t.memo).1⟩
  · obtain ⟨new, hmemo, hfiltered⟩ := v.accepts_memo component t.memo
    rw [hstep]
    refine Or.inr ⟨new, hmemo, fun c hc => ?_⟩
    obtain ⟨answer, rfl⟩ := hfiltered c hc
    exact id

theorem Memo.Ledger.step {r : Resolution} {t : Tour} (hm : t.memo.Ledger r) (ht : t.InPlace r)
    (a : Tour.Action) : (Tour.step r t a).memo.Ledger r := by
  rcases Tour.memo_cases ht a with ⟨v, s, s', rfl, hmoves⟩ | ⟨new, hmemo, hidle⟩
  · exact View.Moves.ledger hmoves hm
  · rw [hmemo]
    exact hm.idle rfl hidle rfl rfl

/-- **The memo of every tour is a ledger.** -/
theorem Resolution.ledger_tour (r : Resolution) (actions : List Tour.Action) :
    (r.tour actions).memo.Ledger r :=
  honest_induction (P := fun t => t.memo.Ledger r) (Memo.ledger_empty r)
    (fun _ a ht _ h => h.step ht a) actions

theorem Memo.Stays.step {r : Resolution} {t : Tour} (ht : t.InPlace r) (a : Tour.Action) :
    t.memo.Stays (Tour.step r t a).memo := by
  rcases Tour.memo_cases ht a with ⟨v, s, s', -, hmoves⟩ | ⟨new, hmemo, -⟩
  · exact View.Moves.stays hmoves
  · exact .of_eq (by rw [hmemo]) (by rw [hmemo])

theorem Resolution.tour_append (r : Resolution) (actions more : List Tour.Action) :
    r.tour (actions ++ more) = more.foldl (Tour.step r) (r.tour actions) := List.foldl_append

/-- **The outcomes in the memo of a tour stay**, whatever is done next. -/
theorem Resolution.stays_tour (r : Resolution) (actions more : List Tour.Action) :
    (r.tour actions).memo.Stays (r.tour (actions ++ more)).memo := by
  rw [tour_append]
  have ht := r.inPlace_tour actions
  generalize r.tour actions = t at ht
  induction more generalizing t with
  | nil => exact .refl _
  | cons a rest ih => exact (Memo.Stays.step ht a).trans (ih (Tour.step r t a) (ht.step a))

end Componentry
