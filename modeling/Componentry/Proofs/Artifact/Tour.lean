import Componentry.Artifact.View
import Mathlib.Logic.Relation

/-!
# Tours: what the user of a resolution does, and what it sets off

The user of a resolution makes views of it, starts walks through them, and takes one item at a time
from whichever walk it likes; it may leave a walk where it is and start it anew. A `Tour` is what
has come of that, `Tour.step` does one more thing, and `Resolution.tour` does a list of them, all
over one memo.

Collaborators may answer by what was asked before. A `Trail` lists calls, each with all the calls
that were made before it, so that an answer on a trail says what the collaborator answered **then**.
Each walk has the trail of its own calls.

What a view does for an artifact is a sequence of four things, `View.Act`: to log, to ask the
pipeline, to build, to transform. Between artifacts it judges components, which makes five things in
all, `View.Move`. Each constructor says when a view does that.

Results:
* `Move.calls`: each move makes the calls on its trail and no others.
* `resolve_acts`, `contribution_acts`, `drain_acts`: artifacts are provided by acts.
* **`next_moves`**: taking an item is a sequence of moves that lead from a cursor in place to a
  cursor in place.
* `Tour.step_cases`: what one thing that the user does comes to.
* `inPlace_tour`: in every tour, every cursor is in place.
-/

namespace Componentry

/-! ## Trails -/

/-- Calls, each with all the calls that were made before it. -/
abbrev Trail := List (History × Call)

/-- The trail of calls that are made one after another, `history` being the calls before. -/
def Trail.from (history : History) : List Call → Trail
  | [] => []
  | c :: rest => (history, c) :: Trail.from (history ++ [c]) rest

theorem Trail.from_append (history : History) (first second : List Call) :
    Trail.from history (first ++ second) =
      Trail.from history first ++ Trail.from (history ++ first) second := by
  induction first generalizing history with
  | nil => simp [Trail.from]
  | cons c first ih =>
    simp only [List.cons_append, Trail.from, ih, List.append_assoc, List.nil_append]

/-- What filters said on a trail, in order. -/
def Trail.verdicts (t : Trail) : List (ComponentId × Bool) :=
  t.filterMap fun e =>
    match e.2 with
    | .filtered id answer => some (id, answer)
    | _ => none

theorem Trail.verdicts_append (t t' : Trail) :
    Trail.verdicts (t ++ t') = Trail.verdicts t ++ Trail.verdicts t' := List.filterMap_append

/-- The trail of the calls that were made between two memos. -/
def Memo.trailTo (m m' : Memo) : Trail := Trail.from m.calls (m'.calls.drop m.calls.length)

/-! ## Tours -/

/-- A walk through a view. -/
structure Walk where
  view : View
  cursor : Cursor
  /-- What it answered, oldest first. -/
  answers : List (Option Item) := []
  /-- The calls it made. -/
  trail : Trail := []

/-- What came of the use of a resolution. -/
structure Tour where
  views : List View := []
  walks : List Walk := []
  memo : Memo := {}

/-- What the user of a resolution can do. -/
inductive Tour.Action where
  /-- Make a view. -/
  | view (request : ViewRequest)
  /-- Start a walk through a view. -/
  | walk (view : Nat)
  /-- Take the next item of a walk. -/
  | next (walk : Nat)
  /-- Ask a view whether it includes a component. -/
  | accepts (view : Nat) (component : ComponentId)
  /-- Ask a view for the attributes it requests. -/
  | requested (view : Nat)

namespace Walk

/-- A walk at its start. -/
def start (v : View) : Walk := { view := v, cursor := v.start }

/-- The walk after its next item, and the memo then. -/
def next (w : Walk) (m : Memo) : Walk × Memo :=
  let (answer, cursor, m') := w.view.next w.cursor m
  ({ w with
      cursor := cursor
      answers := w.answers ++ [answer]
      trail := w.trail ++ m.trailTo m' }, m')

end Walk

/-- Do one thing. What has no such view or walk does nothing. -/
def Tour.step (r : Resolution) (t : Tour) : Tour.Action → Tour
  | .view request => { t with views := t.views ++ [r.view request] }
  | .walk view =>
    match t.views[view]? with
    | some v => { t with walks := t.walks ++ [Walk.start v] }
    | none => t
  | .next walk =>
    match t.walks[walk]? with
    | some w => { t with walks := t.walks.set walk (w.next t.memo).1, memo := (w.next t.memo).2 }
    | none => t
  | .accepts view component =>
    match t.views[view]? with
    | some v => { t with memo := (v.accepts component t.memo).2 }
    | none => t
  | .requested _ => t

/-- What comes of the use of a resolution. -/
def Resolution.tour (r : Resolution) (actions : List Tour.Action) : Tour :=
  actions.foldl (Tour.step r) {}

/-! ## What a view may do -/

/-- Whether `file` is the native file of an artifact, as far as the memo knows. -/
def Memo.Holds (m : Memo) (a : PlacedArtifact) (file : Path) : Prop :=
  match a.artifact.source with
  | .file path => path = file
  | .built _ => m.build? a.place = some (.ok file)

/-- The memo after the build of an artifact. -/
def Memo.built (m : Memo) (a : PlacedArtifact) (producer : Producer) : Memo :=
  let answer := producer m.calls a.artifact.id
  { m.called (.produced a.artifact.id) answer.events with
    builds := (a.place, Memo.kept answer.outcome) :: m.builds }

/-- The memo after the transform of an artifact. -/
def Memo.afterTransform (m : Memo) (pipeline : Pipeline) (id : ArtifactId) (file : Path)
    (own requested : Attributes) : Memo :=
  let answer := pipeline.transform m.calls id file own requested
  { m.called (.transformed id file own requested) answer.events with
    transforms := ((id, requested), Memo.kept answer.outcome) :: m.transforms }

namespace View

/-- The filter, if there is one, was asked about a component and accepted it. -/
def Accepted (v : View) (t : Trail) (id : ComponentId) : Prop :=
  ∀ filter, v.filter = some filter → ∃ h, (h, Call.filtered id true) ∈ t ∧ filter h id = true

/-- The pipeline was asked about artifacts with attributes `own`, and can transform them. -/
def Convertible (v : View) (t : Trail) (own : Attributes) : Prop :=
  ∃ h, (h, Call.asked own v.requested true) ∈ t ∧
    v.resolution.pipeline.canTransform h own v.requested = true

/-- An artifact belongs to an accepted component. -/
def Admits (v : View) (t : Trail) (a : PlacedArtifact) : Prop :=
  ∃ c ∈ v.resolution.placed, a ∈ c.artifacts ∧ v.Accepted t c.id

/-- The native form of an artifact is what the view requests. -/
def Suits (v : View) (a : PlacedArtifact) : Prop :=
  a.artifact.attributes.isCompatibleWith v.requested = true

/-- Between two trails, the filter gave `verdicts` on the components `ids`, in order and as far as
there are verdicts; without a filter all are accepted. -/
structure Judges (v : View) (t t' : Trail) (ids : List ComponentId) (verdicts : List Bool) :
    Prop where
  unfiltered : v.filter = none → ∀ verdict ∈ verdicts, verdict = true
  filtered : v.filter ≠ none → t'.verdicts = t.verdicts ++ ids.zip verdicts

/-- **What a view does for an artifact**, one thing at a time: from the trail and the memo before to
those after. -/
inductive Act (v : View) : Trail × Memo → Trail × Memo → Prop
  | log {t : Trail} {m : Memo} (e : Event) : Act v (t, m) (t, m.record e)
  | ask {t : Trail} {m : Memo} {a : PlacedArtifact} (ha : v.Admits t a) (hsuits : ¬ v.Suits a) :
      Act v (t, m)
        (t ++ [(m.calls, .asked a.artifact.attributes v.requested
          (v.resolution.pipeline.canTransform m.calls a.artifact.attributes v.requested))],
          (m.canTransform v.resolution.pipeline a.artifact.attributes v.requested).2)
  | build {t : Trail} {m : Memo} {a : PlacedArtifact} {producer : Producer} (ha : v.Admits t a)
      (hsource : a.artifact.source = .built producer)
      (hneed : v.Suits a ∨ v.Convertible t a.artifact.attributes)
      (hnew : m.build? a.place = none) :
      Act v (t, m) (t ++ [(m.calls, .produced a.artifact.id)], m.built a producer)
  | transform {t : Trail} {m : Memo} {a : PlacedArtifact} {file : Path} (ha : v.Admits t a)
      (hsuits : ¬ v.Suits a) (hconvertible : v.Convertible t a.artifact.attributes)
      (hfile : m.Holds a file) (hnew : m.transform? (a.artifact.id, v.requested) = none) :
      Act v (t, m)
        (t ++ [(m.calls, .transformed a.artifact.id file a.artifact.attributes v.requested)],
          m.afterTransform v.resolution.pipeline a.artifact.id file a.artifact.attributes
            v.requested)

/-- **What a view does**: an act for an artifact, or the judgement of a component. -/
inductive Move (v : View) : Trail × Memo → Trail × Memo → Prop
  | act {s s' : Trail × Memo} (h : v.Act s s') : Move v s s'
  | judge {t : Trail} {m : Memo} {filter : ComponentFilter} {c : PlacedComponent}
      (hfilter : v.filter = some filter) (hc : c ∈ v.resolution.placed) :
      Move v (t, m) (t ++ [(m.calls, .filtered c.id (filter m.calls c.id))],
        m.called (.filtered c.id (filter m.calls c.id)) [])

/-- Several acts, one after another. -/
abbrev Acts (v : View) : Trail × Memo → Trail × Memo → Prop := Relation.ReflTransGen v.Act

/-- Several moves, one after another. -/
abbrev Moves (v : View) : Trail × Memo → Trail × Memo → Prop := Relation.ReflTransGen v.Move

/-- A cursor between items: what is left of the present component was admitted, and the components
to come are those of the resolution from some point on. -/
structure InPlace (v : View) (t : Trail) (c : Cursor) : Prop where
  artifacts : ∀ a ∈ c.artifacts, v.Admits t a
  components : c.components <:+ v.resolution.placed

variable {v : View} {t t' : Trail} {m m' : Memo} {a : PlacedArtifact}

/-! ## Moves extend trails -/

theorem Acts.moves {s s' : Trail × Memo} (h : v.Acts s s') : v.Moves s s' :=
  Relation.ReflTransGen.mono (fun _ _ => .act) _ _ h

theorem Act.calls {s s' : Trail × Memo} (h : v.Act s s') :
    ∃ new, s'.2.calls = s.2.calls ++ new ∧ s'.1 = s.1 ++ Trail.from s.2.calls new := by
  cases h with
  | log e => exact ⟨[], (List.append_nil _).symm, (List.append_nil _).symm⟩
  | ask _ _ => exact ⟨[_], rfl, rfl⟩
  | build _ _ _ _ => exact ⟨[_], rfl, rfl⟩
  | transform _ _ _ _ _ => exact ⟨[_], rfl, rfl⟩

/-- **A move makes the calls on its trail**, and no others. -/
theorem Move.calls {s s' : Trail × Memo} (h : v.Move s s') :
    ∃ new, s'.2.calls = s.2.calls ++ new ∧ s'.1 = s.1 ++ Trail.from s.2.calls new := by
  cases h with
  | act h => exact h.calls
  | judge _ _ => exact ⟨[_], rfl, rfl⟩

theorem Moves.calls {s s' : Trail × Memo} (h : v.Moves s s') :
    ∃ new, s'.2.calls = s.2.calls ++ new ∧ s'.1 = s.1 ++ Trail.from s.2.calls new := by
  induction h with
  | refl => exact ⟨[], (List.append_nil _).symm, (List.append_nil _).symm⟩
  | tail _ hmove ih =>
    obtain ⟨new, hcalls, htrail⟩ := ih
    obtain ⟨more, hcalls', htrail'⟩ := Move.calls hmove
    refine ⟨new ++ more, ?_, ?_⟩
    · rw [hcalls', hcalls, List.append_assoc]
    · rw [htrail', htrail, hcalls, Trail.from_append, List.append_assoc]

/-- Moves lead to the trail of the calls they make. -/
theorem Moves.trail_eq (h : v.Moves (t, m) (t', m')) : t' = t ++ m.trailTo m' := by
  obtain ⟨new, hcalls, htrail⟩ := Moves.calls h
  dsimp only at hcalls htrail
  rw [htrail, Memo.trailTo, hcalls, List.drop_left]

theorem Moves.subset (h : v.Moves (t, m) (t', m')) : t ⊆ t' := by
  rw [h.trail_eq]
  exact List.subset_append_left _ _

theorem Acts.subset (h : v.Acts (t, m) (t', m')) : t ⊆ t' := h.moves.subset

theorem Accepted.mono {id : ComponentId} (h : v.Accepted t id) (ht : t ⊆ t') :
    v.Accepted t' id := by
  intro filter hfilter
  obtain ⟨history, hmem, hyes⟩ := h filter hfilter
  exact ⟨history, ht hmem, hyes⟩

theorem Convertible.mono {own : Attributes} (h : v.Convertible t own) (ht : t ⊆ t') :
    v.Convertible t' own := by
  obtain ⟨history, hmem, hyes⟩ := h
  exact ⟨history, ht hmem, hyes⟩

theorem Admits.mono (h : v.Admits t a) (ht : t ⊆ t') : v.Admits t' a := by
  obtain ⟨c, hc, ha, haccepted⟩ := h
  exact ⟨c, hc, ha, haccepted.mono ht⟩

/-! ## The acts of one artifact -/

/-- What becomes of a request for the native file: it is there, or it is built. -/
theorem filePath_cases (a : PlacedArtifact) (m : Memo) :
    (∃ path, a.artifact.source = .file path ∧ m.filePath a = (.ok path, m)) ∨
      (∃ producer outcome, a.artifact.source = .built producer ∧
        m.build? a.place = some outcome ∧
        m.filePath a =
          (Memo.retold (.buildFailed a.artifact.id.display) outcome, m)) ∨
      ∃ producer, a.artifact.source = .built producer ∧ m.build? a.place = none ∧
        m.filePath a =
          (Memo.retold (.buildFailed a.artifact.id.display)
            (Memo.kept (producer m.calls a.artifact.id).outcome), m.built a producer) := by
  unfold Memo.filePath
  cases hsource : a.artifact.source with
  | file path => exact Or.inl ⟨path, rfl, rfl⟩
  | built producer =>
    refine Or.inr ?_
    cases hbuild : m.build? a.place with
    | some outcome => exact Or.inl ⟨producer, outcome, rfl, rfl, rfl⟩
    | none => exact Or.inr ⟨producer, rfl, rfl, rfl⟩

theorem retold_eq_ok {α : Type} {told : String → Failure} {outcome : Except String α} {x : α}
    (h : Memo.retold told outcome = .ok x) : outcome = .ok x := by
  cases outcome with
  | ok y => exact congrArg _ (Except.ok.inj h)
  | error reason => exact absurd h (by simp [Memo.retold])

/-- Asking for a native file is at most one build, after which the memo holds the file. -/
theorem filePath_acts (ha : v.Admits t a)
    (hneed : v.Suits a ∨ v.Convertible t a.artifact.attributes) (m : Memo) :
    ∃ t', v.Acts (t, m) (t', (m.filePath a).2) ∧
      ∀ file, (m.filePath a).1 = .ok file → (m.filePath a).2.Holds a file := by
  rcases filePath_cases a m with ⟨path, hsource, h⟩ | ⟨producer, outcome, hsource, hbuild, h⟩ |
    ⟨producer, hsource, hbuild, h⟩
  · refine ⟨t, by rw [h], fun file hfile => ?_⟩
    rw [h] at hfile ⊢
    simpa [Memo.Holds, hsource] using hfile
  · refine ⟨t, by rw [h], fun file hfile => ?_⟩
    rw [h] at hfile ⊢
    simpa [Memo.Holds, hsource, hbuild] using retold_eq_ok hfile
  · refine ⟨_, by rw [h]; exact .single (.build ha hsource hneed hbuild), fun file hfile => ?_⟩
    rw [h] at hfile ⊢
    simpa [Memo.Holds, hsource, Memo.built, Memo.build?, Dict.lookup] using retold_eq_ok hfile

/-- What becomes of a request for a transform: it was made before, or it is made. -/
theorem transformed_cases (pipeline : Pipeline) (id : ArtifactId) (file : Path)
    (own requested : Attributes) (m : Memo) :
    (∃ outcome, m.transform? (id, requested) = some outcome ∧
        m.transformed pipeline id file own requested =
          (Memo.retold (.transformFailed id.display requested) outcome,
            m.record (.transformReused id requested))) ∨
      m.transform? (id, requested) = none ∧
        m.transformed pipeline id file own requested =
          (Memo.retold (.transformFailed id.display requested)
              (Memo.kept (pipeline.transform m.calls id file own requested).outcome),
            (m.record (.transformStarted id requested)).afterTransform pipeline id file own
              requested) := by
  unfold Memo.transformed
  cases htransform : m.transform? (id, requested) with
  | some outcome => exact Or.inl ⟨outcome, rfl, rfl⟩
  | none => exact Or.inr ⟨rfl, rfl⟩

/-- Asking for a transform of a native file is at most one transform. -/
theorem transformed_acts (ha : v.Admits t a) (hsuits : ¬ v.Suits a)
    (hconvertible : v.Convertible t a.artifact.attributes) {file : Path} (hfile : m.Holds a file) :
    ∃ t', v.Acts (t, m) (t', (m.transformed v.resolution.pipeline a.artifact.id file
      a.artifact.attributes v.requested).2) := by
  rcases transformed_cases v.resolution.pipeline a.artifact.id file a.artifact.attributes
    v.requested m with ⟨outcome, -, h⟩ | ⟨hnew, h⟩
  · rw [h]
    exact ⟨t, .single (.log _)⟩
  · rw [h]
    exact ⟨_, .tail (.single (.log _)) (.transform ha hsuits hconvertible hfile hnew)⟩

/-- Providing an artifact is a sequence of acts: a build that suits, or a question, a build and a
transform. -/
theorem resolve_acts (ha : v.Admits t a) (m : Memo) :
    ∃ t', v.Acts (t, m) (t', (v.resolve a m).2) ∧
      (¬ v.Suits a → (m.calls, .asked a.artifact.attributes v.requested
        (v.resolution.pipeline.canTransform m.calls a.artifact.attributes v.requested)) ∈ t') := by
  unfold resolve
  dsimp only
  split
  · rename_i hsuits
    obtain ⟨t', hacts, -⟩ := filePath_acts ha (Or.inl hsuits) m
    rcases hfile : m.filePath a with ⟨outcome, m'⟩
    rw [hfile] at hacts
    cases outcome <;> exact ⟨t', hacts, absurd hsuits⟩
  · rename_i hsuits
    have hask : v.Acts (t, m) _ := .single (.ask ha hsuits)
    cases hcan : v.resolution.pipeline.canTransform m.calls a.artifact.attributes v.requested with
    | false =>
      simp only [Memo.canTransform, hcan] at hask ⊢
      exact ⟨_, hask, fun _ => by simp⟩
    | true =>
      simp only [Memo.canTransform, hcan] at hask ⊢
      have hasked : (m.calls, .asked a.artifact.attributes v.requested true) ∈
          t ++ [(m.calls, .asked a.artifact.attributes v.requested true)] := by simp
      have hconvertible : v.Convertible (t ++ [(m.calls, .asked a.artifact.attributes
          v.requested true)]) a.artifact.attributes := ⟨m.calls, hasked, hcan⟩
      obtain ⟨t₁, hbuild, hholds⟩ := filePath_acts (ha.mono hask.subset) (Or.inr hconvertible)
        (m.called (.asked a.artifact.attributes v.requested true) [])
      rcases hfile : (m.called (.asked a.artifact.attributes v.requested true) []).filePath a with
        ⟨outcome, m₁⟩
      rw [hfile] at hbuild hholds
      cases outcome with
      | error fault => exact ⟨t₁, hask.trans hbuild, fun _ => hbuild.subset hasked⟩
      | ok file =>
        dsimp only at hbuild hholds ⊢
        have hconvertible' : v.Convertible t₁ a.artifact.attributes :=
          hconvertible.mono hbuild.subset
        obtain ⟨t₂, htransform⟩ := transformed_acts
          ((ha.mono hask.subset).mono hbuild.subset) hsuits hconvertible' (hholds file rfl)
        refine ⟨t₂, ?_⟩
        split <;> rename_i heq <;> rw [heq] at htransform <;>
          exact ⟨(hask.trans hbuild).trans htransform,
            fun _ => htransform.subset (hbuild.subset hasked)⟩

/-- What an artifact contributes is a sequence of acts. -/
theorem contribution_acts (ha : v.Admits t a) (m : Memo) :
    ∃ t', v.Acts (t, m) (t', (v.contribution a m).2) := by
  obtain ⟨t', hacts, -⟩ := resolve_acts ha m
  refine ⟨t', ?_⟩
  unfold contribution
  split <;> rename_i heq <;> rw [heq] at hacts
  · exact hacts
  · split
    · exact hacts.tail (.log _)
    · exact hacts

/-! ## The acts of a walk -/

/-- Looking for the next item among admitted artifacts is a sequence of acts, which goes on from the
artifacts that are left. -/
theorem drain_acts : ∀ (as : List PlacedArtifact) {t : Trail} (m : Memo),
    (∀ a ∈ as, v.Admits t a) →
    ∃ t', v.Acts (t, m) (t', (v.drain as m).2.2) ∧
      ∀ a ∈ (v.drain as m).2.1, v.Admits t' a
  | [], t, m, _ => ⟨t, .refl, fun _ h => absurd h List.not_mem_nil⟩
  | a :: rest, t, m, ha => by
    obtain ⟨t', hacts⟩ := contribution_acts (ha a List.mem_cons_self) m
    have hrest : ∀ b ∈ rest, v.Admits t' b := fun b hb =>
      (ha b (List.mem_cons_of_mem a hb)).mono hacts.subset
    rw [drain]
    split <;> rename_i heq <;> rw [heq] at hacts
    · obtain ⟨t'', hmore, hleft⟩ := drain_acts rest _ hrest
      exact ⟨t'', hacts.trans hmore, hleft⟩
    · exact ⟨t', hacts, hrest⟩

/-- Judging a component is a sequence of moves; the artifacts to walk are those of an accepted
component, and admitted. -/
theorem admitted_moves {c : PlacedComponent} (hc : c ∈ v.resolution.placed) (t : Trail) (m : Memo) :
    ∃ t' verdict, v.Moves (t, m) (t', (v.admitted c m).2) ∧ v.Judges t t' [c.id] [verdict] ∧
      (v.admitted c m).1 = (if verdict then c.artifacts else []) ∧
      ∀ a ∈ (v.admitted c m).1, v.Admits t' a := by
  unfold admitted accepts Memo.accepts
  cases hfilter : v.filter with
  | none =>
    refine ⟨t, true, .refl, ⟨fun _ _ h => List.mem_singleton.mp h, fun h => absurd hfilter h⟩, rfl,
      fun a ha => ⟨c, hc, ha, fun f hf => absurd (hfilter.symm.trans hf) (by simp)⟩⟩
  | some filter =>
    have hjudge : v.Moves (t, m) _ := .single (.judge hfilter hc)
    have hverdict : v.Judges t (t ++ [(m.calls, .filtered c.id (filter m.calls c.id))]) [c.id]
        [filter m.calls c.id] :=
      ⟨fun h => absurd (hfilter.symm.trans h) (by simp), fun _ => Trail.verdicts_append t _⟩
    cases hyes : filter m.calls c.id with
    | false =>
      rw [hyes] at hjudge hverdict
      simp only [hyes]
      exact ⟨_, false, hjudge.tail (.act (.log _)), hverdict, rfl,
        fun _ h => absurd h List.not_mem_nil⟩
    | true =>
      rw [hyes] at hjudge hverdict
      simp only [hyes]
      refine ⟨_, true, hjudge, hverdict, rfl, fun a ha => ⟨c, hc, ha, fun f hf => ?_⟩⟩
      obtain rfl := Option.some.inj (hfilter.symm.trans hf)
      exact ⟨m.calls, by simp, hyes⟩

/-- Looking for the next item among components is a sequence of moves that leads to a cursor in
place. -/
theorem advance_moves : ∀ (cs : List PlacedComponent) (t : Trail) (m : Memo),
    cs <:+ v.resolution.placed →
    ∃ t', v.Moves (t, m) (t', (v.advance cs m).2) ∧ v.InPlace t' (v.advance cs m).1
  | [], t, m, _ => ⟨t, .refl, fun _ h => absurd h List.not_mem_nil, List.nil_suffix⟩
  | c :: rest, t, m, hcs => by
    have hrest : rest <:+ v.resolution.placed := (List.suffix_cons c rest).trans hcs
    obtain ⟨t₁, -, hjudge, -, -, hadmits⟩ := admitted_moves (hcs.subset List.mem_cons_self) t m
    rw [advance]
    dsimp only
    obtain ⟨t₂, hdrain, hleft⟩ := drain_acts _ (v.admitted c m).2 hadmits
    split <;> rename_i heq <;> rw [heq] at hdrain hleft
    · obtain ⟨t₃, hmore, hplace⟩ := advance_moves rest t₂ _ hrest
      exact ⟨t₃, (hjudge.trans hdrain.moves).trans hmore, hplace⟩
    · exact ⟨t₂, hjudge.trans hdrain.moves, hleft, hrest⟩

/-- A cursor with an item to yield, or at the end. -/
def refill (v : View) (c : Cursor) (m : Memo) : Cursor × Memo :=
  match c.pending with
  | _ :: _ => (c, m)
  | [] =>
    match v.drain c.artifacts m with
    | ([], _, m) => v.advance c.components m
    | (items, artifacts, m) => (⟨items, artifacts, c.components⟩, m)

/-- The next item is the first one of a cursor that was refilled. -/
theorem next_eq (v : View) (c : Cursor) (m : Memo) :
    v.next c m = ((v.refill c m).1.pending.head?,
      { (v.refill c m).1 with pending := (v.refill c m).1.pending.tail }, (v.refill c m).2) := by
  change ((yield (v.refill c m).1).1, (yield (v.refill c m).1).2, (v.refill c m).2) = _
  obtain ⟨⟨pending, artifacts, components⟩, m'⟩ := v.refill c m
  cases pending <;> rfl

/-- **Taking an item is a sequence of moves** that lead from a cursor in place to a cursor in
place. -/
theorem next_moves {c : Cursor} (hc : v.InPlace t c) (m : Memo) :
    ∃ t', v.Moves (t, m) (t', (v.next c m).2.2) ∧ v.InPlace t' (v.next c m).2.1 := by
  have hrefill : ∃ t', v.Moves (t, m) (t', (v.refill c m).2) ∧ v.InPlace t' (v.refill c m).1 := by
    unfold refill
    split
    · exact ⟨t, .refl, hc⟩
    · obtain ⟨t₁, hdrain, hleft⟩ := drain_acts c.artifacts m hc.artifacts
      split <;> rename_i heq <;> rw [heq] at hdrain hleft
      · obtain ⟨t₂, hadvance, hplace⟩ := advance_moves c.components t₁ _ hc.components
        exact ⟨t₂, hdrain.moves.trans hadvance, hplace⟩
      · exact ⟨t₁, hdrain.moves, hleft, hc.components⟩
  obtain ⟨t', hmoves, hplace⟩ := hrefill
  rw [next_eq]
  exact ⟨t', hmoves, hplace.artifacts, hplace.components⟩

theorem inPlace_start (v : View) : v.InPlace [] v.start :=
  ⟨fun _ h => absurd h List.not_mem_nil, List.suffix_rfl⟩

end View

/-! ## Tours keep cursors in place -/

/-- Taking an item of a walk is a sequence of moves, and leaves the walk in place. -/
theorem Walk.next_moves {w : Walk} (hw : w.view.InPlace w.trail w.cursor) (m : Memo) :
    w.view.Moves (w.trail, m) ((w.next m).1.trail, (w.next m).2) ∧
      (w.next m).1.view.InPlace (w.next m).1.trail (w.next m).1.cursor := by
  obtain ⟨t', hmoves, hplace⟩ := View.next_moves hw m
  have htrail : t' = (w.next m).1.trail := View.Moves.trail_eq hmoves
  subst htrail
  exact ⟨hmoves, hplace⟩

/-- **What one thing comes to**: there may be a new view or a new walk, or a walk goes on, or a
filter is asked. -/
theorem Tour.step_cases (r : Resolution) (t : Tour) (a : Tour.Action) :
    ((Tour.step r t a).memo = t.memo ∧
        ∀ w ∈ (Tour.step r t a).walks, w ∈ t.walks ∨ ∃ v ∈ t.views, w = Walk.start v) ∨
      (∃ i w, a = .next i ∧ t.walks[i]? = some w ∧ Tour.step r t a =
        { t with walks := t.walks.set i (w.next t.memo).1, memo := (w.next t.memo).2 }) ∨
      ∃ v ∈ t.views, ∃ component,
        Tour.step r t a = { t with memo := (v.accepts component t.memo).2 } := by
  have hsame : t.memo = t.memo ∧ ∀ w ∈ t.walks, w ∈ t.walks ∨ ∃ v ∈ t.views, w = Walk.start v :=
    ⟨rfl, fun w hw => Or.inl hw⟩
  cases a with
  | view request => exact Or.inl hsame
  | walk view =>
    unfold Tour.step
    dsimp only
    split
    · rename_i v hv
      refine Or.inl ⟨rfl, fun w hw => ?_⟩
      rcases List.mem_append.mp hw with hw | hw
      · exact Or.inl hw
      · exact Or.inr ⟨v, List.mem_of_getElem? hv, List.mem_singleton.mp hw⟩
    · exact Or.inl hsame
  | next walk =>
    unfold Tour.step
    dsimp only
    split
    · rename_i w hw
      exact Or.inr (Or.inl ⟨walk, w, rfl, hw, rfl⟩)
    · exact Or.inl hsame
  | accepts view component =>
    unfold Tour.step
    dsimp only
    split
    · rename_i v hv
      exact Or.inr (Or.inr ⟨v, List.mem_of_getElem? hv, component, rfl⟩)
    · exact Or.inl hsame
  | requested view => exact Or.inl hsame

theorem Tour.views_step {r : Resolution} {t : Tour} {a : Tour.Action} {v : View}
    (h : v ∈ (Tour.step r t a).views) : v ∈ t.views ∨ ∃ request, v = r.view request := by
  cases a with
  | view request =>
    rcases List.mem_append.mp h with h | h
    · exact Or.inl h
    · exact Or.inr ⟨request, List.mem_singleton.mp h⟩
  | requested view => exact Or.inl h
  | _ =>
    unfold Tour.step at h
    dsimp only at h
    split at h <;> exact Or.inl h

/-- Every view is one that the resolution was asked for, and every walk is in place in such a
view. -/
structure Tour.InPlace (r : Resolution) (t : Tour) : Prop where
  views : ∀ v ∈ t.views, ∃ request, v = r.view request
  walks : ∀ w ∈ t.walks,
    (∃ request, w.view = r.view request) ∧ w.view.InPlace w.trail w.cursor

theorem Tour.InPlace.resolution_eq {r : Resolution} {t : Tour} (h : t.InPlace r) {w : Walk}
    (hw : w ∈ t.walks) : w.view.resolution = r := by
  obtain ⟨request, hview⟩ := (h.walks w hw).1
  rw [hview]
  rfl

theorem Tour.InPlace.step {r : Resolution} {t : Tour} (h : t.InPlace r) (a : Tour.Action) :
    (Tour.step r t a).InPlace r where
  views := fun v hv => (Tour.views_step hv).elim (h.views v) id
  walks := by
    rcases Tour.step_cases r t a with ⟨-, hwalks⟩ | ⟨i, w, -, hw, hstep⟩ | ⟨v, hv, component, hstep⟩
    · intro w hw
      rcases hwalks w hw with hw | ⟨v, hv, rfl⟩
      · exact h.walks w hw
      · exact ⟨h.views v hv, View.inPlace_start v⟩
    · rw [hstep]
      intro w' hw'
      obtain ⟨hview, hplace⟩ := h.walks w (List.mem_of_getElem? hw)
      rcases List.mem_or_eq_of_mem_set hw' with hw' | rfl
      · exact h.walks w' hw'
      · exact ⟨hview, (Walk.next_moves hplace t.memo).2⟩
    · rw [hstep]
      exact h.walks

/-- What holds at first and is kept by each thing the user does holds of every tour. -/
theorem Resolution.tour_induction {r : Resolution} {P : Tour → Prop} (hstart : P {})
    (hstep : ∀ t a, P t → P (Tour.step r t a)) (actions : List Tour.Action) :
    P (r.tour actions) := by
  unfold Resolution.tour
  generalize ({} : Tour) = t at hstart
  induction actions generalizing t with
  | nil => exact hstart
  | cons a rest ih => exact ih (Tour.step r t a) (hstep t a hstart)

theorem Tour.inPlace_start (r : Resolution) : Tour.InPlace r {} :=
  ⟨fun _ h => absurd h List.not_mem_nil, fun _ h => absurd h List.not_mem_nil⟩

/-- **In every tour, every cursor is in place.** -/
theorem Resolution.inPlace_tour (r : Resolution) (actions : List Tour.Action) :
    (r.tour actions).InPlace r :=
  tour_induction (Tour.inPlace_start r) (fun _ a h => h.step a) actions

end Componentry
