import Mathlib.Data.List.Nodup
import Componentry.Proofs.Artifact.Itinerary

/-!
# Work is done once, and told ever after

What a view is told of an artifact is what the memo has of it. `Memo.told?` reads it off the memo,
without asking anybody: the outcome of the build at the artifact's place, and the outcome of the
transform under its identity and the requested attributes. Which view asks does not matter, nor
whether it is lenient. Whether it comes to a transform is for the pipeline to say, which is asked
every time.

Results:
* `resolve_told?`: providing an artifact leaves a memo that has what was provided, and
  `told?_stays`: so has every later memo.
* `recalled_tour`: in every tour, each stop of a walk was given what the memo of the tour tells.
* **`work_once`**: each artifact is built at most once and transformed at most once for each
  request; what came of it stays in the memo, and is what every stop of every walk was given.
-/

namespace Componentry

/-- The native file of an artifact as the memo has it, if it does. -/
def Memo.native? (m : Memo) (a : PlacedArtifact) : Option (Except Fault Path) :=
  match a.artifact.source with
  | .file path => some (.ok path)
  | .built _ => (m.build? a.place).map (Memo.retold (.buildFailed a.artifact.id.display))

/-- The files of an artifact as the memo has them for whoever requests `requested`, if it does;
`can` is what the pipeline said of the artifact's attributes. -/
def Memo.told? (m : Memo) (requested : Attributes) (a : PlacedArtifact) (can : Bool) :
    Option (Except Fault (List ResolvedFile)) :=
  let id := a.artifact.id
  let own := a.artifact.attributes
  if own.isCompatibleWith requested then
    (m.native? a).map (Except.map fun file => [⟨id, file, own⟩])
  else if can then
    match m.native? a with
    | none => none
    | some (.error fault) => some (.error fault)
    | some (.ok _) =>
      (m.transform? (id, requested)).map fun outcome =>
        (Memo.retold (.transformFailed id.display requested) outcome).map
          fun files => files.map (View.transformedFile id (own.merge requested))
  else some (.error (.failure (.noMatchingVariant id.component.display id.name requested)))

/-- **A stop was given what the memo tells of its artifact**, the pipeline having said on the trail
whether it can transform it if it does not suit. -/
def View.Recalls (v : View) (t : Trail) (m : Memo) (s : Stop) : Prop :=
  ∃ can told, m.told? v.requested s.artifact can = some told ∧
    (v.resolve s.artifact s.memo).1 = told ∧ v.itemsAt s = v.itemsOf told ∧
    (¬ v.Suits s.artifact →
      (s.memo.calls, .asked s.artifact.artifact.attributes v.requested can) ∈ t)

namespace Memo

variable {m m' : Memo} {a : PlacedArtifact}

theorem Stays.native? (h : m.Stays m') {told : Except Fault Path}
    (hm : m.native? a = some told) : m'.native? a = some told := by
  unfold Memo.native? at hm ⊢
  split
  · rename_i path hsource
    rwa [hsource] at hm
  · rename_i producer hsource
    rw [hsource] at hm
    obtain ⟨outcome, hkept, rfl⟩ := Option.map_eq_some_iff.mp hm
    rw [h.builds hkept]
    rfl

/-- Asking for a native file leaves it in the memo. -/
theorem filePath_native? (a : PlacedArtifact) (m : Memo) :
    (m.filePath a).2.native? a = some (m.filePath a).1 := by
  unfold Memo.native?
  rcases View.filePath_cases a m with ⟨path, hsource, h⟩ | ⟨producer, outcome, hsource, hkept, h⟩ |
    ⟨producer, hsource, -, h⟩
  · rw [h, hsource]
  · rw [h, hsource]
    simp [hkept]
  · rw [h, hsource]
    simp [built, build?, Dict.lookup]

/-- Asking for a transform leaves its outcome in the memo, and touches no build. -/
theorem transformed_recall (pipeline : Pipeline) (id : ArtifactId) (file : Path)
    (own requested : Attributes) (m : Memo) :
    (m.transformed pipeline id file own requested).2.builds = m.builds ∧
      ∃ outcome,
        (m.transformed pipeline id file own requested).2.transform? (id, requested) = some outcome ∧
        (m.transformed pipeline id file own requested).1 =
          retold (.transformFailed id.display requested) outcome := by
  rcases View.transformed_cases pipeline id file own requested m with ⟨outcome, hkept, h⟩ | ⟨-, h⟩
  · rw [h]
    exact ⟨rfl, outcome, hkept, rfl⟩
  · rw [h]
    exact ⟨rfl, _, if_pos rfl, rfl⟩

theorem told?_stays (h : m.Stays m') {requested : Attributes} {can : Bool}
    {told : Except Fault (List ResolvedFile)} (hm : m.told? requested a can = some told) :
    m'.told? requested a can = some told := by
  unfold told? at hm ⊢
  dsimp only at hm ⊢
  split at hm
  · rename_i hsuits
    obtain ⟨native, hnative, rfl⟩ := Option.map_eq_some_iff.mp hm
    rw [if_pos hsuits, h.native? hnative]
    rfl
  · rename_i hsuits
    rw [if_neg hsuits]
    split at hm
    · rename_i hcan
      rw [if_pos hcan]
      split at hm
      · exact absurd hm (by simp)
      · rename_i fault hnative
        rw [h.native? hnative]
        exact hm
      · rename_i file hnative
        obtain ⟨outcome, hkept, rfl⟩ := Option.map_eq_some_iff.mp hm
        rw [h.native? hnative, h.transforms hkept]
        rfl
    · rename_i hcan
      rw [if_neg hcan]
      exact hm

end Memo

namespace View

variable {v : View} {t t' : Trail} {m m' : Memo} {a : PlacedArtifact} {p : Stop}

/-! ## Providing an artifact -/

/-- What is told of an artifact that is transformed is what the transform came to. -/
theorem told?_of_transform (hsuits : ¬ v.Suits a) {file : Path}
    (hnative : m.native? a = some (.ok file)) {outcome : Except String (List Path)}
    (hkept : m.transform? (a.artifact.id, v.requested) = some outcome) :
    m.told? v.requested a true =
      some ((Memo.retold (.transformFailed a.artifact.id.display v.requested) outcome).map
        fun files => files.map
          (transformedFile a.artifact.id (a.artifact.attributes.merge v.requested))) := by
  unfold Suits at hsuits
  unfold Memo.told?
  dsimp only
  rw [if_neg hsuits, if_pos rfl, hnative]
  dsimp only
  rw [hkept, Option.map_some]

/-- **What is provided of an artifact is what the memo has afterwards.** -/
theorem resolve_told? (v : View) (a : PlacedArtifact) (m : Memo) :
    (v.resolve a m).2.told? v.requested a (v.resolution.pipeline.canTransform m.calls
      a.artifact.attributes v.requested) = some (v.resolve a m).1 := by
  unfold resolve
  dsimp only
  split
  · rename_i hsuits
    have hnative := Memo.filePath_native? a m
    rcases hfile : m.filePath a with ⟨native, m'⟩
    rw [hfile] at hnative
    cases native <;> simp_all [Memo.told?, Except.map]
  · rename_i hsuits
    cases hcan : v.resolution.pipeline.canTransform m.calls a.artifact.attributes v.requested with
    | false => simp [Memo.told?, Memo.canTransform, hcan, hsuits]
    | true =>
      simp only [Memo.canTransform, hcan]
      have hnative := Memo.filePath_native? a
        (m.called (.asked a.artifact.attributes v.requested true) [])
      rcases hfile : (m.called (.asked a.artifact.attributes v.requested true) []).filePath a with
        ⟨native, m₁⟩
      rw [hfile] at hnative
      cases native with
      | error fault =>
        dsimp only at hnative ⊢
        simp [Memo.told?, hsuits, hnative]
      | ok file =>
        dsimp only at hnative ⊢
        obtain ⟨hbuilds, outcome, hkept, houtcome⟩ := Memo.transformed_recall
          v.resolution.pipeline a.artifact.id file a.artifact.attributes v.requested m₁
        rcases hfiles : m₁.transformed v.resolution.pipeline a.artifact.id file
          a.artifact.attributes v.requested with ⟨files, m₂⟩
        rw [hfiles] at hbuilds hkept houtcome
        have hnative₂ : m₂.native? a = some (.ok file) := by
          rw [← hnative, Memo.native?, Memo.native?, Memo.build?, Memo.build?, hbuilds]
        dsimp only at hkept houtcome
        have htold := told?_of_transform hsuits hnative₂ hkept
        rw [← houtcome] at htold
        cases files with
        | error fault => exact htold
        | ok files => exact htold

/-- A lenient view that leaves an artifact out logs that, and does nothing else. -/
theorem contribution_log (v : View) (t : Trail) (a : PlacedArtifact) (m : Memo) :
    v.Acts (t, (v.resolve a m).2) (t, (v.contribution a m).2) := by
  unfold contribution
  split <;> rename_i heq <;> rw [heq]
  split
  · exact .single (.log _)
  · exact .refl

theorem Recalls.stays (h : v.Recalls t m p) (hstays : m.Stays m') : v.Recalls t m' p := by
  obtain ⟨can, told, htold, hgiven, hitems, hasked⟩ := h
  exact ⟨can, told, Memo.told?_stays hstays htold, hgiven, hitems, hasked⟩

theorem Recalls.mono (h : v.Recalls t m p) (ht : t ⊆ t') : v.Recalls t' m p := by
  obtain ⟨can, told, htold, hgiven, hitems, hasked⟩ := h
  exact ⟨can, told, htold, hgiven, hitems, fun hsuits => ht (hasked hsuits)⟩

/-- **What a stop was given is what every later memo of its walk tells.** -/
theorem LeadsTo.recalls (h : v.LeadsTo p (t, m)) : v.Recalls t m p := by
  obtain ⟨t₀, ha, hmoves⟩ := h
  obtain ⟨t₁, hacts, hasked⟩ := resolve_acts ha p.memo
  have hlog := v.contribution_log t₁ p.artifact p.memo
  obtain rfl : t₁ = t₀ ++ v.trailAt p := Moves.trail_eq (Acts.moves (hacts.trans hlog))
  have hstays := (Moves.stays hlog.moves).trans (Moves.stays hmoves)
  exact ⟨_, _, Memo.told?_stays hstays (v.resolve_told? p.artifact p.memo), rfl,
    v.contribution_fst p.artifact p.memo, fun hsuits => hmoves.subset (hasked hsuits)⟩

end View

/-! ## Tours -/

/-- A walk follows an itinerary, and each of its stops was given what a memo tells. -/
def Walk.Recalled (w : Walk) (m : Memo) : Prop :=
  ∃ memos i, w = w.view.walked memos ∧ w.Follows memos i ∧ ∀ p ∈ i.stops, w.view.Recalls w.trail m p

theorem Walk.Recalled.stays {w : Walk} {m m' : Memo} (h : w.Recalled m) (hstays : m.Stays m') :
    w.Recalled m' := by
  obtain ⟨memos, i, hwalked, hfollows, hrecalls⟩ := h
  exact ⟨memos, i, hwalked, hfollows, fun p hp => (hrecalls p hp).stays hstays⟩

/-- Taking an item, a walk is given at its new stops what the memo tells then. -/
theorem Walk.Recalled.next {w : Walk} {m : Memo} (hw : w.view.InPlace w.trail w.cursor)
    (h : w.Recalled m) : (w.next m).1.Recalled (w.next m).2 := by
  obtain ⟨memos, i, hwalked, hfollows, hrecalls⟩ := h
  obtain ⟨i', hfollows', hnew⟩ := hfollows.next m
  have hmoves := (Walk.next_moves hw m).1
  refine ⟨memos ++ [m], i', ?_, hfollows', fun p hp => ?_⟩
  · exact (congrArg (fun w : Walk => (w.next m).1) hwalked).trans
      (w.view.walked_concat memos m).symm
  · rcases hnew p hp with hp | hp
    · exact ((hrecalls p hp).stays (View.Moves.stays hmoves)).mono hmoves.subset
    · exact hp.recalls

/-- **In every tour, each stop of a walk was given what the memo tells.** -/
theorem Resolution.recalled_tour (r : Resolution) (actions : List Tour.Action) :
    ∀ w ∈ (r.tour actions).walks, w.Recalled (r.tour actions).memo := by
  refine honest_induction (P := fun t => ∀ w ∈ t.walks, w.Recalled t.memo)
    (fun _ h => absurd h List.not_mem_nil) (fun t a ht _ h => ?_) actions
  have hstays := Memo.Stays.step ht a
  rcases Tour.step_cases r t a with ⟨-, hwalks⟩ | ⟨i, w, -, hw, hstep⟩ | ⟨v, -, component, hstep⟩
  · intro w hw
    rcases hwalks w hw with hw | ⟨v, -, rfl⟩
    · exact (h w hw).stays hstays
    · exact ⟨[], {}, rfl, Walk.follows_start v, fun _ hp => absurd hp List.not_mem_nil⟩
  · rw [hstep] at hstays ⊢
    intro w' hw'
    have hmem := List.mem_of_getElem? hw
    rcases List.mem_or_eq_of_mem_set hw' with hw' | rfl
    · exact (h w' hw').stays hstays
    · exact (h w hmem).next (ht.walks w hmem).2
  · rw [hstep] at hstays ⊢
    exact fun w hw => (h w hw).stays hstays

/-! ## Work is done once -/

/-- A call was made to the producer of an artifact, and the memo has what it answered. -/
def Resolution.CalledFor (r : Resolution) (m : Memo) (a : PlacedArtifact) (c : BuildCall) : Prop :=
  r.Has a ∧ a.artifact.id = c.id ∧ ∃ producer, a.artifact.source = .built producer ∧
    m.build? a.place = some (Memo.kept (producer c.before c.id).outcome)

/-- An entry of a ledger is that of an artifact whose producer was called. -/
theorem Memo.Ledger.calledFor {r : Resolution} {m : Memo} (h : m.Ledger r)
    {entry : Place × Except String Path} {c : BuildCall} (henters : r.Enters entry c)
    (hentry : entry ∈ m.builds) : ∃ a, a.place = entry.1 ∧ r.CalledFor m a c := by
  obtain ⟨a, producer, ha, hsource, hplace, hid, houtcome⟩ := henters
  have hkept : m.build? a.place = some entry.2 := by
    rw [hplace]
    exact Dict.lookup_of_nodup h.places hentry
  exact ⟨a, hplace, ha, hid, producer, hsource, houtcome ▸ hkept⟩

/-- The artifacts of a ledger's calls to producers are all different. -/
theorem Memo.Ledger.exists_built {r : Resolution} {m : Memo} (h : m.Ledger r) :
    ∃ built : List PlacedArtifact, (built.map (·.place)).Nodup ∧
      List.Forall₂ (r.CalledFor m) built m.trail.builds := by
  have hall : ∀ {entries : List (Place × Except String Path)} {calls : List BuildCall},
      List.Forall₂ r.Enters entries calls → entries ⊆ m.builds →
      ∃ built : List PlacedArtifact, built.map (·.place) = entries.map Prod.fst ∧
        List.Forall₂ (r.CalledFor m) built calls := by
    intro entries calls hentries hsubset
    induction hentries with
    | nil => exact ⟨[], rfl, .nil⟩
    | cons henters _ ih =>
      obtain ⟨hentry, hrest⟩ := List.cons_subset.mp hsubset
      obtain ⟨a, hplace, hcalled⟩ := h.calledFor henters hentry
      obtain ⟨built, hplaces, hmore⟩ := ih hrest
      exact ⟨a :: built, by rw [List.map_cons, List.map_cons, hplaces, hplace], .cons hcalled hmore⟩
  have hreverse : List.Forall₂ r.Enters m.builds.reverse m.trail.builds :=
    List.forall₂_reverse_iff.mp (by rw [List.reverse_reverse]; exact h.builds)
  obtain ⟨built, hplaces, hcalled⟩ := hall hreverse fun _ => List.mem_reverse.mp
  refine ⟨built, ?_, hcalled⟩
  rw [hplaces, List.map_reverse]
  exact List.nodup_reverse.mpr h.places

/-- **Work is done once.** Whatever the user of a resolution does: the calls to producers are one
each for artifacts at different places; the calls for transforms are one each for different keys,
and as many as there are outcomes kept; the memo has what they answered, be it a success or a
failure, and has it still whatever is done next. Every use of that is given the outcome that is
kept: each walk, of whatever view, follows its artifacts in order, and at each of them it was given
what the memo tells of this artifact, the files or the failure. -/
theorem Resolution.work_once (r : Resolution) (actions : List Tour.Action) :
    (∃ built : List PlacedArtifact, (built.map (·.place)).Nodup ∧
        List.Forall₂ (r.CalledFor (r.tour actions).memo) built (r.tour actions).memo.trail.builds) ∧
      ((r.tour actions).memo.trail.transforms.map TransformCall.key).Nodup ∧
      (∀ c ∈ (r.tour actions).memo.trail.transforms,
        (r.tour actions).memo.transform? c.key = some (c.outcome r.pipeline)) ∧
      (r.tour actions).memo.transforms.length = (r.tour actions).memo.trail.transforms.length ∧
      (∀ more, (r.tour actions).memo.Stays (r.tour (actions ++ more)).memo) ∧
      ∀ w ∈ (r.tour actions).walks, ∃ memos i, w = w.view.walked memos ∧ w.Follows memos i ∧
        ∀ p ∈ i.stops, w.view.Recalls w.trail (r.tour actions).memo p := by
  have hledger := r.ledger_tour actions
  have hkeys := hledger.keys
  rw [hledger.transforms, List.map_map, List.map_reverse, List.nodup_reverse] at hkeys
  refine ⟨hledger.exists_built, hkeys, fun _ => hledger.transform?, ?_, r.stays_tour actions,
    r.recalled_tour actions⟩
  rw [hledger.transforms, List.length_map, List.length_reverse]

end Componentry
