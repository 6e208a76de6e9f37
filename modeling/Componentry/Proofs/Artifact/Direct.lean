import Componentry.Proofs.Artifact.Provenance

/-!
# Providing artifacts with and without a memo

An artifact is provided without a memo (`View.direct`) by calling its own producer and transforming
its own native file. The memo keeps transforms under the identity of the artifact and the requested
attributes. An identity is a component and a name, and nothing keeps a component from publishing two
artifacts under one name: then the first one that is transformed answers for both.

`Resolution.Unambiguous` says that this makes no difference: artifacts with one identity come to the
same outcome whenever both are transformed. The collaborators are taken to be `Steady`: they answer
by their arguments alone. Filters may answer by anything.

Results:
* `resolve_fst`: what a view provides depends on the memo by the outcome kept for the identity, and
  on nothing else.
* `outcome?_of_kept`: what is kept for an identity is the outcome of some artifact that has it.
* **`contribution_eq_direct`**: so in an unambiguous resolution every artifact contributes what it
  does without a memo.
* `eq_of_itemsOf_provide`: where another outcome in place of an artifact's own one does not show,
  the two agree.
-/

namespace Componentry

/-! ## Steady collaborators -/

/-- Producers and pipeline answer by their arguments alone. -/
structure Resolution.Steady (r : Resolution) : Prop where
  producers : ∀ a producer, r.Has a → a.artifact.source = .built producer →
    ∀ h, (producer h a.artifact.id).outcome = (producer [] a.artifact.id).outcome
  canTransform : ∀ h own requested,
    r.pipeline.canTransform h own requested = r.pipeline.canTransform [] own requested
  transform : ∀ h id file own requested,
    (r.pipeline.transform h id file own requested).outcome =
      (r.pipeline.transform [] id file own requested).outcome

/-! ## Providing artifacts without a memo -/

/-- The native file of an artifact, built on the spot. -/
def Artifact.native (a : Artifact) : Except Fault Path :=
  match a.source with
  | .file path => .ok path
  | .built producer =>
    Memo.retold (.buildFailed a.id.display) (Memo.kept (producer [] a.id).outcome)

namespace View

/-- What a file of an artifact is transformed into, on the spot. -/
def transform (v : View) (a : Artifact) (file : Path) : Except String (List Path) :=
  Memo.kept (v.resolution.pipeline.transform [] a.id file a.attributes v.requested).outcome

/-- The outcome of the transform of an artifact, if it comes to a transform at all: its form does
not suit, the pipeline can transform it, and it has a native file. -/
def outcome? (v : View) (a : Artifact) : Option (Except String (List Path)) :=
  if a.attributes.isCompatibleWith v.requested then none
  else if v.resolution.pipeline.canTransform [] a.attributes v.requested then
    match a.native with
    | .ok file => some (v.transform a file)
    | .error _ => none
  else none

/-- The files of an artifact, where `kept` takes the place of the outcome of its transform. -/
def provide (v : View) (a : Artifact) (kept : Option (Except String (List Path))) :
    Except Fault (List ResolvedFile) :=
  if a.attributes.isCompatibleWith v.requested then
    a.native.map fun file => [⟨a.id, file, a.attributes⟩]
  else if v.resolution.pipeline.canTransform [] a.attributes v.requested then
    a.native.bind fun file =>
      (Memo.retold (.transformFailed a.id.display v.requested)
        (kept.getD (v.transform a file))).map
        fun files => files.map (transformedFile a.id (a.attributes.merge v.requested))
  else .error (.failure (.noMatchingVariant a.id.component.display a.id.name v.requested))

/-- The items that come of the files of an artifact. -/
def itemsOf (v : View) : Except Fault (List ResolvedFile) → List Item
  | .ok files => files.map .ok
  | .error fault => if v.lenient then [] else [.error fault]

/-- **What an artifact contributes without a memo**: its own native file, or what that is
transformed into. -/
def direct (v : View) (a : Artifact) : List Item := v.itemsOf (v.provide a none)

end View

/-- Artifacts with one identity have the same outcome wherever both are transformed. -/
def Resolution.Unambiguous (r : Resolution) : Prop :=
  ∀ request a b x y, r.Has a → r.Has b → a.artifact.id = b.artifact.id →
    (r.view request).outcome? a.artifact = some x →
    (r.view request).outcome? b.artifact = some y → x = y

namespace View

variable {v : View} {r : Resolution} {m : Memo} {a : PlacedArtifact}

/-! ## What the memo decides -/

/-- The native file that was obtained is the one that is built on the spot. -/
theorem native_of_obtained (hr : r.Steady) (ha : r.Has a) {calls : History} {file : Path}
    (h : a.Obtained calls file) : a.artifact.native = .ok file := by
  unfold PlacedArtifact.Obtained at h
  unfold Artifact.native
  cases hsource : a.artifact.source with
  | file path =>
    rw [hsource] at h
    exact congrArg _ h
  | built producer =>
    rw [hsource] at h
    obtain ⟨history, -, hok⟩ := h
    dsimp only
    rw [← hr.producers a producer ha hsource history, hok]
    rfl

/-- An honest memo gives the native file that is built on the spot. -/
theorem filePath_fst (hr : r.Steady) (hm : m.Honest r) (ha : r.Has a) :
    (m.filePath a).1 = a.artifact.native := by
  unfold Artifact.native
  rcases filePath_cases a m with ⟨path, hsource, h⟩ | ⟨producer, outcome, hsource, hbuild, h⟩ |
    ⟨producer, hsource, -, h⟩
  · rw [h, hsource]
  · obtain ⟨history, -, houtcome⟩ := hm.builds a producer outcome ha hsource hbuild
    rw [h, hsource, houtcome, hr.producers a producer ha hsource]
  · rw [h, hsource, hr.producers a producer ha hsource]

/-- Builds do not touch transforms. -/
theorem filePath_transform? (a : PlacedArtifact) (m : Memo) (key : TransformKey) :
    (m.filePath a).2.transform? key = m.transform? key := by
  rcases filePath_cases a m with ⟨path, -, h⟩ | ⟨producer, outcome, -, -, h⟩ | ⟨producer, -, -, h⟩
  · rw [h]
  · rw [h]
  · rw [h]
    rfl

theorem transformed_fst (hr : r.Steady) (id : ArtifactId) (file : Path)
    (own requested : Attributes) (m : Memo) :
    (m.transformed r.pipeline id file own requested).1 =
      Memo.retold (.transformFailed id.display requested)
        ((m.transform? (id, requested)).getD
          (Memo.kept (r.pipeline.transform [] id file own requested).outcome)) := by
  rcases transformed_cases r.pipeline id file own requested m with ⟨outcome, hkept, h⟩ | ⟨hnew, h⟩
  · rw [h, hkept]
    rfl
  · rw [h, hnew, hr.transform]
    rfl

/-- **What a view provides** depends on the memo by the outcome that is kept for the identity of the
artifact, and on nothing else. -/
theorem resolve_fst (hr : v.resolution.Steady) (hm : m.Honest v.resolution)
    (ha : v.resolution.Has a) :
    (v.resolve a m).1 =
      v.provide a.artifact (m.transform? (a.artifact.id, v.requested)) := by
  unfold resolve provide
  dsimp only
  split
  · have hfst := filePath_fst hr hm ha
    rcases hfile : m.filePath a with ⟨outcome, m'⟩
    rw [hfile] at hfst
    rw [← hfst]
    cases outcome <;> rfl
  · cases hcan : v.resolution.pipeline.canTransform [] a.artifact.attributes v.requested with
    | false =>
      simp only [Memo.canTransform, hr.canTransform m.calls, hcan]
      rfl
    | true =>
      simp only [Memo.canTransform, hr.canTransform m.calls, hcan, if_true]
      have hasked : (m.called (.asked a.artifact.attributes v.requested true) []).Honest
          v.resolution := hm.more (List.prefix_append _ _) rfl rfl
      have hfst := filePath_fst hr hasked ha
      have hkept := filePath_transform? a
        (m.called (.asked a.artifact.attributes v.requested true) [])
        (a.artifact.id, v.requested)
      rcases hfile : (m.called (.asked a.artifact.attributes v.requested true) []).filePath a with
        ⟨outcome, m'⟩
      rw [hfile] at hfst hkept
      rw [← hfst]
      cases outcome with
      | error fault => rfl
      | ok file =>
        have htransformed := transformed_fst hr a.artifact.id file a.artifact.attributes
          v.requested m'
        dsimp only at hkept ⊢
        rw [hkept] at htransformed
        rcases hfiles : m'.transformed v.resolution.pipeline a.artifact.id file
          a.artifact.attributes v.requested with ⟨outcome, m''⟩
        rw [hfiles] at htransformed
        refine Eq.trans ?_ (congrArg (Except.map fun files => files.map
          (transformedFile a.artifact.id (a.artifact.attributes.merge v.requested))) htransformed)
        cases outcome <;> rfl

theorem contribution_fst (v : View) (a : PlacedArtifact) (m : Memo) :
    (v.contribution a m).1 = v.itemsOf (v.resolve a m).1 := by
  unfold contribution itemsOf
  rcases v.resolve a m with ⟨outcome, m'⟩
  cases outcome with
  | ok files => rfl
  | error fault =>
    dsimp only
    split <;> rfl

theorem outcome?_eq_some (v : View) {a : Artifact} {file : Path}
    (hsuits : a.attributes.isCompatibleWith v.requested = false)
    (hcan : v.resolution.pipeline.canTransform [] a.attributes v.requested = true)
    (hnative : a.native = .ok file) : v.outcome? a = some (v.transform a file) := by
  unfold outcome?
  rw [hsuits, if_neg (by simp), if_pos hcan, hnative]

/-- **What an honest memo keeps under an identity** is the outcome of some artifact that has it. -/
theorem outcome?_of_kept (hr : v.resolution.Steady) (hm : m.Honest v.resolution) {id : ArtifactId}
    {outcome : Except String (List Path)} (h : m.transform? (id, v.requested) = some outcome) :
    ∃ a, v.resolution.Has a ∧ a.artifact.id = id ∧ v.outcome? a.artifact = some outcome := by
  obtain ⟨a, history, file, ha, rfl, hsuits, ⟨history', hcan⟩, hfile, -, houtcome⟩ :=
    hm.transforms id v.requested outcome h
  rw [hr.canTransform] at hcan
  refine ⟨a, ha, rfl, ?_⟩
  rw [outcome?_eq_some v hsuits hcan (native_of_obtained hr ha hfile), houtcome, hr.transform]
  rfl

/-- An outcome in place of the artifact's own one makes no difference if they agree. -/
theorem provide_some (v : View) {a : Artifact} {outcome : Except String (List Path)}
    (h : ∀ own, v.outcome? a = some own → own = outcome) :
    v.provide a (some outcome) = v.provide a none := by
  unfold provide
  split
  · rfl
  · rename_i hsuits
    split
    · rename_i hcan
      cases hnative : a.native with
      | error fault => rfl
      | ok file =>
        have heq := h _ (outcome?_eq_some v (Bool.eq_false_iff.mpr hsuits) hcan hnative)
        simp only [Except.bind, Option.getD_some, Option.getD_none, heq]
    · rfl

/-- **In an unambiguous resolution the memo is transparent**: an artifact contributes what it does
without a memo. -/
theorem contribution_eq_direct {request : ViewRequest} (hr : r.Steady) (hu : r.Unambiguous)
    (hm : m.Honest r) (ha : r.Has a) :
    ((r.view request).contribution a m).1 = (r.view request).direct a.artifact := by
  rw [contribution_fst, resolve_fst hr hm ha, direct]
  cases hkept : m.transform? (a.artifact.id, (r.view request).requested) with
  | none => rfl
  | some outcome =>
    obtain ⟨b, hb, hid, houtcome⟩ := outcome?_of_kept (v := r.view request) hr hm hkept
    rw [provide_some]
    intro own hown
    exact hu request a b own outcome ha hb hid.symm hown houtcome

/-! ## What a transparent memo says -/

theorem outcome?_cases {a : Artifact} {own : Except String (List Path)}
    (h : v.outcome? a = some own) :
    ∃ file, a.attributes.isCompatibleWith v.requested = false ∧
      v.resolution.pipeline.canTransform [] a.attributes v.requested = true ∧
      a.native = .ok file ∧ own = v.transform a file := by
  unfold outcome? at h
  split at h
  · exact absurd h (by simp)
  · rename_i hsuits
    split at h
    · rename_i hcan
      split at h
      · rename_i file hnative
        exact ⟨file, Bool.eq_false_iff.mpr hsuits, hcan, hnative, (Option.some.inj h).symm⟩
      · exact absurd h (by simp)
    · exact absurd h (by simp)

/-- The files of an artifact that it comes to a transform for. -/
theorem provide_of_outcome? {a : Artifact} {own : Except String (List Path)}
    (h : v.outcome? a = some own) (kept : Option (Except String (List Path))) :
    v.provide a kept =
      (Memo.retold (.transformFailed a.id.display v.requested) (kept.getD own)).map
        fun files => files.map (transformedFile a.id (a.attributes.merge v.requested)) := by
  obtain ⟨file, hsuits, hcan, hnative, rfl⟩ := outcome?_cases h
  unfold provide
  rw [hsuits, if_neg (by simp), if_pos hcan, hnative]
  rfl

/-- A view that is not lenient shows what became of a transform. -/
theorem itemsOf_injective (hlenient : v.lenient = false) {id : ArtifactId}
    {attributes : Attributes} {told : String → Failure}
    (htold : ∀ x y, told x = told y → x = y) {own outcome : Except String (List Path)}
    (h : v.itemsOf ((Memo.retold told own).map fun files =>
        files.map (transformedFile id attributes)) =
      v.itemsOf ((Memo.retold told outcome).map fun files =>
        files.map (transformedFile id attributes))) : own = outcome := by
  have hfile : ∀ x y, transformedFile id attributes x = transformedFile id attributes y → x = y :=
    fun x y hxy => congrArg ResolvedFile.file hxy
  have hok : ∀ x y, (.ok x : Item) = .ok y → x = y := fun _ _ => Except.ok.inj
  cases own with
  | ok files =>
    cases outcome with
    | ok files' =>
      exact congrArg _ ((List.map_inj_right hfile).mp ((List.map_inj_right hok).mp h))
    | error reason =>
      simp only [Memo.retold, Except.map, itemsOf, hlenient] at h
      cases files <;> simp at h
  | error reason =>
    cases outcome with
    | ok files =>
      simp only [Memo.retold, Except.map, itemsOf, hlenient] at h
      cases files <;> simp at h
    | error reason' =>
      simp only [Memo.retold, Except.map, itemsOf, hlenient] at h
      have hreason : told reason = told reason' := by simpa using h
      exact congrArg _ (htold _ _ hreason)

/-- Where an outcome in place of the artifact's own one makes no difference, they agree. -/
theorem eq_of_itemsOf_provide (hlenient : v.lenient = false) {a : Artifact}
    {own outcome : Except String (List Path)} (hown : v.outcome? a = some own)
    (h : v.itemsOf (v.provide a (some outcome)) = v.direct a) : own = outcome := by
  rw [direct, provide_of_outcome? hown, provide_of_outcome? hown] at h
  refine (itemsOf_injective hlenient (fun x y hxy => ?_) h).symm
  injection hxy

end View

end Componentry
