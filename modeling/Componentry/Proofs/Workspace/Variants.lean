import Componentry.Proofs.Artifact.Form

/-!
# What can fail in a workspace

The collaborators of a workspace never fail when they are asked: producers are asked for artifacts
of projects only, and the pipeline only for transforms that it said it can do. What the memo keeps
under an identity may be the outcome of another artifact, but that one was transformed as well. So
an artifact contributes one file to a strict view, or the failure that it has no variant that was
requested.

* `View.Offers`: which of the two it is, and what the file is reported to be.

Results:
* `native_of_resolve`: every artifact of a resolved configuration has a native file.
* `outcome_declared`: what a declared transform comes to is one file.
* `provide_offers`: so what is provided of an artifact is one item.
* **`missing_variants_only`**: the walks of strict views yield one item for each artifact that they
  come past, and all failures are missing variants.
-/

namespace Componentry

/-- **What a view offers of an artifact**, as far as attributes tell. -/
structure View.Offers (v : View) (transforms : List TransformSection) (a : Artifact) (item : Item) :
    Prop where
  fails : (∃ fault, item = .error fault) ↔
    a.attributes.Conflicts v.requested ∧ ∀ t ∈ transforms, ¬ t.Fits a.attributes v.requested
  fault : ∀ fault, item = .error fault →
    fault = .failure (.noMatchingVariant a.id.component.display a.id.name v.requested)
  compatible : ∀ file, item = .ok file → ¬ file.attributes.Conflicts v.requested
  /-- An artifact that does not contradict the request is offered as it is. -/
  native : ∀ file, item = .ok file → ¬ a.attributes.Conflicts v.requested →
    file.id = a.id ∧ file.attributes = a.attributes
  /-- An artifact that does is transformed into one that has all that was requested. -/
  transformed : ∀ file, item = .ok file → a.attributes.Conflicts v.requested →
    file.attributes.Carries v.requested

namespace View.Offers

variable {v : View} {transforms : List TransformSection} {a : Artifact} {file : Path}

theorem of_native (h : ¬ a.attributes.Conflicts v.requested) :
    v.Offers transforms a (.ok ⟨a.id, file, a.attributes⟩) where
  fails := ⟨fun ⟨_, hfault⟩ => absurd hfault (by simp), fun hmissing => absurd hmissing.1 h⟩
  fault := fun _ hfault => absurd hfault (by simp)
  compatible := fun _ hfile => Except.ok.inj hfile ▸ h
  native := fun _ hfile _ => Except.ok.inj hfile ▸ ⟨rfl, rfl⟩
  transformed := fun _ _ hconflicts => absurd hconflicts h

theorem of_transform (h : a.attributes.Conflicts v.requested)
    (hfits : ∃ t ∈ transforms, t.Fits a.attributes v.requested) :
    v.Offers transforms a
      (.ok (transformedFile a.id (a.attributes.merge v.requested) file)) where
  fails := by
    obtain ⟨t, ht, hfit⟩ := hfits
    exact ⟨fun ⟨_, hfault⟩ => absurd hfault (by simp),
      fun hmissing => absurd hfit (hmissing.2 t ht)⟩
  fault := fun _ hfault => absurd hfault (by simp)
  compatible := fun _ hfile =>
    Except.ok.inj hfile ▸ (Attributes.merge_carries a.attributes v.requested).not_conflicts
  native := fun _ _ hnot => absurd h hnot
  transformed := fun _ hfile _ =>
    Except.ok.inj hfile ▸ Attributes.merge_carries a.attributes v.requested

theorem of_none (h : a.attributes.Conflicts v.requested)
    (hnone : ∀ t ∈ transforms, ¬ t.Fits a.attributes v.requested) :
    v.Offers transforms a
      (.error (.failure (.noMatchingVariant a.id.component.display a.id.name v.requested))) where
  fails := ⟨fun _ => ⟨h, hnone⟩, fun _ => ⟨_, rfl⟩⟩
  fault := fun _ hfault => (Except.error.inj hfault).symm
  compatible := fun _ hfile => absurd hfile (by simp)
  native := fun _ hfile => absurd hfile (by simp)
  transformed := fun _ hfile => absurd hfile (by simp)

end View.Offers

/-! ## Collaborators of a workspace -/

namespace Workspace

variable {w : Workspace}

/-- The artifacts that are located are there, or can be built. -/
theorem native_of_locate {d : Dependency} {c : ResolvedComponent} (h : w.locate d = .ok c)
    {a : Artifact} (ha : a ∈ c.artifacts) : ∃ file, a.native = .ok file := by
  unfold locate at h
  split at h
  · obtain rfl := Except.ok.inj h
    obtain rfl := List.mem_singleton.mp ha
    exact ⟨_, rfl⟩
  · split at h
    · obtain rfl := Except.ok.inj h
      obtain ⟨declared, -, rfl⟩ := List.mem_map.mp ha
      exact ⟨_, rfl⟩
    · exact absurd h (by simp)
  · obtain rfl := Except.ok.inj h
    obtain rfl := List.mem_singleton.mp ha
    exact ⟨_, rfl⟩

/-- **Every artifact of a resolved configuration has a native file.** -/
theorem native_of_resolve {name : String} {r : Resolution} (h : (w.resolve name).outcome = .ok r)
    {a : PlacedArtifact} (ha : r.Has a) : ∃ file, a.artifact.native = .ok file := by
  obtain ⟨c, d, hd, hmem⟩ := located_of_has h ha
  exact native_of_locate hd hmem

end Workspace

namespace View

variable {v : View} {transforms : List TransformSection} {a : PlacedArtifact} {m : Memo}

/-- What a declared transform comes to is one file. -/
theorem outcome_declared (hpipeline : v.resolution.pipeline = .declared transforms) {b : Artifact}
    {outcome : Except String (List Path)} (h : v.outcome? b = some outcome) :
    ∃ file, outcome = .ok [file] := by
  obtain ⟨file, -, hcan, -, rfl⟩ := outcome?_cases h
  rw [hpipeline] at hcan
  obtain ⟨t, ht⟩ := Option.isSome_iff_exists.mp hcan
  refine ⟨t.outputFile file, ?_⟩
  unfold transform
  rw [hpipeline]
  simp only [Pipeline.declared, ht]
  rfl

/-- What is transformed, or was before, is one file. -/
theorem kept_declared (hr : v.resolution.Steady) (hm : m.Honest v.resolution)
    (hpipeline : v.resolution.pipeline = .declared transforms) {b : Artifact}
    {own : Except String (List Path)} (hown : v.outcome? b = some own) (id : ArtifactId) :
    ∃ file, (m.transform? (id, v.requested)).getD own = .ok [file] := by
  cases hkept : m.transform? (id, v.requested) with
  | none => exact outcome_declared hpipeline hown
  | some outcome =>
    obtain ⟨c, -, -, houtcome⟩ := outcome?_of_kept hr hm hkept
    exact outcome_declared hpipeline houtcome

/-- **What is provided of an artifact is one item.** -/
theorem provide_offers (hr : v.resolution.Steady) (hm : m.Honest v.resolution)
    (hpipeline : v.resolution.pipeline = .declared transforms) (hstrict : v.lenient = false)
    {b : Artifact} {file : Path} (hnative : b.native = .ok file) :
    ∃ item, v.itemsOf (v.provide b (m.transform? (b.id, v.requested))) = [item] ∧
      v.Offers transforms b item := by
  have hcan : v.resolution.pipeline.canTransform [] b.attributes v.requested =
      (findTransform transforms b.attributes v.requested).isSome := by rw [hpipeline]; rfl
  unfold provide
  by_cases hconflicts : b.attributes.Conflicts v.requested
  · have hsuits : b.attributes.isCompatibleWith v.requested = false := by
      rw [Bool.eq_false_iff, Ne, Attributes.isCompatibleWith_iff, not_not]
      exact hconflicts
    rw [hsuits, if_neg (by simp)]
    by_cases hfits : ∃ t ∈ transforms, t.Fits b.attributes v.requested
    · have hyes := hcan.trans (isSome_findTransform.mpr hfits)
      obtain ⟨output, houtput⟩ := kept_declared hr hm hpipeline
        (outcome?_eq_some v hsuits hyes hnative) b.id
      rw [if_pos hyes, hnative]
      dsimp only [Except.bind]
      rw [houtput]
      exact ⟨_, rfl, .of_transform hconflicts hfits⟩
    · have hno : v.resolution.pipeline.canTransform [] b.attributes v.requested = false := by
        rw [hcan, Bool.eq_false_iff, Ne, isSome_findTransform]
        exact hfits
      rw [hno, if_neg (by simp), itemsOf, hstrict, if_neg (by simp)]
      exact ⟨_, rfl, .of_none hconflicts fun t ht hfit => hfits ⟨t, ht, hfit⟩⟩
  · rw [if_pos (Attributes.isCompatibleWith_iff.mpr hconflicts), hnative]
    exact ⟨_, rfl, .of_native hconflicts⟩

/-- So is what an artifact contributed at a stop. -/
theorem itemsAt_offers (hr : v.resolution.Steady)
    (hpipeline : v.resolution.pipeline = .declared transforms) (hstrict : v.lenient = false)
    {s : Stop} (hm : s.memo.Honest v.resolution) (ha : v.resolution.Has s.artifact)
    (hnative : ∃ file, s.artifact.artifact.native = .ok file) :
    ∃ item, v.itemsAt s = [item] ∧ v.Offers transforms s.artifact.artifact item := by
  obtain ⟨file, hfile⟩ := hnative
  rw [itemsAt, contribution_fst, resolve_fst hr hm ha]
  exact provide_offers hr hm hpipeline hstrict hfile

end View

/-! ## Walks -/

/-- One item for each stop makes one item after another. -/
theorem forall₂_flatMap {α β : Type} {f : α → List β} {P : α → β → Prop} {xs : List α}
    (h : ∀ x ∈ xs, ∃ y, f x = [y] ∧ P x y) : List.Forall₂ P xs (xs.flatMap f) := by
  induction xs with
  | nil => exact .nil
  | cons x xs ih =>
    obtain ⟨y, hy, hP⟩ := h x List.mem_cons_self
    rw [List.flatMap_cons, hy]
    exact .cons hP (ih fun x' hx' => h x' (List.mem_cons_of_mem x hx'))

namespace Descriptor

/-- **Views over a workspace fail only for lack of a variant.** Take a descriptor that is accepted,
a configuration that resolves, and any walk of a strict view, whatever else is done with the result.
The walk comes upon one item for each artifact that it comes past, in order: a file that does not
contradict the request, or the failure that nothing was requested that the artifact has or is
transformed into. A walk that has ended came past all artifacts of the accepted components. -/
theorem missing_variants_only {d : Descriptor} {base : Path} {name : String} {r : Resolution}
    (h : d.resolution base name = .ok r) (actions : List Tour.Action) {w : Walk}
    (hw : w ∈ (r.tour actions).walks) (hstrict : w.view.lenient = false) :
    ∃ memos i, w.Follows memos i ∧
      List.Forall₂ (fun s item => w.view.Offers d.transforms s.artifact.artifact item)
        i.stops w.items ∧
      (none ∈ w.answers → i.verdicts.length = r.placed.length ∧
        i.stops.map (·.artifact) = r.accepted i.verdicts) := by
  obtain ⟨ws, rfl, hresolve⟩ := exists_workspace h
  obtain ⟨request, memos, rfl, hmemos⟩ := r.exists_walked actions hw
  obtain ⟨i, hfollows⟩ := (r.view request).follows_walked memos
  rw [View.view_walked] at hstrict ⊢
  refine ⟨memos, i, hfollows, ?_, fun hnone => ?_⟩
  · have hvisits := hfollows.visits
    rw [View.view_walked] at hvisits
    rw [Walk.items, ← hvisits.items]
    refine forall₂_flatMap fun s hs => ?_
    have ha : r.Has s.artifact := hvisits.has hs
    exact View.itemsAt_offers (Workspace.steady_of_resolve hresolve)
      (Workspace.resolve_cases hresolve).1 hstrict (hvisits.honest hmemos hs) ha
      (Workspace.native_of_resolve hresolve ha)
  · have hcomplete := hfollows.complete hnone
    rwa [View.view_walked] at hcomplete

/-- Of a jar and a zip, whoever requests zips is given the zip, and told that the jar is none. -/
theorem missing_variants_of_jar :
    ∃ r, (jarAndZip "p.jar" "p.zip").resolution "/work" "runtime" = .ok r ∧
      ∃ w ∈ (r.tour [.view { attributes := .ofType "zip" }, .walk 0, .next 0, .next 0]).walks,
        w.view.lenient = false ∧
        w.answers = [
          some (.error (.failure (.noMatchingVariant "project :p" "p.jar" (.ofType "zip")))),
          some (.ok ⟨⟨.project ":p", "p.zip"⟩, "/work/build/p/libs/p.zip", .ofType "zip"⟩)] ∧
        ∃ memos i, w.Follows memos i ∧
          List.Forall₂ (fun s item => w.view.Offers (jarAndZip "p.jar" "p.zip").transforms
            s.artifact.artifact item) i.stops w.items := by
  obtain ⟨r, hr, w, hw, hstrict, hanswers⟩ :
      ∃ r, (jarAndZip "p.jar" "p.zip").resolution "/work" "runtime" = .ok r ∧
        ∃ w ∈ (r.tour [.view { attributes := .ofType "zip" }, .walk 0, .next 0, .next 0]).walks,
          w.view.lenient = false ∧
          w.answers = [
            some (.error (.failure (.noMatchingVariant "project :p" "p.jar" (.ofType "zip")))),
            some (.ok ⟨⟨.project ":p", "p.zip"⟩, "/work/build/p/libs/p.zip", .ofType "zip"⟩)] :=
    ⟨_, rfl, _, List.mem_cons_self, rfl, rfl⟩
  obtain ⟨memos, i, hfollows, hoffers, -⟩ := missing_variants_only hr _ hw hstrict
  exact ⟨r, hr, w, hw, hstrict, hanswers, memos, i, hfollows, hoffers⟩

end Descriptor

end Componentry
