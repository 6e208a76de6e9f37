import Componentry.Proofs.Artifact.Recall
import Componentry.Proofs.Workspace.Naming

/-!
# Which form a file is reported to have

An artifact that contradicts a request is transformed, and the declared transform that applies says
which form its output has: that of the artifact, with the attributes of the transform over it
(`TransformSection.output`). The files are reported with the attributes of the artifact and those
that were requested over them. Both have all that was requested of the output, but what a transform
sets besides is not reported.

* `Attributes.Carries`: attributes agree with others on every key that those have.
* `Attributes.Conflicts`: attributes have another value for some key that is requested.

Results:
* `applies_iff`, `findTransform_eq_some`, `isSome_findTransform`: which transform applies.
* `resolve_transformed`: what is reported of the files of a transform.
* **`carries_output_iff`**: when that is the form of the output.
* **`transformed_forms`**: so every walk of every tour reports it.
* `minified_reported_plain`: a transform whose output is not what it is reported to be.
-/

namespace Componentry

namespace Attributes

variable {candidate requested own : Attributes}

/-- The attributes have every entry of others. -/
def Carries (attributes others : Attributes) : Prop :=
  ∀ key value, others.get? key = some value → attributes.get? key = some value

/-- A candidate contradicts a request: it has another value for a key that is requested. -/
def Conflicts (candidate requested : Attributes) : Prop :=
  ∃ key value other,
    requested.get? key = some value ∧ candidate.get? key = some other ∧ other ≠ value

theorem hasAll_iff : candidate.hasAll requested = true ↔ candidate.Carries requested := by
  unfold hasAll Carries
  rw [List.all_eq_true]
  constructor
  · intro h key value hvalue
    simpa using h (key, value) (requested.mem_entries_iff.mpr hvalue)
  · rintro h ⟨key, value⟩ hmem
    simpa using h key value (requested.mem_entries_iff.mp hmem)

theorem isCompatibleWith_iff :
    candidate.isCompatibleWith requested = true ↔ ¬ candidate.Conflicts requested := by
  unfold isCompatibleWith
  rw [List.all_eq_true]
  constructor
  · rintro h ⟨key, value, other, hvalue, hother, hne⟩
    have hentry := h (key, value) (requested.mem_entries_iff.mpr hvalue)
    rw [hother] at hentry
    exact hne (by simpa using hentry)
  · rintro h ⟨key, value⟩ hmem
    split
    · rename_i other hother
      refine beq_iff_eq.mpr (Classical.byContradiction fun hne => h ?_)
      exact ⟨key, value, other, requested.mem_entries_iff.mp hmem, hother, hne⟩
    · rfl

theorem Carries.not_conflicts (h : candidate.Carries requested) :
    ¬ candidate.Conflicts requested := by
  rintro ⟨key, value, other, hvalue, hother, hne⟩
  exact hne (Option.some.inj (hother.symm.trans (h key value hvalue)))

theorem merge_carries (own requested : Attributes) : Carries (own.merge requested) requested := by
  intro key value hvalue
  rw [Dict.get?_merge, hvalue]
  rfl

end Attributes

/-! ## Transforms that apply -/

namespace TransformSection

/-- **A transform applies to an artifact**: it has all the attributes that are transformed, and the
output does not contradict the request. -/
def Fits (t : TransformSection) (own requested : Attributes) : Prop :=
  own.Carries t.source ∧ ¬ (t.output own).Conflicts requested

theorem applies_iff (t : TransformSection) (own requested : Attributes) :
    t.applies own requested = true ↔ t.Fits own requested := by
  unfold applies Fits
  rw [Bool.and_eq_true, Attributes.hasAll_iff, Attributes.isCompatibleWith_iff]

end TransformSection

section

variable {transforms : List TransformSection} {own requested : Attributes} {t : TransformSection}

theorem findTransform_eq_some (h : findTransform transforms own requested = some t) :
    t ∈ transforms ∧ t.Fits own requested := by
  unfold findTransform at h
  have happlies := List.find?_some h
  exact ⟨List.mem_of_find?_eq_some h, (t.applies_iff own requested).mp happlies⟩

theorem isSome_findTransform :
    (findTransform transforms own requested).isSome = true ↔
      ∃ t ∈ transforms, t.Fits own requested := by
  unfold findTransform
  rw [List.find?_isSome]
  simp only [TransformSection.applies_iff]

/-- **What is reported of an output is its form** if what the transform sets, and nobody requested,
was there before. What was requested is reported in any case. -/
theorem carries_output_iff (h : t.Fits own requested) :
    (∀ key value, (requested.get? key).isSome → (t.output own).get? key = some value →
      (own.merge requested).get? key = some value) ∧
    (Attributes.Carries (own.merge requested) (t.output own) ↔
      ∀ key value, t.target.get? key = some value → requested.get? key = none →
        own.get? key = some value) := by
  have hrequested : ∀ key value, (requested.get? key).isSome →
      (t.output own).get? key = some value → (own.merge requested).get? key = some value := by
    intro key value hsome houtput
    obtain ⟨wanted, hwanted⟩ := Option.isSome_iff_exists.mp hsome
    have heq : value = wanted := Classical.byContradiction fun hne =>
      h.2 ⟨key, wanted, value, hwanted, houtput, hne⟩
    rw [Dict.get?_merge, hwanted, heq]
    rfl
  refine ⟨hrequested, fun hcarries key value htarget hnone => ?_, fun hset key value houtput => ?_⟩
  · have hreported := hcarries key value (by
      rw [TransformSection.output, Dict.get?_merge, htarget]
      rfl)
    rwa [Dict.get?_merge, hnone] at hreported
  · cases hwanted : requested.get? key with
    | some wanted => exact hrequested key value (by rw [hwanted]; rfl) houtput
    | none =>
      rw [Dict.get?_merge, hwanted, Option.none_or]
      rw [TransformSection.output, Dict.get?_merge] at houtput
      cases htarget : t.target.get? key with
      | none => rwa [htarget, Option.none_or] at houtput
      | some set =>
        rw [htarget] at houtput
        exact hset key value (htarget.trans houtput) hwanted

end

/-! ## What is reported -/

namespace View

variable {v : View} {a : PlacedArtifact} {m : Memo} {files : List ResolvedFile}

/-- The files of an artifact that does not suit are made by the pipeline. -/
theorem resolve_transformed (h : (v.resolve a m).1 = .ok files) (hsuits : ¬ v.Suits a) :
    v.resolution.pipeline.canTransform m.calls a.artifact.attributes v.requested = true ∧
      ∀ file ∈ files, file.attributes = a.artifact.attributes.merge v.requested := by
  have htold := v.resolve_told? a m
  rw [h] at htold
  unfold Suits at hsuits
  unfold Memo.told? at htold
  dsimp only at htold
  rw [if_neg hsuits] at htold
  split at htold
  · rename_i hcan
    refine ⟨hcan, ?_⟩
    split at htold
    · exact absurd htold (by simp)
    · exact absurd htold (by simp)
    · obtain ⟨outcome, -, htold⟩ := Option.map_eq_some_iff.mp htold
      cases outcome with
      | error reason => exact absurd htold (by simp [Memo.retold, Except.map])
      | ok paths =>
        obtain rfl := Except.ok.inj htold
        intro file hfile
        obtain ⟨path, -, rfl⟩ := List.mem_map.mp hfile
        rfl
  · exact absurd htold (by simp)

/-- What an artifact contributes and is no failure is one of its files. -/
theorem exists_files {s : Stop} {file : ResolvedFile} (h : .ok file ∈ v.itemsAt s) :
    ∃ files, (v.resolve s.artifact s.memo).1 = .ok files ∧ file ∈ files := by
  unfold itemsAt at h
  rw [contribution_fst] at h
  cases hresolve : (v.resolve s.artifact s.memo).1 with
  | ok files =>
    rw [hresolve] at h
    obtain ⟨file', hmem, hfile⟩ := List.mem_map.mp h
    obtain rfl := Except.ok.inj hfile
    exact ⟨files, rfl, hmem⟩
  | error fault =>
    rw [hresolve, itemsOf] at h
    split at h <;> simp at h

end View

/-- **How transformed artifacts are reported.** In every walk of every tour over declared
transforms, take an artifact that does not suit, and a file that it contributes. There is a
transform that applies, and the file is reported with what was requested over the attributes of the
artifact. That gives every requested key its value in the output; and it is the form of the output
exactly if the artifact had already what the transform sets and nobody requested. -/
theorem Resolution.transformed_forms {r : Resolution} {transforms : List TransformSection}
    (hpipeline : r.pipeline = .declared transforms) (actions : List Tour.Action) {w : Walk}
    (hw : w ∈ (r.tour actions).walks) :
    ∃ memos i, w.Follows memos i ∧ ∀ s ∈ i.stops, ¬ w.view.Suits s.artifact →
      ∀ file, .ok file ∈ w.view.itemsAt s →
        ∃ t, findTransform transforms s.artifact.artifact.attributes w.view.requested = some t ∧
          file.attributes = s.artifact.artifact.attributes.merge w.view.requested ∧
          (∀ key value, (w.view.requested.get? key).isSome →
            (t.output s.artifact.artifact.attributes).get? key = some value →
            file.attributes.get? key = some value) ∧
          (file.attributes.Carries (t.output s.artifact.artifact.attributes) ↔
            ∀ key value, t.target.get? key = some value → w.view.requested.get? key = none →
              s.artifact.artifact.attributes.get? key = some value) := by
  obtain ⟨request, memos, rfl, -⟩ := r.exists_walked actions hw
  obtain ⟨i, hfollows⟩ := (r.view request).follows_walked memos
  refine ⟨memos, i, hfollows, fun s _ hsuits file hfile => ?_⟩
  rw [View.view_walked] at hsuits hfile ⊢
  obtain ⟨files, hresolve, hmem⟩ := View.exists_files hfile
  obtain ⟨hcan, hreported⟩ := View.resolve_transformed hresolve hsuits
  have hpipeline' : (r.view request).resolution.pipeline = .declared transforms := hpipeline
  rw [hpipeline'] at hcan
  obtain ⟨t, ht⟩ := Option.isSome_iff_exists.mp hcan
  rw [hreported file hmem]
  exact ⟨t, ht, rfl, carries_output_iff (findTransform_eq_some ht).2⟩

namespace Descriptor

/-- A kind of file that is minified or not. -/
def formOf (kind minified : String) : Attributes :=
  (Attributes.ofType kind).insert "minified" minified

/-- A transform that turns jars into minified classes. -/
def minify : TransformSection := ⟨.ofType "jar", formOf "classes" "yes", "-min"⟩

/-- A project with a jar that is not minified, and the transform. -/
def minifying : Descriptor where
  project := { group := "org.example", name := "app", version := "1.0" }
  configurations := [{ name := "runtime", dependencies := [":p"] }]
  projects := [{
    path := ":p"
    artifacts := [{ name := "p.jar", attributes := formOf "jar" "no" }] }]
  transforms := [minify]

/-- The classes of the project, said to be minified or not. -/
def classesSaid (minified : String) : ResolvedFile :=
  ⟨⟨.project ":p", "p-min.jar"⟩, "/work/build/p/libs/p-min.jar", formOf "classes" minified⟩

/-- Whoever requests minified classes is told that they are. -/
theorem transformed_forms_of_minified :
    ∃ r, minifying.resolution "/work" "runtime" = .ok r ∧ r.pipeline = .declared [minify] ∧
      ∃ w ∈ (r.tour [.view { attributes := formOf "classes" "yes" }, .walk 0, .next 0]).walks,
        w.answers = [some (.ok (classesSaid "yes"))] ∧
        ∃ memos i, w.Follows memos i ∧ ∀ s ∈ i.stops, ¬ w.view.Suits s.artifact →
          ∀ file, .ok file ∈ w.view.itemsAt s →
            file.attributes.Carries (minify.output s.artifact.artifact.attributes) := by
  obtain ⟨r, hr, hpipeline, w, hw, hanswers, hrequested⟩ :
      ∃ r, minifying.resolution "/work" "runtime" = .ok r ∧ r.pipeline = .declared [minify] ∧
        ∃ w ∈ (r.tour [.view { attributes := formOf "classes" "yes" }, .walk 0, .next 0]).walks,
          w.answers = [some (.ok (classesSaid "yes"))] ∧ w.view.requested = minify.target :=
    ⟨_, rfl, rfl, _, List.mem_cons_self, rfl, rfl⟩
  obtain ⟨memos, i, hfollows, hforms⟩ := Resolution.transformed_forms hpipeline _ hw
  refine ⟨r, hr, hpipeline, w, hw, hanswers, memos, i, hfollows, fun s hs hsuits file hfile => ?_⟩
  obtain ⟨t, ht, -, -, hform⟩ := hforms s hs hsuits file hfile
  obtain rfl := List.mem_singleton.mp (findTransform_eq_some ht).1
  -- All that the transform sets was requested.
  rw [hrequested] at hform
  exact hform.mpr fun key value hset hnone => absurd (hset.symm.trans hnone) (by simp)

/-- **Whoever requests classes is told that the minified ones are not minified.** -/
theorem minified_reported_plain :
    ∃ r, minifying.resolution "/work" "runtime" = .ok r ∧
      ∃ w ∈ (r.tour [.view { attributes := .ofType "classes" }, .walk 0, .next 0]).walks,
        w.answers = [some (.ok (classesSaid "no"))] ∧
        findTransform minifying.transforms (formOf "jar" "no") w.view.requested = some minify ∧
        minify.target.get? "minified" = some "yes" ∧
        (classesSaid "no").attributes.get? "minified" = some "no" ∧
        ¬ (classesSaid "no").attributes.Carries (minify.output (formOf "jar" "no")) :=
  ⟨_, rfl, _, List.mem_cons_self, rfl, rfl, rfl, rfl,
    fun h => absurd (h "minified" "yes" rfl) (by decide)⟩

end Descriptor

end Componentry
