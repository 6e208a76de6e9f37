import Componentry.Proofs.Artifact.Tour

/-!
# Where the outcomes in a memo come from

A memo answers for the collaborators. It is `Honest` if each outcome it keeps is what a collaborator
answered to a call on its list of calls: a build is kept at the place of the artifact it was made
for, and a transform was made of the native file of **some** artifact with the identity that it is
kept under.

Results:
* `place_injective`: artifacts at the same place are the same.
* `Move.honest`: whatever a view does keeps the memo honest.
* `honest_tour`: the memo of every tour is honest.
-/

namespace Componentry

/-! ## Places -/

namespace Resolution

theorem mem_placeArtifacts {component : Nat} {a : PlacedArtifact} :
    ∀ {n : Nat} {as : List Artifact}, a ∈ placeArtifacts component n as →
      ∃ j, as[j]? = some a.artifact ∧ a.place = ⟨component, n + j⟩
  | _, [], h => absurd h List.not_mem_nil
  | n, b :: rest, h => by
    rcases List.mem_cons.mp h with rfl | h
    · exact ⟨0, rfl, rfl⟩
    · obtain ⟨j, hj, hplace⟩ := mem_placeArtifacts h
      exact ⟨j + 1, hj, by rw [hplace, Nat.add_right_comm, Nat.add_assoc]⟩

theorem mem_placeComponents {c : PlacedComponent} :
    ∀ {n : Nat} {cs : List ResolvedComponent}, c ∈ placeComponents n cs →
      ∃ (i : Nat) (d : ResolvedComponent), cs[i]? = some d ∧
        c = ⟨d.id, placeArtifacts (n + i) 0 d.artifacts⟩
  | _, [], h => absurd h List.not_mem_nil
  | n, d :: rest, h => by
    rcases List.mem_cons.mp h with rfl | h
    · exact ⟨0, d, rfl, rfl⟩
    · obtain ⟨i, e, he, rfl⟩ := mem_placeComponents h
      exact ⟨i + 1, e, he, by rw [Nat.add_right_comm, Nat.add_assoc]⟩

/-- An artifact of the resolution, at its place. -/
def Has (r : Resolution) (a : PlacedArtifact) : Prop := ∃ c ∈ r.placed, a ∈ c.artifacts

/-- A place says which artifact stands there. -/
theorem Has.at_place {r : Resolution} {a : PlacedArtifact} (h : r.Has a) :
    ∃ d, r.components[a.place.component]? = some d ∧
      d.artifacts[a.place.artifact]? = some a.artifact := by
  obtain ⟨c, hc, ha⟩ := h
  obtain ⟨i, d, hd, rfl⟩ := mem_placeComponents hc
  obtain ⟨j, hj, hplace⟩ := mem_placeArtifacts ha
  rw [hplace, Nat.zero_add, Nat.zero_add]
  exact ⟨d, hd, hj⟩

/-- **Artifacts at the same place are the same.** -/
theorem place_injective {r : Resolution} {a b : PlacedArtifact} (ha : r.Has a) (hb : r.Has b)
    (h : a.place = b.place) : a = b := by
  obtain ⟨d, hd, hda⟩ := ha.at_place
  obtain ⟨e, he, heb⟩ := hb.at_place
  rw [h] at hd hda
  obtain rfl := Option.some.inj (hd.symm.trans he)
  have hartifact := Option.some.inj (hda.symm.trans heb)
  cases a
  cases b
  simp_all

end Resolution

/-! ## Outcomes and the calls they answer -/

/-- The native file of an artifact is there, or its producer has answered it in one of the calls. -/
def PlacedArtifact.Obtained (a : PlacedArtifact) (calls : History) (file : Path) : Prop :=
  match a.artifact.source with
  | .file path => path = file
  | .built producer => ∃ h, h ++ [.produced a.artifact.id] <+: calls ∧
      (producer h a.artifact.id).outcome = .ok file

theorem Memo.kept_eq_ok {α : Type} {outcome : Except Fault α} {x : α}
    (h : Memo.kept outcome = .ok x) : outcome = .ok x := by
  cases outcome with
  | ok y => exact congrArg _ (Except.ok.inj h)
  | error fault => exact absurd h (by simp [Memo.kept])

/-- **Outcomes are answers**: those of builds, of the producer of the artifact at their place; those
of transforms, of the pipeline, given the native file of an artifact with their identity. -/
structure Memo.Honest (r : Resolution) (m : Memo) : Prop where
  builds : ∀ a producer outcome, r.Has a → a.artifact.source = .built producer →
    m.build? a.place = some outcome →
    ∃ h, h ++ [.produced a.artifact.id] <+: m.calls ∧
      outcome = Memo.kept (producer h a.artifact.id).outcome
  transforms : ∀ id requested outcome, m.transform? (id, requested) = some outcome →
    ∃ a h file, r.Has a ∧ a.artifact.id = id ∧
      a.artifact.attributes.isCompatibleWith requested = false ∧
      (∃ h', r.pipeline.canTransform h' a.artifact.attributes requested = true) ∧
      a.Obtained h file ∧ h ++ [.transformed id file a.artifact.attributes requested] <+: m.calls ∧
      outcome = Memo.kept
        (r.pipeline.transform h id file a.artifact.attributes requested).outcome

namespace Memo

variable {r : Resolution} {m m' : Memo}

theorem honest_empty : Honest r {} where
  builds := fun _ _ _ _ _ h => absurd h (by simp [build?, Dict.lookup])
  transforms := fun _ _ _ h => absurd h (by simp [transform?, Dict.lookup])

/-- More calls do not hurt. -/
theorem Honest.more (h : m.Honest r) (hcalls : m.calls <+: m'.calls)
    (hbuilds : m'.builds = m.builds) (htransforms : m'.transforms = m.transforms) :
    m'.Honest r where
  builds := by
    intro a producer outcome ha hsource hbuild
    unfold build? at hbuild
    rw [hbuilds] at hbuild
    obtain ⟨history, hprefix, houtcome⟩ := h.builds a producer outcome ha hsource hbuild
    exact ⟨history, hprefix.trans hcalls, houtcome⟩
  transforms := by
    intro id requested outcome htransform
    unfold transform? at htransform
    rw [htransforms] at htransform
    obtain ⟨a, history, file, ha, hid, hsuits, hcan, hfile, hprefix, houtcome⟩ :=
      h.transforms id requested outcome htransform
    exact ⟨a, history, file, ha, hid, hsuits, hcan, hfile, hprefix.trans hcalls, houtcome⟩

/-- The file that an honest memo holds was obtained. -/
theorem Honest.obtained (h : m.Honest r) {a : PlacedArtifact} (ha : r.Has a) {file : Path}
    (hfile : m.Holds a file) : a.Obtained m.calls file := by
  unfold Holds at hfile
  unfold PlacedArtifact.Obtained
  cases hsource : a.artifact.source with
  | file path =>
    rw [hsource] at hfile
    exact hfile
  | built producer =>
    rw [hsource] at hfile
    obtain ⟨history, hprefix, houtcome⟩ := h.builds a producer (.ok file) ha hsource hfile
    exact ⟨history, hprefix, kept_eq_ok houtcome.symm⟩

end Memo

namespace View

variable {v : View} {t t' : Trail} {m m' : Memo} {a : PlacedArtifact}

theorem Admits.has (h : v.Admits t a) : v.resolution.Has a := by
  obtain ⟨c, hc, ha, -⟩ := h
  exact ⟨c, hc, ha⟩

/-- What a view does for an artifact keeps the memo honest. -/
theorem Act.honest {s s' : Trail × Memo} (h : v.Act s s') (hm : s.2.Honest v.resolution) :
    s'.2.Honest v.resolution := by
  cases h with
  | log e => exact hm.more (List.prefix_refl _) rfl rfl
  | ask _ _ => exact hm.more (List.prefix_append _ _) rfl rfl
  | @build t m a producer ha hsource hneed hnew =>
    have hmore : (m.called (.produced a.artifact.id)
        (producer m.calls a.artifact.id).events).Honest v.resolution :=
      hm.more (List.prefix_append _ _) rfl rfl
    refine ⟨fun b producer' outcome hb hsource' hbuild => ?_, hmore.transforms⟩
    unfold Memo.built Memo.build? Dict.lookup at hbuild
    dsimp only at hbuild
    split at hbuild
    · rename_i hplace
      obtain rfl := Resolution.place_injective hb ha.has hplace
      obtain rfl : producer = producer' :=
        ArtifactSource.built.inj (hsource.symm.trans hsource')
      exact ⟨m.calls, List.prefix_refl _, (Option.some.inj hbuild).symm⟩
    · exact hmore.builds b producer' outcome hb hsource' hbuild
  | @transform t m a file ha hsuits hconvertible hfile hnew =>
    have hmore : (m.called (.transformed a.artifact.id file a.artifact.attributes v.requested)
        (v.resolution.pipeline.transform m.calls a.artifact.id file a.artifact.attributes
          v.requested).events).Honest v.resolution :=
      hm.more (List.prefix_append _ _) rfl rfl
    refine ⟨hmore.builds, fun id requested outcome htransform => ?_⟩
    unfold Memo.afterTransform Memo.transform? Dict.lookup at htransform
    dsimp only at htransform
    split at htransform
    · rename_i hkey
      obtain ⟨rfl, rfl⟩ := Prod.mk.inj hkey
      obtain ⟨history, -, hcan⟩ := hconvertible
      exact ⟨a, m.calls, file, ha.has, rfl, Bool.eq_false_iff.mpr hsuits, ⟨history, hcan⟩,
        hm.obtained ha.has hfile, List.prefix_refl _, (Option.some.inj htransform).symm⟩
    · exact hmore.transforms id requested outcome htransform

/-- **Whatever a view does keeps the memo honest.** -/
theorem Move.honest {s s' : Trail × Memo} (h : v.Move s s') (hm : s.2.Honest v.resolution) :
    s'.2.Honest v.resolution := by
  cases h with
  | act h => exact h.honest hm
  | judge _ _ => exact hm.more (List.prefix_append _ _) rfl rfl

theorem Moves.honest {s s' : Trail × Memo} (h : v.Moves s s') (hm : s.2.Honest v.resolution) :
    s'.2.Honest v.resolution := by
  induction h with
  | refl => exact hm
  | tail _ hmove ih => exact hmove.honest ih

/-- Asking a view about a component makes at most the one call to its filter. -/
theorem accepts_memo (v : View) (id : ComponentId) (m : Memo) :
    ∃ new, (v.accepts id m).2 = { m with calls := m.calls ++ new } ∧
      ∀ c ∈ new, ∃ answer, c = .filtered id answer := by
  unfold accepts Memo.accepts
  cases v.filter with
  | none => exact ⟨[], by simp, fun _ h => absurd h List.not_mem_nil⟩
  | some filter =>
    exact ⟨[.filtered id (filter m.calls id)], by simp [Memo.called],
      fun c hc => ⟨_, List.mem_singleton.mp hc⟩⟩

end View

/-- Whatever the user does keeps the memo honest. -/
theorem Memo.Honest.step {r : Resolution} {t : Tour} (hm : t.memo.Honest r) (ht : t.InPlace r)
    (a : Tour.Action) : (Tour.step r t a).memo.Honest r := by
  rcases Tour.step_cases r t a with ⟨hmemo, -⟩ | ⟨i, w, -, hw, hstep⟩ | ⟨v, hv, component, hstep⟩
  · rwa [hmemo]
  · have hmem := List.mem_of_getElem? hw
    have hr := ht.resolution_eq hmem
    subst hr
    rw [hstep]
    exact View.Moves.honest (Walk.next_moves (ht.walks w hmem).2 t.memo).1 hm
  · obtain ⟨new, hmemo, -⟩ := v.accepts_memo component t.memo
    rw [hstep, hmemo]
    exact hm.more (List.prefix_append _ _) rfl rfl

/-- **The memo of every tour is honest.** -/
theorem Resolution.honest_tour (r : Resolution) (actions : List Tour.Action) :
    (r.tour actions).memo.Honest r :=
  (tour_induction (P := fun t => t.InPlace r ∧ t.memo.Honest r)
    ⟨Tour.inPlace_start r, Memo.honest_empty⟩ (fun _ a h => ⟨h.1.step a, h.2.step h.1 a⟩) actions).2

/-- As `tour_induction`, each thing being done with cursors in place and an honest memo. -/
theorem Resolution.honest_induction {r : Resolution} {P : Tour → Prop} (hstart : P {})
    (hstep : ∀ t a, t.InPlace r → t.memo.Honest r → P t → P (Tour.step r t a))
    (actions : List Tour.Action) : P (r.tour actions) :=
  (tour_induction (P := fun t => t.InPlace r ∧ t.memo.Honest r ∧ P t)
    ⟨Tour.inPlace_start r, Memo.honest_empty, hstart⟩
    (fun t a h => ⟨h.1.step a, h.2.1.step h.1 a, hstep t a h.1 h.2.1 h.2.2⟩) actions).2.2

end Componentry
