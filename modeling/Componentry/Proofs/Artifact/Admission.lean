import Componentry.Proofs.Artifact.Provenance

/-!
# Filters are a gate before all work

Building and transforming are work (`Call.IsWork`). `View.Warrants` says what a view has to know
before it has an artifact built or transformed, from the calls that its walk has made up to then:
the filter accepted the artifact's component, the pipeline can transform what does not suit, and
what is transformed is the native file that was obtained.

A trail is `Gated` if each of its calls was warranted by the calls before it. Calls name artifacts
by their identity, which several artifacts may share; which of them was built is seen by its place
in the memo (`Moves.mayBuild`).

Results:
* `Move.warrants`: each move of a view makes a call that is warranted, or none.
* `Moves.gated`: so the trail of a walk stays gated.
* `gated_tour`: in every tour, every trail is gated.
* **`work_warranted`**: whatever the user of a resolution does, work is done only for the next item
  of a walk, and only if it is warranted.
-/

namespace Componentry

/-- Building and transforming are work; asking is not. -/
def Call.IsWork : Call → Prop
  | .produced _ | .transformed .. => True
  | .filtered .. | .asked .. => False

namespace View

variable {v : View} {t t' : Trail} {m m' : Memo}

/-- An artifact may be built: its component was accepted, and its native form is of use. -/
def MayBuild (v : View) (t : Trail) (a : PlacedArtifact) : Prop :=
  v.Admits t a ∧ (v.Suits a ∨ v.Convertible t a.artifact.attributes)

theorem MayBuild.mono {a : PlacedArtifact} (h : v.MayBuild t a) (ht : t ⊆ t') : v.MayBuild t' a :=
  ⟨h.1.mono ht, h.2.imp_right fun hconvertible => hconvertible.mono ht⟩

/-- **What warrants a call** of a walk through a view: `t` are the calls that the walk has made up
to then, `calls` those that anybody has made. -/
def Warrants (v : View) (t : Trail) (calls : History) : Call → Prop
  | .produced id =>
    ∃ a producer, a.artifact.id = id ∧ a.artifact.source = .built producer ∧ v.MayBuild t a
  | .transformed id file own requested =>
    ∃ a, a.artifact.id = id ∧ a.artifact.attributes = own ∧ requested = v.requested ∧
      v.Admits t a ∧ ¬ v.Suits a ∧ v.Convertible t own ∧ a.Obtained calls file
  | .filtered .. | .asked .. => True

/-- Each call of a trail was warranted. -/
def Gated (v : View) (t : Trail) : Prop :=
  ∀ before calls c after, t = before ++ (calls, c) :: after → v.Warrants before calls c

theorem gated_nil (v : View) : v.Gated [] := fun _ _ _ _ h => absurd h (by simp)

/-- A trail stays gated if one more call is warranted. -/
theorem Gated.snoc (h : v.Gated t) {calls : History} {c : Call} (hc : v.Warrants t calls c) :
    v.Gated (t ++ [(calls, c)]) := by
  intro before calls' c' after hsplit
  rcases List.eq_nil_or_concat after with rfl | ⟨after', last, rfl⟩
  · obtain ⟨rfl, hlast⟩ := List.append_inj' hsplit rfl
    obtain ⟨rfl, rfl⟩ := Prod.mk.inj (List.singleton_inj.mp hlast)
    exact hc
  · rw [List.concat_eq_append, ← List.cons_append, ← List.append_assoc] at hsplit
    exact h before calls' c' after' (List.append_inj' hsplit rfl).1

/-- What a view does for an artifact makes a call that is warranted, or none. -/
theorem Act.warrants (h : v.Act (t, m) (t', m')) (hm : m.Honest v.resolution) :
    t' = t ∨ ∃ c, t' = t ++ [(m.calls, c)] ∧ v.Warrants t m.calls c := by
  cases h with
  | log e => exact Or.inl rfl
  | ask _ _ => exact Or.inr ⟨_, rfl, trivial⟩
  | @build _ _ a producer ha hsource hneed _ =>
    exact Or.inr ⟨_, rfl, a, producer, rfl, hsource, ⟨ha, hneed⟩⟩
  | @transform _ _ a _ ha hsuits hconvertible hfile _ =>
    exact Or.inr ⟨_, rfl, a, rfl, rfl, rfl, ha, hsuits, hconvertible, hm.obtained ha.has hfile⟩

/-- **Each move makes a call that is warranted**, or none. -/
theorem Move.warrants (h : v.Move (t, m) (t', m')) (hm : m.Honest v.resolution) :
    t' = t ∨ ∃ c, t' = t ++ [(m.calls, c)] ∧ v.Warrants t m.calls c := by
  cases h with
  | act h => exact h.warrants hm
  | judge _ _ => exact Or.inr ⟨_, rfl, trivial⟩

/-- Moves keep a trail gated. -/
theorem Moves.gated {s s' : Trail × Memo} (h : v.Moves s s') (hm : s.2.Honest v.resolution)
    (ht : v.Gated s.1) : v.Gated s'.1 := by
  induction h with
  | refl => exact ht
  | tail hmoves hmove ih =>
    rcases hmove.warrants (Moves.honest hmoves hm) with heq | ⟨c, heq, hc⟩
    · rw [heq]
      exact ih
    · rw [heq]
      exact ih.snoc hc

/-- **What was built may be built**: an artifact whose place has an outcome now, and had none. -/
theorem Moves.mayBuild {s s' : Trail × Memo} (h : v.Moves s s') {a : PlacedArtifact}
    (ha : v.resolution.Has a) (hnew : s.2.build? a.place = none)
    (hbuilt : (s'.2.build? a.place).isSome) : v.MayBuild s'.1 a := by
  induction h with
  | refl => exact absurd hbuilt (by simp [hnew])
  | @tail s₁ s₂ _ hmove ih =>
    by_cases hbefore : (s₁.2.build? a.place).isSome
    · exact (ih hbefore).mono (Moves.subset (.single hmove))
    · cases hmove with
      | judge _ _ => exact absurd hbuilt hbefore
      | act hact =>
        cases hact with
        | @build t m b producer hb hsource hneed _ =>
          have hplace : a.place = b.place := by
            refine Classical.byContradiction fun hplace => hbefore ?_
            unfold Memo.built Memo.build? Dict.lookup at hbuilt
            rwa [if_neg hplace] at hbuilt
          obtain rfl := Resolution.place_injective ha hb.has hplace
          exact MayBuild.mono ⟨hb, hneed⟩ (List.subset_append_left _ _)
        | _ => exact absurd hbuilt hbefore

end View

/-! ## Tours -/

/-- Each walk's calls were warranted. -/
def Tour.Gated (t : Tour) : Prop := ∀ w ∈ t.walks, w.view.Gated w.trail

theorem Tour.Gated.step {r : Resolution} {t : Tour} (h : t.Gated) (ht : t.InPlace r)
    (hm : t.memo.Honest r) (a : Tour.Action) : (Tour.step r t a).Gated := by
  rcases Tour.step_cases r t a with ⟨-, hwalks⟩ | ⟨i, w, -, hw, hstep⟩ | ⟨v, hv, component, hstep⟩
  · intro w hw
    rcases hwalks w hw with hw | ⟨v, -, rfl⟩
    · exact h w hw
    · exact v.gated_nil
  · rw [hstep]
    intro w' hw'
    have hmem := List.mem_of_getElem? hw
    rcases List.mem_or_eq_of_mem_set hw' with hw' | rfl
    · exact h w' hw'
    · have hr := ht.resolution_eq hmem
      have hmoves := (Walk.next_moves (ht.walks w hmem).2 t.memo).1
      exact View.Moves.gated hmoves (hr ▸ hm) (h w hmem)
  · rw [hstep]
    exact h

/-- **In every tour, every trail is gated.** -/
theorem Resolution.gated_tour (r : Resolution) (actions : List Tour.Action) :
    (r.tour actions).Gated :=
  honest_induction (fun _ h => absurd h List.not_mem_nil)
    (fun _ a ht hm h => h.step ht hm a) actions

/-- **Filters are a gate before all work.** Take any use of a resolution, and one thing more. The
calls that are made are new. If one of them is work, what was done was to take the next item of a
walk, whose calls up to that one, those from before included, warrant it. And if an artifact is
built by then that was not built before, it was of use to that walk. -/
theorem Resolution.work_warranted (r : Resolution) (actions : List Tour.Action)
    (a : Tour.Action) :
    ∃ new, (Tour.step r (r.tour actions) a).memo.calls = (r.tour actions).memo.calls ++ new ∧
      (∀ before c after, new = before ++ c :: after → c.IsWork →
        ∃ i w, a = .next i ∧ (r.tour actions).walks[i]? = some w ∧
          w.view.Warrants (w.trail ++ Trail.from (r.tour actions).memo.calls before)
            ((r.tour actions).memo.calls ++ before) c) ∧
      ∀ b, r.Has b → (r.tour actions).memo.build? b.place = none →
        ((Tour.step r (r.tour actions) a).memo.build? b.place).isSome →
        ∃ i w, a = .next i ∧ (r.tour actions).walks[i]? = some w ∧
          w.view.MayBuild (w.trail ++ Trail.from (r.tour actions).memo.calls new) b := by
  have hplace := r.inPlace_tour actions
  have hhonest := r.honest_tour actions
  have hgated := r.gated_tour actions
  generalize r.tour actions = t at hplace hhonest hgated ⊢
  rcases Tour.step_cases r t a with ⟨hmemo, -⟩ | ⟨i, w, ha, hw, hstep⟩ | ⟨v, -, component, hstep⟩
  · refine ⟨[], by rw [hmemo, List.append_nil], fun _ _ _ h => absurd h (by simp), ?_⟩
    intro b _ hnew hbuilt
    rw [hmemo, hnew] at hbuilt
    exact absurd hbuilt (by simp)
  · have hmem := List.mem_of_getElem? hw
    have hr := hplace.resolution_eq hmem
    have hmoves := (Walk.next_moves (hplace.walks w hmem).2 t.memo).1
    obtain ⟨new, hcalls, htrail⟩ := View.Moves.calls hmoves
    have hnext := View.Moves.gated hmoves (hr ▸ hhonest) (hgated w hmem)
    refine ⟨new, by rw [hstep]; exact hcalls, fun before c after hnew _ => ⟨i, w, ha, hw, ?_⟩,
      fun b hb hnew hbuilt => ⟨i, w, ha, hw, ?_⟩⟩
    · refine hnext _ _ c (Trail.from (t.memo.calls ++ before ++ [c]) after) ?_
      rw [htrail, hnew, Trail.from_append, List.append_assoc]
      rfl
    · rw [hstep] at hbuilt
      have hmay := View.Moves.mayBuild hmoves (hr ▸ hb) hnew hbuilt
      rwa [htrail] at hmay
  · obtain ⟨new, hmemo, hfiltered⟩ := v.accepts_memo component t.memo
    refine ⟨new, by rw [hstep, hmemo], fun before c after hnew hwork => ?_, ?_⟩
    · obtain ⟨answer, rfl⟩ := hfiltered c (by rw [hnew]; simp)
      exact absurd hwork id
    · intro b _ hnew hbuilt
      rw [hstep, hmemo] at hbuilt
      change (t.memo.build? b.place).isSome at hbuilt
      rw [hnew] at hbuilt
      exact absurd hbuilt (by simp)

end Componentry
