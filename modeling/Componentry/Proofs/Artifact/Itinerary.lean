import Componentry.Proofs.Artifact.Transparency
import Mathlib.Data.List.Induction

/-!
# How far a walk has come

A walk comes past artifacts one after another, in the order in which they are declared. A `Stop` is
one of them with the memo that the walk found there: what the artifact contributed and which calls
that took can be read off it. The `Itinerary` of a walk are its stops, and what the filter said on
the way.

A walk may be left and taken up again, and anything may be done to the memo in between.
`View.walked` is the walk after some items, each of them taken on a memo of its own.

Results:
* `contribution_callsFor`: an artifact that contributes makes calls for itself only.
* `refill_steps`: a walk looks for its next item step by step; a `View.Step` judges one component,
  or passes one artifact.
* `Visits.step`: what one step makes of the itinerary; a new stop `LeadsTo` where the walk is then.
* **`follows_walked`**: every walk follows an itinerary.
* **`walk_incremental`**: no call is made for an artifact after the one that the last item came
  from.
-/

namespace Componentry

/-! ## Calls for one artifact -/

/-- A call is made to provide an artifact. -/
def Call.Serves (a : Artifact) : Call → Prop
  | .filtered .. => False
  | .asked own .. => own = a.attributes
  | .produced id => id = a.id
  | .transformed id _ own _ => id = a.id ∧ own = a.attributes

/-- Whether a call is made to provide some artifact; the others are to a filter. -/
def Call.isService : Call → Bool
  | .filtered .. => false
  | .asked .. | .produced .. | .transformed .. => true

theorem Call.Serves.isService {a : Artifact} {c : Call} (h : c.Serves a) : c.isService = true := by
  cases c with
  | filtered _ _ => exact absurd h id
  | _ => rfl

namespace Trail

/-- The calls on a trail that were made to provide artifacts. -/
def services (t : Trail) : Trail := t.filter (·.2.isService)

theorem services_append (t t' : Trail) : services (t ++ t') = services t ++ services t' :=
  List.filter_append t t'

theorem snd_mem_of_mem_from {history : History} {calls : List Call} {e : History × Call}
    (h : e ∈ Trail.from history calls) : e.2 ∈ calls := by
  induction calls generalizing history with
  | nil => exact absurd h List.not_mem_nil
  | cons c rest ih =>
    rcases List.mem_cons.mp h with rfl | h
    · exact List.mem_cons_self
    · exact List.mem_cons_of_mem c (ih h)

end Trail

/-- Between two memos, calls were made for one artifact only. -/
def Memo.CallsFor (a : Artifact) (m m' : Memo) : Prop :=
  ∃ new, m'.calls = m.calls ++ new ∧ ∀ c ∈ new, c.Serves a

namespace Memo.CallsFor

variable {a : Artifact} {m m' m'' : Memo}

theorem none (h : m'.calls = m.calls) : CallsFor a m m' :=
  ⟨[], by rw [h, List.append_nil], fun _ h => absurd h List.not_mem_nil⟩

theorem one {c : Call} (h : m'.calls = m.calls ++ [c]) (hc : c.Serves a) : CallsFor a m m' :=
  ⟨[c], h, fun _ hmem => List.mem_singleton.mp hmem ▸ hc⟩

theorem trans (h : CallsFor a m m') (h' : CallsFor a m' m'') : CallsFor a m m'' := by
  obtain ⟨new, hnew, hserves⟩ := h
  obtain ⟨more, hmore, hserves'⟩ := h'
  refine ⟨new ++ more, by rw [hmore, hnew, List.append_assoc], fun c hc => ?_⟩
  exact (List.mem_append.mp hc).elim (hserves c) (hserves' c)

theorem serves (h : CallsFor a m m') : ∀ e ∈ m.trailTo m', e.2.Serves a := by
  obtain ⟨new, hnew, hserves⟩ := h
  intro e he
  rw [Memo.trailTo, hnew, List.drop_left] at he
  exact hserves e.2 (Trail.snd_mem_of_mem_from he)

theorem services (h : CallsFor a m m') : (m.trailTo m').services = m.trailTo m' :=
  List.filter_eq_self.mpr fun e he => (h.serves e he).isService

end Memo.CallsFor

namespace View

variable {v : View} {t : Trail} {m : Memo}

theorem filePath_callsFor (a : PlacedArtifact) (m : Memo) :
    Memo.CallsFor a.artifact m (m.filePath a).2 := by
  rcases filePath_cases a m with ⟨path, -, h⟩ | ⟨producer, outcome, -, -, h⟩ | ⟨producer, -, -, h⟩
  · rw [h]
    exact .none rfl
  · rw [h]
    exact .none rfl
  · rw [h]
    exact .one rfl rfl

theorem transformed_callsFor (pipeline : Pipeline) (a : Artifact) (file : Path)
    (requested : Attributes) (m : Memo) :
    Memo.CallsFor a m (m.transformed pipeline a.id file a.attributes requested).2 := by
  rcases transformed_cases pipeline a.id file a.attributes requested m with ⟨outcome, -, h⟩ | ⟨-, h⟩
  · rw [h]
    exact .none rfl
  · rw [h]
    exact .one rfl ⟨rfl, rfl⟩

theorem resolve_callsFor (v : View) (a : PlacedArtifact) (m : Memo) :
    Memo.CallsFor a.artifact m (v.resolve a m).2 := by
  unfold resolve
  dsimp only
  split
  · have hfile := filePath_callsFor a m
    split <;> rename_i heq <;> rw [heq] at hfile <;> exact hfile
  · have hasked : Memo.CallsFor a.artifact m
        (m.canTransform v.resolution.pipeline a.artifact.attributes v.requested).2 := .one rfl rfl
    split <;> rename_i m₁ hcan <;> rw [hcan] at hasked
    · exact hasked
    · have hfile := hasked.trans (filePath_callsFor a m₁)
      split <;> rename_i heq <;> rw [heq] at hfile
      · exact hfile
      · rename_i file m₂
        have hfiles := hfile.trans
          (transformed_callsFor v.resolution.pipeline a.artifact file v.requested m₂)
        split <;> rename_i heq' <;> rw [heq'] at hfiles <;> exact hfiles

/-- **An artifact that contributes makes calls for itself only.** -/
theorem contribution_callsFor (v : View) (a : PlacedArtifact) (m : Memo) :
    Memo.CallsFor a.artifact m (v.contribution a m).2 := by
  have hresolve := v.resolve_callsFor a m
  unfold contribution
  split <;> rename_i heq <;> rw [heq] at hresolve
  · exact hresolve
  · split
    · exact hresolve.trans (.none rfl)
    · exact hresolve

/-- Judging a component makes no call for an artifact. -/
theorem services_admitted (v : View) (c : PlacedComponent) (m : Memo) :
    (m.trailTo (v.admitted c m).2).services = [] := by
  obtain ⟨new, hmemo, hfiltered⟩ := v.accepts_memo c.id m
  have hcalls : (v.admitted c m).2.calls = m.calls ++ new := by
    have haccepts : (v.accepts c.id m).2.calls = m.calls ++ new := by rw [hmemo]
    unfold admitted
    split <;> rename_i heq <;> rw [heq] at haccepts <;> exact haccepts
  refine List.filter_eq_nil_iff.mpr fun e he => ?_
  rw [Memo.trailTo, hcalls, List.drop_left] at he
  obtain ⟨answer, hanswer⟩ := hfiltered e.2 (Trail.snd_mem_of_mem_from he)
  simp [hanswer, Call.isService]

end View

/-! ## Itineraries -/

/-- An artifact that a walk came past, and the memo that it found there. -/
structure Stop where
  artifact : PlacedArtifact
  memo : Memo

/-- Where a walk has been. -/
structure Itinerary where
  /-- What was said of the components, from the first one on. -/
  verdicts : List Bool := []
  stops : List Stop := []

/-- The artifacts of accepted components in declaration order, as far as there are verdicts. -/
def Resolution.accepted (r : Resolution) (verdicts : List Bool) : List PlacedArtifact :=
  (r.placed.zip verdicts).flatMap fun p => if p.2 then p.1.artifacts else []

theorem Resolution.has_of_accepted {r : Resolution} {verdicts : List Bool} {a : PlacedArtifact}
    (h : a ∈ r.accepted verdicts) : r.Has a := by
  obtain ⟨⟨c, verdict⟩, hmem, ha⟩ := List.mem_flatMap.mp h
  cases verdict with
  | false => exact absurd ha List.not_mem_nil
  | true => exact ⟨c, (List.of_mem_zip hmem).1, ha⟩

/-- One verdict more lets in the artifacts of one component, or nothing. -/
theorem Resolution.accepted_concat {r : Resolution} {verdicts : List Bool} (verdict : Bool)
    {c : PlacedComponent} {rest : List PlacedComponent}
    (hlength : verdicts.length ≤ r.placed.length)
    (hrest : r.placed.drop verdicts.length = c :: rest) :
    r.accepted (verdicts ++ [verdict]) =
      r.accepted verdicts ++ if verdict then c.artifacts else [] := by
  unfold accepted
  rw [View.zip_append_right _ _ _ hlength, hrest, List.flatMap_append]
  simp

/-- The cursor at the end of a walk. -/
def Cursor.ended : Cursor := { components := [] }

namespace View

variable {v : View} {t t₀ : Trail} {m m₀ : Memo} {memos : List Memo} {yielded : List Item}
  {i : Itinerary} {c : Cursor}

/-- What an artifact contributed at a stop. -/
def itemsAt (v : View) (s : Stop) : List Item := (v.contribution s.artifact s.memo).1

/-- The calls that this took. -/
def trailAt (v : View) (s : Stop) : Trail := s.memo.trailTo (v.contribution s.artifact s.memo).2

/-- **Where a walk has been when it comes to a cursor.** `memos` are those on which its items were
taken, `yielded` what it gave out so far. -/
structure Visits (v : View) (memos : List Memo) (t : Trail) (yielded : List Item) (i : Itinerary)
    (c : Cursor) : Prop where
  place : v.InPlace t c
  truthful : v.Truthful t
  judged : v.Judges [] t (v.resolution.placed.map (·.id)) i.verdicts
  length : i.verdicts.length ≤ v.resolution.placed.length
  components : c.components = v.resolution.placed.drop i.verdicts.length
  /-- The stops are at the first artifacts, and the others are to come. -/
  artifacts : i.stops.map (·.artifact) ++ c.artifacts = v.resolution.accepted i.verdicts
  /-- All calls for artifacts were made at the stops. -/
  services : t.services = i.stops.flatMap v.trailAt
  /-- So all items come from the stops. -/
  items : i.stops.flatMap v.itemsAt = yielded ++ c.pending
  /-- What is pending is the rest of what the last stop gave. -/
  pending : c.pending ≠ [] → ∃ before last given,
    i.stops = before ++ [last] ∧ v.itemsAt last = given ++ c.pending
  /-- The memo at a stop is what the walk has made of one of those it was given. -/
  memos : ∀ s ∈ i.stops, ∃ m ∈ memos, ∃ t t', v.Moves (t, m) (t', s.memo)

/-- A walk passed an artifact that was admitted, and has come to a later trail and memo. -/
def LeadsTo (v : View) (p : Stop) (s : Trail × Memo) : Prop :=
  ∃ t, v.Admits t p.artifact ∧
    v.Moves (t ++ v.trailAt p, (v.contribution p.artifact p.memo).2) s

theorem LeadsTo.moves {p : Stop} {s s' : Trail × Memo} (h : v.LeadsTo p s) (hmoves : v.Moves s s') :
    v.LeadsTo p s' := by
  obtain ⟨t, ha, hreach⟩ := h
  exact ⟨t, ha, hreach.trans hmoves⟩

theorem Visits.has (h : v.Visits memos t yielded i c) {s : Stop} (hs : s ∈ i.stops) :
    v.resolution.Has s.artifact := by
  have hmem : s.artifact ∈ v.resolution.accepted i.verdicts := by
    rw [← h.artifacts]
    exact List.mem_append_left c.artifacts (List.mem_map.mpr ⟨s, hs, rfl⟩)
  exact Resolution.has_of_accepted hmem

theorem Visits.honest (h : v.Visits memos t yielded i c)
    (hmemos : ∀ m ∈ memos, m.Honest v.resolution) {s : Stop} (hs : s ∈ i.stops) :
    s.memo.Honest v.resolution := by
  obtain ⟨m, hm, t, t', hmoves⟩ := h.memos s hs
  exact Moves.honest hmoves (hmemos m hm)

theorem visits_start (v : View) : v.Visits [] [] [] {} v.start where
  place := v.inPlace_start
  truthful := fun _ _ _ _ _ h => absurd h List.not_mem_nil
  judged := Judges.nil v [] _
  length := Nat.zero_le _
  components := rfl
  artifacts := by simp [Resolution.accepted, start]
  services := rfl
  items := rfl
  pending := fun h => absurd rfl h
  memos := fun _ h => absurd h List.not_mem_nil

/-! ## Steps -/

/-- **One step of a walk that looks for its next item**: it passes the next artifact of the present
component, or judges the next component if there is none. -/
inductive Step (v : View) : (Trail × Memo) × Cursor → (Trail × Memo) × Cursor → Prop
  | pass {t : Trail} {m : Memo} {a : PlacedArtifact} {rest : List PlacedArtifact}
      {cs : List PlacedComponent} : Step v ((t, m), ⟨[], a :: rest, cs⟩)
        ((t ++ m.trailTo (v.contribution a m).2, (v.contribution a m).2),
          ⟨(v.contribution a m).1, rest, cs⟩)
  | judge {t : Trail} {m : Memo} {c : PlacedComponent} {cs : List PlacedComponent} :
      Step v ((t, m), ⟨[], [], c :: cs⟩)
        ((t ++ m.trailTo (v.admitted c m).2, (v.admitted c m).2), ⟨[], (v.admitted c m).1, cs⟩)

/-- Several steps, one after another. -/
abbrev Steps (v : View) : (Trail × Memo) × Cursor → (Trail × Memo) × Cursor → Prop :=
  Relation.ReflTransGen v.Step

theorem drain_steps (v : View) (cs : List PlacedComponent) : ∀ (as : List PlacedArtifact)
    (t : Trail) (m : Memo), ∃ t', v.Steps ((t, m), ⟨[], as, cs⟩)
      ((t', (v.drain as m).2.2), ⟨(v.drain as m).1, (v.drain as m).2.1, cs⟩)
  | [], t, _ => ⟨t, .refl⟩
  | a :: rest, t, m => by
    have hpass : v.Step ((t, m), ⟨[], a :: rest, cs⟩) _ := .pass
    rw [drain]
    split <;> rename_i heq <;> rw [heq] at hpass
    · rename_i m₁
      obtain ⟨t', hrest⟩ := drain_steps v cs rest (t ++ m.trailTo m₁) m₁
      exact ⟨t', .head hpass hrest⟩
    · exact ⟨_, .single hpass⟩

theorem advance_steps (v : View) : ∀ (cs : List PlacedComponent) (t : Trail) (m : Memo),
    ∃ t', v.Steps ((t, m), ⟨[], [], cs⟩) ((t', (v.advance cs m).2), (v.advance cs m).1)
  | [], t, _ => ⟨t, .refl⟩
  | c :: rest, t, m => by
    have hjudge : v.Step ((t, m), ⟨[], [], c :: rest⟩) _ := .judge
    obtain ⟨t₁, hdrain⟩ := v.drain_steps rest (v.admitted c m).1
      (t ++ m.trailTo (v.admitted c m).2) (v.admitted c m).2
    have hcases := v.drain_cases (v.admitted c m).1 (v.admitted c m).2
    rw [advance]
    dsimp only
    split <;> rename_i heq <;> rw [heq] at hdrain hcases <;> dsimp only at hdrain hcases
    · rename_i left m₁
      obtain ⟨-, rfl⟩ | ⟨h, -⟩ := hcases
      · obtain ⟨t', hrest⟩ := advance_steps v rest t₁ m₁
        exact ⟨t', (Relation.ReflTransGen.head hjudge hdrain).trans hrest⟩
      · exact absurd rfl h
    · exact ⟨t₁, .head hjudge hdrain⟩

/-- **A walk looks for its next item step by step.** -/
theorem refill_steps (v : View) (t : Trail) (c : Cursor) (m : Memo) :
    ∃ t', v.Steps ((t, m), c) ((t', (v.refill c m).2), (v.refill c m).1) := by
  obtain ⟨pending, artifacts, components⟩ := c
  unfold refill
  cases pending with
  | cons _ _ => exact ⟨t, .refl⟩
  | nil =>
    obtain ⟨t₁, hdrain⟩ := v.drain_steps components artifacts t m
    have hcases := v.drain_cases artifacts m
    dsimp only
    split <;> rename_i heq <;> rw [heq] at hdrain hcases <;> dsimp only at hdrain hcases
    · rename_i left m₁
      obtain ⟨-, rfl⟩ | ⟨h, -⟩ := hcases
      · obtain ⟨t', hadvance⟩ := v.advance_steps components t₁ m₁
        exact ⟨t', hdrain.trans hadvance⟩
      · exact absurd rfl h
    · exact ⟨t₁, hdrain⟩

theorem advance_ended (v : View) : ∀ (cs : List PlacedComponent) (m : Memo),
    (v.advance cs m).1.pending = [] → (v.advance cs m).1 = .ended
  | [], _, _ => rfl
  | c :: rest, m, h => by
    rw [advance] at h ⊢
    dsimp only at h ⊢
    split at h
    · exact advance_ended v rest _ h
    · rename_i hsome _
      exact absurd h hsome

/-- It finds nothing only at the end. -/
theorem refill_ended (v : View) (c : Cursor) (m : Memo) (h : (v.refill c m).1.pending = []) :
    (v.refill c m).1 = .ended := by
  unfold refill at h ⊢
  split at h
  · rename_i hpending
    exact absurd (hpending.symm.trans h) (by simp)
  · split at h
    · exact v.advance_ended _ _ h
    · rename_i hsome _
      exact absurd h hsome

/-- A step is a sequence of moves from a cursor in place to a cursor in place. -/
theorem Step.moves {s s' : (Trail × Memo) × Cursor} (h : v.Step s s') (hc : v.InPlace s.1.1 s.2) :
    v.Moves s.1 s'.1 ∧ v.InPlace s'.1.1 s'.2 := by
  cases h with
  | @pass t m a rest cs =>
    obtain ⟨t', hacts⟩ := contribution_acts (hc.artifacts a List.mem_cons_self) m
    have hmoves := hacts.moves
    obtain rfl := Moves.trail_eq hmoves
    exact ⟨hmoves, fun b hb => (hc.artifacts b (List.mem_cons_of_mem a hb)).mono hmoves.subset,
      hc.components⟩
  | @judge t m c cs =>
    obtain ⟨t', -, hmoves, -, -, hadmits⟩ :=
      admitted_moves (hc.components.subset List.mem_cons_self) t m
    obtain rfl := Moves.trail_eq hmoves
    exact ⟨hmoves, hadmits, (List.suffix_cons c cs).trans hc.components⟩

/-- Passing an artifact is a stop. -/
theorem Visits.pass {a : PlacedArtifact} {rest : List PlacedArtifact} {cs : List PlacedComponent}
    (h : v.Visits memos t yielded i ⟨[], a :: rest, cs⟩) (hm : m₀ ∈ memos)
    (hreach : v.Moves (t₀, m₀) (t, m)) :
    v.Visits memos (t ++ m.trailTo (v.contribution a m).2) yielded
      { i with stops := i.stops ++ [⟨a, m⟩] } ⟨(v.contribution a m).1, rest, cs⟩ := by
  obtain ⟨hmoves, hplace⟩ := Step.moves (.pass (m := m)) h.place
  obtain ⟨t', hacts⟩ := contribution_acts (h.place.artifacts a List.mem_cons_self) m
  obtain rfl := Moves.trail_eq hacts.moves
  exact
    { place := hplace
      truthful := Moves.truthful hmoves h.truthful
      judged := h.judged.acts hacts
      length := h.length
      components := h.components
      artifacts := by
        rw [← h.artifacts, List.map_append, List.append_assoc]
        rfl
      services := by
        rw [Trail.services_append, h.services, List.flatMap_append, List.flatMap_singleton,
          (v.contribution_callsFor a m).services]
        rfl
      items := by
        have hitems := h.items
        rw [List.append_nil] at hitems
        rw [List.flatMap_append, List.flatMap_singleton, hitems]
        rfl
      pending := fun _ => ⟨i.stops, ⟨a, m⟩, [], rfl, rfl⟩
      memos := fun s hs => by
        rcases List.mem_append.mp hs with hs | hs
        · exact h.memos s hs
        · obtain rfl := List.mem_singleton.mp hs
          exact ⟨m₀, hm, t₀, t, hreach⟩ }

/-- Judging a component adds a verdict. -/
theorem Visits.judge {p : PlacedComponent} {cs : List PlacedComponent}
    (h : v.Visits memos t yielded i ⟨[], [], p :: cs⟩) (m : Memo) :
    ∃ verdict, v.Visits memos (t ++ m.trailTo (v.admitted p m).2) yielded
      { i with verdicts := i.verdicts ++ [verdict] } ⟨[], (v.admitted p m).1, cs⟩ := by
  obtain ⟨-, hplace⟩ := Step.moves (.judge (m := m)) h.place
  obtain ⟨t', verdict, hmoves, hjudged, hartifacts, -⟩ :=
    admitted_moves (h.place.components.subset List.mem_cons_self) t m
  obtain rfl := Moves.trail_eq hmoves
  have hrest : v.resolution.placed.drop i.verdicts.length = p :: cs := h.components.symm
  have hlength : i.verdicts.length < v.resolution.placed.length := by
    rw [← List.drop_eq_nil_iff.not.trans Nat.not_le, hrest]
    exact List.cons_ne_nil p cs
  refine ⟨verdict, ?_⟩
  exact
    { place := hplace
      truthful := Moves.truthful hmoves h.truthful
      judged := by
        refine h.judged.append (by rw [List.length_map]; exact h.length) ?_
        rw [← List.map_drop, hrest]
        exact ⟨hjudged.unfiltered, fun hsome => by simpa using hjudged.filtered hsome⟩
      length := by
        rw [List.length_append]
        exact hlength
      components := by
        rw [List.length_append, ← List.drop_drop, hrest]
        rfl
      artifacts := by
        have hpassed := h.artifacts
        rw [List.append_nil] at hpassed
        rw [Resolution.accepted_concat verdict h.length hrest, hartifacts, hpassed]
      services := by
        rw [Trail.services_append, v.services_admitted p m, List.append_nil]
        exact h.services
      items := h.items
      pending := fun hnil => absurd rfl hnil
      memos := h.memos }

/-- **What one step makes of the itinerary**: a stop more, or a verdict more. -/
theorem Visits.step {s s' : (Trail × Memo) × Cursor} (h : v.Visits memos s.1.1 yielded i s.2)
    (hm : m₀ ∈ memos) (hreach : v.Moves (t₀, m₀) s.1) (hstep : v.Step s s') :
    ∃ i', v.Visits memos s'.1.1 yielded i' s'.2 ∧
      ∀ p ∈ i'.stops, p ∈ i.stops ∨ v.LeadsTo p s'.1 := by
  cases hstep with
  | pass =>
    refine ⟨_, h.pass hm hreach, fun p hp => (List.mem_append.mp hp).imp_right fun hp => ?_⟩
    obtain rfl := List.mem_singleton.mp hp
    exact ⟨_, h.place.artifacts _ List.mem_cons_self, .refl⟩
  | judge =>
    obtain ⟨verdict, hjudge⟩ := h.judge _
    exact ⟨_, hjudge, fun _ => .inl⟩

theorem Visits.steps {s : (Trail × Memo) × Cursor} (h : v.Visits memos t yielded i c)
    (hm : m ∈ memos) (hsteps : v.Steps ((t, m), c) s) :
    v.Moves (t, m) s.1 ∧ ∃ i', v.Visits memos s.1.1 yielded i' s.2 ∧
      ∀ p ∈ i'.stops, p ∈ i.stops ∨ v.LeadsTo p s.1 := by
  induction hsteps with
  | refl => exact ⟨.refl, i, h, fun _ => .inl⟩
  | tail _ hstep ih =>
    obtain ⟨hreach, i₁, h₁, hearlier⟩ := ih
    obtain ⟨i₂, h₂, hnew⟩ := h₁.step hm hreach hstep
    have hmoves := (hstep.moves h₁.place).1
    refine ⟨hreach.trans hmoves, i₂, h₂, fun p hp => ?_⟩
    rcases hnew p hp with hp | hp
    · exact (hearlier p hp).imp_right (·.moves hmoves)
    · exact .inr hp

/-- Looking for the next item makes the itinerary longer. -/
theorem Visits.refill (h : v.Visits memos t yielded i c) (hm : m ∈ memos) :
    ∃ t' i', v.Moves (t, m) (t', (v.refill c m).2) ∧
      v.Visits memos t' yielded i' (v.refill c m).1 ∧
      ∀ p ∈ i'.stops, p ∈ i.stops ∨ v.LeadsTo p (t', (v.refill c m).2) := by
  obtain ⟨t', hsteps⟩ := v.refill_steps t c m
  obtain ⟨hmoves, i', h', hnew⟩ := h.steps hm hsteps
  exact ⟨t', i', hmoves, h', hnew⟩

/-- Yielding an item is no move. -/
theorem Visits.take (h : v.Visits memos t yielded i c) :
    v.Visits memos t (yielded ++ c.pending.head?.toList) i { c with pending := c.pending.tail } :=
  { h with
    place := ⟨h.place.artifacts, h.place.components⟩
    items := by
      rw [h.items]
      cases c.pending <;> simp
    pending := fun htail => by
      have hsome : c.pending ≠ [] := fun hnil => htail (by rw [hnil]; rfl)
      obtain ⟨before, last, given, hstops, hlast⟩ := h.pending hsome
      refine ⟨before, last, given ++ [c.pending.head hsome], hstops, ?_⟩
      rw [hlast, List.append_assoc, List.singleton_append, List.cons_head_tail] }

theorem Visits.mono (h : v.Visits memos t yielded i c) (more : List Memo) :
    v.Visits (memos ++ more) t yielded i c :=
  { h with
    memos := fun s hs => by
      obtain ⟨m, hm, hreach⟩ := h.memos s hs
      exact ⟨m, List.mem_append_left more hm, hreach⟩ }

end View

/-! ## Walks -/

/-- The items that a walk has come upon: those it answered, and those that are pending. -/
def Walk.items (w : Walk) : List Item := w.answers.filterMap id ++ w.cursor.pending

/-- A walk through a view after as many items as there are memos, each of them taken on the memo at
its place. -/
def View.walked (v : View) (memos : List Memo) : Walk :=
  memos.foldl (fun w m => (w.next m).1) (Walk.start v)

/-- **A walk follows an itinerary**, its items having been taken on `memos`. -/
structure Walk.Follows (w : Walk) (memos : List Memo) (i : Itinerary) : Prop where
  visits : w.view.Visits memos w.trail (w.answers.filterMap id) i w.cursor
  taken : w.answers.length = memos.length
  /-- The last item came from the last stop. -/
  last : ∀ earlier item, w.answers = earlier ++ [some item] → ∃ before last given,
    i.stops = before ++ [last] ∧ w.view.itemsAt last = given ++ item :: w.cursor.pending
  ended : none ∈ w.answers → w.cursor = .ended

namespace Walk

variable {w : Walk} {memos : List Memo} {i : Itinerary} {m : Memo}

theorem next_eq (w : Walk) (m : Memo) : w.next m =
    ({ w with
      cursor := { (w.view.refill w.cursor m).1 with
        pending := (w.view.refill w.cursor m).1.pending.tail }
      answers := w.answers ++ [(w.view.refill w.cursor m).1.pending.head?]
      trail := w.trail ++ m.trailTo (w.view.refill w.cursor m).2 },
        (w.view.refill w.cursor m).2) := by
  unfold next
  rw [View.next_eq]

/-- What is pending is yielded without a call. -/
theorem next_pending (h : w.cursor.pending ≠ []) (m : Memo) : (w.next m).2 = m := by
  rw [next_eq]
  unfold View.refill
  split
  · rfl
  · rename_i hnil
    exact absurd hnil h

/-- At the end there is nothing to yield, and nothing to do. -/
theorem next_ended (h : w.cursor = .ended) (m : Memo) :
    (w.next m).2 = m ∧ (w.next m).1.cursor = .ended ∧
      (w.next m).1.answers = w.answers ++ [none] := by
  rw [next_eq, h]
  exact ⟨rfl, rfl, rfl⟩

theorem follows_start (v : View) : (start v).Follows [] {} where
  visits := v.visits_start
  taken := rfl
  last := fun _ _ h => absurd h (by simp [start])
  ended := fun h => absurd h List.not_mem_nil

/-- A walk that has ended came past all artifacts of accepted components. -/
theorem Follows.complete (h : w.Follows memos i) (hnone : none ∈ w.answers) :
    i.verdicts.length = w.view.resolution.placed.length ∧
      i.stops.map (·.artifact) = w.view.resolution.accepted i.verdicts := by
  have hcomponents := h.visits.components
  have hartifacts := h.visits.artifacts
  rw [h.ended hnone] at hcomponents hartifacts
  rw [Cursor.ended, List.append_nil] at hartifacts
  exact ⟨Nat.le_antisymm h.visits.length (List.drop_eq_nil_iff.mp hcomponents.symm), hartifacts⟩

/-- Taking an item leads on along the itinerary. -/
theorem Follows.next (h : w.Follows memos i) (m : Memo) :
    ∃ i', (w.next m).1.Follows (memos ++ [m]) i' ∧
      ∀ p ∈ i'.stops, p ∈ i.stops ∨ w.view.LeadsTo p ((w.next m).1.trail, (w.next m).2) := by
  obtain ⟨t', i', hmoves, hvisits, hnew⟩ :=
    (h.visits.mono [m]).refill (List.mem_append_right memos List.mem_cons_self)
  obtain rfl := View.Moves.trail_eq hmoves
  have hanswers : (w.next m).1.answers =
      w.answers ++ [(w.view.refill w.cursor m).1.pending.head?] := by rw [next_eq]
  refine ⟨i', ⟨?_, ?_, fun earlier item hlast => ?_, fun hnone => ?_⟩, by rwa [next_eq]⟩
  · rw [hanswers, List.filterMap_append, next_eq]
    have htake := hvisits.take
    cases hitem : (w.view.refill w.cursor m).1.pending.head? <;> rw [hitem] at htake <;>
      exact htake
  · rw [hanswers, List.length_append, List.length_append, h.taken]
    rfl
  · obtain ⟨-, hitem⟩ := List.append_inj' (hanswers.symm.trans hlast) rfl
    obtain ⟨rest, hpending⟩ := List.head?_eq_some_iff.mp (List.cons.inj hitem).1
    obtain ⟨before, last, given, hstops, hgiven⟩ := hvisits.pending (by rw [hpending]; simp)
    refine ⟨before, last, given, hstops, ?_⟩
    rw [next_eq, hpending] at *
    exact hgiven
  · rw [hanswers] at hnone
    rcases List.mem_append.mp hnone with hnone | hnone
    · exact (next_ended (h.ended hnone) m).2.1
    · have hpending := List.head?_eq_none_iff.mp (List.mem_singleton.mp hnone).symm
      rw [next_eq]
      dsimp only
      rw [w.view.refill_ended w.cursor m hpending]
      rfl

end Walk

namespace View

theorem walked_concat (v : View) (memos : List Memo) (m : Memo) :
    v.walked (memos ++ [m]) = ((v.walked memos).next m).1 := List.foldl_concat ..

@[simp] theorem view_walked (v : View) (memos : List Memo) : (v.walked memos).view = v := by
  induction memos using List.reverseRecOn with
  | nil => rfl
  | append_singleton memos m ih =>
    rw [walked_concat]
    exact ih

/-- **Every walk follows an itinerary.** -/
theorem follows_walked (v : View) (memos : List Memo) :
    ∃ i, (v.walked memos).Follows memos i := by
  induction memos using List.reverseRecOn with
  | nil => exact ⟨{}, Walk.follows_start v⟩
  | append_singleton memos m ih =>
    obtain ⟨i, h⟩ := ih
    obtain ⟨i', h', -⟩ := h.next m
    rw [walked_concat]
    exact ⟨i', h'⟩

/-- **Walks are incremental.** Take any number of items of a new walk, whatever is done to the memo
in between. The walk has an itinerary, and all that it asked for artifacts, it asked at a stop for
the artifact there. The stops are at the first artifacts of the accepted components, in declaration
order, and the last item came from the last stop. While more of what that stop gave is pending,
taking an item does nothing to the memo; and neither does it once there was none, when there is none
ever after. -/
theorem walk_incremental (v : View) (memos : List Memo) :
    ∃ i, (v.walked memos).Follows memos i ∧
      (∀ e ∈ (v.walked memos).trail, e.2.isService →
        ∃ s ∈ i.stops, e ∈ v.trailAt s ∧ e.2.Serves s.artifact.artifact) ∧
      ∀ m,
        ((v.walked memos).cursor.pending ≠ [] → ((v.walked memos).next m).2 = m) ∧
        (none ∈ (v.walked memos).answers → ((v.walked memos).next m).2 = m ∧
          ((v.walked memos).next m).1.answers = (v.walked memos).answers ++ [none]) := by
  obtain ⟨i, h⟩ := v.follows_walked memos
  refine ⟨i, h, fun e he hservice => ?_, fun m => ⟨fun hpending => ?_, fun hnone => ?_⟩⟩
  · have hmem : e ∈ (v.walked memos).trail.services := List.mem_filter.mpr ⟨he, hservice⟩
    rw [h.visits.services, view_walked] at hmem
    obtain ⟨s, hs, hes⟩ := List.mem_flatMap.mp hmem
    exact ⟨s, hs, hes, (v.contribution_callsFor s.artifact s.memo).serves e hes⟩
  · exact Walk.next_pending hpending m
  · obtain ⟨hmemo, -, hanswers⟩ := Walk.next_ended (h.ended hnone) m
    exact ⟨hmemo, hanswers⟩

end View

/-! ## Tours -/

/-- Whatever the user does keeps every walk one through a view whose items were taken on honest
memos. -/
theorem Resolution.exists_walked (r : Resolution) (actions : List Tour.Action) {w : Walk}
    (hw : w ∈ (r.tour actions).walks) :
    ∃ request memos, w = (r.view request).walked memos ∧ ∀ m ∈ memos, m.Honest r := by
  refine honest_induction (P := fun t => ∀ w ∈ t.walks, ∃ request memos,
    w = (r.view request).walked memos ∧ ∀ m ∈ memos, m.Honest r)
    (fun _ h => absurd h List.not_mem_nil) (fun t a ht hm h => ?_) actions w hw
  rcases Tour.step_cases r t a with ⟨-, hwalks⟩ | ⟨i, w, -, hw, hstep⟩ | ⟨v, -, component, hstep⟩
  · intro w hw
    rcases hwalks w hw with hw | ⟨v, hv, rfl⟩
    · exact h w hw
    · obtain ⟨request, rfl⟩ := ht.views v hv
      exact ⟨request, [], rfl, fun _ h => absurd h List.not_mem_nil⟩
  · rw [hstep]
    intro w' hw'
    rcases List.mem_or_eq_of_mem_set hw' with hw' | rfl
    · exact h w' hw'
    · obtain ⟨request, memos, rfl, hmemos⟩ := h w (List.mem_of_getElem? hw)
      refine ⟨request, memos ++ [t.memo], ((r.view request).walked_concat memos t.memo).symm,
        fun m hmem => ?_⟩
      rcases List.mem_append.mp hmem with hmem | hmem
      · exact hmemos m hmem
      · exact List.mem_singleton.mp hmem ▸ hm
  · rw [hstep]
    exact h

end Componentry
