import Componentry.Proofs.Artifact.Direct
import Componentry.Proofs.Artifact.Ledger

/-!
# Walking on

A walk that takes item after item comes past every artifact of the components that its view
includes. `Cursor.ahead` are the artifacts it has still to come past, be their components included
or not.

Results:
* `next_onward`: an artifact ahead of a walk without a filter is transformed by the next item, if it
  comes to a transform at all, or is still ahead of the walk, which then has less to go.
* **`exists_kept`**: so there is a tour that ends with the outcome of any transform kept.
-/

namespace Componentry

/-- The artifacts that a walk has still to come past. -/
def Cursor.ahead (c : Cursor) : List PlacedArtifact :=
  c.artifacts ++ c.components.flatMap (·.artifacts)

namespace View

variable {v : View} {t : Trail} {m m' : Memo} {a : PlacedArtifact}

/-! ## Coming past artifacts -/

/-- The memo has an outcome for the identity of an artifact. -/
def Kept (v : View) (m : Memo) (a : PlacedArtifact) : Prop :=
  ∃ outcome, m.transform? (a.artifact.id, v.requested) = some outcome

theorem Kept.moves {t' : Trail} (h : v.Kept m a) (hmoves : v.Moves (t, m) (t', m')) :
    v.Kept m' a := by
  obtain ⟨outcome, hkept⟩ := h
  exact ⟨outcome, (Moves.stays hmoves).transforms hkept⟩

/-- Providing an artifact that it comes to a transform for leaves an outcome. -/
theorem resolve_kept (hr : v.resolution.Steady) (hm : m.Honest v.resolution)
    (ha : v.resolution.Has a) (hneeds : (v.outcome? a.artifact).isSome) :
    v.Kept (v.resolve a m).2 a := by
  obtain ⟨own, hown⟩ := Option.isSome_iff_exists.mp hneeds
  obtain ⟨file, hsuits, hcan, hnative, -⟩ := outcome?_cases hown
  unfold resolve
  simp only [hsuits, Bool.false_eq_true, if_false, Memo.canTransform, hr.canTransform m.calls, hcan]
  have hasked : (m.called (.asked a.artifact.attributes v.requested true) []).Honest
      v.resolution := hm.more (List.prefix_append _ _) rfl rfl
  have hfst := (filePath_fst hr hasked ha).trans hnative
  rcases hfile : (m.called (.asked a.artifact.attributes v.requested true) []).filePath a with
    ⟨outcome, m'⟩
  rw [hfile] at hfst
  obtain rfl : outcome = .ok file := hfst
  dsimp only
  have hkept : v.Kept (m'.transformed v.resolution.pipeline a.artifact.id file
      a.artifact.attributes v.requested).2 a := by
    rcases transformed_cases v.resolution.pipeline a.artifact.id file a.artifact.attributes
      v.requested m' with ⟨outcome, hkept, h⟩ | ⟨-, h⟩
    · exact ⟨outcome, by rw [h]; exact hkept⟩
    · exact ⟨_, by rw [h]; exact if_pos rfl⟩
  split <;> rename_i heq <;> rw [heq] at hkept <;> exact hkept

theorem contribution_kept (hr : v.resolution.Steady) (hm : m.Honest v.resolution)
    (ha : v.resolution.Has a) (hneeds : (v.outcome? a.artifact).isSome) :
    v.Kept (v.contribution a m).2 a := by
  have hkept := resolve_kept hr hm ha hneeds
  unfold contribution
  split <;> rename_i heq <;> rw [heq] at hkept
  · exact hkept
  · split <;> exact hkept

/-- Looking for an item among artifacts comes past all of them, or finds one and leaves fewer. -/
theorem drain_cases (v : View) : ∀ (as : List PlacedArtifact) (m : Memo),
    ((v.drain as m).1 = [] ∧ (v.drain as m).2.1 = []) ∨
      ((v.drain as m).1 ≠ [] ∧ (v.drain as m).2.1.length < as.length)
  | [], _ => Or.inl ⟨rfl, rfl⟩
  | a :: rest, m => by
    rw [drain]
    split
    · rename_i m' _
      exact (drain_cases v rest m').imp_right (And.imp_right Nat.lt_succ_of_lt)
    · rename_i hitems _
      exact Or.inr ⟨hitems, Nat.lt_succ_self _⟩

/-- The artifacts that are come past are transformed. -/
theorem drain_onward (hr : v.resolution.Steady) : ∀ (as : List PlacedArtifact) {t : Trail}
    {m : Memo}, (∀ b ∈ as, v.Admits t b) → m.Honest v.resolution →
    ∀ a ∈ as, (v.outcome? a.artifact).isSome →
      v.Kept (v.drain as m).2.2 a ∨ a ∈ (v.drain as m).2.1
  | [], _, _, _, _, _, h, _ => absurd h List.not_mem_nil
  | b :: rest, t, m, hadmits, hm, a, ha, hneeds => by
    obtain ⟨t', hacts⟩ := contribution_acts (hadmits b List.mem_cons_self) m
    have hrest : ∀ c ∈ rest, v.Admits t' c := fun c hc =>
      (hadmits c (List.mem_cons_of_mem b hc)).mono hacts.subset
    have hm' := Moves.honest hacts.moves hm
    have hkept : a = b → v.Kept (v.contribution b m).2 a := by
      rintro rfl
      exact contribution_kept hr hm (hadmits a ha).has hneeds
    rw [drain]
    split <;> rename_i heq <;> rw [heq] at hacts hm' hkept
    · rename_i m₁
      rcases List.mem_cons.mp ha with ha | ha
      · obtain ⟨t'', hmore, -⟩ := drain_acts rest m₁ hrest
        exact Or.inl ((hkept ha).moves hmore.moves)
      · exact drain_onward hr rest hrest hm' a ha hneeds
    · rcases List.mem_cons.mp ha with ha | ha
      · exact Or.inl (hkept ha)
      · exact Or.inr ha

theorem admitted_of_none (hnone : v.filter = none) (c : PlacedComponent) (m : Memo) :
    v.admitted c m = (c.artifacts, m) := by
  unfold admitted accepts Memo.accepts
  rw [hnone]

theorem admits_of_none (hnone : v.filter = none) {c : PlacedComponent}
    (hc : c ∈ v.resolution.placed) (ha : a ∈ c.artifacts) (t : Trail) : v.Admits t a :=
  ⟨c, hc, ha, fun f hf => absurd (hnone.symm.trans hf) (by simp)⟩

/-- Looking for an item among components: an artifact is transformed, or still ahead, and then there
is less to go. -/
theorem advance_onward (hr : v.resolution.Steady) (hnone : v.filter = none) :
    ∀ (cs : List PlacedComponent) {m : Memo}, cs <:+ v.resolution.placed →
    m.Honest v.resolution → ∀ a ∈ cs.flatMap (·.artifacts), (v.outcome? a.artifact).isSome →
      v.Kept (v.advance cs m).2 a ∨
        a ∈ (v.advance cs m).1.ahead ∧
          (v.advance cs m).1.ahead.length < (cs.flatMap (·.artifacts)).length
  | [], _, _, _, _, h, _ => absurd h (by simp)
  | c :: rest, m, hcs, hm, a, ha, hneeds => by
    have hrest : rest <:+ v.resolution.placed := (List.suffix_cons c rest).trans hcs
    have hadmits : ∀ b ∈ c.artifacts, v.Admits [] b := fun b hb =>
      admits_of_none hnone (hcs.subset List.mem_cons_self) hb []
    obtain ⟨t', hacts, -⟩ := drain_acts c.artifacts m hadmits
    have hm' := Moves.honest hacts.moves hm
    have hdrain := drain_onward hr c.artifacts hadmits hm a
    have hcases := v.drain_cases c.artifacts m
    rw [List.flatMap_cons, List.mem_append] at ha
    rw [advance, admitted_of_none hnone]
    dsimp only
    split <;> rename_i heq <;> rw [heq] at hm' hdrain hcases <;> dsimp only at hm' hdrain hcases
    · rename_i left m₁
      obtain ⟨-, rfl⟩ | ⟨h, -⟩ := hcases
      · rcases ha with ha | ha
        · obtain ⟨t'', hmore, -⟩ := advance_moves rest [] m₁ hrest
          have hkept : v.Kept m₁ a := (hdrain ha hneeds).resolve_right List.not_mem_nil
          exact Or.inl (hkept.moves hmore)
        · refine (advance_onward hr hnone rest hrest hm' a ha hneeds).imp_right
            (And.imp_right fun hlen => ?_)
          rw [List.flatMap_cons, List.length_append]
          omega
      · exact absurd rfl h
    · rename_i hitems
      have hlen := (hcases.resolve_left fun h => hitems h.1).2
      have hshrinks : ∀ left : List PlacedArtifact, left.length < c.artifacts.length →
          (left ++ rest.flatMap (·.artifacts)).length <
            ((c :: rest).flatMap (·.artifacts)).length := by
        intro left hleft
        rw [List.flatMap_cons, List.length_append, List.length_append]
        omega
      rcases ha with ha | ha
      · exact (hdrain ha hneeds).imp_right fun hleft =>
          ⟨List.mem_append_left _ hleft, hshrinks _ hlen⟩
      · exact Or.inr ⟨List.mem_append_right _ ha, hshrinks _ hlen⟩

/-- **Taking an item on the way to an artifact**: it is transformed, or still ahead, and then there
is less to go. -/
theorem next_onward (hr : v.resolution.Steady) (hnone : v.filter = none) {c : Cursor}
    (hc : v.InPlace t c) (hm : m.Honest v.resolution) (ha : a ∈ c.ahead)
    (hneeds : (v.outcome? a.artifact).isSome) :
    v.Kept (v.next c m).2.2 a ∨
      a ∈ (v.next c m).2.1.ahead ∧
        ((v.next c m).2.1.ahead.length < c.ahead.length ∨
          (v.next c m).2.1.ahead.length = c.ahead.length ∧
            (v.next c m).2.1.pending.length < c.pending.length) := by
  rw [next_eq]
  change _ ∨ a ∈ (v.refill c m).1.ahead ∧ ((v.refill c m).1.ahead.length < _ ∨
    (v.refill c m).1.ahead.length = _ ∧ (v.refill c m).1.pending.tail.length < _)
  unfold refill
  split
  · rename_i item rest hpending
    exact Or.inr ⟨ha, Or.inr ⟨rfl, by rw [hpending]; exact Nat.lt_succ_self _⟩⟩
  · obtain ⟨t', hacts, -⟩ := drain_acts c.artifacts m hc.artifacts
    have hm' := Moves.honest hacts.moves hm
    have hdrain := drain_onward hr c.artifacts hc.artifacts hm a
    have hcases := v.drain_cases c.artifacts m
    have hahead : c.ahead.length =
        c.artifacts.length + (c.components.flatMap (·.artifacts)).length := List.length_append
    split <;> rename_i heq <;> rw [heq] at hm' hdrain hcases <;> dsimp only at hm' hdrain hcases
    · rename_i left m₁
      obtain ⟨-, rfl⟩ | ⟨h, -⟩ := hcases
      · rcases List.mem_append.mp ha with ha | ha
        · obtain ⟨t'', hmore, -⟩ := advance_moves c.components [] m₁ hc.components
          have hkept : v.Kept m₁ a := (hdrain ha hneeds).resolve_right List.not_mem_nil
          exact Or.inl (hkept.moves hmore)
        · refine (advance_onward hr hnone c.components hc.components hm' a ha hneeds).imp_right
            (And.imp_right fun hlen => Or.inl ?_)
          omega
      · exact absurd rfl h
    · rename_i items left m₁ hitems
      have hlen := (hcases.resolve_left fun h => hitems h.1).2
      have hless : (left ++ c.components.flatMap (·.artifacts)).length < c.ahead.length := by
        rw [List.length_append]
        omega
      rcases List.mem_append.mp ha with ha | ha
      · exact (hdrain ha hneeds).imp_right fun hleft =>
          ⟨List.mem_append_left _ hleft, Or.inl hless⟩
      · exact Or.inr ⟨List.mem_append_right _ ha, Or.inl hless⟩

end View

/-! ## Tours that go on -/

/-- A tour that goes on with some more items of one walk. -/
def Tour.onward (r : Resolution) (t : Tour) (walk n : Nat) : Tour :=
  (List.replicate n (.next walk)).foldl (Tour.step r) t

/-- **A walk without a filter comes past every artifact ahead of it**, and leaves the outcome of its
transform. -/
theorem Tour.exists_kept {r : Resolution} (hr : r.Steady) {t : Tour} (ht : t.InPlace r)
    (hm : t.memo.Honest r) {i : Nat} {w : Walk} (hw : t.walks[i]? = some w)
    (hnone : w.view.filter = none) {a : PlacedArtifact} (ha : a ∈ w.cursor.ahead)
    (hneeds : (w.view.outcome? a.artifact).isSome) :
    ∃ n, w.view.Kept (t.onward r i n).memo a := by
  have hmem := List.mem_of_getElem? hw
  have hstep : Tour.step r t (.next i) =
      { t with walks := t.walks.set i (w.next t.memo).1, memo := (w.next t.memo).2 } := by
    unfold Tour.step
    dsimp only
    rw [hw]
  have hi : i < t.walks.length := (List.getElem?_eq_some_iff.mp hw).1
  have hw' : (Tour.step r t (.next i)).walks[i]? = some (w.next t.memo).1 := by
    rw [hstep]
    exact List.getElem?_set_self hi
  obtain rfl := ht.resolution_eq hmem
  rcases View.next_onward hr hnone (ht.walks w hmem).2 hm ha hneeds with hkept | ⟨hahead, hless⟩
  · refine ⟨1, ?_⟩
    change w.view.Kept (Tour.step w.view.resolution t (.next i)).memo a
    rw [hstep]
    exact hkept
  · obtain ⟨n, hn⟩ := Tour.exists_kept hr (ht.step (.next i)) (hm.step ht (.next i)) hw' hnone
      hahead hneeds
    exact ⟨n + 1, hn⟩
termination_by (w.cursor.ahead.length, w.cursor.pending.length)
decreasing_by
  -- Either there is less ahead, or as much and one item less is pending.
  rw [Prod.lex_def]
  exact hless

end Componentry
