import Componentry.Proofs.Artifact.Onward

/-!
# When the memo of transforms is transparent

A resolution is `Transparent` if every artifact contributes to every view, whatever was done before,
what it does without a memo. With steady collaborators this is so exactly in the unambiguous ones.

A walk without a memo asks the filter about one component after another, and yields what the
artifacts of the accepted ones contribute by themselves (`View.directItems`). `Walk.Faithful` says
that a walk answers that, item for item. What its filter answered is read off the trail of the walk,
so filters may answer differently at different times.

Results:
* `unambiguous_of_transparent`: to bring about a wrong contribution, walk on until the transform of
  one of the two artifacts is kept.
* `refill_tracks`, `Tracks.take`: a walk whose artifacts contribute what they do without a memo
  stays on the track of one without a memo.
* **`transparent_iff_unambiguous`**: the memo is transparent exactly in unambiguous resolutions.
* **`faithful_tour`**: and walks in these are faithful.
-/

namespace Componentry

/-- **Whenever an artifact contributes to a view, it contributes what it does without a memo.** -/
def Resolution.Transparent (r : Resolution) : Prop :=
  ∀ actions request a, r.Has a →
    ((r.view request).contribution a (r.tour actions).memo).1 = (r.view request).direct a.artifact

namespace View

/-- The items of artifacts without a memo. -/
def directOf (v : View) (as : List PlacedArtifact) : List Item :=
  as.flatMap fun a => v.direct a.artifact

/-- The items of components without a memo, as far as there are verdicts on them. -/
def directItems (v : View) : List PlacedComponent → List Bool → List Item
  | c :: cs, verdict :: verdicts =>
    v.directOf (if verdict then c.artifacts else []) ++ v.directItems cs verdicts
  | _, _ => []

/-- A trail says of the filter what it answered. -/
def Truthful (v : View) (t : Trail) : Prop :=
  ∀ filter, v.filter = some filter → ∀ h id answer, (h, .filtered id answer) ∈ t →
    filter h id = answer

end View

/-- **A walk that answers what a walk without a memo does**: `verdicts` are those that the filter
gave in it, on the components from the first one on. -/
structure Walk.Faithful (w : Walk) (verdicts : List Bool) : Prop where
  judged : w.view.Judges [] w.trail (w.view.resolution.placed.map (·.id)) verdicts
  truthful : w.view.Truthful w.trail
  length : verdicts.length ≤ w.view.resolution.placed.length
  /-- Each answer is the item at its place, or none after the last item. -/
  yields : ∀ (n : Nat) answer, w.answers[n]? = some answer →
    answer = (w.view.directItems w.view.resolution.placed verdicts)[n]?
  /-- A walk that has ended has judged all components. -/
  ends : none ∈ w.answers → verdicts.length = w.view.resolution.placed.length

/-! ## Transparent memos make unambiguous resolutions -/

theorem Resolution.Has.ahead {r : Resolution} {a : PlacedArtifact} (ha : r.Has a)
    (request : ViewRequest) : a ∈ (r.view request).start.ahead := by
  obtain ⟨c, hc, hmem⟩ := ha
  exact List.mem_flatMap.mpr ⟨c, hc, hmem⟩

/-- **A memo is transparent in unambiguous resolutions only.** -/
theorem Resolution.unambiguous_of_transparent {r : Resolution} (hr : r.Steady)
    (h : r.Transparent) : r.Unambiguous := by
  intro request a b x y ha hb hid hx hy
  -- A view of the same request that shows failures and includes everything.
  let plain : ViewRequest := { request with filter := none, lenient := false }
  let walking : List Tour.Action := [.view plain, .walk 0]
  obtain ⟨n, z, hz⟩ : ∃ n, (r.view plain).Kept ((r.tour walking).onward r 0 n).memo a :=
    Tour.exists_kept hr (r.inPlace_tour walking) (r.honest_tour walking)
      (w := Walk.start (r.view plain)) rfl rfl (ha.ahead plain) (Option.isSome_of_eq_some hx)
  let actions := walking ++ List.replicate n (.next 0)
  have hmemo : (r.tour actions).memo = ((r.tour walking).onward r 0 n).memo :=
    congrArg Tour.memo List.foldl_append
  have hkept : ∀ c own, r.Has c → c.artifact.id = a.artifact.id →
      (r.view request).outcome? c.artifact = some own → own = z := by
    intro c own hc hid hown
    have hown' : (r.view plain).outcome? c.artifact = some own := hown
    have hdirect := h actions plain c hc
    rw [View.contribution_fst, View.resolve_fst hr (r.honest_tour actions) hc, hmemo, hid,
      hz] at hdirect
    exact View.eq_of_itemsOf_provide rfl hown' hdirect
  rw [hkept a x ha rfl hx, hkept b y hb hid.symm hy]

/-! ## Verdicts -/

namespace View

variable {v : View} {t t' t'' : Trail} {m m' : Memo}

/-- Providing artifacts asks no filter. -/
theorem Acts.verdicts {s s' : Trail × Memo} (h : v.Acts s s') : s'.1.verdicts = s.1.verdicts := by
  induction h with
  | refl => rfl
  | tail _ hact ih =>
    refine Eq.trans ?_ ih
    cases hact with
    | log _ => rfl
    | ask _ _ => exact (Trail.verdicts_append _ _).trans (List.append_nil _)
    | build _ _ _ _ => exact (Trail.verdicts_append _ _).trans (List.append_nil _)
    | transform _ _ _ _ _ => exact (Trail.verdicts_append _ _).trans (List.append_nil _)

theorem Judges.nil (v : View) (t : Trail) (ids : List ComponentId) : v.Judges t t ids [] :=
  ⟨fun _ _ h => absurd h List.not_mem_nil, fun _ => by rw [List.zip_nil_right, List.append_nil]⟩

theorem zip_append_right {α β : Type} : ∀ (l : List α) (k k' : List β), k.length ≤ l.length →
    l.zip (k ++ k') = l.zip k ++ (l.drop k.length).zip k'
  | l, [], k', _ => by rw [List.zip_nil_right]; rfl
  | [], _ :: _, _, h => absurd h (by simp)
  | x :: l, y :: k, k', h => by
    simp only [List.cons_append, List.zip_cons_cons, List.length_cons, List.drop_succ_cons]
    rw [zip_append_right l k k' (Nat.le_of_succ_le_succ h)]

/-- Verdicts on the components that follow. -/
theorem Judges.append {ids : List ComponentId} {verdicts more : List Bool}
    (h : v.Judges t t' ids verdicts) (hlength : verdicts.length ≤ ids.length)
    (h' : v.Judges t' t'' (ids.drop verdicts.length) more) :
    v.Judges t t'' ids (verdicts ++ more) where
  unfiltered := fun hnone verdict hmem =>
    (List.mem_append.mp hmem).elim (h.unfiltered hnone verdict) (h'.unfiltered hnone verdict)
  filtered := fun hsome => by
    rw [h'.filtered hsome, h.filtered hsome, zip_append_right ids verdicts more hlength,
      List.append_assoc]

theorem Judges.acts {ids : List ComponentId} {verdicts : List Bool}
    (h : v.Judges t t' ids verdicts) (hacts : v.Acts (t', m) (t'', m')) :
    v.Judges t t'' ids verdicts :=
  ⟨h.unfiltered, fun hsome => (Acts.verdicts hacts).trans (h.filtered hsome)⟩

/-! ## The track of a walk -/

/-- Artifacts contribute to the view what they contribute without a memo. -/
def Exact (v : View) : Prop :=
  ∀ a m, v.resolution.Has a → m.Honest v.resolution →
    (v.contribution a m).1 = v.direct a.artifact

/-- What is found among artifacts, and what is left of them, are their items without a memo. -/
theorem drain_direct (hv : v.Exact) : ∀ (as : List PlacedArtifact) {t : Trail} {m : Memo},
    (∀ a ∈ as, v.Admits t a) → m.Honest v.resolution →
    (v.drain as m).1 ++ v.directOf (v.drain as m).2.1 = v.directOf as
  | [], _, _, _, _ => rfl
  | a :: rest, t, m, hadmits, hm => by
    obtain ⟨t', hacts⟩ := contribution_acts (hadmits a List.mem_cons_self) m
    have hrest : ∀ b ∈ rest, v.Admits t' b := fun b hb =>
      (hadmits b (List.mem_cons_of_mem a hb)).mono hacts.subset
    have hm' := Moves.honest hacts.moves hm
    have hitems := hv a m (hadmits a List.mem_cons_self).has hm
    rw [drain]
    split <;> rename_i heq <;> rw [heq] at hm' hitems
    · rw [drain_direct hv rest hrest hm', directOf, directOf, List.flatMap_cons, ← hitems]
      rfl
    · rw [directOf, directOf, List.flatMap_cons, ← hitems]

theorem directItems_nil (v : View) (cs : List PlacedComponent) : v.directItems cs [] = [] := by
  cases cs <;> rfl

theorem directItems_append (v : View) : ∀ (cs : List PlacedComponent) (verdicts more : List Bool),
    v.directItems cs (verdicts ++ more) =
      v.directItems cs verdicts ++ v.directItems (cs.drop verdicts.length) more
  | _, [], _ => by simp [directItems]
  | [], _ :: _, _ => by simp [directItems]
  | c :: cs, verdict :: verdicts, more => by
    simp only [List.cons_append, directItems, List.length_cons, List.drop_succ_cons]
    rw [directItems_append v cs verdicts more, List.append_assoc]

/-- A cursor that a walk through the components `cs` comes to: `verdicts` were given on the way, and
what they let in is pending or left. -/
structure Reaches (v : View) (t t' : Trail) (cs : List PlacedComponent) (verdicts : List Bool)
    (c : Cursor) : Prop where
  judged : v.Judges t t' (cs.map (·.id)) verdicts
  length : verdicts.length ≤ cs.length
  components : c.components = cs.drop verdicts.length
  items : v.directItems cs verdicts = c.pending ++ v.directOf c.artifacts
  ended : c.pending = [] → c.artifacts = [] ∧ c.components = []

/-- Looking for an item among components leads on along the track. -/
theorem advance_reaches (hv : v.Exact) : ∀ (cs : List PlacedComponent) (t : Trail) {m : Memo},
    cs <:+ v.resolution.placed → m.Honest v.resolution →
    ∃ t' verdicts, v.Moves (t, m) (t', (v.advance cs m).2) ∧
      v.Reaches t t' cs verdicts (v.advance cs m).1
  | [], t, m, _, _ =>
    ⟨t, [], .refl, ⟨Judges.nil v t [], Nat.le_refl _, rfl, rfl, fun _ => ⟨rfl, rfl⟩⟩⟩
  | c :: rest, t, m, hcs, hm => by
    have hrest : rest <:+ v.resolution.placed := (List.suffix_cons c rest).trans hcs
    obtain ⟨t₁, verdict, hjudge, hjudged, hartifacts, hadmits⟩ :=
      admitted_moves (hcs.subset List.mem_cons_self) t m
    obtain ⟨t₂, hacts, -⟩ := drain_acts _ (v.admitted c m).2 hadmits
    have hm₁ := Moves.honest hjudge hm
    have hm₂ := Moves.honest hacts.moves hm₁
    have hitems := drain_direct hv _ hadmits hm₁
    have hcases := v.drain_cases (v.admitted c m).1 (v.admitted c m).2
    have hjudged₂ : v.Judges t t₂ ((c :: rest).map (·.id)) [verdict] :=
      ⟨hjudged.unfiltered, fun hsome => by simpa using (hjudged.acts hacts).filtered hsome⟩
    rw [advance]
    dsimp only
    split <;> rename_i heq <;> rw [heq] at hacts hm₂ hitems hcases <;>
      dsimp only at hm₂ hitems hcases
    · rename_i left m₂
      obtain ⟨-, rfl⟩ | ⟨h, -⟩ := hcases
      · obtain ⟨t₃, verdicts, hmore, hreaches⟩ := advance_reaches hv rest t₂ hrest hm₂
        refine ⟨t₃, verdict :: verdicts, (hjudge.trans hacts.moves).trans hmore,
          hjudged₂.append (Nat.succ_le_succ (Nat.zero_le _)) hreaches.judged,
          Nat.succ_le_succ hreaches.length, hreaches.components, ?_, hreaches.ended⟩
        rw [directItems, ← hartifacts, ← hitems, hreaches.items]
        rfl
      · exact absurd rfl h
    · rename_i items left m₂ hsome
      refine ⟨t₂, [verdict], hjudge.trans hacts.moves, hjudged₂, Nat.succ_le_succ (Nat.zero_le _),
        rfl, ?_, fun h => absurd h hsome⟩
      rw [directItems, ← hartifacts, ← hitems]
      simp [directItems]

/-- **The track of a walk without a memo.** The answers are its items at their places, and what is
pending or left are the items after them. -/
structure Tracks (v : View) (t : Trail) (answers : List (Option Item)) (verdicts : List Bool)
    (c : Cursor) : Prop where
  judged : v.Judges [] t (v.resolution.placed.map (·.id)) verdicts
  length : verdicts.length ≤ v.resolution.placed.length
  components : c.components = v.resolution.placed.drop verdicts.length
  items : (v.directItems v.resolution.placed verdicts).drop answers.length =
    c.pending ++ v.directOf c.artifacts
  answered : ∀ n, n < answers.length →
    answers[n]? = some (v.directItems v.resolution.placed verdicts)[n]?
  /-- Only at the end there can be more answers than items. -/
  ended : answers.length ≤ (v.directItems v.resolution.placed verdicts).length ∨
    c.components = []

theorem tracks_start (v : View) : v.Tracks [] [] [] v.start where
  judged := Judges.nil v [] _
  length := Nat.zero_le _
  components := rfl
  items := directItems_nil v _
  answered := fun _ h => absurd h (Nat.not_lt_zero _)
  ended := Or.inl (Nat.zero_le _)

/-- A cursor that has nothing pending or left of its component goes on to the next components. -/
theorem Tracks.advance {answers : List (Option Item)} {verdicts more : List Bool} {c c' : Cursor}
    (h : v.Tracks t answers verdicts c) (hnothing : c.pending ++ v.directOf c.artifacts = [])
    (hreaches : v.Reaches t t' c.components more c') :
    v.Tracks t' answers (verdicts ++ more) c' := by
  have hcomponents := h.components
  have hlength : more.length ≤ v.resolution.placed.length - verdicts.length := by
    rw [← List.length_drop, ← hcomponents]
    exact hreaches.length
  have happend := v.directItems_append v.resolution.placed verdicts more
  rw [← hcomponents, hreaches.items] at happend
  have hall : (v.directItems v.resolution.placed verdicts).length ≤ answers.length :=
    List.drop_eq_nil_iff.mp (h.items.trans hnothing)
  -- Either all items so far were answered and no more, or there are no components to go on to.
  have hcases : answers.length = (v.directItems v.resolution.placed verdicts).length ∨
      c'.pending ++ v.directOf c'.artifacts = [] ∧ c'.components = [] := by
    refine h.ended.imp (fun hle => Nat.le_antisymm hle hall) fun hnil => ⟨?_, ?_⟩
    · have hitems := hreaches.items
      rw [hnil, directItems] at hitems
      · exact hitems.symm
      · exact fun _ _ _ _ hcons => absurd hcons (by simp)
    · rw [hreaches.components, hnil, List.drop_nil]
  refine
    { judged := h.judged.append (by rw [List.length_map]; exact h.length) ?_
      length := by
        rw [List.length_append]
        have := h.length
        omega
      components := by
        rw [hreaches.components, hcomponents, List.drop_drop, List.length_append]
      items := ?_
      answered := fun n hn => ?_
      ended := ?_ }
  · rw [← List.map_drop, ← hcomponents]
    exact hreaches.judged
  · rw [happend]
    rcases hcases with hfull | ⟨hnil, -⟩
    · rw [hfull, List.drop_left]
    · rw [hnil, List.append_nil, h.items, hnothing]
  · rw [happend, h.answered n hn]
    rcases hcases with hfull | ⟨hnil, -⟩
    · rw [List.getElem?_append_left (hfull ▸ hn)]
    · rw [hnil, List.append_nil]
  · rw [happend, List.length_append]
    exact hcases.imp (fun hfull => by omega) And.right

/-- Refilling a cursor leads on along the track. -/
theorem refill_tracks (hv : v.Exact) {answers : List (Option Item)} {verdicts : List Bool}
    {c : Cursor} (h : v.Tracks t answers verdicts c) (hc : v.InPlace t c)
    (hm : m.Honest v.resolution) :
    ∃ t' verdicts', v.Moves (t, m) (t', (v.refill c m).2) ∧
      v.Tracks t' answers verdicts' (v.refill c m).1 ∧
      ((v.refill c m).1.pending = [] →
        (v.refill c m).1.artifacts = [] ∧ (v.refill c m).1.components = []) := by
  unfold refill
  split
  · rename_i item rest hpending
    exact ⟨t, verdicts, .refl, h, fun hnil => absurd (hpending.symm.trans hnil) (by simp)⟩
  · rename_i hpending
    obtain ⟨t₁, hacts, -⟩ := drain_acts c.artifacts m hc.artifacts
    have hm' := Moves.honest hacts.moves hm
    have hitems := drain_direct hv c.artifacts hc.artifacts hm
    have hcases := v.drain_cases c.artifacts m
    have hjudged := h.judged.acts hacts
    split <;> rename_i heq <;> rw [heq] at hacts hm' hitems hcases <;>
      dsimp only at hm' hitems hcases
    · rename_i left m₁
      obtain ⟨-, rfl⟩ | ⟨hsome, -⟩ := hcases
      · obtain ⟨t₂, more, hmore, hreaches⟩ := advance_reaches hv c.components t₁ hc.components hm'
        have hnothing : c.pending ++ v.directOf c.artifacts = [] := by
          rw [hpending, ← hitems]
          rfl
        have h₁ : v.Tracks t₁ answers verdicts c := { h with judged := hjudged }
        exact ⟨t₂, verdicts ++ more, hacts.moves.trans hmore, h₁.advance hnothing hreaches,
          hreaches.ended⟩
      · exact absurd rfl hsome
    · rename_i items left m₁ hsome
      refine ⟨t₁, verdicts, hacts.moves, ?_, fun hnil => absurd hnil hsome⟩
      exact { h with
        judged := hjudged
        items := by rw [h.items, hpending, List.nil_append, ← hitems] }

/-- Yielding an item is an answer on the track. -/
theorem Tracks.take {answers : List (Option Item)} {verdicts : List Bool} {c : Cursor}
    (h : v.Tracks t answers verdicts c)
    (hended : c.pending = [] → c.artifacts = [] ∧ c.components = []) :
    v.Tracks t (answers ++ [c.pending.head?]) verdicts { c with pending := c.pending.tail } := by
  have hitem : (v.directItems v.resolution.placed verdicts)[answers.length]? = c.pending.head? := by
    rw [← List.head?_drop, h.items]
    cases hpending : c.pending with
    | nil =>
      rw [(hended hpending).1]
      rfl
    | cons item rest => rfl
  refine { h with items := ?_, answered := fun n hn => ?_, ended := ?_ }
  · rw [List.length_append, List.length_singleton, ← List.tail_drop, h.items]
    cases hpending : c.pending with
    | nil =>
      rw [(hended hpending).1]
      rfl
    | cons item rest => rfl
  · rw [List.length_append, List.length_singleton] at hn
    rcases Nat.lt_or_eq_of_le (Nat.le_of_lt_succ hn) with hn | rfl
    · rw [List.getElem?_append_left hn]
      exact h.answered n hn
    · rw [List.getElem?_concat_length, hitem]
  · cases hpending : c.pending with
    | nil => exact Or.inr (hended hpending).2
    | cons item rest =>
      rw [hpending] at hitem
      obtain ⟨hlt, -⟩ := List.getElem?_eq_some_iff.mp hitem
      refine Or.inl ?_
      rw [List.length_append, List.length_singleton]
      exact hlt

/-- Moves keep a trail truthful. -/
theorem Moves.truthful {s s' : Trail × Memo} (h : v.Moves s s') (ht : v.Truthful s.1) :
    v.Truthful s'.1 := by
  induction h with
  | refl => exact ht
  | tail _ hmove ih =>
    intro filter hfilter history id answer hmem
    cases hmove with
    | act hact =>
      cases hact with
      | log _ => exact ih filter hfilter history id answer hmem
      | _ =>
        rcases List.mem_append.mp hmem with hmem | hmem
        · exact ih filter hfilter history id answer hmem
        · exact absurd (List.mem_singleton.mp hmem) (by simp)
    | judge hfilter' _ =>
      obtain rfl := Option.some.inj (hfilter.symm.trans hfilter')
      rcases List.mem_append.mp hmem with hmem | hmem
      · exact ih filter hfilter history id answer hmem
      · simp only [List.mem_singleton, Prod.mk.injEq, Call.filtered.injEq] at hmem
        obtain ⟨rfl, rfl, rfl⟩ := hmem
        rfl

end View

/-! ## Walks on the track are faithful -/

/-- A walk is on the track, its trail truthful. -/
def Walk.OnTrack (w : Walk) : Prop :=
  w.view.Truthful w.trail ∧ ∃ verdicts, w.view.Tracks w.trail w.answers verdicts w.cursor

theorem Walk.onTrack_start (v : View) : (Walk.start v).OnTrack :=
  ⟨fun _ _ _ _ _ h => absurd h List.not_mem_nil, [], v.tracks_start⟩

theorem Walk.OnTrack.next {w : Walk} {m : Memo} (h : w.OnTrack) (hv : w.view.Exact)
    (hw : w.view.InPlace w.trail w.cursor) (hm : m.Honest w.view.resolution) :
    (w.next m).1.OnTrack := by
  obtain ⟨htruthful, verdicts, htracks⟩ := h
  obtain ⟨t', verdicts', hmoves, htracks', hended⟩ := View.refill_tracks hv htracks hw hm
  obtain rfl := View.Moves.trail_eq hmoves
  have hnext := htracks'.take hended
  refine ⟨?_, verdicts', ?_⟩
  · exact View.Moves.truthful (Walk.next_moves hw m).1 htruthful
  · unfold Walk.next
    rw [View.next_eq]
    exact hnext

theorem Walk.OnTrack.faithful {w : Walk} (h : w.OnTrack) : ∃ verdicts, w.Faithful verdicts := by
  obtain ⟨htruthful, verdicts, htracks⟩ := h
  refine ⟨verdicts, htracks.judged, htruthful, htracks.length, fun n answer hn => ?_,
    fun hnone => ?_⟩
  · obtain ⟨hlt, -⟩ := List.getElem?_eq_some_iff.mp hn
    exact Option.some.inj (hn.symm.trans (htracks.answered n hlt))
  · obtain ⟨n, hn⟩ := List.mem_iff_getElem?.mp hnone
    obtain ⟨hlt, -⟩ := List.getElem?_eq_some_iff.mp hn
    have hitem := Option.some.inj (hn.symm.trans (htracks.answered n hlt))
    have hout := List.getElem?_eq_none_iff.mp hitem.symm
    have hnil : w.cursor.components = [] := htracks.ended.resolve_left (by omega)
    rw [htracks.components, List.drop_eq_nil_iff] at hnil
    exact Nat.le_antisymm htracks.length hnil

/-- In unambiguous resolutions, whatever the user does keeps all walks on the track. -/
theorem onTrack_step {r : Resolution} (hr : r.Steady) (hu : r.Unambiguous) {t : Tour}
    (ht : t.InPlace r) (hm : t.memo.Honest r) (h : ∀ w ∈ t.walks, w.OnTrack) (a : Tour.Action) :
    ∀ w ∈ (Tour.step r t a).walks, w.OnTrack := by
  rcases Tour.step_cases r t a with ⟨-, hwalks⟩ | ⟨i, w, -, hw, hstep⟩ | ⟨v, -, component, hstep⟩
  · intro w hw
    rcases hwalks w hw with hw | ⟨v, -, rfl⟩
    · exact h w hw
    · exact Walk.onTrack_start v
  · rw [hstep]
    intro w' hw'
    have hmem := List.mem_of_getElem? hw
    rcases List.mem_or_eq_of_mem_set hw' with hw' | rfl
    · exact h w' hw'
    · obtain ⟨⟨request, hview⟩, hplace⟩ := ht.walks w hmem
      have hexact : w.view.Exact := by
        rw [hview]
        exact fun a m ha hm => View.contribution_eq_direct hr hu hm ha
      exact (h w hmem).next hexact hplace (ht.resolution_eq hmem ▸ hm)
  · rw [hstep]
    exact h

/-- **The memo of transforms is transparent exactly in unambiguous resolutions.** -/
theorem Resolution.transparent_iff_unambiguous {r : Resolution} (hr : r.Steady) :
    r.Transparent ↔ r.Unambiguous :=
  ⟨unambiguous_of_transparent hr, fun hu actions _ _ ha =>
    View.contribution_eq_direct hr hu (r.honest_tour actions) ha⟩

/-- **In unambiguous resolutions, every walk of every tour is faithful.** -/
theorem Resolution.faithful_tour {r : Resolution} (hr : r.Steady) (hu : r.Unambiguous)
    (actions : List Tour.Action) {w : Walk} (hw : w ∈ (r.tour actions).walks) :
    ∃ verdicts, w.Faithful verdicts := by
  have h : ∀ w ∈ (r.tour actions).walks, w.OnTrack :=
    honest_induction (P := fun t => ∀ w ∈ t.walks, w.OnTrack)
      (fun _ h => absurd h List.not_mem_nil)
      (fun _ a ht hm h => onTrack_step hr hu ht hm h a) actions
  exact (h w hw).faithful

end Componentry
