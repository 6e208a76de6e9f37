import Componentry.Proofs.Artifact.Onward

/-!
# What a view settles on

The memo keeps one outcome for an identity and a request. Several artifacts may have the identity:
then the first of them that comes to a transform decides for all. A view whose filter answers by the
component alone comes past its artifacts (`View.members`) in order, so it settles on the outcome of
the first of its own members with the identity that comes to a transform (`View.settled`). With
that, `View.sequence` says what the view yields, without a cursor and without a memo.

A memo may hold more than a view has put there. It `Settles` a view if what it keeps for members is
what the view settles on. `View.Underway` is a walk on such a memo: every member that was come past
and comes to a transform has an outcome there. `View.rest` are the items such a walk has still to
yield.

Results:
* `contribution_share`: the next member contributes its share, and what is new in the memo is what
  the view settles on.
* `drain_share`, `advance_share`, `refill_share`: the same of all members on the way to an item.
* **`next_rest`**: the next item is the first one of the rest, and leaves the others.
* `take_rest`: so taking items one by one yields the rest.
-/

namespace Componentry

/-- The filter of a request, if it has one, answers by the component alone. -/
def ViewRequest.Steady (q : ViewRequest) : Prop :=
  ∀ filter, q.filter = some filter → ∀ h id, filter h id = filter [] id

namespace View

/-- The filter of a view, if it has one, answers by the component alone. -/
def Steady (v : View) : Prop :=
  ∀ filter, v.filter = some filter → ∀ h id, filter h id = filter [] id

/-- Whether a view has the artifacts of a component. -/
def includes (v : View) (id : ComponentId) : Bool :=
  match v.filter with
  | none => true
  | some filter => filter [] id

/-- The artifacts of a view: those of the components it includes, in order. -/
def members (v : View) : List Artifact :=
  (v.resolution.components.filter fun c => v.includes c.id).flatMap (·.artifacts)

/-- The members with an identity, in order. -/
def holders (v : View) (id : ArtifactId) : List Artifact := v.members.filter fun a => a.id = id

/-- The outcome for an identity: that of the first holder that comes to a transform. -/
def settled (v : View) (id : ArtifactId) : Option (Except String (List Path)) :=
  (v.holders id).findSome? v.outcome?

/-- The items of a member: its files, or one failure, which a lenient view leaves out. -/
def share (v : View) (a : Artifact) : List Item := v.itemsOf (v.provide a (v.settled a.id))

/-- **The items of a view**: the shares of its members, in order. -/
def sequence (v : View) : List Item := v.members.flatMap v.share

/-! ## Members at their places -/

/-- The members of some components. -/
def membersOf (v : View) (cs : List PlacedComponent) : List PlacedArtifact :=
  (cs.filter fun c => v.includes c.id).flatMap (·.artifacts)

/-- The items of artifacts at their places. -/
def shares (v : View) (as : List PlacedArtifact) : List Item :=
  as.flatMap fun a => v.share a.artifact

/-- The members that a walk has still to come past. -/
def toCome (v : View) (c : Cursor) : List PlacedArtifact := c.artifacts ++ v.membersOf c.components

/-- **The items that a walk has still to yield.** -/
def rest (v : View) (c : Cursor) : List Item := c.pending ++ v.shares (v.toCome c)

/-! ## Walks on a memo that settles the view -/

/-- What is kept for members is what the view settles on. -/
def Settles (v : View) (m : Memo) : Prop :=
  ∀ a ∈ v.members, ∀ outcome, m.transform? (a.id, v.requested) = some outcome →
    v.settled a.id = some outcome

/-- The memo of a walk that has come past `passed`. -/
structure Through (v : View) (m : Memo) (passed : List PlacedArtifact) : Prop where
  honest : m.Honest v.resolution
  settles : v.Settles m
  kept : ∀ a ∈ passed, (v.outcome? a.artifact).isSome → v.Kept m a

/-- What becomes of a memo when the view is walked: what is new is what the view settles on. -/
structure Extends (v : View) (m m' : Memo) : Prop where
  honest : m'.Honest v.resolution
  stays : m.Stays m'
  new : ∀ key outcome, m'.transform? key = some outcome →
    m.transform? key = some outcome ∨
      ∃ a ∈ v.members, key = (a.id, v.requested) ∧ v.settled a.id = some outcome

/-- A walk that is somewhere between the members. -/
def Underway (v : View) (m : Memo) (c : Cursor) : Prop :=
  ∃ passed, v.membersOf v.resolution.placed = passed ++ v.toCome c ∧ v.Through m passed

variable {v : View} {m m' m'' : Memo} {a : PlacedArtifact} {passed : List PlacedArtifact}

theorem membersOf_cons (v : View) (c : PlacedComponent) (cs : List PlacedComponent) :
    v.membersOf (c :: cs) = (if v.includes c.id then c.artifacts else []) ++ v.membersOf cs := by
  unfold membersOf
  rw [List.filter_cons]
  split <;> rfl

theorem shares_append (v : View) (as bs : List PlacedArtifact) :
    v.shares (as ++ bs) = v.shares as ++ v.shares bs := List.flatMap_append

theorem map_placeArtifacts (component : Nat) : ∀ (n : Nat) (as : List Artifact),
    (Resolution.placeArtifacts component n as).map (·.artifact) = as
  | _, [] => rfl
  | n, a :: rest => by
    rw [Resolution.placeArtifacts, List.map_cons, map_placeArtifacts component (n + 1) rest]

theorem map_membersOf_placeComponents (v : View) : ∀ (n : Nat) (cs : List ResolvedComponent),
    (v.membersOf (Resolution.placeComponents n cs)).map (·.artifact) =
      (cs.filter fun c => v.includes c.id).flatMap (·.artifacts)
  | _, [] => rfl
  | n, c :: rest => by
    rw [Resolution.placeComponents, membersOf_cons, List.map_append,
      map_membersOf_placeComponents v (n + 1) rest, List.filter_cons]
    cases v.includes c.id with
    | true => exact congrArg (· ++ _) (map_placeArtifacts n 0 c.artifacts)
    | false => rfl

/-- Places do not matter to what the members are. -/
theorem map_membersOf (v : View) :
    (v.membersOf v.resolution.placed).map (·.artifact) = v.members :=
  map_membersOf_placeComponents v 0 v.resolution.components

theorem artifact_mem (ha : a ∈ v.membersOf v.resolution.placed) : a.artifact ∈ v.members := by
  rw [← map_membersOf]
  exact List.mem_map_of_mem ha

theorem rest_start (v : View) : v.rest v.start = v.sequence := by
  change v.shares (v.membersOf v.resolution.placed) = _
  unfold sequence shares
  rw [← map_membersOf, List.flatMap_map]

/-- A member is admitted, on the trail of a filter that was asked about its component. -/
theorem exists_admits (ha : a ∈ v.membersOf v.resolution.placed) :
    ∃ t, v.Admits t a := by
  obtain ⟨c, hc, hmem⟩ := List.mem_flatMap.mp ha
  obtain ⟨hplaced, hincludes⟩ := List.mem_filter.mp hc
  refine ⟨[([], .filtered c.id true)], c, hplaced, hmem, fun filter hfilter => ?_⟩
  refine ⟨[], List.mem_singleton.mpr rfl, ?_⟩
  unfold includes at hincludes
  rwa [hfilter] at hincludes

/-! ## Relations between memos -/

theorem Extends.refl (hm : m.Honest v.resolution) : v.Extends m m :=
  ⟨hm, .refl m, fun _ _ h => Or.inl h⟩

theorem Extends.trans (h : v.Extends m m') (h' : v.Extends m' m'') : v.Extends m m'' :=
  ⟨h'.honest, h.stays.trans h'.stays, fun key outcome hkept =>
    (h'.new key outcome hkept).elim (h.new key outcome) Or.inr⟩

theorem Kept.stays (h : v.Kept m a) (hstays : m.Stays m') : v.Kept m' a := by
  obtain ⟨outcome, hkept⟩ := h
  exact ⟨outcome, hstays.transforms hkept⟩

/-- A memo that settles the view still does after it was walked. -/
theorem Settles.extends (h : v.Settles m) (hm : v.Extends m m') : v.Settles m' := by
  intro a ha outcome hkept
  rcases hm.new _ _ hkept with hold | ⟨b, -, hkey, hsettled⟩
  · exact h a ha outcome hold
  · rwa [(Prod.mk.inj hkey).1]

theorem Through.extends (h : v.Through m passed) (hm : v.Extends m m') : v.Through m' passed :=
  ⟨hm.honest, h.settles.extends hm, fun a ha hneeds => (h.kept a ha hneeds).stays hm.stays⟩

/-- What others do to the memo does not take a walk off its way, as long as the memo settles its
view. -/
theorem Underway.stays {c : Cursor} (h : v.Underway m c) (hm : m'.Honest v.resolution)
    (hstays : m.Stays m') (hsettles : v.Settles m') : v.Underway m' c := by
  obtain ⟨passed, hsplit, hthrough⟩ := h
  exact ⟨passed, hsplit, hm, hsettles, fun a ha hneeds => (hthrough.kept a ha hneeds).stays hstays⟩

theorem underway_start (hm : m.Honest v.resolution) (hsettles : v.Settles m) :
    v.Underway m v.start :=
  ⟨[], rfl, hm, hsettles, fun _ h => absurd h List.not_mem_nil⟩

/-! ## One member -/

/-- Asking for a transform keeps its outcome, unless there is one already, and no other. -/
theorem transformed_transform? (pipeline : Pipeline) (id : ArtifactId) (file : Path)
    (own requested : Attributes) (m : Memo) (key : TransformKey) :
    (m.transformed pipeline id file own requested).2.transform? key =
      if key = (id, requested) then
        (m.transform? key).or
          (some (Memo.kept (pipeline.transform m.calls id file own requested).outcome))
      else m.transform? key := by
  rcases transformed_cases pipeline id file own requested m with ⟨outcome, hkept, h⟩ | ⟨hnew, h⟩
  · rw [h]
    change m.transform? key = _
    split
    · rename_i hkey
      rw [hkey, hkept]
      rfl
    · rfl
  · rw [h]
    change (if key = (id, requested) then _ else m.transform? key) = _
    split
    · rename_i hkey
      rw [hkey, hnew]
      rfl
    · rfl

/-- **What providing an artifact does to the transforms kept**: one for the artifact is added, if it
comes to a transform and there was none. -/
theorem resolve_transform? (hr : v.resolution.Steady) (hm : m.Honest v.resolution)
    (ha : v.resolution.Has a) (key : TransformKey) :
    (v.resolve a m).2.transform? key =
      if key = (a.artifact.id, v.requested) then
        (m.transform? key).or (v.outcome? a.artifact)
      else m.transform? key := by
  have hsame : v.outcome? a.artifact = none →
      (if key = (a.artifact.id, v.requested) then (m.transform? key).or (v.outcome? a.artifact)
        else m.transform? key) = m.transform? key := by
    intro hnone
    rw [hnone, Option.or_none, ite_self]
  unfold resolve
  dsimp only
  split
  · rename_i hsuits
    rw [hsame (by unfold outcome?; rw [if_pos hsuits])]
    have hkept := filePath_transform? a m key
    split <;> rename_i heq <;> rw [heq] at hkept <;> exact hkept
  · rename_i hsuits
    cases hcan : v.resolution.pipeline.canTransform [] a.artifact.attributes v.requested with
    | false =>
      rw [hsame (by unfold outcome?; rw [if_neg hsuits, hcan]; rfl)]
      simp only [Memo.canTransform, hr.canTransform m.calls, hcan]
      rfl
    | true =>
      simp only [Memo.canTransform, hr.canTransform m.calls, hcan]
      have hasked : (m.called (.asked a.artifact.attributes v.requested true) []).Honest
          v.resolution := hm.more (List.prefix_append _ _) rfl rfl
      have hfst := filePath_fst hr hasked ha
      have hkept := filePath_transform? a
        (m.called (.asked a.artifact.attributes v.requested true) []) key
      rcases hfile : (m.called (.asked a.artifact.attributes v.requested true) []).filePath a with
        ⟨outcome, m'⟩
      rw [hfile] at hfst hkept
      change m'.transform? key = m.transform? key at hkept
      cases outcome with
      | error fault =>
        rw [hsame (by unfold outcome?; rw [if_neg hsuits, if_pos hcan, ← hfst])]
        exact hkept
      | ok file =>
        have htransformed := transformed_transform? v.resolution.pipeline a.artifact.id file
          a.artifact.attributes v.requested m' key
        rw [hkept, hr.transform] at htransformed
        rw [outcome?_eq_some v (Bool.eq_false_iff.mpr hsuits) hcan hfst.symm]
        dsimp only
        split <;> rename_i heq <;> rw [heq] at htransformed <;> exact htransformed

theorem contribution_transform? (hr : v.resolution.Steady) (hm : m.Honest v.resolution)
    (ha : v.resolution.Has a) (key : TransformKey) :
    (v.contribution a m).2.transform? key =
      if key = (a.artifact.id, v.requested) then
        (m.transform? key).or (v.outcome? a.artifact)
      else m.transform? key := by
  have hkept := resolve_transform? hr hm ha key
  unfold contribution
  split <;> rename_i heq <;> rw [heq] at hkept
  · exact hkept
  · split <;> exact hkept

/-- The first holder that comes to a transform decides. -/
theorem settled_of_first {next : List PlacedArtifact} {own : Except String (List Path)}
    (hsplit : v.membersOf v.resolution.placed = passed ++ a :: next)
    (hfirst : ∀ b ∈ passed, b.artifact.id = a.artifact.id → v.outcome? b.artifact = none)
    (hown : v.outcome? a.artifact = some own) : v.settled a.artifact.id = some own := by
  have hbefore : ((passed.map (·.artifact)).filter fun b => b.id = a.artifact.id).findSome?
      v.outcome? = none := by
    refine List.findSome?_eq_none_iff.mpr fun x hx => ?_
    obtain ⟨hmem, hid⟩ := List.mem_filter.mp hx
    obtain ⟨b, hb, rfl⟩ := List.mem_map.mp hmem
    exact hfirst b hb (of_decide_eq_true hid)
  unfold settled holders
  rw [← map_membersOf, hsplit, List.map_append, List.map_cons, List.filter_append,
    List.findSome?_append, hbefore, List.filter_cons_of_pos (by simp), List.findSome?_cons, hown]
  rfl

section NextMember

variable {next : List PlacedArtifact}
  (hsplit : v.membersOf v.resolution.placed = passed ++ a :: next)

include hsplit

theorem mem_of_split : a ∈ v.membersOf v.resolution.placed := by
  rw [hsplit]
  simp

theorem has_of_split : v.resolution.Has a := by
  obtain ⟨t, hadmits⟩ := exists_admits (mem_of_split hsplit)
  exact hadmits.has

/-- If nothing is kept for the identity of the next member, none before it comes to a transform, and
the next member decides if it does. -/
theorem Through.settled_of_new (h : v.Through m passed)
    (hnew : m.transform? (a.artifact.id, v.requested) = none) {own : Except String (List Path)}
    (hown : v.outcome? a.artifact = some own) : v.settled a.artifact.id = some own := by
  refine settled_of_first hsplit (fun b hb hid => ?_) hown
  refine Option.eq_none_iff_forall_not_mem.mpr fun outcome hneeds => ?_
  obtain ⟨kept, hkept⟩ := h.kept b hb (Option.isSome_of_mem hneeds)
  rw [hid, hnew] at hkept
  exact absurd hkept (by simp)

/-- What the next member adds to the memo is what the view settles on. -/
theorem contribution_extends (hr : v.resolution.Steady) (h : v.Through m passed) :
    v.Extends m (v.contribution a m).2 := by
  have hmem := mem_of_split hsplit
  obtain ⟨t, hadmits⟩ := exists_admits hmem
  obtain ⟨t', hacts⟩ := contribution_acts hadmits m
  refine ⟨Moves.honest hacts.moves h.honest, Moves.stays hacts.moves, fun key outcome hkept => ?_⟩
  rw [contribution_transform? hr h.honest hadmits.has] at hkept
  split at hkept
  · rename_i hkey
    subst hkey
    cases hold : m.transform? (a.artifact.id, v.requested) with
    | some old =>
      rw [hold] at hkept
      exact Or.inl hkept
    | none =>
      rw [hold] at hkept
      exact Or.inr ⟨a.artifact, artifact_mem hmem, rfl, h.settled_of_new hsplit hold hkept⟩
  · exact Or.inl hkept

/-- The next member gives its share. -/
theorem contribution_eq_share (hr : v.resolution.Steady) (h : v.Through m passed) :
    (v.contribution a m).1 = v.share a.artifact := by
  rw [contribution_fst, resolve_fst hr h.honest (has_of_split hsplit), share]
  cases hold : m.transform? (a.artifact.id, v.requested) with
  | some old => rw [h.settles a.artifact (artifact_mem (mem_of_split hsplit)) old hold]
  | none =>
    cases hsettled : v.settled a.artifact.id with
    | none => rfl
    | some outcome =>
      rw [provide_some]
      intro own hown
      exact Option.some.inj ((h.settled_of_new hsplit hold hown).symm.trans hsettled)

/-- An outcome is kept for the next member from then on, if it comes to a transform. -/
theorem kept_of_contribution (hr : v.resolution.Steady) (hm : m.Honest v.resolution)
    (hneeds : (v.outcome? a.artifact).isSome) : v.Kept (v.contribution a m).2 a := by
  obtain ⟨own, hown⟩ := Option.isSome_iff_exists.mp hneeds
  unfold Kept
  rw [contribution_transform? hr hm (has_of_split hsplit), if_pos rfl, hown]
  cases m.transform? (a.artifact.id, v.requested) with
  | some old => exact ⟨old, rfl⟩
  | none => exact ⟨own, rfl⟩

/-- **The next member contributes its share**, and what is new in the memo is what the view settles
on. -/
theorem contribution_share (hr : v.resolution.Steady) (h : v.Through m passed) :
    (v.contribution a m).1 = v.share a.artifact ∧ v.Extends m (v.contribution a m).2 ∧
      v.Through (v.contribution a m).2 (passed ++ [a]) := by
  have hextends := contribution_extends hsplit hr h
  refine ⟨contribution_eq_share hsplit hr h, hextends, hextends.honest,
    h.settles.extends hextends, fun b hb hneeds => ?_⟩
  rcases List.mem_append.mp hb with hb | hb
  · exact (h.kept b hb hneeds).stays hextends.stays
  · obtain rfl := List.mem_singleton.mp hb
    exact kept_of_contribution hsplit hr h.honest hneeds

end NextMember

/-! ## The members on the way to an item -/

/-- Looking for an item among members. -/
theorem drain_share (hr : v.resolution.Steady) : ∀ (as : List PlacedArtifact)
    {passed next : List PlacedArtifact} {m : Memo},
    v.membersOf v.resolution.placed = passed ++ (as ++ next) → v.Through m passed →
    v.Extends m (v.drain as m).2.2 ∧
      (v.drain as m).1 ++ v.shares (v.drain as m).2.1 = v.shares as ∧
      ∃ more, as = more ++ (v.drain as m).2.1 ∧ v.Through (v.drain as m).2.2 (passed ++ more)
  | [], passed, _, m, _, h =>
    ⟨.refl h.honest, rfl, [], rfl, by rw [List.append_nil]; exact h⟩
  | a :: rest, passed, next, m, hsplit, h => by
    obtain ⟨hitems, hextends, hthrough⟩ := contribution_share hsplit hr h
    have hsplit' : v.membersOf v.resolution.placed = (passed ++ [a]) ++ (rest ++ next) := by
      rw [hsplit, List.append_assoc]
      rfl
    rw [drain]
    split <;> rename_i heq <;> rw [heq] at hitems hextends hthrough
    · rename_i m₁
      obtain ⟨hextends', hshares, more, hrest, hthrough'⟩ := drain_share hr rest hsplit' hthrough
      refine ⟨hextends.trans hextends', ?_, a :: more, congrArg (a :: ·) hrest, ?_⟩
      · rw [hshares, shares, shares, List.flatMap_cons, ← hitems]
        rfl
      · rw [List.append_assoc] at hthrough'
        exact hthrough'
    · refine ⟨hextends, ?_, [a], rfl, hthrough⟩
      rw [shares, shares, List.flatMap_cons, ← hitems]

/-- Judging a component lets in its artifacts if the view includes it. -/
theorem admitted_share (hv : v.Steady) (c : PlacedComponent) (h : v.Through m passed) :
    (v.admitted c m).1 = (if v.includes c.id then c.artifacts else []) ∧
      v.Extends m (v.admitted c m).2 := by
  have hmore : ∀ m' : Memo, m.calls <+: m'.calls → m'.builds = m.builds →
      m'.transforms = m.transforms → v.Extends m m' := by
    intro m' hcalls hbuilds htransforms
    refine ⟨h.honest.more hcalls hbuilds htransforms, .of_eq hbuilds htransforms,
      fun key outcome hkept => Or.inl ?_⟩
    unfold Memo.transform? at hkept ⊢
    rwa [htransforms] at hkept
  unfold admitted accepts Memo.accepts includes
  cases hfilter : v.filter with
  | none => exact ⟨rfl, hmore m (List.prefix_refl _) rfl rfl⟩
  | some filter =>
    have hsame : filter m.calls c.id = filter [] c.id := hv filter hfilter m.calls c.id
    cases hyes : filter [] c.id with
    | true =>
      simp only [hsame, hyes]
      exact ⟨rfl, hmore _ (List.prefix_append _ _) rfl rfl⟩
    | false =>
      simp only [hsame, hyes]
      exact ⟨rfl, hmore _ (List.prefix_append _ _) rfl rfl⟩

/-- Looking for an item among components. -/
theorem advance_share (hr : v.resolution.Steady) (hv : v.Steady) : ∀ (cs : List PlacedComponent)
    {passed : List PlacedArtifact} {m : Memo},
    v.membersOf v.resolution.placed = passed ++ v.membersOf cs → v.Through m passed →
    v.Extends m (v.advance cs m).2 ∧ v.rest (v.advance cs m).1 = v.shares (v.membersOf cs) ∧
      v.Underway (v.advance cs m).2 (v.advance cs m).1 ∧
      ((v.advance cs m).1.pending = [] → v.rest (v.advance cs m).1 = [])
  | [], passed, m, hsplit, h => ⟨.refl h.honest, rfl, ⟨passed, hsplit, h⟩, fun _ => rfl⟩
  | c :: rest, passed, m, hsplit, h => by
    obtain ⟨hartifacts, hjudged⟩ := admitted_share hv c h
    rw [membersOf_cons, ← hartifacts] at hsplit
    obtain ⟨hextends, hshares, more, hmore, hthrough⟩ :=
      drain_share hr _ hsplit (h.extends hjudged)
    have hcases := v.drain_cases (v.admitted c m).1 (v.admitted c m).2
    rw [membersOf_cons, ← hartifacts, shares_append]
    rw [advance]
    dsimp only
    split <;> rename_i heq <;> rw [heq] at hextends hshares hmore hthrough hcases <;>
      dsimp only at hextends hshares hmore hthrough hcases
    · rename_i left m₁
      obtain ⟨-, rfl⟩ | ⟨hsome, -⟩ := hcases
      · rw [List.append_nil] at hmore
        rw [hmore, ← List.append_assoc] at hsplit
        obtain ⟨hextends', hrest, hunderway, hended⟩ := advance_share hr hv rest hsplit hthrough
        refine ⟨(hjudged.trans hextends).trans hextends', ?_, hunderway, hended⟩
        rw [hrest, ← hshares]
        rfl
      · exact absurd rfl hsome
    · rename_i items left m₁ hsome
      refine ⟨hjudged.trans hextends, ?_, ⟨passed ++ more, ?_, hthrough⟩, fun h => absurd h hsome⟩
      · rw [← hshares, View.rest, toCome, shares_append, List.append_assoc]
      · rw [hsplit, hmore, List.append_assoc, List.append_assoc]
        rfl

/-- Refilling a cursor. -/
theorem refill_share (hr : v.resolution.Steady) (hv : v.Steady) {c : Cursor}
    (h : v.Underway m c) :
    v.Extends m (v.refill c m).2 ∧ v.rest (v.refill c m).1 = v.rest c ∧
      v.Underway (v.refill c m).2 (v.refill c m).1 ∧
      ((v.refill c m).1.pending = [] → v.rest (v.refill c m).1 = []) := by
  obtain ⟨passed, hsplit, hthrough⟩ := h
  unfold refill
  split
  · rename_i item rest hpending
    exact ⟨.refl hthrough.honest, rfl, ⟨passed, hsplit, hthrough⟩,
      fun h => absurd (hpending.symm.trans h) (by simp)⟩
  · rename_i hpending
    obtain ⟨hextends, hshares, more, hmore, hthrough'⟩ :=
      drain_share hr c.artifacts hsplit hthrough
    have hcases := v.drain_cases c.artifacts m
    have hrest : v.rest c = v.shares c.artifacts ++ v.shares (v.membersOf c.components) := by
      rw [View.rest, hpending, List.nil_append, toCome, shares_append]
    rw [hrest]
    split <;> rename_i heq <;> rw [heq] at hextends hshares hmore hthrough' hcases <;>
      dsimp only at hextends hshares hmore hthrough' hcases
    · rename_i left m₁
      obtain ⟨-, rfl⟩ | ⟨hsome, -⟩ := hcases
      · rw [List.append_nil] at hmore
        rw [toCome, hmore, ← List.append_assoc] at hsplit
        obtain ⟨hextends', hrest', hunderway, hended⟩ :=
          advance_share hr hv c.components hsplit hthrough'
        refine ⟨hextends.trans hextends', ?_, hunderway, hended⟩
        rw [hrest', ← hshares]
        rfl
      · exact absurd rfl hsome
    · rename_i items left m₁ hsome
      refine ⟨hextends, ?_, ⟨passed ++ more, ?_, hthrough'⟩, fun h => absurd h hsome⟩
      · rw [← hshares, View.rest, toCome, shares_append, List.append_assoc]
      · rw [hsplit, toCome, hmore, List.append_assoc, List.append_assoc]
        rfl

/-- **The next item is the first one of the rest**, and leaves the others. -/
theorem next_rest (hr : v.resolution.Steady) (hv : v.Steady) {c : Cursor} (h : v.Underway m c) :
    (v.next c m).1 = (v.rest c).head? ∧ v.rest (v.next c m).2.1 = (v.rest c).tail ∧
      v.Underway (v.next c m).2.2 (v.next c m).2.1 ∧ v.Extends m (v.next c m).2.2 := by
  obtain ⟨hextends, hrest, ⟨passed, hsplit, hthrough⟩, hended⟩ := refill_share hr hv h
  rw [next_eq, ← hrest]
  refine ⟨?_, ?_, ⟨passed, hsplit, hthrough⟩, hextends⟩
  · cases hpending : (v.refill c m).1.pending with
    | nil => rw [hended hpending, List.head?_nil]
    | cons item items =>
      rw [View.rest, hpending]
      rfl
  · cases hpending : (v.refill c m).1.pending with
    | nil =>
      have hnil := hended hpending
      rw [View.rest, hpending] at hnil
      rw [View.rest, View.rest, hpending]
      change v.shares (v.toCome (v.refill c m).1) = List.tail (v.shares (v.toCome (v.refill c m).1))
      rw [List.nil_append] at hnil
      rw [hnil]
      rfl
    | cons item items =>
      rw [View.rest, View.rest, hpending]
      rfl

/-- Taking items one by one yields those of the rest. -/
theorem take_rest (hr : v.resolution.Steady) (hv : v.Steady) : ∀ (items : List Item)
    {c : Cursor} {m : Memo} {more : List Item}, v.Underway m c → v.rest c = items ++ more →
    ∃ c' m', v.take items.length c m = (items, c', m') ∧ v.Underway m' c' ∧ v.rest c' = more
  | [], c, m, _, h, hrest => ⟨c, m, rfl, h, hrest⟩
  | item :: items, c, m, more, h, hrest => by
    obtain ⟨hitem, htail, hunderway, -⟩ := next_rest hr hv h
    rw [hrest] at hitem htail
    rcases hnext : v.next c m with ⟨answer, c₁, m₁⟩
    rw [hnext] at hitem htail hunderway
    obtain rfl : answer = some item := hitem
    obtain ⟨c', m', htake, hunderway', hmore⟩ := take_rest hr hv items hunderway htail
    refine ⟨c', m', ?_, hunderway', hmore⟩
    rw [List.length_cons, View.take, hnext]
    dsimp only
    rw [htake]

end View

end Componentry
