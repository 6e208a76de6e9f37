import Componentry.Proofs.Artifact.Independence

/-!
# Filters and lenience only leave things out

`View.sequence` says what a view yields without a walk: the shares of its members, component by
component and artifact by artifact. Here it is shown to be what a walk yields from start to end, and
it is compared between views. `View.Provided` says what may be the share of a member: its native
file, the files of a transform in the order in which the pipeline gave them, or one failure.

Results:
* `yields_sequence`: a walk to the end yields the sequence, whatever was done before.
* `provided_share`: the share of a member of a view that is not lenient.
* `sequence_restrict`: a filter is as good as a resolution without what it rejects.
* `sequence_lenient`: a lenient view yields the same without the failures.
* **`views_restrict`**: all of this, for whole walks.
-/

namespace Componentry

namespace View

/-- A walk from the start yields these items, and then it is at the end. -/
def Yields (v : View) (m : Memo) (items : List Item) : Prop :=
  ∃ c m', v.take items.length v.start m = (items, c, m') ∧ (v.next c m').1 = none

/-- An artifact decides for an identity: it is transformed, from `file`, and no member before it
that has the identity is. -/
structure Decides (v : View) (id : ArtifactId) (b : Artifact) (file : Path) : Prop where
  first : ∃ before after, v.holders id = before ++ b :: after ∧
    ∀ a ∈ before, v.outcome? a = none
  unsuited : b.attributes.isCompatibleWith v.requested = false
  convertible : v.resolution.pipeline.canTransform [] b.attributes v.requested = true
  native : b.native = .ok file

/-- **What may become of a member.** -/
inductive Provided (v : View) (a : Artifact) : List Item → Prop
  /-- Its form suits, and its native file is there. -/
  | native {file : Path} (hsuits : a.attributes.isCompatibleWith v.requested = true)
      (hnative : a.native = .ok file) : Provided v a [.ok ⟨a.id, file, a.attributes⟩]
  /-- The files of a transform, in the order in which the pipeline gave them. -/
  | transformed {b : Artifact} {file : Path} {files : List Path} (hb : v.Decides a.id b file)
      (hfiles : (v.resolution.pipeline.transform [] a.id file b.attributes v.requested).outcome =
        .ok files) :
      Provided v a (files.map fun f =>
        .ok (transformedFile a.id (a.attributes.merge v.requested) f))
  /-- Its form does not suit, and cannot be transformed. -/
  | unmatched (hsuits : a.attributes.isCompatibleWith v.requested = false)
      (hcan : v.resolution.pipeline.canTransform [] a.attributes v.requested = false) :
      Provided v a
        [.error (.failure (.noMatchingVariant a.id.component.display a.id.name v.requested))]
  /-- Its native file cannot be built. -/
  | unbuilt {fault : Fault} (hnative : a.native = .error fault) : Provided v a [.error fault]
  /-- The transform fails. -/
  | failed {b : Artifact} {file : Path} {fault : Fault} (hb : v.Decides a.id b file)
      (hfault : (v.resolution.pipeline.transform [] a.id file b.attributes v.requested).outcome =
        .error fault) :
      Provided v a [.error (.failure (.transformFailed a.id.display v.requested fault.summary))]

variable {v : View} {m m' : Memo} {a : Artifact}

/-! ## What a walk yields -/

/-- The first item that is taken is the next one. -/
theorem next_of_take {n : Nat} {item : Item} {items : List Item} {c c' : Cursor}
    (h : v.take (n + 1) c m = (item :: items, c', m')) :
    ∃ c₁ m₁, v.next c m = (some item, c₁, m₁) ∧ v.take n c₁ m₁ = (items, c', m') := by
  rw [take] at h
  split at h
  · exact absurd (Prod.mk.inj h).1 (by simp)
  · rename_i first c₁ m₁ hnext
    obtain ⟨hitems, hrest⟩ := Prod.mk.inj h
    obtain ⟨rfl, htail⟩ := List.cons.inj hitems
    exact ⟨c₁, m₁, hnext, Prod.ext htail hrest⟩

/-- Two ways to take items until there are none take the same. -/
theorem take_unique : ∀ (items items' : List Item) {c c₁ c₂ : Cursor} {m m₁ m₂ : Memo},
    v.take items.length c m = (items, c₁, m₁) → (v.next c₁ m₁).1 = none →
    v.take items'.length c m = (items', c₂, m₂) → (v.next c₂ m₂).1 = none → items = items'
  | [], [], _, _, _, _, _, _, _, _, _, _ => rfl
  | [], item :: items', c, _, _, m, _, _, h, hend, h', _ => by
    obtain ⟨-, hstays⟩ := Prod.mk.inj h
    obtain ⟨rfl, rfl⟩ := Prod.mk.inj hstays
    obtain ⟨_, _, hnext, -⟩ := next_of_take h'
    rw [hnext] at hend
    exact absurd hend (by simp)
  | item :: items, [], c, _, _, m, _, _, h, _, h', hend => by
    obtain ⟨-, hstays⟩ := Prod.mk.inj h'
    obtain ⟨rfl, rfl⟩ := Prod.mk.inj hstays
    obtain ⟨_, _, hnext, -⟩ := next_of_take h
    rw [hnext] at hend
    exact absurd hend (by simp)
  | item :: items, item' :: items', _, _, _, _, _, _, h, hend, h', hend' => by
    obtain ⟨c₃, m₃, hnext, hrest⟩ := next_of_take h
    obtain ⟨c₄, m₄, hnext', hrest'⟩ := next_of_take h'
    rw [hnext] at hnext'
    obtain ⟨hitem, hstate⟩ := Prod.mk.inj hnext'
    obtain ⟨rfl, rfl⟩ := Prod.mk.inj hstate
    rw [Option.some.inj hitem, take_unique items items' hrest hend hrest' hend']

/-- A view yields one list of items. -/
theorem Yields.unique {items items' : List Item} (h : v.Yields m items) (h' : v.Yields m items') :
    items = items' := by
  obtain ⟨c₁, m₁, htake, hend⟩ := h
  obtain ⟨c₂, m₂, htake', hend'⟩ := h'
  exact take_unique items items' htake hend htake' hend'

/-! ## The shares of members -/

/-- What a view settles on is the outcome of the transform of the artifact that decides. -/
theorem decides_of_settled {id : ArtifactId} {outcome : Except String (List Path)}
    (h : v.settled id = some outcome) :
    ∃ b file, v.Decides id b file ∧
      outcome = Memo.kept
        (v.resolution.pipeline.transform [] id file b.attributes v.requested).outcome := by
  obtain ⟨before, b, after, hsplit, hb, hbefore⟩ := List.findSome?_eq_some_iff.mp h
  obtain ⟨file, hsuits, hcan, hnative, houtcome⟩ := outcome?_cases hb
  have hid : b.id = id := by
    have hmem : b ∈ v.holders id := by rw [hsplit]; simp
    exact of_decide_eq_true (List.mem_filter.mp hmem).2
  refine ⟨b, file, ⟨⟨before, after, hsplit, hbefore⟩, hsuits, hcan, hnative⟩, ?_⟩
  rw [houtcome, transform, hid]

/-- A view settles on an outcome for each member that comes to a transform. -/
theorem exists_settled (ha : a ∈ v.members) {own : Except String (List Path)}
    (hown : v.outcome? a = some own) : ∃ outcome, v.settled a.id = some outcome := by
  have hholds : a ∈ v.holders a.id := List.mem_filter.mpr ⟨ha, decide_eq_true rfl⟩
  exact Option.isSome_iff_exists.mp
    (List.findSome?_isSome_iff.mpr ⟨a, hholds, Option.isSome_of_eq_some hown⟩)

/-- **The share of a member of a view that is not lenient**: its files, in order, or one failure. -/
theorem provided_share (hlenient : v.lenient = false) (ha : a ∈ v.members) :
    v.Provided a (v.share a) := by
  unfold share provide itemsOf
  cases hsuits : a.attributes.isCompatibleWith v.requested with
  | true =>
    cases hnative : a.native with
    | ok file => exact .native hsuits hnative
    | error fault =>
      simp only [hlenient]
      exact .unbuilt hnative
  | false =>
    cases hcan : v.resolution.pipeline.canTransform [] a.attributes v.requested with
    | false =>
      simp only [hlenient]
      exact .unmatched hsuits hcan
    | true =>
      cases hnative : a.native with
      | error fault =>
        simp only [hlenient]
        exact .unbuilt hnative
      | ok file =>
        obtain ⟨outcome, hsettled⟩ := exists_settled ha (outcome?_eq_some v hsuits hcan hnative)
        obtain ⟨b, file', hb, houtcome⟩ := decides_of_settled hsettled
        rw [hsettled, houtcome]
        cases htransform : (v.resolution.pipeline.transform [] a.id file' b.attributes
            v.requested).outcome with
        | ok files =>
          simp only [Except.bind, Option.getD_some, Memo.kept, Memo.retold, Except.map]
          change v.Provided a ((files.map _).map _)
          rw [List.map_map]
          exact .transformed hb htransform
        | error fault =>
          simp only [Except.bind, Option.getD_some, Memo.kept, Memo.retold, Except.map, hlenient]
          exact .failed hb htransform

end View

/-! ## Filters -/

namespace Resolution

/-- A resolution without the components that a filter rejects. -/
def restrict (r : Resolution) (filter : ComponentFilter) : Resolution :=
  { r with components := r.components.filter fun c => filter [] c.id }

variable {r : Resolution} {q : ViewRequest} {filter : ComponentFilter}

/-- Every artifact of a component stands at some place. -/
theorem exists_has {c : ResolvedComponent} (hc : c ∈ r.components) {a : Artifact}
    (ha : a ∈ c.artifacts) : ∃ b, r.Has b ∧ b.artifact = a := by
  have hmember : a ∈ (r.view {}).members :=
    List.mem_flatMap.mpr ⟨c, List.mem_filter.mpr ⟨hc, rfl⟩, ha⟩
  rw [← View.map_membersOf] at hmember
  obtain ⟨b, hb, hartifact⟩ := List.mem_map.mp hmember
  obtain ⟨d, hd, hbd⟩ := List.mem_flatMap.mp hb
  exact ⟨b, ⟨d, (List.mem_filter.mp hd).1, hbd⟩, hartifact⟩

/-- Without some of the components, collaborators are still steady. -/
theorem Steady.restrict (hr : r.Steady) (filter : ComponentFilter) :
    (r.restrict filter).Steady where
  producers := by
    intro a producer ha hsource
    obtain ⟨c, hc, hmem⟩ := ha.at_place
    obtain ⟨hc, -⟩ := List.mem_filter.mp (List.mem_of_getElem? hc)
    obtain ⟨b, hb, hartifact⟩ := exists_has hc (List.mem_of_getElem? hmem)
    rw [← hartifact] at hsource ⊢
    exact hr.producers b producer hb hsource
  canTransform := hr.canTransform
  transform := hr.transform

theorem members_restrict (hfilter : q.filter = some filter) :
    ((r.restrict filter).view { q with filter := none }).members = (r.view q).members := by
  have hincludes : ∀ id, (r.view q).includes id = filter [] id := by
    intro id
    have hview : (r.view q).filter = some filter := hfilter
    rw [View.includes, hview]
  unfold View.members
  rw [funext fun c : ResolvedComponent => hincludes c.id]
  exact congrArg (List.flatMap _) (List.filter_true _)

/-- **A filter is as good as a resolution without what it rejects.** -/
theorem sequence_restrict (hfilter : q.filter = some filter) :
    ((r.restrict filter).view { q with filter := none }).sequence = (r.view q).sequence := by
  have hshare : ((r.restrict filter).view { q with filter := none }).share = (r.view q).share := by
    funext a
    unfold View.share View.settled View.holders
    rw [members_restrict hfilter]
    rfl
  unfold View.sequence
  rw [members_restrict hfilter, hshare]

/-! ## Lenience -/

/-- **A lenient view yields the same without the failures.** -/
theorem sequence_lenient (r : Resolution) (q : ViewRequest) :
    (r.view { q with lenient := true }).sequence =
      (r.view { q with lenient := false }).sequence.filter fun item => !View.isFailure item := by
  have hshare : ∀ a, (r.view { q with lenient := true }).share a =
      ((r.view { q with lenient := false }).share a).filter fun item => !View.isFailure item := by
    intro a
    change View.itemsOf _ ((r.view { q with lenient := false }).provide a
      ((r.view { q with lenient := false }).settled a.id)) = _
    unfold View.share
    cases (r.view { q with lenient := false }).provide a
      ((r.view { q with lenient := false }).settled a.id) with
    | ok files =>
      refine (List.filter_eq_self.mpr fun item hitem => ?_).symm
      obtain ⟨file, -, rfl⟩ := List.mem_map.mp hitem
      rfl
    | error fault => rfl
  unfold View.sequence
  rw [List.filter_flatMap, ← funext hshare]
  rfl

/-! ## Whole walks -/

/-- **A walk to the end yields the sequence of its view**, whatever was done before. -/
theorem yields_sequence (hr : r.Steady) {actions : List Tour.Action}
    (h : r.Orderly (q :: Tour.requests actions)) :
    (r.view q).Yields (r.tour actions).memo (r.view q).sequence := by
  have hsteered := steered_tour hr h (List.subset_cons_self q _)
  have hq : (r.view q).Steady := h.steady q List.mem_cons_self
  have hstart : (r.view q).Underway (r.tour actions).memo (r.view q).start :=
    View.underway_start (r.honest_tour actions) (hsteered.settles q List.mem_cons_self)
  have hall : (r.view q).rest (r.view q).start = (r.view q).sequence ++ [] := by
    rw [View.rest_start, List.append_nil]
  obtain ⟨c, m, htake, hunderway, hrest⟩ := View.take_rest hr hq _ hstart hall
  refine ⟨c, m, htake, ?_⟩
  rw [(View.next_rest hr hq hunderway).1, hrest]
  rfl

/-- Whether requests are orderly depends on their filters alone. -/
theorem Orderly.of_filter_eq {p : ViewRequest} {requests : List ViewRequest}
    (h : r.Orderly (q :: requests)) (hfilter : p.filter = q.filter) :
    r.Orderly (p :: requests) := by
  have hholders : (r.view p).holders = (r.view q).holders := by
    funext id
    unfold View.holders View.members View.includes
    rw [show (r.view p).filter = (r.view q).filter from hfilter]
    rfl
  have hsame : ∀ p' ∈ p :: requests, ∃ q' ∈ q :: requests,
      (r.view p').holders = (r.view q').holders := by
    intro p' hp'
    rcases List.mem_cons.mp hp' with rfl | hp'
    · exact ⟨q, List.mem_cons_self, hholders⟩
    · exact ⟨p', List.mem_cons_of_mem q hp', rfl⟩
  constructor
  · intro p' hp'
    rcases List.mem_cons.mp hp' with rfl | hp'
    · intro filter hsome
      exact h.steady q List.mem_cons_self filter (hfilter ▸ hsome)
    · exact h.steady p' (List.mem_cons_of_mem q hp')
  · intro p₁ h₁ p₂ h₂ id
    obtain ⟨q₁, hq₁, heq₁⟩ := hsame p₁ h₁
    obtain ⟨q₂, hq₂, heq₂⟩ := hsame p₂ h₂
    rw [heq₁, heq₂]
    exact h.agree q₁ hq₁ q₂ hq₂ id

/-- **Filters and lenience only leave things out**, and keep the order. -/
theorem views_restrict {r : Resolution} (hr : r.Steady) {q : ViewRequest}
    {actions : List Tour.Action} (h : r.Orderly (q :: Tour.requests actions)) :
    (r.view q).Yields (r.tour actions).memo
      ((r.components.filter fun c => (r.view q).includes c.id).flatMap fun c =>
        c.artifacts.flatMap (r.view q).share) ∧
    (q.lenient = false → ∀ a ∈ (r.view q).members, (r.view q).Provided a ((r.view q).share a)) ∧
    (∀ filter, q.filter = some filter → ∀ actions',
      (r.restrict filter).Orderly ({ q with filter := none } :: Tour.requests actions') →
      ∀ items, (r.view q).Yields (r.tour actions).memo items →
        ((r.restrict filter).view { q with filter := none }).Yields
          ((r.restrict filter).tour actions').memo items) ∧
    ∀ items, (r.view { q with lenient := false }).Yields (r.tour actions).memo items →
      (r.view { q with lenient := true }).Yields (r.tour actions).memo
        (items.filter fun item => !View.isFailure item) := by
  refine ⟨?_, fun hlenient a ha => View.provided_share hlenient ha, ?_, ?_⟩
  · have hyields := yields_sequence hr h
    unfold View.sequence View.members at hyields
    rwa [List.flatMap_assoc] at hyields
  · intro filter hfilter actions' h' items hitems
    obtain rfl := hitems.unique (yields_sequence hr h)
    rw [← sequence_restrict hfilter]
    exact yields_sequence (hr.restrict filter) h'
  · intro items hitems
    have hstrict := yields_sequence hr (h.of_filter_eq (p := { q with lenient := false }) rfl)
    obtain rfl := hitems.unique hstrict
    rw [← sequence_lenient]
    exact yields_sequence hr (h.of_filter_eq rfl)

/-- A project with a jar that becomes two folders, one that becomes none and one that cannot be
transformed, and a plain folder. -/
def mixed : Resolution where
  configuration := "runtime"
  attributes := .ofType "classes"
  components := [
    ⟨.project ":p", ["bad.jar", "two.jar", "none.jar", "worse.jar"].map fun name =>
      ⟨⟨.project ":p", name⟩, .ofType "jar", .file name⟩⟩,
    ⟨.file "x", [⟨⟨.file "x", "x"⟩, .ofType "classes", .file "x"⟩]⟩]
  pipeline :=
    { canTransform := fun _ _ _ => true
      transform := fun _ artifact _ _ _ =>
        match artifact.name with
        | "two.jar" => ⟨.ok ["a", "b"], []⟩
        | "none.jar" => ⟨.ok [], []⟩
        | _ => ⟨.error (.failure (.other "no jar")), []⟩ }

/-- The classes of the project. -/
def projectClasses : ViewRequest where
  filter := some fun _ id => id = .project ":p"

/-- What the classes of the project are: two failures, and two folders between them. -/
def projectItems : List Item :=
  let id (name : String) : ArtifactId := ⟨.project ":p", name⟩
  let failed (name : String) : Item := .error (.failure
    (.transformFailed (id name).display (.ofType "classes") "no jar"))
  [failed "bad.jar", .ok ⟨id "a", "a", .ofType "classes"⟩, .ok ⟨id "b", "b", .ofType "classes"⟩,
    failed "worse.jar"]

theorem mixed_steady : mixed.Steady :=
  steady_of_files (by simp [mixed]) (fun _ _ _ => rfl) fun _ _ _ _ _ => rfl

/-- A walk goes on after a failure, leaves out the folder of the rejected component, and a lenient
one leaves out the failures. -/
theorem views_restrict_mixed :
    (mixed.view projectClasses).Yields {} projectItems ∧
      ((mixed.restrict fun _ id => id = .project ":p").view {}).Yields {} projectItems ∧
      (mixed.view { projectClasses with lenient := true }).Yields {}
        [.ok ⟨⟨.project ":p", "a"⟩, "a", .ofType "classes"⟩,
          .ok ⟨⟨.project ":p", "b"⟩, "b", .ofType "classes"⟩] := by
  have hsteady : projectClasses.Steady := by
    intro filter hfilter
    obtain rfl := Option.some.inj hfilter
    exact fun _ _ => rfl
  have horderly : mixed.Orderly (projectClasses :: Tour.requests []) := orderly_singleton hsteady
  obtain ⟨hyields, -, hrestrict, hlenient⟩ := views_restrict mixed_steady horderly
  have hitems : (mixed.view projectClasses).Yields {} projectItems := hyields
  refine ⟨hitems, ?_, hlenient projectItems hitems⟩
  exact hrestrict _ rfl [] (orderly_singleton fun _ h => absurd h (by simp)) projectItems hitems

end Resolution

end Componentry
