import Componentry.Proofs.Artifact.Settlement
import Componentry.Proofs.Workspace.Naming

/-!
# Views do not depend on what was done before

All views of a resolution share one memo, and its transforms are kept by identity. If several
artifacts have an identity, the first one that a walk comes to a transform for decides. A filter
that answers by the component alone includes all holders of an identity or none, as long as they
belong to one component. So whichever view comes first, the same artifact decides, and a walk
answers what `View.sequence` says: no other view or walk makes a difference.

`Resolution.Orderly` is what this takes of the requests: each filter answers by the component alone,
and whenever two views both have artifacts with an identity, they have the same ones. Both hold of
all such filters if the artifacts are `Owned`, which means that they carry the identity of their
component. One request alone is always orderly.

Results:
* `Settles.others`: what one view leaves in the memo is what the others settle on.
* `OnCourse.next`, `Steered.step`: a walk stays on course, whatever is done to the memo.
* `steered_tour`: so each answer of a walk is the item at its place, or none after the last one.
* **`views_independent`**: if artifacts are owned, walks of the same view yield the same, whatever
  else was done with views.
* `views_remember`: they need not if an artifact carries the identity of another component, nor if
  somebody asks the memo for a transform of a file of his own.
-/

namespace Componentry

/-! ## Requests that do not get in each other's way -/

/-- The requests for views among the things that are done. -/
def Tour.requests (actions : List Tour.Action) : List ViewRequest :=
  actions.filterMap fun
    | .view q => some q
    | _ => none

namespace Resolution

/-- Whenever the views of two requests both have artifacts with an identity, they have the same
ones. -/
def Agree (r : Resolution) (p q : ViewRequest) : Prop :=
  ∀ id, (r.view p).holders id ≠ [] → (r.view q).holders id ≠ [] →
    (r.view p).holders id = (r.view q).holders id

/-- Filters answer by the component alone, and views agree on who has an identity. -/
structure Orderly (r : Resolution) (requests : List ViewRequest) : Prop where
  steady : ∀ q ∈ requests, q.Steady
  agree : ∀ p ∈ requests, ∀ q ∈ requests, r.Agree p q

/-- The artifacts of a component carry its identity. -/
def Owned (r : Resolution) : Prop :=
  ∀ c ∈ r.components, ∀ a ∈ c.artifacts, a.id.component = c.id

variable {r : Resolution} {p q : ViewRequest} {requests : List ViewRequest}

theorem Agree.refl (r : Resolution) (q : ViewRequest) : r.Agree q q := fun _ _ _ => rfl

/-- One request alone is orderly. -/
theorem orderly_singleton (hq : q.Steady) : r.Orderly [q] where
  steady := fun _ h => (List.mem_singleton.mp h) ▸ hq
  agree := fun p hp p' hp' => by
    rw [List.mem_singleton.mp hp, List.mem_singleton.mp hp']
    exact .refl r q

/-- The holders of an identity in a view are all that the resolution has, if the view includes their
component, and there are none otherwise. -/
theorem Owned.holders (hr : r.Owned) (q : ViewRequest) (id : ArtifactId) :
    (r.view q).holders id =
      if (r.view q).includes id.component then
        (r.components.flatMap (·.artifacts)).filter fun a => a.id = id
      else [] := by
  have hall : ∀ cs, cs ⊆ r.components →
      ((cs.filter fun c => (r.view q).includes c.id).flatMap (·.artifacts)).filter
          (fun a => decide (a.id = id)) =
        if (r.view q).includes id.component then
          (cs.flatMap (·.artifacts)).filter fun a => a.id = id
        else [] := by
    intro cs
    induction cs with
    | nil => exact fun _ => (ite_self _).symm
    | cons c rest ih =>
      intro hcs
      have hrest := ih fun d hd => hcs (List.mem_cons_of_mem c hd)
      have hnone : c.id ≠ id.component → c.artifacts.filter (fun a => decide (a.id = id)) = [] := by
        intro hne
        refine List.filter_eq_nil_iff.mpr fun a ha hid => hne ?_
        rw [← of_decide_eq_true hid]
        exact (hr c (hcs List.mem_cons_self) a ha).symm
      rw [List.filter_cons, List.flatMap_cons, List.filter_append]
      by_cases hc : c.id = id.component
      · rw [hc]
        split
        · rename_i hincludes
          rw [List.flatMap_cons, List.filter_append, hrest, if_pos hincludes]
        · rename_i hexcludes
          rw [hrest, if_neg hexcludes]
      · rw [hnone hc, List.nil_append]
        split
        · rw [List.flatMap_cons, List.filter_append, hnone hc, List.nil_append, hrest]
        · exact hrest
  exact hall r.components fun _ h => h

/-- **If artifacts carry the identity of their component, filters that answer by the component alone
are orderly.** -/
theorem Owned.orderly (hr : r.Owned) (hsteady : ∀ q ∈ requests, q.Steady) :
    r.Orderly requests where
  steady := hsteady
  agree := by
    intro p _ q _ id hp hq
    rw [hr.holders] at hp hq ⊢
    rw [hr.holders]
    split at hp
    · split at hq
      · rename_i hpincludes hqincludes
        rw [if_pos hpincludes, if_pos hqincludes]
      · exact absurd rfl hq
    · exact absurd rfl hp

/-- Artifacts of what a workspace resolves carry the identity of their component. -/
theorem owned_of_resolve {w : Workspace} {name : String}
    (h : (w.resolve name).outcome = .ok r) : r.Owned := by
  intro c hc a ha
  obtain ⟨d, hd⟩ := (Workspace.resolve_cases h).2 c hc
  exact (Workspace.artifact_of_locate hd ha).1

end Resolution

/-! ## What one view leaves to another -/

namespace View

variable {r : Resolution} {p q : ViewRequest} {m m' : Memo}

/-- Views that agree settle on the same. -/
theorem settled_of_agree (h : r.Agree p q)
    (hrequested : (r.view p).requested = (r.view q).requested)
    {a b : Artifact} (ha : a ∈ (r.view p).members) (hb : b ∈ (r.view q).members)
    (hid : a.id = b.id) : (r.view p).settled a.id = (r.view q).settled b.id := by
  have houtcome : ∀ x, (r.view p).outcome? x = (r.view q).outcome? x := by
    intro x
    unfold outcome? transform
    rw [hrequested]
    rfl
  have hholders : ∀ (v : View) (x : Artifact), x ∈ v.members → v.holders x.id ≠ [] :=
    fun v x hx => List.ne_nil_of_mem (List.mem_filter.mpr ⟨hx, decide_eq_true rfl⟩)
  unfold settled
  rw [← hid, h a.id (hholders _ a ha) (hid ▸ hholders _ b hb), funext houtcome]

/-- **What one view leaves in the memo is what the others settle on.** -/
theorem Settles.others (h : r.Agree p q) (hq : (r.view q).Settles m)
    (hm : (r.view p).Extends m m') : (r.view q).Settles m' := by
  intro b hb outcome hkept
  rcases hm.new _ _ hkept with hold | ⟨a, ha, hkey, hsettled⟩
  · exact hq b hb outcome hold
  · obtain ⟨hid, hrequested⟩ := Prod.mk.inj hkey
    rwa [← settled_of_agree h hrequested.symm ha hb hid.symm]

/-- Calls alone settle nothing. -/
theorem Settles.calls {v : View} (h : v.Settles m) (new : List Call) :
    v.Settles { m with calls := m.calls ++ new } := h

end View

/-! ## Walks on course -/

/-- What a walk has yielded. -/
def Walk.yielded (w : Walk) : List Item := w.answers.filterMap id

/-- A walk came to its end. -/
def Walk.Ended (w : Walk) : Prop := none ∈ w.answers

/-- A walk that has answered the items at their places, and is to yield those after them. -/
structure Walk.OnCourse (w : Walk) (m : Memo) : Prop where
  underway : w.view.Underway m w.cursor
  rest : w.view.rest w.cursor = w.view.sequence.drop w.answers.length
  answers : w.answers = (List.range w.answers.length).map fun n => w.view.sequence[n]?

namespace Walk

variable {w : Walk} {m m' : Memo}

theorem onCourse_start {v : View} (hm : m.Honest v.resolution) (hsettles : v.Settles m) :
    (Walk.start v).OnCourse m where
  underway := View.underway_start hm hsettles
  rest := v.rest_start
  answers := rfl

/-- A walk stays on course while others work on the memo. -/
theorem OnCourse.stays (h : w.OnCourse m) (hm : m'.Honest w.view.resolution) (hstays : m.Stays m')
    (hsettles : w.view.Settles m') : w.OnCourse m' :=
  ⟨h.underway.stays hm hstays hsettles, h.rest, h.answers⟩

/-- A walk stays on course as it goes on. -/
theorem OnCourse.next (h : w.OnCourse m) (hr : w.view.resolution.Steady) (hv : w.view.Steady) :
    (w.next m).1.OnCourse (w.next m).2 ∧ w.view.Extends m (w.next m).2 := by
  obtain ⟨hitem, htail, hunderway, hextends⟩ := View.next_rest hr hv h.underway
  rw [h.rest] at hitem htail
  have hlength : (w.next m).1.answers.length = w.answers.length + 1 := List.length_append
  refine ⟨⟨hunderway, ?_, ?_⟩, hextends⟩
  · rw [hlength]
    exact htail.trans List.tail_drop
  · have hanswers : (w.next m).1.answers = w.answers ++ [w.view.sequence[w.answers.length]?] := by
      rw [← List.head?_drop, ← hitem]
      rfl
    rw [hlength, List.range_succ, List.map_append, hanswers]
    exact congrArg (· ++ _) h.answers

/-- What a walk on course has yielded is the sequence up to some place. -/
theorem OnCourse.yielded (h : w.OnCourse m) :
    w.yielded = w.view.sequence.take w.answers.length := by
  have hall : ∀ n, ((List.range n).map fun k => w.view.sequence[k]?).filterMap id =
      w.view.sequence.take n := by
    intro n
    induction n with
    | zero => rfl
    | succ n ih =>
      rw [List.range_succ, List.map_append, List.filterMap_append, ih, List.take_add_one,
        List.map_singleton]
      cases w.view.sequence[n]? <;> rfl
  unfold Walk.yielded
  rw [h.answers, hall, List.length_map, List.length_range]

/-- A walk on course ends after the last item, and no sooner. -/
theorem OnCourse.ended_iff (h : w.OnCourse m) :
    w.Ended ↔ w.view.sequence.length < w.answers.length := by
  unfold Ended
  rw [h.answers, List.mem_map, List.length_map, List.length_range]
  constructor
  · rintro ⟨n, hn, hnone⟩
    exact Nat.lt_of_le_of_lt (List.getElem?_eq_none_iff.mp hnone) (List.mem_range.mp hn)
  · exact fun hlt => ⟨_, List.mem_range.mpr hlt, List.getElem?_eq_none_iff.mpr (Nat.le_refl _)⟩

/-- A walk on course that has ended has yielded all items. -/
theorem OnCourse.yielded_of_ended (h : w.OnCourse m) (hended : w.Ended) :
    w.yielded = w.view.sequence := by
  rw [h.yielded]
  exact List.take_of_length_le (Nat.le_of_lt (h.ended_iff.mp hended))

end Walk

/-! ## Tours of orderly requests -/

/-- A tour all of whose views are those of some requests, and all of whose walks are on course. -/
structure Tour.Steered (r : Resolution) (requests : List ViewRequest) (t : Tour) : Prop where
  views : ∀ v ∈ t.views, ∃ q ∈ requests, v = r.view q
  settles : ∀ q ∈ requests, (r.view q).Settles t.memo
  walks : ∀ w ∈ t.walks, (∃ q ∈ requests, w.view = r.view q) ∧ w.OnCourse t.memo

namespace Tour

variable {r : Resolution} {requests : List ViewRequest} {t : Tour}

theorem steered_start (r : Resolution) (requests : List ViewRequest) : Steered r requests {} where
  views := fun _ h => absurd h List.not_mem_nil
  settles := fun _ _ _ _ _ h => absurd h (by simp [Memo.transform?, Dict.lookup])
  walks := fun _ h => absurd h List.not_mem_nil

theorem Steered.views_step (h : t.Steered r requests) {a : Tour.Action}
    (ha : ∀ q, a = .view q → q ∈ requests) :
    ∀ v ∈ (Tour.step r t a).views, ∃ q ∈ requests, v = r.view q := by
  cases a with
  | view q =>
    intro v hv
    rcases List.mem_append.mp hv with hv | hv
    · exact h.views v hv
    · exact ⟨q, ha q rfl, List.mem_singleton.mp hv⟩
  | requested _ => exact h.views
  | _ =>
    unfold Tour.step
    dsimp only
    split <;> exact h.views

/-- Walks stay on course on a later memo that settles all views. -/
theorem Steered.walks_stay (h : t.Steered r requests) {m : Memo} (hm : m.Honest r)
    (hstays : t.memo.Stays m) (hsettles : ∀ q ∈ requests, (r.view q).Settles m) {w : Walk}
    (hw : w ∈ t.walks) : (∃ q ∈ requests, w.view = r.view q) ∧ w.OnCourse m := by
  obtain ⟨⟨q, hq, hview⟩, hcourse⟩ := h.walks w hw
  have hhonest : m.Honest w.view.resolution := by rw [hview]; exact hm
  exact ⟨⟨q, hq, hview⟩, hcourse.stays hhonest hstays (hview ▸ hsettles q hq)⟩

/-- **Whatever is done with orderly requests, walks stay on course.** -/
theorem Steered.step (hr : r.Steady) (hrequests : r.Orderly requests) (ht : t.InPlace r)
    (hm : t.memo.Honest r) (h : t.Steered r requests) {a : Tour.Action}
    (ha : ∀ q, a = .view q → q ∈ requests) : (Tour.step r t a).Steered r requests := by
  have hviews := h.views_step ha
  have hhonest := hm.step ht a
  have hstays := Memo.Stays.step ht a
  rcases Tour.step_cases r t a with ⟨hmemo, hwalks⟩ | ⟨i, w, -, hw, hstep⟩ |
    ⟨v, -, component, hstep⟩
  · refine ⟨hviews, by rw [hmemo]; exact h.settles, fun w hw => ?_⟩
    rw [hmemo]
    rcases hwalks w hw with hw | ⟨v, hv, rfl⟩
    · exact h.walks w hw
    · obtain ⟨q, hq, rfl⟩ := h.views v hv
      exact ⟨⟨q, hq, rfl⟩, Walk.onCourse_start hm (h.settles q hq)⟩
  · -- The view that goes on settles itself, and agrees with the others.
    obtain ⟨⟨p, hp, hview⟩, hcourse⟩ := h.walks w (List.mem_of_getElem? hw)
    have hresolution : w.view.resolution = r := by rw [hview]; rfl
    have hsteady : w.view.Steady := by rw [hview]; exact hrequests.steady p hp
    obtain ⟨hnext, hextends⟩ := hcourse.next (hresolution ▸ hr) hsteady
    rw [hview] at hextends
    rw [hstep] at hviews hhonest hstays ⊢
    have hsettles : ∀ q ∈ requests, (r.view q).Settles (w.next t.memo).2 := fun q hq =>
      (h.settles q hq).others (hrequests.agree p hp q hq) hextends
    refine ⟨hviews, hsettles, fun w' hw' => ?_⟩
    rcases List.mem_or_eq_of_mem_set hw' with hw' | rfl
    · exact h.walks_stay hhonest hstays hsettles hw'
    · exact ⟨⟨p, hp, hview⟩, hnext⟩
  · obtain ⟨new, hmemo, -⟩ := v.accepts_memo component t.memo
    rw [hstep] at hviews hhonest hstays ⊢
    have hsettles : ∀ q ∈ requests, (r.view q).Settles (v.accepts component t.memo).2 := by
      intro q hq
      rw [hmemo]
      exact (h.settles q hq).calls new
    exact ⟨hviews, hsettles, fun w hw => h.walks_stay hhonest hstays hsettles hw⟩

end Tour

namespace Resolution

variable {r : Resolution} {requests : List ViewRequest}

/-- **Tours of orderly requests are steered.** -/
theorem steered_tour (hr : r.Steady) {actions : List Tour.Action} (h : r.Orderly requests)
    (hactions : Tour.requests actions ⊆ requests) : (r.tour actions).Steered r requests := by
  have hall : (r.tour actions).InPlace r ∧ (r.tour actions).memo.Honest r ∧
      (r.tour actions).Steered r requests :=
    List.foldlRecOn (motive := fun t => t.InPlace r ∧ t.memo.Honest r ∧ t.Steered r requests)
      actions (Tour.step r)
      ⟨Tour.inPlace_start r, Memo.honest_empty, Tour.steered_start r requests⟩
      fun t ⟨hplace, hhonest, hsteered⟩ a ha =>
        ⟨hplace.step a, hhonest.step hplace a, hsteered.step hr h hplace hhonest fun q hq =>
          hactions (List.mem_filterMap.mpr ⟨a, ha, by rw [hq]⟩)⟩
  exact hall.2.2

/-- **Views do not depend on what was done before.** Let artifacts carry the identity of their
component, as all do that a workspace resolves, and filters answer by the component alone. Whatever
is done with views, each answer of a walk is the item of its view at that place, or none after the
last one. So walks of one view that came to their ends have yielded the same, in the same or in
different tours, however many artifacts have one identity. -/
theorem views_independent {r : Resolution} (hr : r.Steady) (howned : r.Owned) :
    (∀ actions, (∀ q ∈ Tour.requests actions, q.Steady) → ∀ w ∈ (r.tour actions).walks,
      w.answers = (List.range w.answers.length).map fun n => w.view.sequence[n]?) ∧
    (∀ actions actions', (∀ q ∈ Tour.requests actions, q.Steady) →
      (∀ q ∈ Tour.requests actions', q.Steady) →
      ∀ w ∈ (r.tour actions).walks, ∀ w' ∈ (r.tour actions').walks, w.view = w'.view →
        w.Ended → w'.Ended → w.yielded = w'.yielded) ∧
    ∀ (ws : Workspace) name resolved, (ws.resolve name).outcome = .ok resolved →
      resolved.Owned := by
  have hcourse : ∀ actions, (∀ q ∈ Tour.requests actions, q.Steady) →
      ∀ w ∈ (r.tour actions).walks, w.OnCourse (r.tour actions).memo := fun actions h w hw =>
    ((steered_tour hr (howned.orderly h) (List.Subset.refl _)).walks w hw).2
  refine ⟨fun actions h w hw => (hcourse actions h w hw).answers, ?_,
    fun _ _ _ => owned_of_resolve⟩
  intro actions actions' h h' w hw w' hw' hview hended hended'
  have hall := (hcourse actions h w hw).yielded_of_ended hended
  have hall' := (hcourse actions' h' w' hw').yielded_of_ended hended'
  rw [hall, hall', hview]

/-- Without builds, what is left to be steady is the pipeline. -/
theorem steady_of_files {r : Resolution}
    (hfiles : ∀ c ∈ r.components, ∀ a ∈ c.artifacts, ∃ path, a.source = .file path)
    (hcan : ∀ h own requested,
      r.pipeline.canTransform h own requested = r.pipeline.canTransform [] own requested)
    (htransform : ∀ h id file own requested,
      (r.pipeline.transform h id file own requested).outcome =
        (r.pipeline.transform [] id file own requested).outcome) : r.Steady where
  producers := by
    intro a producer ha hsource
    obtain ⟨c, hc, hmem⟩ := ha.at_place
    obtain ⟨path, hpath⟩ :=
      hfiles c (List.mem_of_getElem? hc) a.artifact (List.mem_of_getElem? hmem)
    exact absurd (hpath.symm.trans hsource) (by simp)
  canTransform := hcan
  transform := htransform

/-- A project with a jar and a zip of one name, and a plain jar. -/
def twins : Resolution where
  configuration := "runtime"
  attributes := Dict.empty
  components := [
    ⟨.project ":p", [⟨⟨.project ":p", "p.jar"⟩, .ofType "jar", .file "p.jar"⟩,
      ⟨⟨.project ":p", "p.jar"⟩, .ofType "zip", .file "p.zip"⟩]⟩,
    .ofFile "x.jar" "x.jar"]
  pipeline := .declared
    [⟨.ofType "jar", .ofType "classes", "-j"⟩, ⟨.ofType "zip", .ofType "classes", "-z"⟩]

/-- The classes in a file of the project. -/
def twinClasses (file : String) : Item := .ok ⟨⟨.project ":p", file⟩, file, .ofType "classes"⟩

/-- The classes in the plain jar. -/
def plainClasses : Item := .ok ⟨⟨.file "x.jar", "x-j.jar"⟩, "x-j.jar", .ofType "classes"⟩

/-- Walk all classes. -/
def undisturbed : List Tour.Action :=
  [.view { attributes := .ofType "classes" }, .walk 0, .next 0, .next 0, .next 0, .next 0]

/-- Walk all classes twice at the same time, after walking those of the plain jar and one of the
project. -/
def disturbed : List Tour.Action :=
  [.view { filter := some fun _ id => id = .file "x.jar", attributes := .ofType "classes" },
    .view { filter := some fun _ id => id = .project ":p", attributes := .ofType "classes" },
    .view { attributes := .ofType "classes" },
    .walk 0, .next 0, .walk 1, .next 1, .walk 2, .walk 2,
    .next 2, .next 3, .next 3, .next 2, .accepts 1 (.project ":p"), .next 3, .next 2, .next 3,
    .next 2]

theorem twins_steady : twins.Steady :=
  steady_of_files (by simp [twins, ResolvedComponent.ofFile]) (fun _ _ _ => rfl)
    fun _ _ _ _ _ => rfl

theorem twins_owned : twins.Owned := by
  simp [Owned, twins, ResolvedComponent.ofFile]

/-- The zip is given the classes of the jar, which has its name, whatever was walked before. -/
theorem views_independent_of_twins :
    twins.Steady ∧ twins.Owned ∧ (∀ q ∈ Tour.requests undisturbed, q.Steady) ∧
      (∀ q ∈ Tour.requests disturbed, q.Steady) ∧
      ∃ w w', (twins.tour undisturbed).walks[0]? = some w ∧
        (twins.tour disturbed).walks[3]? = some w' ∧ w.view = w'.view ∧ w.Ended ∧ w'.Ended ∧
        w.yielded = w'.yielded ∧
        w.yielded = [twinClasses "p-j.jar", twinClasses "p-j.jar", plainClasses] := by
  obtain ⟨-, hsame, -⟩ := views_independent twins_steady twins_owned
  have hundisturbed : ∀ q ∈ Tour.requests undisturbed, q.Steady := by
    simp [undisturbed, Tour.requests, ViewRequest.Steady]
  have hdisturbed : ∀ q ∈ Tour.requests disturbed, q.Steady := by
    simp [disturbed, Tour.requests, ViewRequest.Steady]
  refine ⟨twins_steady, twins_owned, hundisturbed, hdisturbed, _, _, rfl, rfl, rfl, ?_, ?_, ?_, rfl⟩
  · exact List.mem_of_getElem? (i := 3) rfl
  · exact List.mem_of_getElem? (i := 3) rfl
  · exact hsame undisturbed disturbed hundisturbed hdisturbed _ (List.mem_of_getElem? (i := 0) rfl)
      _ (List.mem_of_getElem? (i := 3) rfl) rfl (List.mem_of_getElem? (i := 3) rfl)
      (List.mem_of_getElem? (i := 3) rfl)

/-! ## What views do depend on -/

/-- Two projects with a jar each. The second jar carries the identity of the first one. -/
def adopted : Resolution where
  configuration := "runtime"
  attributes := Dict.empty
  components := [
    ⟨.project ":p", [⟨⟨.project ":p", "p.jar"⟩, .ofType "jar", .file "p.jar"⟩]⟩,
    ⟨.project ":q", [⟨⟨.project ":p", "p.jar"⟩, .ofType "jar", .file "q.jar"⟩]⟩]
  pipeline := .declared [⟨.ofType "jar", .ofType "classes", "-j"⟩]

/-- The classes of one project. -/
def classesOf (path : String) : ViewRequest where
  filter := some fun _ id => id = .project path
  attributes := .ofType "classes"

/-- Walk the classes of the second project. -/
def secondOnly : List Tour.Action := [.view (classesOf ":q"), .walk 0, .next 0, .next 0]

/-- Walk the classes of the first project before. -/
def firstBefore : List Tour.Action :=
  [.view (classesOf ":p"), .walk 0, .next 0, .view (classesOf ":q"), .walk 1, .next 1, .next 1]

theorem adopted_steady : adopted.Steady :=
  steady_of_files (by simp [adopted]) (fun _ _ _ => rfl) fun _ _ _ _ _ => rfl

/-- **Views may remember what was done before** in two cases. An artifact carries the identity of a
component that another view includes: it is given the classes of that component's jar, if they were
walked. Or somebody asks the memo for a transform of another file, in the name of an artifact. -/
theorem views_remember :
    (adopted.Steady ∧ ¬ adopted.Owned ∧ (∀ q ∈ Tour.requests secondOnly, q.Steady) ∧
      (∀ q ∈ Tour.requests firstBefore, q.Steady) ∧
      ∃ w w', (adopted.tour secondOnly).walks[0]? = some w ∧
        (adopted.tour firstBefore).walks[1]? = some w' ∧ w.view = w'.view ∧ w.Ended ∧ w'.Ended ∧
        w.yielded = [twinClasses "q-j.jar"] ∧ w'.yielded = [twinClasses "p-j.jar"]) ∧
    (twins.Steady ∧ twins.Owned ∧ ∃ v, v = twins.view (classesOf ":p") ∧
      (v.items {}).1 = [twinClasses "p-j.jar", twinClasses "p-j.jar"] ∧
      (v.items (({} : Memo).transformed twins.pipeline ⟨.project ":p", "p.jar"⟩ "other.jar"
        (.ofType "jar") v.requested).2).1 =
          [twinClasses "other-j.jar", twinClasses "other-j.jar"]) := by
  refine ⟨⟨adopted_steady, fun howned => ?_, ?_, ?_, _, _, rfl, rfl, rfl, ?_, ?_, rfl, rfl⟩,
    twins_steady, twins_owned, _, rfl, rfl, rfl⟩
  · have hadopted := howned _ (.tail _ (.head _)) _ (.head _)
    exact absurd hadopted (by decide)
  · simp [secondOnly, Tour.requests, ViewRequest.Steady, classesOf]
  · simp [firstBefore, Tour.requests, ViewRequest.Steady, classesOf]
  · exact List.mem_of_getElem? (i := 1) rfl
  · exact List.mem_of_getElem? (i := 1) rfl

end Resolution

end Componentry
