import Mathlib.Logic.Function.Basic
import Componentry.Proofs.Artifact.Form
import Componentry.Proofs.Artifact.Settlement
import Componentry.Command.Run

/-!
# The algebra of attributes

However attributes are made, they are the one list in key order of what they answer, so that
attributes with the same contents are equal and name the same transform in a memo. Merging them is
associative and idempotent, and attributes are compatible when it does not matter which of them are
laid over the others.

* `Recipe`: a way to make attributes, `Recipe.build` what it makes and `Recipe.answers` what that
  has to answer, said without any list.
* `Dict.without`: the entries for keys that another dictionary has not.
* `Override`: what can be requested on top of a request, and `Override.together` several of them at
  once.

Results:
* `Dict.eq_iff_get?`, `Dict.entries_eq_iff`: look-ups decide equality, and determine the entries.
* `Dict.merge_assoc`, `Dict.merge_self`, `Dict.insertAll_eq_merge`: merging.
* `Recipe.get?_build`: what is made answers as it has to.
* `isCompatibleWith_iff_merge_comm`, `isCompatibleWith_merge_iff`: compatibility and merging.
* `ViewRequest.foldl_override`, `ViewCommand.request_eq_foldl_override`: requesting one thing at a
  time.
* **`canonical_algebra`**: all of this together.
-/

namespace Componentry

/-! ## Merging dictionaries -/

namespace Dict

variable {κ ν : Type} [KeyOrder κ] [DecidableEq κ]

/-- **Dictionaries are equal iff they give the same answers.** -/
theorem eq_iff_get? {d e : Dict κ ν} : d = e ↔ ∀ k, d.get? k = e.get? k :=
  ⟨fun h _ => h ▸ rfl, ext_get?⟩

/-- **The entries are the one list in key order** that holds what look-ups answer. -/
theorem entries_eq_iff (d : Dict κ ν) {entries : List (κ × ν)} :
    d.entries = entries ↔
      SortedByKey entries ∧ ∀ k v, (k, v) ∈ entries ↔ d.get? k = some v := by
  constructor
  · rintro rfl
    exact ⟨d.sorted, fun _ _ => d.mem_entries_iff⟩
  · rintro ⟨hsorted, hmem⟩
    refine entries_ext d.sorted hsorted fun k => Option.ext fun v => ?_
    rw [lookup_eq_some_iff (nodup_of_sorted hsorted)]
    exact (hmem k v).symm

theorem merge_assoc (d e f : Dict κ ν) : (d.merge e).merge f = d.merge (e.merge f) := by
  refine ext_get? fun k => ?_
  simp only [get?_merge, Option.or_assoc]

instance : Std.Associative (merge : Dict κ ν → Dict κ ν → Dict κ ν) := ⟨merge_assoc⟩

@[simp] theorem empty_merge (d : Dict κ ν) : empty.merge d = d := by
  refine ext_get? fun k => ?_
  rw [get?_merge, get?_empty, Option.or_none]

@[simp] theorem merge_empty (d : Dict κ ν) : d.merge empty = d := by
  refine ext_get? fun k => ?_
  rw [get?_merge, get?_empty, Option.none_or]

theorem merge_self (d : Dict κ ν) : d.merge d = d := by
  refine ext_get? fun k => ?_
  rw [get?_merge, Option.or_self]

/-- Setting entries one after another lays all of them over. -/
theorem insertAll_eq_merge (d : Dict κ ν) (es : List (κ × ν)) :
    d.insertAll es = d.merge (ofList es) := by
  refine ext_get? fun k => ?_
  have hget := lookup_ofList es k
  rw [get?_insertAll, get?_merge, ← hget]
  rfl

theorem insert_eq_merge (d : Dict κ ν) (k : κ) (v : ν) :
    d.insert k v = d.merge (empty.insert k v) :=
  d.insertAll_eq_merge [(k, v)]

/-- **Laying several dictionaries over, one after another or all at once.** -/
theorem foldl_merge (d : Dict κ ν) (ds : List (Dict κ ν)) :
    ds.foldl merge d = d.merge (ds.foldl merge empty) := by
  have hfold : ds.foldl merge (d.merge empty) = d.merge (ds.foldl merge empty) := List.foldl_assoc
  rwa [merge_empty] at hfold

/-- The entries for keys that another dictionary has not. -/
def without (d other : Dict κ ν) : Dict κ ν :=
  ⟨d.entries.filter fun e => !other.contains e.1, d.sorted.sublist List.filter_sublist⟩

theorem get?_without (d other : Dict κ ν) (k : κ) :
    (d.without other).get? k = if other.contains k then none else d.get? k := by
  refine Option.ext fun v => ?_
  rw [← mem_entries_iff, without, List.mem_filter, mem_entries_iff]
  cases other.contains k <;> simp

end Dict

/-! ## Ways to make attributes -/

/-- A way to make attributes. -/
inductive Recipe where
  | empty
  /-- Pairs are collected in order. -/
  | collect (pairs : List (String × String))
  /-- A key is set, in place or in a copy. -/
  | insert (recipe : Recipe) (key value : String)
  | remove (recipe : Recipe) (key : String)
  | merge (recipe overrides : Recipe)

namespace Recipe

/-- The attributes that are made. -/
def build : Recipe → Attributes
  | empty => Dict.empty
  | collect pairs => Dict.ofList pairs
  | insert recipe key value => recipe.build.insert key value
  | remove recipe key => recipe.build.erase key
  | merge recipe overrides => recipe.build.merge overrides.build

/-- What attributes have to answer, by how they are made: what was set last. -/
def answers : Recipe → String → Option String
  | empty => fun _ => none
  | collect pairs =>
    pairs.foldl (fun (f : String → Option String) e => Function.update f e.1 (some e.2))
      fun _ => none
  | insert recipe key value => Function.update recipe.answers key (some value)
  | remove recipe key => Function.update recipe.answers key none
  | merge recipe overrides => fun key => (overrides.answers key).or (recipe.answers key)

/-- Setting entries one after another changes the answers one after another. -/
theorem get?_insertAll_eq_foldl (pairs : List (String × String)) (a : Attributes) :
    (a.insertAll pairs).get? =
      pairs.foldl (fun (f : String → Option String) e => Function.update f e.1 (some e.2))
        a.get? := by
  induction pairs generalizing a with
  | nil => rfl
  | cons e rest ih =>
    have hhead : (a.insert e.1 e.2).get? = Function.update a.get? e.1 (some e.2) := by
      funext key
      rw [Dict.get?_insert, Function.update_apply]
    rw [List.foldl_cons, ← hhead, ← ih]
    rfl

/-- **Attributes answer what was set last**, however they are made. -/
theorem get?_build (recipe : Recipe) (key : String) :
    recipe.build.get? key = recipe.answers key := by
  induction recipe with
  | empty => rfl
  | collect pairs => exact congrFun (get?_insertAll_eq_foldl pairs Dict.empty) key
  | insert recipe key' value ih =>
    rw [build, answers, Dict.get?_insert, Function.update_apply, ih]
  | remove recipe key' ih =>
    rw [build, answers, Dict.get?_erase, Function.update_apply, ih]
  | merge recipe overrides ih ihOverrides =>
    rw [build, answers, Dict.get?_merge, ih, ihOverrides]

end Recipe

/-! ## Compatibility -/

namespace Attributes

variable {a b c : Attributes}

theorem Conflicts.symm (h : a.Conflicts b) : b.Conflicts a := by
  obtain ⟨key, value, other, hvalue, hother, hne⟩ := h
  exact ⟨key, other, value, hother, hvalue, Ne.symm hne⟩

theorem isCompatibleWith_comm (a b : Attributes) : a.isCompatibleWith b = b.isCompatibleWith a := by
  rw [Bool.eq_iff_iff, isCompatibleWith_iff, isCompatibleWith_iff]
  exact not_congr ⟨Conflicts.symm, Conflicts.symm⟩

/-- Attributes are compatible if they agree on the keys that both have. -/
theorem isCompatibleWith_iff_agree :
    a.isCompatibleWith b = true ↔
      ∀ key value other, a.get? key = some value → b.get? key = some other → value = other := by
  rw [isCompatibleWith_iff]
  constructor
  · intro h key value other hvalue hother
    by_contra hne
    exact h ⟨key, other, value, hother, hvalue, hne⟩
  · rintro h ⟨key, other, value, hother, hvalue, hne⟩
    exact hne (h key value other hvalue hother)

/-- **Attributes are compatible if it does not matter which are laid over the others.** -/
theorem isCompatibleWith_iff_merge_comm :
    a.isCompatibleWith b = true ↔ a.merge b = b.merge a := by
  rw [isCompatibleWith_iff_agree, Dict.eq_iff_get?]
  -- both sides speak of one key at a time
  refine forall_congr' fun key => ?_
  rw [Dict.get?_merge, Dict.get?_merge]
  cases a.get? key <;> cases b.get? key <;> simp [eq_comm]

/-- **A merge is compatible** if the overrides are, and what they leave of the others. -/
theorem isCompatibleWith_merge_iff :
    isCompatibleWith (a.merge b) c = true ↔
      b.isCompatibleWith c = true ∧ isCompatibleWith (a.without b) c = true := by
  simp only [isCompatibleWith_iff_agree, ← forall_and]
  refine forall_congr' fun key => ?_
  rw [Dict.get?_merge, Dict.get?_without, Dict.contains]
  cases b.get? key <;> simp

end Attributes

/-! ## Requests -/

/-- What can be requested on top of a request. -/
inductive Override where
  | one (key value : String)
  | all (attributes : Attributes)

namespace Override

/-- The attributes that are requested. -/
def attributes : Override → Attributes
  | one key value => .single key value
  | all attributes => attributes

/-- The attributes that overrides request together, the last one counting most. -/
def together (overrides : List Override) : Attributes :=
  (overrides.map attributes).foldl Dict.merge Dict.empty

theorem together_cons (o : Override) (overrides : List Override) :
    together (o :: overrides) = o.attributes.merge (together overrides) := by
  rw [together, List.map_cons, List.foldl_cons, Dict.empty_merge, Dict.foldl_merge, together]

/-- Pairs that are requested are the attributes they are collected to. -/
theorem together_pairs (pairs : List (String × String)) :
    together (pairs.map fun e => one e.1 e.2) = Dict.ofList pairs := by
  rw [together, List.map_map, List.foldl_map, Dict.ofList, Dict.insertAll]
  simp only [Function.comp_apply, attributes, Attributes.single, ← Dict.insert_eq_merge]

end Override

namespace ViewRequest

variable (request : ViewRequest)

/-- A request with an override on top. -/
def override : Override → ViewRequest
  | .one key value => request.set key value
  | .all attributes => request.setAll attributes

theorem override_eq_setAll (o : Override) : request.override o = request.setAll o.attributes := by
  cases o with
  | one key value =>
    rw [override, set, Dict.insert_eq_merge]
    rfl
  | all attributes => rfl

theorem setAll_setAll (a b : Attributes) :
    (request.setAll a).setAll b = request.setAll (a.merge b) := by
  simp only [setAll, Dict.merge_assoc]

/-- **Overrides one at a time or all at once** make the same request. -/
theorem foldl_override (overrides : List Override) :
    overrides.foldl override request = request.setAll (Override.together overrides) := by
  induction overrides generalizing request with
  | nil =>
    have hnothing : request.attributes.merge Dict.empty = request.attributes := Dict.merge_empty _
    rw [List.foldl_nil, setAll, Override.together, List.map_nil, List.foldl_nil, hnothing]
  | cons o rest ih =>
    rw [List.foldl_cons, ih, override_eq_setAll, setAll_setAll, Override.together_cons]

/-- A view requests what it requested without the overrides, and them over it. -/
theorem requested_setAll_together (r : Resolution) (overrides : List Override) :
    (r.view (request.setAll (Override.together overrides))).requested =
      (overrides.map Override.attributes).foldl Dict.merge (r.view request).requested := by
  rw [Dict.foldl_merge]
  exact (Dict.merge_assoc r.attributes request.attributes _).symm

end ViewRequest

/-- The pairs of a command are requested one at a time. -/
theorem ViewCommand.request_eq_foldl_override (v : ViewCommand) :
    v.request = (v.patterns.mapM readPattern).map fun patterns =>
      (v.attributes.map fun e => .one e.1 e.2).foldl ViewRequest.override
        { filter := if patterns = [] then none else some (.ofPatterns patterns)
          lenient := v.lenient } := by
  simp only [ViewRequest.foldl_override, Override.together_pairs, ViewRequest.setAll,
    Dict.empty_merge]
  rfl

/-! ## The laws -/

/-- **Attributes are canonical, and merging and compatibility obey one algebra.** Whatever way they
are made, attributes answer what was set last and are equal if their answers are; their entries are
the one list in key order of these answers; and a memo finds a transform under other attributes
exactly if those have the same answers, unless it had one before. Merging is associative and
idempotent, and to merge with nothing changes nothing. Compatibility is symmetric; it says that two
can be merged either way round, and it goes through merges part by part. So views request the same
whether overrides are applied one at a time, as the command does it, or all at once. -/
theorem Attributes.canonical_algebra :
    (∀ recipe other : Recipe,
      (∀ key, recipe.build.get? key = recipe.answers key) ∧
      (recipe.build = other.build ↔ ∀ key, recipe.build.get? key = other.build.get? key) ∧
      (∀ entries, recipe.build.entries = entries ↔ SortedByKey entries ∧
        ∀ key value, (key, value) ∈ entries ↔ recipe.answers key = some value) ∧
      ∀ (m : Memo) pipeline id file own,
        ((m.transformed pipeline id file own recipe.build).2.transform?
          (id, other.build)).isSome = true ↔
          (m.transform? (id, other.build)).isSome = true ∨
            ∀ key, recipe.build.get? key = other.build.get? key) ∧
    (∀ a b c : Attributes,
      (∃ recipe : Recipe, recipe.build = a) ∧
      (a.merge b).merge c = a.merge (b.merge c) ∧
      Dict.empty.merge a = a ∧ a.merge Dict.empty = a ∧ a.merge a = a ∧
      a.isCompatibleWith b = b.isCompatibleWith a ∧
      (a.isCompatibleWith b = true ↔ a.merge b = b.merge a) ∧
      (isCompatibleWith (a.merge b) c = true ↔
        b.isCompatibleWith c = true ∧ isCompatibleWith (a.without b) c = true)) ∧
    (∀ (r : Resolution) (request : ViewRequest) (overrides : List Override),
      (r.view (overrides.foldl ViewRequest.override request)).requested =
          (r.view (request.setAll (Override.together overrides))).requested ∧
        (r.view (request.setAll (Override.together overrides))).requested =
          (overrides.map Override.attributes).foldl Dict.merge (r.view request).requested) ∧
    ∀ v : ViewCommand, v.request = (v.patterns.mapM readPattern).map fun patterns =>
      (v.attributes.map fun e => .one e.1 e.2).foldl ViewRequest.override
        { filter := if patterns = [] then none else some (.ofPatterns patterns)
          lenient := v.lenient } := by
  refine ⟨fun recipe other => ⟨recipe.get?_build, Dict.eq_iff_get?, fun entries => ?_,
      fun m pipeline id file own => ?_⟩,
    fun a b c => ⟨⟨.collect a.entries, a.ofList_entries⟩, a.merge_assoc b c, a.empty_merge,
      a.merge_empty, a.merge_self, isCompatibleWith_comm a b, isCompatibleWith_iff_merge_comm,
      isCompatibleWith_merge_iff⟩,
    fun r request overrides => ⟨by rw [request.foldl_override],
      request.requested_setAll_together r overrides⟩,
    ViewCommand.request_eq_foldl_override⟩
  · simp only [← recipe.get?_build]
    exact recipe.build.entries_eq_iff
  · -- the memo compares attributes as values
    rw [← Dict.eq_iff_get?, View.transformed_transform?]
    by_cases hsame : recipe.build = other.build
    · simp [hsame]
    · simp [hsame, Ne.symm hsame]

end Componentry
