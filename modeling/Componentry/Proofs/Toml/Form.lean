import Componentry.Toml.Value
import Mathlib.Data.List.Nodup

/-!
# Forms of trees

A value is a tree. A `Form` says what is to stand where in it, and what counts in the place of a
field that is absent; `Form.complete` writes those defaults into a tree. A tree is `Plain` for a
form if it is written in the usual way where the form allows another one, and `Form.At` goes down a
path through a tree and its form. A key is `Form.Stray` if it stands in a record that has no such
field.

Results:
* `Value.ofEntries_eq_iff`: tables are equal if they answer alike.
* `Form.Stray.list_cases`, `Form.Stray.free_cases`, `Form.Stray.record_cases`: where a stray key
  stands.
* **`Form.exists_at?_complete`**: what stands somewhere in a tree still stands there in the
  completed one.
* **`Form.At.complete`**: so does what stands at a part of the form, completed for that part.
-/

namespace Componentry

namespace Dict

variable {κ ν ι : Type}

/-- The entries that things of some names give, if they give one. -/
def given (name : ι → κ) (g : ι → Option ν) (l : List ι) : List (κ × ν) :=
  l.filterMap fun i => (g i).map fun v => (name i, v)

theorem given_sublist (name : ι → κ) (g : ι → Option ν) (l : List ι) :
    ((given name g l).map Prod.fst).Sublist (l.map name) := by
  induction l with
  | nil => exact List.Sublist.slnil
  | cons i rest ih =>
    rw [given, List.filterMap_cons, List.map_cons]
    cases g i with
    | none => exact ih.cons _
    | some v => exact ih.cons_cons _

variable [DecidableEq κ]

theorem lookup_given {name : ι → κ} {l : List ι} (hl : (l.map name).Nodup) (g : ι → Option ν)
    {i : ι} (hi : i ∈ l) : lookup (name i) (given name g l) = g i := by
  have hnodup := hl.sublist (given_sublist name g l)
  refine Option.ext fun v => ?_
  rw [lookup_eq_some_iff hnodup, given, List.mem_filterMap]
  constructor
  · rintro ⟨j, hj, hgiven⟩
    obtain ⟨w, hw, hpair⟩ := Option.map_eq_some_iff.mp hgiven
    obtain ⟨hname, rfl⟩ := Prod.mk.inj hpair
    rw [← List.inj_on_of_nodup_map hl hj hi hname, hw]
  · intro hv
    exact ⟨i, hi, by rw [hv, Option.map_some]⟩

theorem lookup_given_of_notMem {name : ι → κ} {l : List ι} {k : κ} (hk : k ∉ l.map name)
    (g : ι → Option ν) : lookup k (given name g l) = none :=
  lookup_eq_none_iff.mpr fun hmem => hk ((given_sublist name g l).subset hmem)

end Dict

namespace Toml

/-! ## Tables -/

namespace Value

/-- The entries of a table are those of the dictionary. -/
theorem ofEntries_eq (es : List (String × Value)) :
    ofEntries es = .table (Dict.ofList es).entries := by
  have hinsert (d : Dict String Value) : (d.insertAll es).entries =
      es.foldl (fun sorted e => Dict.insertEntry e.1 e.2 sorted) d.entries := by
    induction es generalizing d with
    | nil => rfl
    | cons e rest ih => exact ih (d.insert e.1 e.2)
  exact congrArg table (hinsert Dict.empty).symm

/-- **Tables are equal if they answer alike**, and of entries with one key the last answers. -/
theorem ofEntries_eq_iff {es fs : List (String × Value)} :
    ofEntries es = ofEntries fs ↔ ∀ k, Dict.lookup k es.reverse = Dict.lookup k fs.reverse := by
  rw [ofEntries_eq, ofEntries_eq, table.injEq]
  simp only [← Dict.lookup_ofList]
  exact ⟨fun h k => congrArg (Dict.lookup k) h,
    Dict.entries_ext (Dict.ofList es).sorted (Dict.ofList fs).sorted⟩

/-- A step from a value to one of its parts. -/
inductive Step where
  | key (k : String)
  | index (i : Nat)

/-- The value at the end of a path. -/
def at? : Value → List Step → Option Value
  | v, [] => some v
  | table entries, .key k :: path => (Dict.lookup k entries).bind fun v => v.at? path
  | list items, .index i :: path => items[i]?.bind fun v => v.at? path
  | _, _ :: _ => none

end Value

/-! ## Forms -/

/-- What is to stand somewhere in a tree. -/
inductive Form where
  /-- A text or a truth value. -/
  | atom
  /-- One of a few names. -/
  | choice
  /-- A list of items of one form. -/
  | list (item : Form)
  /-- A table with any keys and values of one form. -/
  | free (item : Form)
  /-- A table of named fields, each with its form and what counts in its absence. -/
  | record (fields : List (String × Form × Option Value))

/-- The values that count in the absence of fields. -/
def defaults (fields : List (String × Form × Option Value)) : List (String × Value) :=
  Dict.given Prod.fst (fun field => field.2.2) fields

mutual

/-- A tree with the defaults of all absent fields filled in. -/
def Form.complete : Form → Value → Value
  | .list item, .list items => .list (items.map item.complete)
  | .free item, .table entries => .table (entries.map fun e => (e.1, item.complete e.2))
  | .record fields, .table entries =>
    .ofEntries (defaults fields ++ entries.map fun e => (e.1, Form.completeField fields e.1 e.2))
  | _, v => v
termination_by structural form => form

/-- The value of the field `key` with the defaults filled in; unknown fields stay as they are. -/
def Form.completeField : List (String × Form × Option Value) → String → Value → Value
  | [], _, v => v
  | (name, form, _) :: rest, key, v =>
    if key = name then form.complete v else Form.completeField rest key v
termination_by structural fields => fields

end

/-- A tree that is written in the usual way: its tables have each key once, in order, and where the
form asks for a table or a name, there is no other way of writing one. -/
inductive Form.Plain : Form → Value → Prop
  | atom (v : Value) : Plain .atom v
  /-- A name is not written as a table with the name as its key. -/
  | choice (name : String) : Plain .choice (.text name)
  | list {item : Form} {v : Value} (hitems : ∀ items, v = .list items → ∀ w ∈ items, Plain item w) :
    Plain (.list item) v
  /-- A date or time is not taken for a table. -/
  | free {item : Form} {v : Value} (hmoment : ∀ written, v ≠ .moment written)
    (hsorted : ∀ entries, v = .table entries → SortedByKey entries)
    (hvalues : ∀ entries, v = .table entries → ∀ e ∈ entries, Plain item e.2) : Plain (.free item) v
  /-- A record is not written as the list of its fields. -/
  | record {fields : List (String × Form × Option Value)} {entries : List (String × Value)}
    (hsorted : SortedByKey entries)
    (hfields : ∀ field ∈ fields, ∀ v, Dict.lookup field.1 entries = some v → Plain field.2.1 v) :
    Plain (.record fields) (.table entries)

/-- `At form v path part w`: the path leads through tables and lists of the tree `v` to `w`, and
through the form of `v` to `part`. -/
inductive Form.At : Form → Value → List Value.Step → Form → Value → Prop
  | here (form : Form) (v : Value) : At form v [] form v
  | item {form part : Form} {items : List Value} {i : Nat} {v w : Value} {path : List Value.Step}
    (hitem : items[i]? = some v) (h : At form v path part w) :
    At (.list form) (.list items) (.index i :: path) part w
  | entry {form part : Form} {entries : List (String × Value)} {key : String} {v w : Value}
    {path : List Value.Step} (hentry : Dict.lookup key entries = some v)
    (h : At form v path part w) : At (.free form) (.table entries) (.key key :: path) part w
  | field {fields : List (String × Form × Option Value)} {form part : Form} {absent : Option Value}
    {entries : List (String × Value)} {key : String} {v w : Value} {path : List Value.Step}
    (hfield : Dict.lookup key fields = some (form, absent))
    (hentry : Dict.lookup key entries = some v) (h : At form v path part w) :
    At (.record fields) (.table entries) (.key key :: path) part w

/-- A key that a record does not know stands somewhere in the tree. -/
def Form.Stray (form : Form) (v : Value) : Prop :=
  ∃ path fields entries key, form.At v path (.record fields) (.table entries) ∧
    key ∈ entries.map Prod.fst ∧ key ∉ fields.map Prod.fst

namespace Form

variable {fields : List (String × Form × Option Value)} {entries : List (String × Value)}

@[simp] theorem complete_atom (v : Value) : atom.complete v = v := rfl

@[simp] theorem complete_choice (v : Value) : choice.complete v = v := rfl

@[simp] theorem plain_atom (v : Value) : atom.Plain v := .atom v

@[simp] theorem plain_list {item : Form} {items : List Value} :
    item.list.Plain (.list items) ↔ ∀ v ∈ items, item.Plain v := by
  refine ⟨fun h => ?_, fun h => .list fun _ hlist => Value.list.inj hlist ▸ h⟩
  cases h with
  | list hitems => exact hitems items rfl

@[simp] theorem plain_free {item : Form} :
    item.free.Plain (.table entries) ↔ SortedByKey entries ∧ ∀ e ∈ entries, item.Plain e.2 := by
  refine ⟨fun h => ?_, fun ⟨hsorted, hvalues⟩ => .free (fun _ => nofun)
    (fun _ htable => Value.table.inj htable ▸ hsorted)
    fun _ htable => Value.table.inj htable ▸ hvalues⟩
  cases h with
  | free _ hsorted hvalues => exact ⟨hsorted entries rfl, hvalues entries rfl⟩

@[simp] theorem plain_record : (Form.record fields).Plain (.table entries) ↔ SortedByKey entries ∧
    ∀ field ∈ fields, ∀ v, Dict.lookup field.1 entries = some v → field.2.1.Plain v := by
  refine ⟨fun h => ?_, fun ⟨hsorted, hfields⟩ => .record hsorted hfields⟩
  cases h with
  | record hsorted hfields => exact ⟨hsorted, hfields⟩

theorem completeField_eq (key : String) (v : Value) :
    completeField fields key v =
      ((Dict.lookup key fields).elim v fun field => field.1.complete v) := by
  induction fields with
  | nil => rfl
  | cons field rest ih =>
    rw [completeField, Dict.lookup]
    split
    · rfl
    · exact ih

/-- The entries of a completed record. -/
theorem lookup_complete (hsorted : SortedByKey entries) (key : String) :
    Dict.lookup key (defaults fields ++
        entries.map fun e => (e.1, completeField fields e.1 e.2)).reverse =
      ((Dict.lookup key entries).map (completeField fields key)).or
        (Dict.lookup key (defaults fields).reverse) := by
  have hmap := Dict.sorted_map_entry (g := completeField fields) hsorted
  rw [List.reverse_append, Dict.lookup_append, Dict.lookup_reverse (Dict.nodup_of_sorted hmap),
    Dict.lookup_map_entry]

/-! ## Where unknown keys stand -/

theorem not_stray_atom {v : Value} : ¬ atom.Stray v := by
  rintro ⟨_, _, _, _, hat, -⟩
  cases hat

theorem not_stray_choice {v : Value} : ¬ choice.Stray v := by
  rintro ⟨_, _, _, _, hat, -⟩
  cases hat

theorem Stray.list_cases {item : Form} {v : Value} (h : item.list.Stray v) :
    ∃ items, v = .list items ∧ ∃ w ∈ items, item.Stray w := by
  obtain ⟨_, _, _, _, hat, hunknown⟩ := h
  cases hat with
  | item hitem hat => exact ⟨_, rfl, _, List.mem_of_getElem? hitem, _, _, _, _, hat, hunknown⟩

theorem Stray.free_cases {item : Form} {v : Value} (h : item.free.Stray v) :
    ∃ entries, v = .table entries ∧ ∃ e ∈ entries, item.Stray e.2 := by
  obtain ⟨_, _, _, _, hat, hunknown⟩ := h
  cases hat with
  | entry hentry hat => exact ⟨_, rfl, _, Dict.mem_of_lookup hentry, _, _, _, _, hat, hunknown⟩

/-- In a record a key is unknown to the record itself, or to something in one of its fields. -/
theorem Stray.record_cases {v : Value} (h : (record fields).Stray v) :
    ∃ entries, v = .table entries ∧ ∃ e ∈ entries, e.1 ∉ fields.map Prod.fst ∨
      ∃ form absent, Dict.lookup e.1 fields = some (form, absent) ∧ form.Stray e.2 := by
  obtain ⟨_, _, _, _, hat, hkey, hunknown⟩ := h
  cases hat with
  | here =>
    obtain ⟨e, he, rfl⟩ := List.mem_map.mp hkey
    exact ⟨_, rfl, e, he, .inl hunknown⟩
  | field hfield hentry hat =>
    exact ⟨_, rfl, _, Dict.mem_of_lookup hentry,
      .inr ⟨_, _, hfield, _, _, _, _, hat, hkey, hunknown⟩⟩

/-! ## What is kept -/

theorem at?_complete_list (item : Form) (items : List Value) (i : Nat) (path : List Value.Step) :
    (item.list.complete (.list items)).at? (.index i :: path) =
      items[i]?.bind fun v => (item.complete v).at? path := by
  rw [complete, Value.at?, List.getElem?_map, Option.bind_map]
  rfl

theorem at?_complete_free (item : Form) (key : String) (path : List Value.Step) :
    (item.free.complete (.table entries)).at? (.key key :: path) =
      (Dict.lookup key entries).bind fun v => (item.complete v).at? path := by
  rw [complete, Value.at?, Dict.lookup_map_entry fun _ => item.complete, Option.bind_map]
  rfl

/-- A part of a record that is written in it is kept. -/
theorem at?_complete_record (hsorted : SortedByKey entries) {key : String} {v : Value}
    (hentry : Dict.lookup key entries = some v) (path : List Value.Step) :
    ((record fields).complete (.table entries)).at? (.key key :: path) =
      (completeField fields key v).at? path := by
  rw [complete, Value.ofEntries_eq, Value.at?, Dict.lookup_ofList, lookup_complete hsorted, hentry,
    Option.map_some, Option.some_or, Option.bind_some]

/-- **Nothing is dropped**: what stands somewhere in a tree still stands there in the completed one,
with the defaults of some form filled in. -/
theorem exists_at?_complete {form : Form} {v w : Value} {path : List Value.Step}
    (hplain : form.Plain v) (h : v.at? path = some w) :
    ∃ part : Form, (form.complete v).at? path = some (part.complete w) := by
  induction path generalizing form v with
  | nil =>
    rw [Value.at?] at h
    exact ⟨form, by rw [Value.at?, Option.some.inj h]⟩
  | cons step path ih =>
    cases hplain with
    | atom => exact ⟨.atom, h⟩
    | choice => exact ⟨.atom, h⟩
    | list hitems =>
      match v, step with
      | .list items, .index i =>
        obtain ⟨x, hitem, hx⟩ := Option.bind_eq_some_iff.mp h
        rw [at?_complete_list, hitem]
        exact ih (hitems _ rfl _ (List.mem_of_getElem? hitem)) hx
      | .table entries, .key k => exact ⟨.atom, h⟩
    | free _ _ hvalues =>
      match v, step with
      | .table entries, .key k =>
        obtain ⟨x, hentry, hx⟩ := Option.bind_eq_some_iff.mp h
        rw [at?_complete_free, hentry]
        exact ih (hvalues _ rfl _ (Dict.mem_of_lookup hentry)) hx
      | .list items, .index i => exact ⟨.atom, h⟩
    | record hsorted hfields =>
      match step with
      | .key k =>
        obtain ⟨x, hentry, hx⟩ := Option.bind_eq_some_iff.mp h
        rw [at?_complete_record hsorted hentry, completeField_eq]
        match hfield : Dict.lookup k _ with
        | none => exact ⟨.atom, hx⟩
        | some (form, absent) => exact ih (hfields _ (Dict.mem_of_lookup hfield) _ hentry) hx

/-- **What stands at a part of the form is kept**, completed for that part. -/
theorem At.complete {form part : Form} {v w : Value} {path : List Value.Step}
    (h : form.At v path part w) (hplain : form.Plain v) :
    (form.complete v).at? path = some (part.complete w) := by
  induction h with
  | here form v => rw [Value.at?]
  | item hitem _ ih =>
    cases hplain with
    | list hitems =>
      rw [at?_complete_list, hitem]
      exact ih (hitems _ rfl _ (List.mem_of_getElem? hitem))
  | entry hentry _ ih =>
    cases hplain with
    | free _ _ hvalues =>
      rw [at?_complete_free, hentry]
      exact ih (hvalues _ rfl _ (Dict.mem_of_lookup hentry))
  | field hfield hentry _ ih =>
    cases hplain with
    | record hsorted hfields =>
      rw [at?_complete_record hsorted hentry, completeField_eq, hfield]
      exact ih (hfields _ (Dict.mem_of_lookup hfield) _ hentry)

end Form

end Toml

end Componentry
