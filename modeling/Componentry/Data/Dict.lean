/-!
# Dictionaries: association lists kept strictly sorted by key

A `Dict κ ν` is a list of `(key, value)` entries in strictly increasing key order. The order is
part of the type, so every dictionary is the one canonical list of its entries: dictionaries that
give the same answers are equal values (`ext_get?`), and iterating one always goes in key order.

* `insert` sets a key, replacing its previous value; `erase` forgets one.
* `merge` lays the entries of a second dictionary over a first one.
* `get?` looks a key up.

Main statements: `get?_insert` and `get?_erase` say what each operation does to look-ups,
`mem_entries_iff` that the entries are what look-ups answer, `ext_get?` that look-ups decide
equality.
-/

namespace Componentry

/-- Entries in strictly increasing key order. -/
def SortedByKey {κ ν : Type} [LT κ] (entries : List (κ × ν)) : Prop :=
  entries.Pairwise fun a b => a.1 < b.1

/-- A finite map from `κ` to `ν`, as its entries in key order. -/
structure Dict (κ ν : Type) [LT κ] where
  /-- The entries, in strictly increasing key order. -/
  entries : List (κ × ν)
  /-- Each key occurs once, and in order. -/
  sorted : SortedByKey entries

/-- A strict total order on keys: what a dictionary needs to keep its entries in one order. -/
class KeyOrder (κ : Type) extends LT κ where
  /-- The order can be tested. -/
  decLt : DecidableLT κ
  /-- No key is below itself. -/
  irrefl : ∀ a : κ, ¬ a < a
  /-- The order is transitive. -/
  trans : ∀ {a b c : κ}, a < b → b < c → a < c
  /-- Keys that are not ordered either way are equal. -/
  eq_of_not_lt : ∀ {a b : κ}, ¬ a < b → ¬ b < a → a = b

instance KeyOrder.instDecidableLT {κ : Type} [KeyOrder κ] : DecidableLT κ := KeyOrder.decLt

instance : KeyOrder String where
  decLt := inferInstance
  irrefl := String.lt_irrefl
  trans := String.lt_trans
  eq_of_not_lt := fun {a b} hab hba =>
    Std.Trichotomous.trichotomous (r := fun x y : String => x < y) a b hab hba

namespace Dict

variable {κ ν : Type}

/-! ## Operations on entry lists -/

section Entries

variable [KeyOrder κ] [DecidableEq κ]

/-- Set `k` to `v` in a sorted list: insert the entry, or replace the one for `k`. -/
def insertEntry (k : κ) (v : ν) : List (κ × ν) → List (κ × ν)
  | [] => [(k, v)]
  | e :: rest =>
    if k < e.1 then (k, v) :: e :: rest
    else if k = e.1 then (k, v) :: rest
    else e :: insertEntry k v rest

theorem mem_insertEntry {k : κ} {v : ν} {x : κ × ν} {l : List (κ × ν)}
    (h : x ∈ insertEntry k v l) : x = (k, v) ∨ x ∈ l := by
  induction l with
  | nil => exact Or.inl (by simpa [insertEntry] using h)
  | cons e rest ih =>
    rw [insertEntry] at h
    split at h
    · rcases List.mem_cons.mp h with h | h
      · exact Or.inl h
      · exact Or.inr h
    · split at h
      · rcases List.mem_cons.mp h with h | h
        · exact Or.inl h
        · exact Or.inr (List.mem_cons_of_mem _ h)
      · rcases List.mem_cons.mp h with h | h
        · exact Or.inr (h ▸ List.mem_cons_self)
        · exact (ih h).imp_right (List.mem_cons_of_mem _)

theorem sorted_insertEntry (k : κ) (v : ν) : ∀ {l : List (κ × ν)},
    SortedByKey l → SortedByKey (insertEntry k v l)
  | [], _ => List.pairwise_singleton _ _
  | e :: rest, h => by
    obtain ⟨hlt, hrest⟩ := List.pairwise_cons.mp h
    rw [insertEntry]
    split
    · rename_i hk
      refine List.pairwise_cons.mpr ⟨fun x hx => ?_, h⟩
      rcases List.mem_cons.mp hx with rfl | hx
      · exact hk
      · exact KeyOrder.trans hk (hlt x hx)
    · rename_i hk
      split
      · rename_i he
        exact List.pairwise_cons.mpr ⟨fun x hx => he ▸ hlt x hx, hrest⟩
      · rename_i he
        refine List.pairwise_cons.mpr ⟨fun x hx => ?_, sorted_insertEntry k v hrest⟩
        rcases mem_insertEntry hx with rfl | hx
        · exact Decidable.byContradiction fun hn => he (KeyOrder.eq_of_not_lt hk hn)
        · exact hlt x hx

end Entries

/-- The value of the first entry for `k`. -/
def lookup [DecidableEq κ] (k : κ) : List (κ × ν) → Option ν
  | [] => none
  | e :: rest => if k = e.1 then some e.2 else lookup k rest

/-! ## The dictionary operations -/

section Order

variable [LT κ]

/-- The dictionary with no entries. -/
def empty : Dict κ ν := ⟨[], List.Pairwise.nil⟩

instance : Inhabited (Dict κ ν) := ⟨empty⟩

instance [DecidableEq κ] [DecidableEq ν] : DecidableEq (Dict κ ν) := fun a b =>
  decidable_of_iff (a.entries = b.entries) ⟨fun h => by cases a; cases b; simpa using h, congrArg _⟩

/-- The value of `k`, if it has one. -/
def get? [DecidableEq κ] (d : Dict κ ν) (k : κ) : Option ν := lookup k d.entries

/-- Whether `k` has a value. -/
def contains [DecidableEq κ] (d : Dict κ ν) (k : κ) : Bool := (d.get? k).isSome

/-- The keys, in order. -/
def keys (d : Dict κ ν) : List κ := d.entries.map Prod.fst

/-- The values, in key order. -/
def values (d : Dict κ ν) : List ν := d.entries.map Prod.snd

/-- The number of entries. -/
def size (d : Dict κ ν) : Nat := d.entries.length

/-- Whether there are no entries. -/
def isEmpty (d : Dict κ ν) : Bool := d.entries.isEmpty

/-- Forget `k`. -/
def erase [DecidableEq κ] (d : Dict κ ν) (k : κ) : Dict κ ν :=
  ⟨d.entries.filter fun e => e.1 ≠ k, d.sorted.sublist List.filter_sublist⟩

end Order

variable [KeyOrder κ] [DecidableEq κ]

/-- Set `k` to `v`, replacing any previous value. -/
def insert (d : Dict κ ν) (k : κ) (v : ν) : Dict κ ν :=
  ⟨insertEntry k v d.entries, sorted_insertEntry k v d.sorted⟩

/-- `d` with the entries `es` set on top, in order: the last value of a key stays. -/
def insertAll (d : Dict κ ν) (es : List (κ × ν)) : Dict κ ν :=
  es.foldl (fun d e => d.insert e.1 e.2) d

/-- The dictionary of `es`: the last value of a key stays. -/
def ofList (es : List (κ × ν)) : Dict κ ν := empty.insertAll es

/-- `d` with every entry of `overrides` set on top. -/
def merge (d overrides : Dict κ ν) : Dict κ ν := d.insertAll overrides.entries

/-! ## Look-ups -/

theorem lookup_insertEntry (k q : κ) (v : ν) : ∀ l : List (κ × ν),
    lookup q (insertEntry k v l) = if q = k then some v else lookup q l
  | [] => by simp [insertEntry, lookup]
  | e :: rest => by
    rw [insertEntry]
    split
    · simp [lookup]
    · split
      · rename_i he
        subst he
        simp only [lookup]
        split <;> rfl
      · rename_i he
        simp only [lookup, lookup_insertEntry k q v rest]
        by_cases hq : q = e.1
        · simp [hq, Ne.symm he]
        · simp [hq]

/-- **Reading after a write**: only the written key changes. -/
@[simp] theorem get?_insert (d : Dict κ ν) (k q : κ) (v : ν) :
    (d.insert k v).get? q = if q = k then some v else d.get? q :=
  lookup_insertEntry k q v d.entries

@[simp] theorem get?_empty (q : κ) : (empty : Dict κ ν).get? q = none := rfl

omit [KeyOrder κ] in
theorem lookup_filter_ne (k q : κ) : ∀ l : List (κ × ν),
    lookup q (l.filter fun e => e.1 ≠ k) = if q = k then none else lookup q l
  | [] => by simp [lookup]
  | e :: rest => by
    have ih := lookup_filter_ne k q rest
    by_cases he : e.1 = k
    · rw [List.filter_cons_of_neg (by simp [he]), ih, lookup, he]
      split <;> rfl
    · rw [List.filter_cons_of_pos (by simp [he]), lookup, ih, lookup]
      by_cases hq : q = e.1
      · simp [hq, he]
      · simp [hq]

/-- **Reading after a removal**: only the removed key changes. -/
@[simp] theorem get?_erase (d : Dict κ ν) (k q : κ) :
    (d.erase k).get? q = if q = k then none else d.get? q :=
  lookup_filter_ne k q d.entries

omit [KeyOrder κ] in
theorem mem_of_lookup {k : κ} {v : ν} : ∀ {l : List (κ × ν)}, lookup k l = some v → (k, v) ∈ l
  | [], h => absurd h (by simp [lookup])
  | e :: rest, h => by
    rw [lookup] at h
    split at h
    · rename_i hk
      rw [hk, ← Option.some.inj h]
      exact List.mem_cons_self
    · exact List.mem_cons_of_mem _ (mem_of_lookup h)

omit [KeyOrder κ] in
/-- Only a key of some entry has a value. -/
theorem lookup_eq_none_iff {k : κ} : ∀ {l : List (κ × ν)},
    lookup k l = none ↔ k ∉ l.map Prod.fst
  | [] => by simp [lookup]
  | e :: rest => by
    rw [lookup]
    split
    · rename_i hk
      simp [hk]
    · rename_i hk
      rw [lookup_eq_none_iff, List.map_cons, List.mem_cons, not_or]
      exact ⟨fun h => ⟨hk, h⟩, And.right⟩

omit [KeyOrder κ] in
/-- With one entry per key, each entry is found. -/
theorem lookup_of_nodup {k : κ} {v : ν} : ∀ {l : List (κ × ν)},
    (l.map Prod.fst).Nodup → (k, v) ∈ l → lookup k l = some v
  | [], _, h => absurd h List.not_mem_nil
  | e :: rest, hl, h => by
    obtain ⟨hnew, hrest⟩ := List.nodup_cons.mp hl
    rw [lookup]
    rcases List.mem_cons.mp h with rfl | h
    · exact if_pos rfl
    · rw [if_neg, lookup_of_nodup hrest h]
      rintro rfl
      exact hnew (List.mem_map.mpr ⟨(e.1, v), h, rfl⟩)

omit [KeyOrder κ] in
/-- With one entry per key, the entries are what look-ups answer. -/
theorem lookup_eq_some_iff {k : κ} {v : ν} {l : List (κ × ν)} (hl : (l.map Prod.fst).Nodup) :
    lookup k l = some v ↔ (k, v) ∈ l :=
  ⟨mem_of_lookup, lookup_of_nodup hl⟩

omit [KeyOrder κ] in
/-- Changing values does not move them. -/
theorem lookup_map_entry {μ : Type} (g : κ → ν → μ) (k : κ) : ∀ l : List (κ × ν),
    lookup k (l.map fun e => (e.1, g e.1 e.2)) = (lookup k l).map (g k)
  | [] => rfl
  | e :: rest => by
    rw [List.map_cons, lookup, lookup, lookup_map_entry g k rest]
    split
    · rename_i hk
      rw [hk, Option.map_some]
    · rfl

omit [KeyOrder κ] in
theorem lookup_append (k : κ) : ∀ l m : List (κ × ν),
    lookup k (l ++ m) = (lookup k l).or (lookup k m)
  | [], _ => rfl
  | e :: rest, m => by
    rw [List.cons_append, lookup, lookup, lookup_append k rest m]
    split <;> rfl

omit [KeyOrder κ] in
/-- With one entry per key, the order of the entries does not matter. -/
theorem lookup_reverse {l : List (κ × ν)} (hl : (l.map Prod.fst).Nodup) (k : κ) :
    lookup k l.reverse = lookup k l := by
  have hreverse : (l.reverse.map Prod.fst).Nodup := by
    rw [List.map_reverse]
    exact List.pairwise_reverse.mpr (hl.imp Ne.symm)
  refine Option.ext fun v => ⟨fun h => ?_, fun h => ?_⟩
  · exact lookup_of_nodup hl (List.mem_reverse.mp (mem_of_lookup h))
  · exact lookup_of_nodup hreverse (List.mem_reverse.mpr (mem_of_lookup h))

omit [DecidableEq κ] in
theorem nodup_of_sorted {l : List (κ × ν)} (hl : SortedByKey l) : (l.map Prod.fst).Nodup := by
  refine List.pairwise_map.mpr (hl.imp fun hlt heq => ?_)
  exact KeyOrder.irrefl _ (heq ▸ hlt)

omit [DecidableEq κ] in
theorem sorted_map_entry {μ : Type} {g : κ → ν → μ} {l : List (κ × ν)} (hl : SortedByKey l) :
    SortedByKey (l.map fun e => (e.1, g e.1 e.2)) :=
  List.pairwise_map.mpr hl

theorem lookup_of_mem {k : κ} {v : ν} {l : List (κ × ν)} (hl : SortedByKey l) (h : (k, v) ∈ l) :
    lookup k l = some v :=
  lookup_of_nodup (nodup_of_sorted hl) h

/-- **The entries are what look-ups answer.** -/
theorem mem_entries_iff (d : Dict κ ν) {k : κ} {v : ν} :
    (k, v) ∈ d.entries ↔ d.get? k = some v :=
  ⟨lookup_of_mem d.sorted, mem_of_lookup⟩

theorem mem_keys_of_get? {d : Dict κ ν} {k : κ} {v : ν} (h : d.get? k = some v) : k ∈ d.keys :=
  List.mem_map.mpr ⟨(k, v), d.mem_entries_iff.mpr h, rfl⟩

/-- **Reading after several writes**: the last value that was set for a key stays. -/
theorem get?_insertAll (d : Dict κ ν) (es : List (κ × ν)) (k : κ) :
    (d.insertAll es).get? k = (lookup k es.reverse).or (d.get? k) := by
  induction es generalizing d with
  | nil => rfl
  | cons e rest ih =>
    have hstep : d.insertAll (e :: rest) = (d.insert e.1 e.2).insertAll rest := rfl
    rw [hstep, ih, get?_insert, List.reverse_cons, lookup_append, Option.or_assoc, lookup]
    split <;> rfl

/-- **Reading a dictionary of entries**: the last value of a key stays. -/
theorem lookup_ofList (es : List (κ × ν)) (k : κ) :
    lookup k (ofList es).entries = lookup k es.reverse := by
  have hget := get?_insertAll empty es k
  rwa [get?_empty, Option.or_none] at hget

/-- **Reading a merge**: an override comes first. -/
theorem get?_merge (d overrides : Dict κ ν) (k : κ) :
    (d.merge overrides).get? k = (overrides.get? k).or (d.get? k) := by
  rw [merge, get?_insertAll, lookup_reverse (nodup_of_sorted overrides.sorted)]
  rfl

theorem lookup_eq_none_of_lt {k : κ} : ∀ {l : List (κ × ν)},
    (∀ e ∈ l, k < e.1) → lookup k l = none
  | [], _ => rfl
  | e :: rest, h => by
    rw [lookup, if_neg]
    · exact lookup_eq_none_of_lt fun x hx => h x (List.mem_cons_of_mem _ hx)
    · intro he
      exact KeyOrder.irrefl k (by have := h e List.mem_cons_self; rwa [← he] at this)

theorem entries_ext : ∀ {l m : List (κ × ν)}, SortedByKey l → SortedByKey m →
    (∀ k, lookup k l = lookup k m) → l = m
  | [], [], _, _, _ => rfl
  | [], e :: _, _, _, h => by simpa [lookup] using h e.1
  | e :: _, [], _, _, h => by simpa [lookup] using h e.1
  | a :: l, b :: m, hl, hm, h => by
    obtain ⟨hla, hl'⟩ := List.pairwise_cons.mp hl
    obtain ⟨hmb, hm'⟩ := List.pairwise_cons.mp hm
    have hab : ¬ a.1 < b.1 := fun hlt => by
      have hk := h a.1
      rw [lookup, if_pos rfl, lookup_eq_none_of_lt] at hk
      · exact absurd hk (by simp)
      · intro e he
        rcases List.mem_cons.mp he with rfl | he
        · exact hlt
        · exact KeyOrder.trans hlt (hmb e he)
    have hba : ¬ b.1 < a.1 := fun hlt => by
      have hk := h b.1
      rw [lookup_eq_none_of_lt, lookup, if_pos rfl] at hk
      · exact absurd hk (by simp)
      · intro e he
        rcases List.mem_cons.mp he with rfl | he
        · exact hlt
        · exact KeyOrder.trans hlt (hla e he)
    have hkey : a.1 = b.1 := KeyOrder.eq_of_not_lt hab hba
    have hval : a.2 = b.2 := by
      have hk := h a.1
      rwa [lookup, if_pos rfl, lookup, if_pos hkey, Option.some.injEq] at hk
    have hrest : l = m := entries_ext hl' hm' fun k => by
      by_cases hk : k = a.1
      · subst hk
        rw [lookup_eq_none_of_lt hla, lookup_eq_none_of_lt fun e he => hkey ▸ hmb e he]
      · have := h k
        rwa [lookup, if_neg hk, lookup, if_neg (hkey ▸ hk)] at this
    rw [hrest, Prod.ext hkey hval]

/-- **Dictionaries with the same look-ups are equal.** -/
theorem ext_get? {a b : Dict κ ν} (h : ∀ k, a.get? k = b.get? k) : a = b := by
  have : a.entries = b.entries := entries_ext a.sorted b.sorted h
  cases a; cases b; simpa using this

/-- Setting the entries of a dictionary one after another makes the dictionary. -/
theorem ofList_entries (d : Dict κ ν) : ofList d.entries = d := by
  refine ext_get? fun k => ?_
  rw [ofList, get?_insertAll, get?_empty, Option.or_none]
  exact lookup_reverse (nodup_of_sorted d.sorted) k

theorem entries_ofList {l : List (κ × ν)} (hl : SortedByKey l) : (ofList l).entries = l :=
  congrArg entries (ofList_entries ⟨l, hl⟩)

end Dict

end Componentry
