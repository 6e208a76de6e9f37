import Componentry.Proofs.Toml.Form
import Componentry.Toml.Codec
import Mathlib.Data.List.Forall2

/-!
# Codecs that follow a form

A codec follows a form if it reads all that the form asks for and nothing else: two plain trees are
read as the same data only if they are the same tree once their defaults are filled in, and a key
that the form does not know is refused wherever it stands.

* `Codec.Follows` is the law, and `Follows.eq_of_decode` its first half for two trees.
* The codecs of texts, truth values, names, lists and free tables follow their forms
  (`textAs_follows` to `dict_follows`).
* A `Slot` is a field of a record together with what its entry says about records. The codec of
  a record follows its form as soon as its fields are made of such slots (`Fields.MadeOf.follows`).
-/

namespace Componentry.Toml

variable {α β σ : Type}

/-- The codec `c` reads trees as `form` says. -/
structure Codec.Follows (c : Codec α) (form : Form) : Prop where
  /-- What is written is read back. -/
  decode_encode (a : α) : c.decode (c.encode a) = .ok a
  /-- A tree is read as what is written like it once its defaults are filled in. -/
  decode_iff {v : Value} {a : α} (hplain : form.Plain v) :
    c.decode v = .ok a ↔ form.complete v = c.encode a
  /-- Unknown keys are refused wherever they stand. -/
  refuses {v : Value} (hstray : form.Stray v) (a : α) : c.decode v ≠ .ok a

namespace Codec

namespace Follows

variable {c : Codec α} {form : Form}

/-- **Nothing is ignored**: trees that are read as the same data are the same once completed. -/
theorem eq_of_decode (h : c.Follows form) {v w : Value} {a : α} (hv : form.Plain v)
    (hw : form.Plain w) (hdv : c.decode v = .ok a) (hdw : c.decode w = .ok a) :
    form.complete v = form.complete w :=
  ((h.decode_iff hv).mp hdv).trans ((h.decode_iff hw).mp hdw).symm

theorem encode_inj (h : c.Follows form) {a b : α} : c.encode a = c.encode b ↔ a = b := by
  refine ⟨fun hsame => ?_, congrArg c.encode⟩
  have hread := h.decode_encode a
  rw [hsame, h.decode_encode b] at hread
  exact (Except.ok.inj hread).symm

end Follows

/-! ## Texts, truth values and names -/

theorem textAs_follows (wanted : String) : (textAs wanted).Follows .atom where
  decode_encode _ := rfl
  decode_iff {v a} _ := by cases v <;> simp [textAs]
  refuses hstray := absurd hstray Form.not_stray_atom

theorem text_follows : text.Follows .atom := textAs_follows _

theorem path_follows : path.Follows .atom := textAs_follows _

theorem boolean_follows : boolean.Follows .atom where
  decode_encode _ := rfl
  decode_iff {v a} _ := by cases v <;> simp [boolean]
  refuses hstray := absurd hstray Form.not_stray_atom

theorem choose_eq_ok {alternatives : List (String × α)} {name : String} {a : α} :
    choose alternatives name = .ok a ↔ Dict.lookup name alternatives = some a := by
  rw [choose]
  split <;> simp_all

theorem choice_follows {alternatives : List (String × α)} {name : α → String}
    (h : ∀ s a, Dict.lookup s alternatives = some a ↔ s = name a) :
    (choice alternatives name).Follows .choice where
  decode_encode a := choose_eq_ok.mpr ((h _ _).mpr rfl)
  decode_iff {v a} hplain := by
    cases hplain with
    | choice s =>
      have hread : (choice alternatives name).decode (.text s) = .ok a ↔ s = name a :=
        choose_eq_ok.trans (h s a)
      rw [hread, Form.complete_choice, choice, Value.text.injEq]
  refuses hstray := absurd hstray Form.not_stray_choice

/-! ## Lists and free tables -/

section DecodeAll

variable {γ δ ε : Type} {decode : γ → Except Mismatch δ}

theorem decodeAll_cons_eq_ok {a : γ} {l : List γ} {bs : List δ} :
    decodeAll decode (a :: l) = .ok bs ↔
      ∃ b rest, decode a = .ok b ∧ decodeAll decode l = .ok rest ∧ b :: rest = bs := by
  rw [decodeAll]
  cases decode a with
  | error e => simp
  | ok b => cases decodeAll decode l <;> simp

/-- If every item is read as `f` and `g` say, so is the list. -/
theorem decodeAll_eq_ok_iff {f : γ → ε} {g : δ → ε} {l : List γ}
    (h : ∀ a ∈ l, ∀ b, decode a = .ok b ↔ f a = g b) {bs : List δ} :
    decodeAll decode l = .ok bs ↔ l.map f = bs.map g := by
  induction l generalizing bs with
  | nil => cases bs <;> simp [decodeAll]
  | cons a rest ih =>
    have hrest (bs : List δ) : decodeAll decode rest = .ok bs ↔ rest.map f = bs.map g :=
      ih fun x hx => h x (List.mem_cons_of_mem _ hx)
    cases bs with
    | nil => simp [decodeAll_cons_eq_ok]
    | cons b bs => simp [decodeAll_cons_eq_ok, h a List.mem_cons_self, hrest]

theorem decodeAll_ne_ok {a : γ} {l : List γ} (ha : a ∈ l) (hfail : ∀ b, decode a ≠ .ok b)
    (bs : List δ) : decodeAll decode l ≠ .ok bs := by
  induction l generalizing bs with
  | nil => cases ha
  | cons x rest ih =>
    intro hread
    obtain ⟨b, bs', hx, hrest, -⟩ := decodeAll_cons_eq_ok.mp hread
    rcases List.mem_cons.mp ha with rfl | ha
    · exact hfail b hx
    · exact ih ha bs' hrest

end DecodeAll

section Containers

variable {c : Codec α} {form : Form}

theorem list_follows (h : c.Follows form) : (list c).Follows (.list form) where
  decode_encode l := by
    refine (decodeAll_eq_ok_iff (f := id) (g := c.encode) fun v hv b => ?_).mpr (List.map_id _)
    obtain ⟨a, -, rfl⟩ := List.mem_map.mp hv
    rw [h.decode_encode, Except.ok.injEq, id, h.encode_inj]
  decode_iff {v l} hplain := by
    cases hplain with
    | list hitems =>
      cases v with
      | list items =>
        rw [Form.complete, list, Value.list.injEq]
        exact decodeAll_eq_ok_iff fun w hw a => h.decode_iff (hitems items rfl w hw)
      | _ => simp [list, Form.complete]
  refuses hstray l := by
    obtain ⟨items, rfl, w, hw, hstray⟩ := hstray.list_cases
    exact decodeAll_ne_ok hw (h.refuses hstray) l

theorem map_eq_ok_iff {r : Except Mismatch α} {f : α → β} {b : β} :
    r.map f = .ok b ↔ ∃ a, r = .ok a ∧ f a = b := by
  cases r <;> simp [Except.map]

theorem entry_eq_ok_iff {key : String} {v : Value} {e : String × α} :
    ((c.decode v).map fun a => (key, a)) = .ok e ↔ key = e.1 ∧ c.decode v = .ok e.2 := by
  rw [map_eq_ok_iff]
  simp only [Prod.ext_iff]
  exact ⟨fun ⟨_, hread, hkey, ha⟩ => ⟨hkey, ha ▸ hread⟩, fun ⟨hkey, hread⟩ => ⟨_, hread, hkey, rfl⟩⟩

/-- If every value of a table is read as `g` says, so is the table. -/
theorem dict_eq_ok_iff {g : Value → Value} {entries : List (String × Value)}
    (hsorted : SortedByKey entries)
    (h : ∀ e ∈ entries, ∀ a, c.decode e.2 = .ok a ↔ g e.2 = c.encode a)
    {d : Dict String α} : (dict c).decode (.table entries) = .ok d ↔
      entries.map (fun e => (e.1, g e.2)) = d.entries.map fun e => (e.1, c.encode e.2) := by
  have hread {l : List (String × α)} :
      decodeAll (fun e : String × Value => (c.decode e.2).map fun a => (e.1, a)) entries = .ok l ↔
        entries.map (fun e => (e.1, g e.2)) = l.map fun e => (e.1, c.encode e.2) :=
    decodeAll_eq_ok_iff fun e he a => by rw [entry_eq_ok_iff, Prod.mk.injEq, h e he]
  have hdecode : (dict c).decode (.table entries) =
      (decodeAll (fun e : String × Value => (c.decode e.2).map fun a => (e.1, a)) entries).map
        Dict.ofList := rfl
  rw [hdecode]
  constructor
  · intro hd
    match hl : decodeAll _ entries, hd with
    | .ok l, hd =>
      -- the keys that are read are the keys that are written, so they are in order
      have hkeys : l.map Prod.fst = entries.map Prod.fst := by
        simpa [Function.comp_def] using (congrArg (List.map Prod.fst) (hread.mp hl)).symm
      have hl' : SortedByKey l := by
        rw [SortedByKey, ← List.pairwise_map, hkeys, List.pairwise_map]
        exact hsorted
      rw [hread.mp hl, ← Except.ok.inj hd, Dict.entries_ofList hl']
  · intro hd
    rw [hread.mpr hd, Except.map, Dict.ofList_entries]

theorem dict_follows (h : c.Follows form) : (dict c).Follows (.free form) where
  decode_encode d := by
    have hsorted := Dict.sorted_map_entry (g := fun _ => c.encode) d.sorted
    refine (dict_eq_ok_iff hsorted (g := id) fun e he a => ?_).mpr (List.map_id _)
    obtain ⟨x, -, rfl⟩ := List.mem_map.mp he
    rw [h.decode_encode, Except.ok.injEq, id, h.encode_inj]
  decode_iff {v d} hplain := by
    cases hplain with
    | free hmoment hsorted hvalues =>
      cases v with
      | table entries =>
        rw [Form.complete, dict_eq_ok_iff (hsorted entries rfl) fun e he a =>
          h.decode_iff (hvalues entries rfl e he), dict, Value.table.injEq]
      | moment written => exact absurd rfl (hmoment written)
      | _ => simp [dict, Form.complete, Value.entries?]
  refuses hstray d hread := by
    obtain ⟨entries, rfl, e, he, hstray⟩ := hstray.free_cases
    obtain ⟨l, hl, -⟩ := map_eq_ok_iff.mp hread
    refine decodeAll_ne_ok he (fun x hx => ?_) l hl
    exact h.refuses hstray x.2 (entry_eq_ok_iff.mp hx).2

end Containers

end Codec

/-! ## Records -/

namespace Fields

/-- Something that `P` holds of is read from the entries of a table. -/
def Yields (f : Fields σ α) (es : List (String × Value)) (P : α → Prop) : Prop :=
  ∃ a, f.ofEntries es = .ok a ∧ P a

section Yields

variable {f : Fields σ (α → β)} {x : Fields σ α} {es : List (String × Value)} {P : α → Prop}
  {Q : β → Prop} {p : Prop} {a : α}

theorem yields_eq : (x.Yields es fun b => b = a) ↔ x.ofEntries es = .ok a := by
  simp only [Yields, exists_eq_right]

@[simp] theorem yields_eq_and :
    (x.Yields es fun b => b = a ∧ p) ↔ (x.Yields es fun b => b = a) ∧ p := by
  simp only [Yields, ← and_assoc, exists_and_right]

@[simp] theorem yields_and_left : (x.Yields es fun b => p ∧ P b) ↔ p ∧ x.Yields es P := by
  simp only [Yields, and_left_comm, exists_and_left]

/-- Fields are read one after another. -/
@[simp] theorem yields_seq :
    (f <*> x).Yields es Q ↔ f.Yields es fun g => x.Yields es fun a => Q (g a) := by
  simp only [Yields, Seq.seq, both]
  cases f.ofEntries es with
  | error e => simp
  | ok g => cases x.ofEntries es <;> simp [Except.map]

@[simp] theorem yields_map {g : α → β} : (g <$> x).Yields es Q ↔ x.Yields es fun a => Q (g a) := by
  refine yields_seq.trans ?_
  simp [Yields, none]

end Yields

theorem visit_eq_ok_iff {fields : Fields σ α} {entries : List (String × Value)} :
    fields.visit entries = .ok () ↔
      ∀ e ∈ entries, ∃ check, Dict.lookup e.1 fields.checks = some check ∧ check e.2 = .ok () := by
  induction entries with
  | nil => simp [visit]
  | cons e rest ih =>
    rw [visit, List.forall_mem_cons, ← ih]
    cases Dict.lookup e.1 fields.checks with
    | none => simp
    | some check => cases hcheck : check e.2 <;> simp [hcheck]

theorem decode_table_eq_ok_iff {fields : Fields σ σ} {name : String}
    {entries : List (String × Value)} {s : σ} :
      (fields.codec name).decode (.table entries) = .ok s ↔
      fields.visit entries = .ok () ∧ fields.ofEntries entries = .ok s := by
  simp only [codec, Value.entries?]
  cases fields.visit entries <;> simp

theorem check_eq_ok_iff {c : Codec α} {v : Value} :
    check c v = .ok () ↔ ∃ a, c.decode v = .ok a := by
  rw [check, Codec.map_eq_ok_iff]
  simp

end Fields

/-- A field of records, with what its entry says. -/
structure Slot (σ : Type) where
  name : String
  form : Form
  /-- What counts in its absence. -/
  absent : Option Value
  /-- What its values have to fit. -/
  check : Value → Except Mismatch Unit
  /-- What the entries of a table say of a record. -/
  reads : List (String × Value) → σ → Prop
  /-- The value that is written for a record. -/
  written : σ → Option Value
  entries : σ → List (String × Value)
  entries_eq (s : σ) : entries s = ((written s).map fun v => (name, v)).toList
  reads_written {es : List (String × Value)} {s : σ} (h : Dict.lookup name es = written s) :
    reads es s
  /-- A value says what would be written like it once its defaults are filled in. -/
  reads_iff {es : List (String × Value)} {s : σ}
    (hplain : ∀ v, Dict.lookup name es = some v → form.Plain v) :
    reads es s ↔ ((Dict.lookup name es).map form.complete).or absent = written s
  check_of_reads {es : List (String × Value)} {s : σ} {v : Value}
    (hv : Dict.lookup name es = some v) (h : reads es s) : check v = .ok ()
  refuses {v : Value} (hstray : form.Stray v) : check v ≠ .ok ()

namespace Slot

variable {c : Codec α} {form : Form}

/-- The slot of a field that follows a form and reads the part `val` of a record. -/
def ofField (name : String) (h : c.Follows form) (get : σ → Option α) (present : α → β)
    (absent : Except Mismatch β) (cutOff : String → Nat → Except Mismatch β) (filled : Option Value)
    (val : σ → β) (hpresent : ∀ s a, present a = val s ↔ get s = some a)
    (habsent : ∀ s, absent = .ok (val s) ↔ filled = (get s).map c.encode)
    (hnone : ∀ s, get s = none → filled = none) : Slot σ where
  name := name
  form := form
  absent := filled
  check := Fields.check c
  reads es s := (Fields.field name c get present absent cutOff).ofEntries es = .ok (val s)
  written s := (get s).map c.encode
  entries := (Fields.field name c get present absent cutOff).entries
  entries_eq s := by
    rw [Option.map_map]
    rfl
  reads_written {es s} hwritten := by
    simp only [Fields.field, hwritten]
    match hget : get s with
    | none => exact (habsent s).mpr (by rw [hnone s hget, hget, Option.map_none])
    | some a =>
      rw [Option.map_some]
      simp only [h.decode_encode, Except.map, (hpresent s a).mpr hget]
  reads_iff {es s} hplain := by
    simp only [Fields.field]
    match hlookup : Dict.lookup name es with
    | none => exact habsent s
    | some v =>
      rw [Option.map_some, Option.some_or, eq_comm (a := some _), Option.map_eq_some_iff]
      refine Codec.map_eq_ok_iff.trans (exists_congr fun a => ?_)
      rw [hpresent, h.decode_iff (hplain v hlookup), eq_comm (a := form.complete v), and_comm]
  check_of_reads {es s v} hv hreads := by
    simp only [Fields.field, hv] at hreads
    obtain ⟨a, ha, -⟩ := Codec.map_eq_ok_iff.mp hreads
    exact Fields.check_eq_ok_iff.mpr ⟨a, ha⟩
  refuses hstray hcheck := by
    obtain ⟨a, ha⟩ := Fields.check_eq_ok_iff.mp hcheck
    exact h.refuses hstray a ha

/-- A field that every record has. -/
def required (name : String) (h : c.Follows form) (get : σ → α) : Slot σ :=
  ofField name h (some ∘ get) id (.error (.missingField name))
    (fun wanted position => .error (.tooShort position wanted)) none get
    (by simp [eq_comm]) (by simp) (by simp)

/-- A field that may be absent. -/
def optional (name : String) (h : c.Follows form) (get : σ → Option α) : Slot σ :=
  ofField name h get some (.ok none) (fun wanted position => .error (.tooShort position wanted))
    none get (by simp [eq_comm]) (by simp [eq_comm]) (by simp)

/-- A field with a default. -/
def defaulted (name : String) (h : c.Follows form) (get : σ → α) (value : α) : Slot σ :=
  ofField name h (some ∘ get) id (.ok value) (fun _ _ => .ok value) (some (c.encode value)) get
    (by simp [eq_comm]) (by simp [h.encode_inj]) (by simp)

section Reads

variable {name : String} {es : List (String × Value)} {s : σ}

@[simp] theorem required_reads (h : c.Follows form) {get : σ → α} :
    (required name h get).reads es s ↔ (Fields.required name c get).Yields es fun a => a = get s :=
  Fields.yields_eq.symm

@[simp] theorem optional_reads (h : c.Follows form) {get : σ → Option α} :
    (optional name h get).reads es s ↔ (Fields.optional name c get).Yields es fun a => a = get s :=
  Fields.yields_eq.symm

@[simp] theorem defaulted_reads (h : c.Follows form) {get : σ → α} {value : α} :
    (defaulted name h get value).reads es s ↔
      (Fields.defaulted name c get value).Yields es fun a => a = get s :=
  Fields.yields_eq.symm

end Reads

/-- The field of the form. -/
def signature (slot : Slot σ) : String × Form × Option Value := (slot.name, slot.form, slot.absent)

/-- The form of the records that the slots make up. -/
def formOf (slots : List (Slot σ)) : Form := .record (slots.map signature)

end Slot

/-- The fields are those of the slots. -/
structure Fields.MadeOf (fields : Fields σ σ) (slots : List (Slot σ)) : Prop where
  /-- No two fields have one name. -/
  nodup : (slots.map Slot.name).Nodup
  checks : fields.checks = slots.map fun slot => (slot.name, slot.check)
  entries (s : σ) : fields.entries s = slots.foldl (fun es slot => es ++ slot.entries s) []
  reads (es : List (String × Value)) (s : σ) :
    (fields.Yields es fun t => t = s) ↔ ∀ slot ∈ slots, slot.reads es s

namespace Fields.MadeOf

variable {fields : Fields σ σ} {slots : List (Slot σ)}

theorem defaults_signature (slots : List (Slot σ)) :
    defaults (slots.map Slot.signature) = Dict.given Slot.name Slot.absent slots := by
  rw [defaults, Dict.given, List.filterMap_map]
  rfl

/-- What is found under the name of a slot. -/
theorem lookup_map (h : fields.MadeOf slots) {γ : Type} (g : Slot σ → γ) {key : String} {x : γ} :
    Dict.lookup key (slots.map fun slot => (slot.name, g slot)) = some x ↔
      ∃ slot ∈ slots, slot.name = key ∧ g slot = x := by
  rw [Dict.lookup_eq_some_iff (by rw [List.map_map]; exact h.nodup), List.mem_map]
  simp only [Prod.mk.injEq]

/-- What is found under a name among what the slots give. -/
theorem lookup_reverse_given (h : fields.MadeOf slots) (g : Slot σ → Option Value) (key : String) :
    Dict.lookup key (Dict.given Slot.name g slots).reverse =
      Dict.lookup key (Dict.given Slot.name g slots) :=
  Dict.lookup_reverse (h.nodup.sublist (Dict.given_sublist Slot.name g slots)) key

theorem visit_eq_ok_iff (h : fields.MadeOf slots) {entries : List (String × Value)} :
    fields.visit entries = .ok () ↔
      ∀ e ∈ entries, ∃ slot ∈ slots, slot.name = e.1 ∧ slot.check e.2 = .ok () := by
  rw [Fields.visit_eq_ok_iff, h.checks]
  simp only [h.lookup_map]
  refine forall₂_congr fun e _ => ⟨?_, ?_⟩
  · rintro ⟨_, ⟨slot, hslot, hname, rfl⟩, hcheck⟩
    exact ⟨slot, hslot, hname, hcheck⟩
  · rintro ⟨slot, hslot, hname, hcheck⟩
    exact ⟨_, ⟨slot, hslot, hname, rfl⟩, hcheck⟩

/-- **A table with one entry per key is read** as what each of its fields is read as, if all its
keys are names of fields. -/
theorem decode_eq_ok_iff (h : fields.MadeOf slots) (name : String) {entries : List (String × Value)}
    (hentries : (entries.map Prod.fst).Nodup) {s : σ} :
    (fields.codec name).decode (.table entries) = .ok s ↔
      (∀ key, key ∉ slots.map Slot.name → Dict.lookup key entries = .none) ∧
      ∀ slot ∈ slots, slot.reads entries s := by
  rw [decode_table_eq_ok_iff, ← yields_eq, h.reads, h.visit_eq_ok_iff]
  refine and_congr_left fun hreads => ⟨fun hvisit key hkey => ?_, fun hknown e he => ?_⟩
  · refine Dict.lookup_eq_none_iff.mpr fun hmem => hkey ?_
    obtain ⟨e, he, rfl⟩ := List.mem_map.mp hmem
    obtain ⟨slot, hslot, hname, -⟩ := hvisit e he
    exact hname ▸ List.mem_map_of_mem hslot
  · have hlookup := Dict.lookup_of_nodup hentries he
    have hkey : e.1 ∈ slots.map Slot.name := by
      by_contra hkey
      rw [hknown e.1 hkey] at hlookup
      cases hlookup
    obtain ⟨slot, hslot, hname⟩ := List.mem_map.mp hkey
    rw [← hname] at hlookup
    exact ⟨slot, hslot, hname, slot.check_of_reads hlookup (hreads slot hslot)⟩

/-- Two ways of looking things up agree if they agree on the names and find nothing else. -/
theorem lookup_given_iff (h : fields.MadeOf slots) (g : Slot σ → Option Value)
    (answer : String → Option Value) :
    (∀ key, answer key = Dict.lookup key (Dict.given Slot.name g slots)) ↔
      (∀ key, key ∉ slots.map Slot.name → answer key = .none) ∧
      ∀ slot ∈ slots, answer slot.name = g slot := by
  refine ⟨fun hall => ⟨fun key hkey => ?_, fun slot hslot => ?_⟩, fun ⟨hnone, hsome⟩ key => ?_⟩
  · rw [hall, Dict.lookup_given_of_notMem hkey]
  · rw [hall, Dict.lookup_given h.nodup g hslot]
  · by_cases hkey : key ∈ slots.map Slot.name
    · obtain ⟨slot, hslot, rfl⟩ := List.mem_map.mp hkey
      rw [hsome slot hslot, Dict.lookup_given h.nodup g hslot]
    · rw [hnone key hkey, Dict.lookup_given_of_notMem hkey]

theorem lookup_signature (h : fields.MadeOf slots) {slot : Slot σ} (hslot : slot ∈ slots) :
    Dict.lookup slot.name (slots.map Slot.signature) = some (slot.form, slot.absent) :=
  (h.lookup_map fun slot => (slot.form, slot.absent)).mpr ⟨slot, hslot, rfl, rfl⟩

theorem entries_eq (h : fields.MadeOf slots) (s : σ) :
    fields.entries s = Dict.given Slot.name (fun slot => slot.written s) slots := by
  rw [h.entries, ← List.flatMap_eq_foldl, Dict.given, List.filterMap_eq_flatMap_toList]
  simp only [Slot.entries_eq]

theorem encode_eq (h : fields.MadeOf slots) (name : String) (s : σ) :
    (fields.codec name).encode s =
      .ofEntries (Dict.given Slot.name (fun slot => slot.written s) slots) :=
  congrArg Value.ofEntries (h.entries_eq s)

/-- The entries of a completed record are those of a record that is written if no key is unknown,
and the others say what is written. -/
theorem complete_eq_encode_iff (h : fields.MadeOf slots) (name : String)
    {entries : List (String × Value)} (hsorted : SortedByKey entries) {s : σ} :
    (Slot.formOf slots).complete (.table entries) = (fields.codec name).encode s ↔
      (∀ key, key ∉ slots.map Slot.name → Dict.lookup key entries = .none) ∧
      ∀ slot ∈ slots, ((Dict.lookup slot.name entries).map slot.form.complete).or slot.absent =
        slot.written s := by
  rw [h.encode_eq, Slot.formOf, Form.complete, Value.ofEntries_eq_iff]
  simp only [Form.lookup_complete hsorted]
  rw [defaults_signature]
  simp only [h.lookup_reverse_given]
  rw [h.lookup_given_iff]
  refine and_congr (forall₂_congr fun key hkey => ?_) (forall₂_congr fun slot hslot => ?_)
  · rw [Dict.lookup_given_of_notMem hkey, Option.or_none, Option.map_eq_none_iff]
  · have hfield : Form.completeField (slots.map Slot.signature) slot.name = slot.form.complete :=
      funext fun v => by rw [Form.completeField_eq, h.lookup_signature hslot, Option.elim_some]
    rw [hfield, Dict.lookup_given h.nodup _ hslot]

/-- **The codec of a record follows the form of its slots.** -/
theorem follows (h : fields.MadeOf slots) (name : String) :
    (fields.codec name).Follows (Slot.formOf slots) where
  decode_encode s := by
    have hlookup := (h.lookup_given_iff (fun slot => slot.written s) _).mp fun key => rfl
    rw [h.encode_eq, Value.ofEntries_eq,
      h.decode_eq_ok_iff name (Dict.nodup_of_sorted (Dict.ofList _).sorted)]
    have hofList (key : String) : Dict.lookup key (Dict.ofList _).entries = Dict.lookup key _ :=
      (Dict.lookup_ofList _ key).trans (h.lookup_reverse_given (fun slot => slot.written s) key)
    exact ⟨fun key hkey => (hofList key).trans (hlookup.1 key hkey),
      fun slot hslot => slot.reads_written ((hofList slot.name).trans (hlookup.2 slot hslot))⟩
  decode_iff {v s} hplain := by
    cases hplain with
    | @record _ entries hsorted hfields =>
      rw [h.decode_eq_ok_iff name (Dict.nodup_of_sorted hsorted),
        h.complete_eq_encode_iff name hsorted]
      refine and_congr_right fun _ => forall₂_congr fun slot hslot => slot.reads_iff fun v hv => ?_
      exact hfields slot.signature (List.mem_map_of_mem hslot) v hv
  refuses hstray s hread := by
    obtain ⟨entries, rfl, e, he, hkey⟩ := hstray.record_cases
    obtain ⟨slot, hslot, hname, hcheck⟩ :=
      h.visit_eq_ok_iff.mp (decode_table_eq_ok_iff.mp hread).1 e he
    rw [← hname] at hkey
    rcases hkey with hunknown | ⟨form, absent, hfield, hstray⟩
    · rw [List.map_map] at hunknown
      exact hunknown (List.mem_map_of_mem hslot)
    · rw [h.lookup_signature hslot] at hfield
      cases hfield
      exact slot.refuses hstray hcheck

end Fields.MadeOf

end Componentry.Toml
