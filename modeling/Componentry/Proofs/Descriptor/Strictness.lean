import Componentry.Descriptor
import Componentry.Proofs.Toml.Follow
import Mathlib.Tactic.SplitIfs

/-!
# Descriptors are read completely

Each section of a descriptor has a form: the names of its fields, what each of them holds, and what
counts where it is absent. The codec of each section follows its form, and so does the codec of the
whole.

Results:
* `Descriptor.ofValue_eq_ok_iff`: the descriptor that a tree is read as.
* **`Descriptor.ofValue_ignores_nothing`**: trees that are read as one descriptor differ at most in
  defaults that one of them leaves out; unknown keys are refused at any depth; and what is read is
  kept, with all keys of the tables that may have any.
-/

namespace Componentry

open Toml

/-! ## The sections -/

theorem textsCodec_follows : textsCodec.Follows (.list .atom) :=
  Codec.list_follows Codec.text_follows

theorem Attributes.codec_follows : Attributes.codec.Follows (.free .atom) :=
  Codec.dict_follows Codec.text_follows

namespace ProjectSection

def form : Form :=
  .record
    [("group", .atom, none),
     ("name", .atom, none),
     ("version", .atom, none),
     ("status", .atom, some (.text "integration")),
     ("path", .atom, none)]

theorem codec_follows (called : String) : (fields.codec called).Follows form := by
  have hfields : fields.MadeOf
      [.required "group" Codec.text_follows group,
       .required "name" Codec.text_follows name,
       .required "version" Codec.text_follows version,
       .defaulted "status" Codec.text_follows status defaultStatus,
       .optional "path" Codec.text_follows path] :=
    ⟨by decide, rfl, fun _ => rfl, fun es s => by cases s; simp [fields]⟩
  exact hfields.follows called

end ProjectSection

namespace SchemaSection

def form : Form := .record [("attributes", .list .atom, some (.list []))]

theorem codec_follows (called : String) : (fields.codec called).Follows form := by
  have hfields : fields.MadeOf [.defaulted "attributes" textsCodec_follows attributes []] :=
    ⟨by decide, rfl, fun _ => rfl, fun es s => by cases s; simp [fields]⟩
  exact hfields.follows called

end SchemaSection

namespace ArtifactSection

def form : Form :=
  .record
    [("name", .atom, none),
     ("attributes", .free .atom, some (.table []))]

theorem codec_follows : codec.Follows form := by
  have hfields : fields.MadeOf
      [.required "name" Codec.text_follows name,
       .defaulted "attributes" Attributes.codec_follows attributes Dict.empty] :=
    ⟨by decide, rfl, fun _ => rfl, fun es s => by cases s; simp [fields]⟩
  exact hfields.follows "ArtifactSection"

end ArtifactSection

namespace ConfigurationSection

def form : Form :=
  .record
    [("name", .atom, none),
     ("attributes", .free .atom, some (.table [])),
     ("dependency-locking", .atom, some (.boolean false)),
     ("dependencies", .list .atom, some (.list [])),
     ("files", .list .atom, some (.list [])),
     ("artifacts", .list ArtifactSection.form, some (.list []))]

theorem codec_follows (called : String) : (fields.codec called).Follows form := by
  have hfields : fields.MadeOf
      [.required "name" Codec.text_follows name,
       .defaulted "attributes" Attributes.codec_follows attributes Dict.empty,
       .defaulted "dependency-locking" Codec.boolean_follows dependencyLocking false,
       .defaulted "dependencies" textsCodec_follows dependencies [],
       .defaulted "files" (Codec.list_follows Codec.path_follows) files [],
       .defaulted "artifacts" (Codec.list_follows ArtifactSection.codec_follows) artifacts []] :=
    ⟨by decide, rfl, fun _ => rfl, fun es s => by cases s; simp [fields]⟩
  exact hfields.follows called

end ConfigurationSection

theorem FormatName.codec_follows : FormatName.codec.Follows .choice :=
  Codec.choice_follows fun s a => by
    simp only [Dict.lookup]
    split_ifs <;> cases a <;> simp_all [FormatName.text]

namespace ComponentSection

def form : Form :=
  .record
    [("id", .atom, none),
     ("format", .choice, some (.text "maven")),
     ("status", .atom, none),
     ("status-scheme", .list .atom, none),
     ("changing", .atom, some (.boolean false)),
     ("attributes", .free .atom, some (.table [])),
     ("branch", .atom, none),
     ("extra-info", .free .atom, some (.table [])),
     ("packaging", .atom, none)]

theorem codec_follows (called : String) : (fields.codec called).Follows form := by
  have hfields : fields.MadeOf
      [.required "id" Codec.text_follows id,
       .defaulted "format" FormatName.codec_follows format .maven,
       .optional "status" Codec.text_follows status,
       .optional "status-scheme" textsCodec_follows statusScheme,
       .defaulted "changing" Codec.boolean_follows changing false,
       .defaulted "attributes" Attributes.codec_follows attributes Dict.empty,
       .optional "branch" Codec.text_follows branch,
       .defaulted "extra-info" (Codec.dict_follows Codec.text_follows) extraInfo Dict.empty,
       .optional "packaging" Codec.text_follows packaging] :=
    ⟨by decide, rfl, fun _ => rfl, fun es s => by cases s; simp [fields]⟩
  exact hfields.follows called

end ComponentSection

theorem inputCodec_follows : inputCodec.Follows .choice :=
  Codec.choice_follows fun s a => by
    simp only [Dict.lookup]
    split_ifs <;> cases a <;> simp_all [inputName]

namespace RuleSection

def form : Form :=
  .record
    [("module", .atom, none),
     ("requires", .list .choice, some (.list [])),
     ("set-status", .atom, none),
     ("append-status", .atom, none),
     ("status-from-branch", .atom, some (.boolean false)),
     ("status-scheme", .list .atom, none),
     ("changing", .atom, none),
     ("attributes", .free .atom, some (.table []))]

theorem codec_follows : codec.Follows form := by
  have hfields : fields.MadeOf
      [.optional "module" Codec.text_follows module,
       .defaulted "requires" (Codec.list_follows inputCodec_follows) requires [],
       .optional "set-status" Codec.text_follows setStatus,
       .optional "append-status" Codec.text_follows appendStatus,
       .defaulted "status-from-branch" Codec.boolean_follows statusFromBranch false,
       .optional "status-scheme" textsCodec_follows statusScheme,
       .optional "changing" Codec.boolean_follows changing,
       .defaulted "attributes" Attributes.codec_follows attributes Dict.empty] :=
    ⟨by decide, rfl, fun _ => rfl, fun es s => by cases s; simp [fields]⟩
  exact hfields.follows "RuleSection"

end RuleSection

namespace ReplacementSection

def form : Form :=
  .record
    [("module", .atom, none),
     ("replaced-by", .atom, none),
     ("reason", .atom, none)]

theorem codec_follows (called : String) : (fields.codec called).Follows form := by
  have hfields : fields.MadeOf
      [.required "module" Codec.text_follows module,
       .required "replaced-by" Codec.text_follows replacedBy,
       .optional "reason" Codec.text_follows reason] :=
    ⟨by decide, rfl, fun _ => rfl, fun es s => by cases s; simp [fields]⟩
  exact hfields.follows called

end ReplacementSection

namespace SiblingSection

def form : Form :=
  .record
    [("path", .atom, none),
     ("artifacts", .list ArtifactSection.form, some (.list []))]

theorem codec_follows (called : String) : (fields.codec called).Follows form := by
  have hfields : fields.MadeOf
      [.required "path" Codec.text_follows path,
       .defaulted "artifacts" (Codec.list_follows ArtifactSection.codec_follows) artifacts []] :=
    ⟨by decide, rfl, fun _ => rfl, fun es s => by cases s; simp [fields]⟩
  exact hfields.follows called

end SiblingSection

namespace TransformSection

def form : Form :=
  .record
    [("from", .free .atom, none),
     ("to", .free .atom, none),
     ("suffix", .atom, none)]

theorem codec_follows (called : String) : (fields.codec called).Follows form := by
  have hfields : fields.MadeOf
      [.required "from" Attributes.codec_follows source,
       .required "to" Attributes.codec_follows target,
       .required "suffix" Codec.text_follows suffix] :=
    ⟨by decide, rfl, fun _ => rfl, fun es s => by cases s; simp [fields]⟩
  exact hfields.follows called

end TransformSection

namespace RepositorySection

def form : Form := .record [("dir", .atom, some (.text "repo"))]

theorem codec_follows (called : String) : (fields.codec called).Follows form := by
  have hfields : fields.MadeOf [.defaulted "dir" Codec.path_follows dir defaultRepository] :=
    ⟨by decide, rfl, fun _ => rfl, fun es s => by cases s; simp [fields]⟩
  exact hfields.follows called

end RepositorySection

/-! ## The whole -/

namespace Descriptor

def form : Form :=
  .record
    [("project", ProjectSection.form, none),
     ("schema", SchemaSection.form, some (.table [("attributes", .list [])])),
     ("configurations", .list ConfigurationSection.form, some (.list [])),
     ("locks", .free (.list .atom), some (.table [])),
     ("components", .list ComponentSection.form, some (.list [])),
     ("rules", .list RuleSection.form, some (.list [])),
     ("replacements", .list ReplacementSection.form, some (.list [])),
     ("projects", .list SiblingSection.form, some (.list [])),
     ("transforms", .list TransformSection.form, some (.list [])),
     ("repository", RepositorySection.form, some (.table [("dir", .text "repo")]))]

/-- **Descriptors follow their form.** -/
theorem codec_follows : codec.Follows form := by
  have hfields : fields.MadeOf
      [.required "project" (ProjectSection.codec_follows "ProjectSection") project,
       .defaulted "schema" (SchemaSection.codec_follows "SchemaSection") schema {},
       .defaulted "configurations"
        (Codec.list_follows (ConfigurationSection.codec_follows "ConfigurationSection"))
        configurations [],
       .defaulted "locks" (Codec.dict_follows textsCodec_follows) locks Dict.empty,
       .defaulted "components"
        (Codec.list_follows (ComponentSection.codec_follows "ComponentSection"))
        components [],
       .defaulted "rules" (Codec.list_follows RuleSection.codec_follows) rules [],
       .defaulted "replacements"
        (Codec.list_follows (ReplacementSection.codec_follows "ReplacementSection"))
        replacements [],
       .defaulted "projects"
        (Codec.list_follows (SiblingSection.codec_follows "SiblingProjectSection"))
        projects [],
       .defaulted "transforms"
        (Codec.list_follows (TransformSection.codec_follows "TransformSection"))
        transforms [],
       .defaulted "repository" (RepositorySection.codec_follows "RepositorySection")
        repository {}] :=
    ⟨by decide, rfl, fun _ => rfl, fun es s => by cases s; simp [fields]⟩
  exact hfields.follows "ProjectDescriptor"

variable {origin : String} {v : Value} {d : Descriptor}

theorem ofValue_eq_ok : ofValue origin v = .ok d ↔ codec.decode v = .ok d := by
  rw [ofValue]
  cases codec.decode v with
  | ok e => simp
  | error mismatch => split_ifs <;> simp

/-- A tree that is not read is refused as a descriptor. -/
theorem ofValue_error (h : ∀ d, codec.decode v ≠ .ok d) :
    ofValue origin v = .error (.descriptorMalformed origin) ∨
      ∃ reason, ofValue origin v = .error (.descriptorInvalid origin reason) := by
  rw [ofValue]
  match hread : codec.decode v with
  | .ok d => exact absurd hread (h d)
  | .error mismatch =>
    split_ifs
    · exact .inr ⟨mismatch.message, rfl⟩
    · exact .inl rfl

/-- **The descriptor that a tree is read as** is the one that is written like it. -/
theorem ofValue_eq_ok_iff (hplain : form.Plain v) :
    ofValue origin v = .ok d ↔ form.complete v = codec.encode d :=
  ofValue_eq_ok.trans (codec_follows.decode_iff hplain)

/-- **Reading a descriptor ignores nothing.**
* Two plain trees that are read as the same descriptor are equal once their defaults are filled in.
* A key that is no field of the section it stands in is refused, at any depth.
* What is written for a descriptor is read as this descriptor. It holds all that stands in a tree
  which is read as it, at the same place and with the defaults filled in, and a table that may have
  any keys holds the same ones. -/
theorem ofValue_ignores_nothing (origin : String) :
    (∀ v w d, form.Plain v → form.Plain w → ofValue origin v = .ok d → ofValue origin w = .ok d →
      form.complete v = form.complete w) ∧
    (∀ v, form.Stray v → ofValue origin v = .error (.descriptorMalformed origin) ∨
      ∃ reason, ofValue origin v = .error (.descriptorInvalid origin reason)) ∧
    (∀ d, ofValue origin (codec.encode d) = .ok d) ∧
    (∀ v d path w, form.Plain v → ofValue origin v = .ok d → v.at? path = some w →
      ∃ part : Form, (codec.encode d).at? path = some (part.complete w)) ∧
    (∀ v d path item entries, form.Plain v → ofValue origin v = .ok d →
      form.At v path (.free item) (.table entries) →
        (codec.encode d).at? path =
          some (.table (entries.map fun e => (e.1, item.complete e.2)))) := by
  refine ⟨fun v w d hv hw hdv hdw => ?_,
    fun v hstray => ofValue_error (codec_follows.refuses hstray),
    fun d => ofValue_eq_ok.mpr (codec_follows.decode_encode d), fun v d path w hv hd hw => ?_,
    fun v d path item entries hv hd hat => ?_⟩
  · exact codec_follows.eq_of_decode hv hw (ofValue_eq_ok.mp hdv) (ofValue_eq_ok.mp hdw)
  · rw [← (ofValue_eq_ok_iff hv).mp hd]
    exact Form.exists_at?_complete hv hw
  · rw [← (ofValue_eq_ok_iff hv).mp hd, hat.complete hv, Form.complete]

/-- Of three trees one says the least, one the defaults as well, and one misspells a name in a
list. -/
theorem ofValue_ignores_nothing_misspelt :
    let tree (configuration project : List (String × Value)) : Value := .table
      [("configurations", .list [.table configuration]), ("project", .table project)]
    let least := tree [("attributes", .table [("usage", .text "api")]), ("name", .text "main")]
      [("group", .text "org"), ("name", .text "app"), ("version", .text "1")]
    let more := tree
      [("attributes", .table [("usage", .text "api")]), ("files", .list []), ("name", .text "main")]
      [("group", .text "org"), ("name", .text "app"), ("status", .text "integration"),
        ("version", .text "1")]
    let misspelt := tree [("atributes", .table [("usage", .text "api")]), ("name", .text "main")]
      [("group", .text "org"), ("name", .text "app"), ("version", .text "1")]
    let d : Descriptor :=
      { project := { group := "org", name := "app", version := "1" }
        configurations := [{ name := "main", attributes := .single "usage" "api" }] }
    ofValue "cmeta.toml" least = .ok d ∧ ofValue "cmeta.toml" more = .ok d ∧
      form.complete least = form.complete more ∧
      (codec.encode d).at? [.key "configurations", .index 0, .key "attributes"] =
        some (.table [("usage", .text "api")]) ∧
      ∀ e, ofValue "cmeta.toml" misspelt ≠ .ok e := by
  intro tree least more misspelt d
  obtain ⟨hsame, hrefused, -, -, hfree⟩ := ofValue_ignores_nothing "cmeta.toml"
  have hplain : form.Plain least ∧ form.Plain more := by
    simp only [tree, least, more, form, ConfigurationSection.form, ProjectSection.form,
      Form.plain_record, Form.plain_list, Form.plain_free, Form.plain_atom, Dict.lookup,
      List.mem_cons, List.not_mem_nil, forall_eq_or_imp, forall_eq, forall_eq', Option.some.injEq,
      String.reduceEq, reduceCtorEq, ↓reduceIte, IsEmpty.forall_iff, implies_true, or_false,
      and_true, true_and, and_self]
    -- the keys of the tables are in order
    unfold SortedByKey
    decide
  have hd : ofValue "cmeta.toml" least = .ok d := rfl
  have hd' : ofValue "cmeta.toml" more = .ok d := rfl
  have hat : form.At least [.key "configurations", .index 0, .key "attributes"] (.free .atom)
      (.table [("usage", .text "api")]) :=
    .field rfl rfl (.item rfl (.field rfl rfl (.here _ _)))
  have hstray : form.Stray misspelt :=
    ⟨[.key "configurations", .index 0], _, _, "atributes", .field rfl rfl (.item rfl (.here _ _)),
      by decide, by decide⟩
  refine ⟨hd, hd', hsame least more d hplain.1 hplain.2 hd hd',
    hfree least d _ _ _ hplain.1 hd hat, fun e he => ?_⟩
  obtain h | ⟨reason, h⟩ := hrefused misspelt hstray
  · cases he.symm.trans h
  · cases he.symm.trans h

end Descriptor

end Componentry
