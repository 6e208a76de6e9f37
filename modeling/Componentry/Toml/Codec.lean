import Componentry.Toml.Value

/-!
# Codecs: how data is written as TOML values

A `Codec` reads data from a value, or says what does not fit, and writes it back. Records are
described by `Fields`, which are combined field by field in declaration order; `Fields.codec` turns
them into a codec that

* visits the entries of a table in key order, refuses unknown keys, and reads each value completely
  before it goes on;
* then looks for required fields that are missing, in declaration order;
* also reads a list, whose items are the fields in declaration order.

A `Mismatch` says what does not fit, and `Mismatch.message` gives its wording.
-/

namespace Componentry.Toml

/-- What does not fit about a value. -/
inductive Mismatch where
  | wrongKind (found : Value) (wanted : String)
  | unknownField (name : String) (known : List String)
  | missingField (name : String)
  | unknownVariant (name : String) (known : List String)
  /-- A list holds too few items for a record. -/
  | tooShort (length : Nat) (wanted : String)
  /-- A choice is neither a text nor a table. -/
  | noChoice
  /-- A choice is a table, but not of one entry. -/
  | notOneEntry (several : Bool)
  /-- A choice is a table of one entry whose value says something. -/
  | choiceWithContent (content : Value)
  deriving Repr

/-- A name between backquotes. -/
def backquoted (name : String) : String := "`" ++ name ++ "`"

/-- The alternatives there are. -/
def alternatives : List String → String
  | [] => "there are no alternatives"
  | [a] => "expected " ++ backquoted a
  | [a, b] => "expected " ++ backquoted a ++ " or " ++ backquoted b
  | names => "expected one of " ++ ", ".intercalate (names.map backquoted)

/-- The wording of a mismatch. -/
def Mismatch.message : Mismatch → String
  | wrongKind found wanted => "invalid type: " ++ found.describe ++ ", expected " ++ wanted
  | unknownField name known => "unknown field " ++ backquoted name ++ ", " ++ alternatives known
  | missingField name => "missing field " ++ backquoted name
  | unknownVariant name known => "unknown variant " ++ backquoted name ++ ", " ++ alternatives known
  | tooShort length wanted => "invalid length " ++ toString length ++ ", expected " ++ wanted
  | noChoice => "wanted string or table"
  | notOneEntry several =>
    "wanted exactly 1 element, " ++ if several then "more than 1 element" else "found 0 elements"
  | choiceWithContent (.list _) => "expected empty array"
  | choiceWithContent (.table _) => "expected empty table"
  | choiceWithContent content => "expected table, found " ++ content.kindName

/-- How data of a type is written as values. -/
structure Codec (α : Type) where
  decode : Value → Except Mismatch α
  encode : α → Value

namespace Codec

/-- A text, called `wanted` where it is missing. -/
def textAs (wanted : String) : Codec String where
  decode
    | .text s => .ok s
    | found => .error (.wrongKind found wanted)
  encode := .text

def text : Codec String := textAs "a string"

def path : Codec String := textAs "path string"

def boolean : Codec Bool where
  decode
    | .boolean b => .ok b
    | found => .error (.wrongKind found "a boolean")
  encode := .boolean

/-- Decode every value of a list, up to the first one that does not fit. -/
def decodeAll {α β : Type} (decode : α → Except Mismatch β) : List α → Except Mismatch (List β)
  | [] => .ok []
  | a :: rest =>
    match decode a with
    | .error e => .error e
    | .ok b =>
      match decodeAll decode rest with
      | .error e => .error e
      | .ok bs => .ok (b :: bs)

/-- A list of items of one kind. -/
def list {α : Type} (item : Codec α) : Codec (List α) where
  decode
    | .list items => decodeAll item.decode items
    | found => .error (.wrongKind found "a sequence")
  encode items := .list (items.map item.encode)

/-- A table with any keys, whose values are of one kind. -/
def dict {α : Type} (item : Codec α) : Codec (Dict String α) where
  decode found :=
    match found.entries? with
    | none => .error (.wrongKind found "a map")
    | some entries =>
      (decodeAll (fun (e : String × Value) => (item.decode e.2).map fun a => (e.1, a)) entries).map
        Dict.ofList
  encode d := .table (d.entries.map fun e => (e.1, item.encode e.2))

/-- The alternative of a name. -/
def choose {α : Type} (alternatives : List (String × α)) (name : String) : Except Mismatch α :=
  match Dict.lookup name alternatives with
  | some a => .ok a
  | none => .error (.unknownVariant name (alternatives.map Prod.fst))

/-- One of a few named alternatives, written as its name, or as a table whose only key is the name
and whose value says nothing. -/
def choice {α : Type} (alternatives : List (String × α)) (name : α → String) : Codec α where
  decode
    | .text s => choose alternatives s
    | .table [(key, content)] =>
      match choose alternatives key with
      | .error e => .error e
      | .ok a =>
        match content with
        | .list [] => .ok a
        | .table [] => .ok a
        | content => .error (.choiceWithContent content)
    | .table [] => .error (.notOneEntry false)
    | .table _ => .error (.notOneEntry true)
    | _ => .error .noChoice
  encode a := .text (name a)

end Codec

/-! ## Records -/

/-- Some fields of records of type `σ`, in declaration order, and the part `α` of a record that they
hold. -/
structure Fields (σ α : Type) where
  /-- The names, each with what its values have to fit. -/
  checks : List (String × (Value → Except Mismatch Unit))
  /-- The part that the entries of a table hold. -/
  ofEntries : List (String × Value) → Except Mismatch α
  /-- The part that the items of a list hold, and the items after them, where the record is called
  `wanted` and the first of the fields stands at `position`. -/
  ofItems (wanted : String) (position : Nat) : List Value → Except Mismatch (α × List Value)
  /-- The entries that hold the fields of a record. -/
  entries : σ → List (String × Value)

namespace Fields

variable {σ α β : Type}

/-- No fields. -/
def none (a : α) : Fields σ α where
  checks := []
  ofEntries _ := .ok a
  ofItems _ _ items := .ok (a, items)
  entries _ := []

/-- The fields of `f`, then those of `x`. -/
def both (f : Fields σ (α → β)) (x : Fields σ α) : Fields σ β where
  checks := f.checks ++ x.checks
  ofEntries es :=
    match f.ofEntries es with
    | .error e => .error e
    | .ok g => (x.ofEntries es).map g
  ofItems wanted position items :=
    match f.ofItems wanted position items with
    | .error e => .error e
    | .ok (g, items) =>
      (x.ofItems wanted (position + f.checks.length) items).map fun (a, items) => (g a, items)
  entries s := f.entries s ++ x.entries s

instance : Applicative (Fields σ) where
  pure := none
  seq f x := f.both (x ())

/-- What the values of a field have to fit. -/
def check (codec : Codec α) (v : Value) : Except Mismatch Unit := (codec.decode v).map fun _ => ()

/-- A field called `name`: `absent` is what tables without it say of it, and `cutOff` what lists say
that end before it. -/
def field (name : String) (codec : Codec α) (get : σ → Option α) (present : α → β)
    (absent : Except Mismatch β) (cutOff : String → Nat → Except Mismatch β) : Fields σ β where
  checks := [(name, check codec)]
  ofEntries es :=
    match Dict.lookup name es with
    | some v => (codec.decode v).map present
    | .none => absent
  ofItems wanted position items :=
    match items with
    | v :: rest => (codec.decode v).map fun a => (present a, rest)
    | [] => (cutOff wanted position).map fun b => (b, [])
  entries s := ((get s).map fun a => (name, codec.encode a)).toList

/-- A field that every record has. -/
def required (name : String) (codec : Codec α) (get : σ → α) : Fields σ α :=
  field name codec (some ∘ get) id (.error (.missingField name))
    fun wanted position => .error (.tooShort position wanted)

/-- A field that may be absent from tables, but not from lists. -/
def optional (name : String) (codec : Codec α) (get : σ → Option α) : Fields σ (Option α) :=
  field name codec get some (.ok .none) fun wanted position => .error (.tooShort position wanted)

/-- A field with a default. -/
def defaulted (name : String) (codec : Codec α) (get : σ → α) (value : α) : Fields σ α :=
  field name codec (some ∘ get) id (.ok value) fun _ _ => .ok value

/-- Visit the entries of a table in order: every key has to be known, and every value to fit. -/
def visit (fields : Fields σ α) : List (String × Value) → Except Mismatch Unit
  | [] => .ok ()
  | (key, v) :: rest =>
    match Dict.lookup key fields.checks with
    | .none => .error (.unknownField key (fields.checks.map Prod.fst))
    | some check =>
      match check v with
      | .error e => .error e
      | .ok _ => fields.visit rest

/-- What a record of `n` fields is called where a list is too short for it. -/
def sized (name : String) (n : Nat) : String :=
  "struct " ++ name ++ " with " ++ if n = 1 then "1 element" else toString n ++ " elements"

/-- The codec of the records that the fields make up. -/
def codec (name : String) (fields : Fields σ σ) : Codec σ where
  decode found :=
    match found.entries? with
    | some entries =>
      match fields.visit entries with
      | .error e => .error e
      | .ok _ => fields.ofEntries entries
    | .none =>
      match found with
      | .list items =>
        (fields.ofItems (sized name fields.checks.length) 0 items).map Prod.fst
      | found => .error (.wrongKind found ("struct " ++ name))
  encode s := Value.ofEntries (fields.entries s)

end Fields

end Componentry.Toml
