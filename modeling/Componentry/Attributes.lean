import Componentry.Data.Dict

/-!
# Attributes of component variants

An attribute set describes the form an artifact has, or the form a consumer asks for, as
`key = value` pairs. Attributes are dictionaries, so equal contents are equal values and can serve
as memo keys. A candidate is compatible with a request when it contradicts none of the requested
pairs: a key that the candidate does not carry is no contradiction.
-/

namespace Componentry

/-- `key = value` pairs, at most one per key, in key order. -/
abbrev Attributes := Dict String String

namespace Attributes

/-- Attributes with one entry. -/
def single (key value : String) : Attributes := Dict.empty.insert key value

/-- Whether a candidate with attributes `candidate` satisfies `requested`: every requested key is
absent from the candidate or has the requested value. -/
def isCompatibleWith (candidate requested : Attributes) : Bool :=
  requested.entries.all fun e =>
    match candidate.get? e.1 with
    | some own => own == e.2
    | none => true

/-- Whether `attributes` carries every pair of `required`. -/
def hasAll (attributes required : Attributes) : Bool :=
  required.entries.all fun e => attributes.get? e.1 == some e.2

/-- One pair, as text. -/
def pairText (e : String × String) : String := e.1 ++ "=" ++ e.2

/-- The attributes as text: `{a=1, b=2}`, nothing escaped. -/
def display (a : Attributes) : String :=
  "\x7b" ++ ", ".intercalate (a.entries.map pairText) ++ "\x7d"

/-- Pairs compare by key, then by value. -/
def comparePairs (e f : String × String) : Ordering :=
  (compare e.1 f.1).then (compare e.2 f.2)

/-- Attribute sets compare as their lists of pairs. -/
def order (a b : Attributes) : Ordering := List.compareLex comparePairs a.entries b.entries

end Attributes

end Componentry
