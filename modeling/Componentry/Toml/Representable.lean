import Componentry.Toml.Moment
import Componentry.Toml.Value

/-!
# Values that can be represented

A TOML text may be well formed and still say something that has no value: a number out of range, or
a table that stands for a date or time and does not write one. `Value.isRepresentable` looks through
a whole value for such things, and `Value.documentIsRepresentable` through a document, whose
outermost table is never a date or time.
-/

namespace Componentry.Toml

/-- Whether a value is the text of a date or time. -/
def Value.isMomentText : Value → Bool
  | .text s => (readMoment s.toList).isSome
  | _ => false

mutual

/-- Whether everything in a value has a value of its own. -/
def Value.isRepresentable : Value → Bool
  | .unrepresentable => false
  | .list items => Value.areRepresentable items
  | .table ((key, v) :: rest) =>
    if key = Value.momentKey then Value.isMomentText v
    else v.isRepresentable && Value.entriesRepresentable rest
  | _ => true

/-- Whether all items of a list can be represented. -/
def Value.areRepresentable : List Value → Bool
  | [] => true
  | v :: rest => v.isRepresentable && Value.areRepresentable rest

/-- Whether all values in the entries of a table can be represented. -/
def Value.entriesRepresentable : List (String × Value) → Bool
  | [] => true
  | (_, v) :: rest => v.isRepresentable && Value.entriesRepresentable rest

end

/-- Whether everything in a document has a value. -/
def Value.documentIsRepresentable : Value → Bool
  | .table entries => Value.entriesRepresentable entries
  | v => v.isRepresentable

end Componentry.Toml
