import Componentry.Data.Dict
import Componentry.Decimal.Shortest
import Componentry.Text.Inspect

/-!
# TOML values

What a TOML text says: texts, numbers, truth values, dates and times, lists, and tables. The entries
of a table are listed in key order (`Value.ofEntries` sorts them), so that tables with the same
entries are equal and are visited in that order. A date or time counts as a table with a single
reserved key wherever a table is looked for. A number may be written well and still have no value;
it is kept, as `unrepresentable`, because a reader that never looks at it does not mind.
-/

namespace Componentry.Toml

/-- Numbers with a fraction. -/
inductive Floating where
  | finite (negative : Bool) (magnitude : Decimal.Binary)
  | infinite (negative : Bool)
  | notANumber
  deriving DecidableEq, Repr

/-- The decimal `±digits · 10^exponent` as a number with a fraction, if it is in range. -/
def Floating.ofDecimal (negative : Bool) (d : Decimal.Scientific) : Option Floating :=
  (Decimal.nearest d).map (finite negative)

/-- A number with a fraction as text, in the fewest digits that give it back. -/
def Floating.display : Floating → String
  | finite negative magnitude =>
    (if negative then "-" else "") ++ magnitude.shortest.positional
  | infinite negative => if negative then "-inf" else "inf"
  | notANumber => "NaN"

/-- A TOML value. -/
inductive Value where
  | text (s : String)
  | integer (n : Int)
  | floating (f : Floating)
  /-- A number without a value: it is out of range, or it lacks digits or has other characters. -/
  | unrepresentable
  | boolean (b : Bool)
  /-- A date, a time or both, in standard form. -/
  | moment (written : String)
  | list (items : List Value)
  /-- The entries stand in key order. -/
  | table (entries : List (String × Value))
  deriving Repr

instance : Inhabited Value := ⟨.table []⟩

namespace Value

/-- The value of a whole number, which has to fit into 64 bits. -/
def ofInt (n : Int) : Value :=
  if -Int.pow 2 63 ≤ n ∧ n < Int.pow 2 63 then .integer n else .unrepresentable

/-- The value of a decimal with a fraction or an exponent. -/
def ofDecimal (negative : Bool) (d : Decimal.Scientific) : Value :=
  (Floating.ofDecimal negative d).elim .unrepresentable .floating

/-- The table of the given entries; of entries with one key the last stays. -/
def ofEntries (entries : List (String × Value)) : Value :=
  .table (entries.foldl (fun sorted e => Dict.insertEntry e.1 e.2 sorted) [])

/-- The key under which a date or time is found when it is taken for a table. -/
def momentKey : String := "$__toml_private_datetime"

/-- The entries of a value that counts as a table. -/
def entries? : Value → Option (List (String × Value))
  | table entries => some entries
  | moment written => some [(momentKey, .text written)]
  | _ => none

/-- What a value is called when another kind is wanted. -/
def describe : Value → String
  | text s => "string " ++ Text.Inspect.quoted s
  | integer n => s!"integer `" ++ toString n ++ "`"
  | floating f => "floating point `" ++ f.display ++ "`"
  | unrepresentable => "number"
  | boolean b => "boolean `" ++ Text.Inspect.flag b ++ "`"
  | list _ => "sequence"
  | moment _ | table _ => "map"

/-- The name of a value's kind. -/
def kindName : Value → String
  | text _ => "string"
  | integer _ => "integer"
  | floating _ => "float"
  | unrepresentable => "number"
  | boolean _ => "boolean"
  | moment _ => "datetime"
  | list _ => "array"
  | table _ => "table"

end Value

end Componentry.Toml
