import Componentry.Text.Blank

/-!
# `key=value` arguments

A pair is written with an equals sign between key and value. The first equals sign separates them,
so that a value may hold more of them; white space around key and value does not count, and the key
must not be empty.
-/

namespace Componentry.Command.KeyValue

/-- What stands before and after the first equals sign. -/
def cut : List Char → Option (List Char × List Char)
  | [] => none
  | c :: rest =>
    if c = '=' then some ([], rest)
    else (cut rest).map fun (key, value) => (c :: key, value)

/-- The pair that a text writes, or why it writes none. -/
def parse (text : String) : Except String (String × String) :=
  match cut text.toList with
  | some (key, value) =>
    match Text.trim key with
    | [] => .error s!"expected key=value, got '{text}'"
    | c :: rest => .ok (String.ofList (c :: rest), String.ofList (Text.trim value))
  | none => .error s!"expected key=value, got '{text}'"

end Componentry.Command.KeyValue
