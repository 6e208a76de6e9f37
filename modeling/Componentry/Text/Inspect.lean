import Componentry.Text.Unprintable

/-!
# Inspection texts

A one-line rendering of values for logs and diagnostics: texts are quoted, records are written
`Name { field: value, … }`, wrapped values `Name(value)`, lists `[a, b]` and tables
`{key: value}`. An open record ends in `..`, to say that fields are left out.
-/

namespace Componentry.Text.Inspect

/-- A lower-case hexadecimal number without leading zeros. -/
def hex (n : Nat) : String := String.ofList (Nat.toDigits 16 n)

/-- How one character of a quoted text is written: quotes, backslashes and the common control
characters by a backslash, other unprintable characters by their code. -/
def quotedChar (c : Char) : String :=
  if c = '\x00' then "\\0"
  else if c = '\t' then "\\t"
  else if c = '\r' then "\\r"
  else if c = '\n' then "\\n"
  else if c = '\\' then "\\\\"
  else if c = '"' then "\\\""
  else if isUnprintable c then "\\u\x7b" ++ hex c.toNat ++ "\x7d"
  else String.ofList [c]

/-- A text in double quotes. -/
def quoted (s : String) : String := "\"" ++ String.join (s.toList.map quotedChar) ++ "\""

/-- A truth value. -/
def flag (b : Bool) : String := if b then "true" else "false"

/-- A list of rendered items. -/
def list (items : List String) : String := "[" ++ ", ".intercalate items ++ "]"

/-- A table of rendered keys and values. -/
def table (entries : List (String × String)) : String :=
  "\x7b" ++ ", ".intercalate (entries.map fun e => e.1 ++ ": " ++ e.2) ++ "\x7d"

/-- The rendered fields of a record. -/
def fields (fs : List (String × String)) : String :=
  ", ".intercalate (fs.map fun f => f.1 ++ ": " ++ f.2)

/-- A record with all its fields. -/
def record (name : String) (fs : List (String × String)) : String :=
  name ++ " \x7b " ++ fields fs ++ " \x7d"

/-- A record of which some fields are not shown. -/
def openRecord (name : String) (fs : List (String × String)) : String :=
  name ++ " \x7b " ++ fields fs ++ ", .. \x7d"

/-- A value wrapped under a name. -/
def wrapped (name value : String) : String := name ++ "(" ++ value ++ ")"

end Componentry.Text.Inspect
