import Componentry.Toml.Moment
import Componentry.Toml.Number
import Componentry.Toml.Quoted

/-!
# Words of TOML

Truth values, numbers, dates and times are words: they stand without quotation marks and run up to a
mark of structure. `takeWord` cuts a word off a text, and `readWord` says which value it stands for.
-/

namespace Componentry.Toml

/-! ## Cutting words off -/

/-- Blanks within a line. -/
def isBlank (c : Char) : Bool := c == ' ' || c == '\t'

/-- Characters that words are made of, points and blanks apart: all but the marks of structure. -/
def isWordChar (c : Char) : Bool := !(".=,[]\x7b\x7d \t#\r\n".toList.contains c)

/-- What was just taken into a word. -/
inductive Taken where
  | point
  | blank
  | character
  deriving DecidableEq, Repr

/-- Whether a character starts a run of characters of words: a quotation mark starts a quoted
text. -/
def startsRun (c : Char) : Bool := isWordChar c && c != '"' && c != '\''

/-- Whether a word goes on with `c`, before `rest`. Blanks belong to it if another run follows
them. -/
def goesOn (last : Taken) (c : Char) (rest : List Char) : Bool :=
  if isBlank c then last = .blank || (rest.dropWhile isBlank).head?.any startsRun
  else if last = .character then c == '.' || isWordChar c
  else c == '.' || startsRun c

/-- The rest of a word, and what follows it. -/
def takeWord (last : Taken) : List Char → List Char × List Char
  | [] => ([], [])
  | c :: rest =>
    if goesOn last c rest then
      let taken : Taken := if isBlank c then .blank else if c = '.' then .point else .character
      let (word, left) := takeWord taken rest
      (c :: word, left)
    else ([], c :: rest)

/-! ## What words stand for -/

/-- A number, date or time, told apart by what follows the digits in front. -/
def readFigures (word : List Char) : Option Value :=
  let (_, cs) := readSign word
  match cs, cs.dropWhile Char.isDigit with
  | [], _ => none
  | _, [] => readWhole word
  | _, c :: rest =>
    if c = '-' ∨ c = ':' then (readMoment word).map .moment
    else if ' ' ∈ rest then none
    else if (c :: rest).any fun d => d == '.' || d == 'e' || d == 'E' then readDecimal word
    else if c = '_' then readWhole word
    else none

/-- The value that a word stands for. -/
def readWord (word : List Char) : Option Value :=
  let (negative, cs) := readSign word
  if word = "true".toList then some (.boolean true)
  else if word = "false".toList then some (.boolean false)
  else if cs = "inf".toList then some (.floating (.infinite negative))
  else if cs = "nan".toList then some (.floating .notANumber)
  else
    match word with
    | '0' :: 'x' :: digits => readBased 16 digits
    | '0' :: 'o' :: digits => readBased 8 digits
    | '0' :: 'b' :: digits => readBased 2 digits
    | _ => readFigures word

end Componentry.Toml
