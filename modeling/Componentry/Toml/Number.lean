import Componentry.Text.Digits
import Componentry.Text.Separated
import Componentry.Toml.Value

/-!
# Numbers of TOML

Whole numbers in four bases and numbers with a fraction or an exponent. Underscores may stand
between digits. A number may be written well and have no value (`Value.unrepresentable`): out of
range, a base without digits, or a decimal that has an underscore and after it characters that are
no digits; what stands next to the underscores has to be a digit of some base all the same.
-/

namespace Componentry.Toml

/-- Whether every underscore stands between digits: every piece after one starts with a digit, and
every piece before one ends with a digit. -/
def underscoresFit (isDigit : Char → Bool) (cs : List Char) : Bool :=
  let pieces := Text.split '_' cs
  pieces.tail.all (fun p => p.head?.any isDigit) &&
    pieces.dropLast.all fun p => p.getLast?.any isDigit

/-- What is left without underscores. -/
def dropUnderscores (cs : List Char) : List Char := cs.filter (· ≠ '_')

/-- A digit of any base, up to sixteen. -/
def isAnyDigit (c : Char) : Bool := (Text.digitValue c).isSome

/-- A sign and what follows it; no sign is positive. -/
def readSign : List Char → Bool × List Char
  | '-' :: rest => (true, rest)
  | '+' :: rest => (false, rest)
  | cs => (false, cs)

/-- The number that a sign and decimal digits write. -/
def signed (negative : Bool) (digits : List Nat) : Int :=
  if negative then -(Text.ofDigits 10 digits : Int) else Text.ofDigits 10 digits

/-! ## Whole numbers -/

/-- A whole number in a base other than ten, after the mark of the base. -/
def readBased (base : Nat) (cs : List Char) : Option Value :=
  if underscoresFit isAnyDigit cs then
    (Text.digits? base (dropUnderscores cs)).map fun
      | [] => .unrepresentable
      | digits => .ofInt (Text.ofDigits base digits)
  else none

/-- A whole number in base ten. No zero stands in front of other digits. -/
def readWhole (word : List Char) : Option Value :=
  let (negative, cs) := readSign word
  if (cs.head? = some '0' ∧ cs.length ≠ 1) ∨ ¬underscoresFit isAnyDigit word then none
  else
    match Text.digits? 10 (dropUnderscores cs) with
    | some digits => some (.ofInt (signed negative digits))
    | none => some .unrepresentable

/-! ## Fractions and exponents -/

/-- Decimal digits and underscores, at least one digit, and what follows them. -/
def readDigits (cs : List Char) : Option (List Nat × List Char) :=
  let isPart := fun c : Char => c.isDigit || c == '_'
  match Text.digits? 10 (dropUnderscores (cs.takeWhile isPart)) with
  | none | some [] => none
  | some digits => some (digits, cs.dropWhile isPart)

/-- The digits after a point, if there is one, and what follows. -/
def readFraction : List Char → Option (List Nat × List Char)
  | '.' :: rest => readDigits rest
  | cs => some ([], cs)

/-- The exponent after its mark, if there is one, and nothing else. -/
def readExponent (cs : List Char) : Option Int :=
  match cs with
  | [] => some 0
  | mark :: rest =>
    let (negative, rest) := readSign rest
    match readDigits rest with
    | some (digits, []) => if mark = 'e' ∨ mark = 'E' then some (signed negative digits) else none
    | _ => none

/-- A number with a fraction or an exponent. No zero stands in front of other digits before the
point. -/
def readDecimal (word : List Char) : Option Value := do
  let (negative, cs) := readSign word
  let (whole, rest) ← readDigits cs
  let (fraction, rest) ← readFraction rest
  let exponent ← readExponent rest
  if (cs.head? = some '0' ∧ whole.length ≠ 1) ∨ ¬underscoresFit Char.isDigit word then none
  else some (.ofDecimal negative
    ⟨Text.ofDigits 10 (whole ++ fraction), exponent - fraction.length⟩)

end Componentry.Toml
