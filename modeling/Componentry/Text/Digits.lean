/-!
# Digits

Digits of bases up to sixteen, and the numbers that they write.
-/

namespace Componentry.Text

/-- The value of a digit in bases up to sixteen. -/
def digitValue (c : Char) : Option Nat :=
  if c.isDigit then some (c.toNat - '0'.toNat)
  else if 'a' ≤ c ∧ c ≤ 'f' then some (c.toNat - 'a'.toNat + 10)
  else if 'A' ≤ c ∧ c ≤ 'F' then some (c.toNat - 'A'.toNat + 10)
  else none

/-- The digits of a base that a text consists of. -/
def digits? (base : Nat) (cs : List Char) : Option (List Nat) :=
  cs.mapM fun c => (digitValue c).filter (· < base)

/-- The number that digits of a base write, the most significant one first. -/
def ofDigits (base : Nat) (digits : List Nat) : Nat := digits.foldl (fun n d => base * n + d) 0

end Componentry.Text
