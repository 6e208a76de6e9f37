/-!
# Binary fractions as decimal texts

A `Binary` is a number `mantissa · 2^exponent` as double precision holds it: 53 bits, exponents from
-1074 to 971. `nearest` rounds a decimal to one, ties to the even mantissa, and `shortest` is the
way back: the decimal with the fewest digits among those that round to the number, the nearest of
them if there are two. All arithmetic is exact, on natural numbers.
-/

namespace Componentry.Decimal

/-- `mantissa · 2^exponent`. -/
structure Binary where
  mantissa : Nat
  exponent : Int
  deriving DecidableEq, Repr

/-- `digits · 10^exponent`. -/
structure Scientific where
  digits : Nat
  exponent : Int
  deriving DecidableEq, Repr

/-- `base^e` where `e` is positive, otherwise 1. -/
def up (base : Nat) (e : Int) : Nat := base.pow e.toNat

/-- `base^(-e)` where `e` is negative, otherwise 1. -/
def down (base : Nat) (e : Int) : Nat := base.pow (-e).toNat

/-- `a / b` rounded to a natural number, a tie going to the even one. -/
def roundEven (a b : Nat) : Nat :=
  let below := a / b
  match compare (2 * (a % b)) b with
  | .lt => below
  | .gt => below + 1
  | .eq => below + below % 2

/-! ## Rounding -/

/-- The least exponent of a number in double precision. -/
def minExponent : Int := -1074

/-- The least mantissa that is not one bit short. -/
def fullMantissa : Nat := Nat.pow 2 52

/-- The number in double precision that is nearest to a decimal; none if the decimal is too large.
Decimals far beyond either end of the range are not computed. -/
def nearest (d : Scientific) : Option Binary :=
  let top := (Nat.toDigits 10 d.digits).length + d.exponent
  if d.digits = 0 ∨ top < -330 then some ⟨0, minExponent⟩
  else if 310 < top then none
  else
    let num := d.digits * up 10 d.exponent
    let den := down 10 d.exponent
    let guess : Int := num.log2 - den.log2
    let log := if den * up 2 guess ≤ num * down 2 guess then guess else guess - 1
    let exponent := max (log - 52) minExponent
    let mantissa := roundEven (num * down 2 exponent) (den * up 2 exponent)
    let rounded : Binary :=
      if mantissa = 2 * fullMantissa then ⟨fullMantissa, exponent + 1⟩ else ⟨mantissa, exponent⟩
    if 971 < rounded.exponent then none else some rounded

/-! ## Shortest digits -/

/-- Compare a decimal with `m · 2^e`. -/
def Scientific.compareTo (d : Scientific) (m : Nat) (e : Int) : Ordering :=
  compare (d.digits * up 10 d.exponent * down 2 e) (m * up 2 e * down 10 d.exponent)

/-- Whether a decimal rounds to the number: it lies between the halfway points to the neighbouring
numbers, or on one of them if the mantissa is even. Below a power of two the neighbour is nearer. -/
def Binary.readsBack (x : Binary) (d : Scientific) : Bool :=
  let isPower := x.mantissa == fullMantissa && decide (minExponent < x.exponent)
  let low := d.compareTo (4 * x.mantissa - if isPower then 1 else 2) (x.exponent - 2)
  let high := d.compareTo (4 * x.mantissa + 2) (x.exponent - 2)
  let even := x.mantissa % 2 == 0
  (low == .gt || (even && low == .eq)) && (high == .lt || (even && high == .eq))

/-- The least `k` with `x < 10^k`, for a positive `x`; the binary logarithm leaves three
candidates. -/
def Binary.scale (x : Binary) : Int :=
  let guess := ((x.mantissa.log2 : Int) + x.exponent) * 30103 / 100000
  let isAbove := fun (k : Int) => Scientific.compareTo ⟨1, k⟩ x.mantissa x.exponent == .gt
  if isAbove guess then guess else if isAbove (guess + 1) then guess + 1 else guess + 2

/-- The multiples of `10^e` next to the number that round to it, the nearer one if both do. -/
def Binary.onGrid (x : Binary) (e : Int) : Option Scientific :=
  let below := x.mantissa * up 2 x.exponent * down 10 e / (down 2 x.exponent * up 10 e)
  let low : Scientific := ⟨below, e⟩
  let high : Scientific := ⟨below + 1, e⟩
  match x.readsBack low, x.readsBack high with
  | true, true =>
    let middle : Scientific := ⟨2 * below + 1, e⟩
    if middle.compareTo (2 * x.mantissa) x.exponent == .gt then some low else some high
  | true, false => some low
  | false, true => some high
  | false, false => none

/-- Refine the grid until it holds a decimal that rounds to the number; 17 digits always do. -/
def Binary.refine (x : Binary) : Nat → Int → Scientific
  | 0, _ => ⟨x.mantissa * up 2 x.exponent * up 5 (-x.exponent), min x.exponent 0⟩
  | steps + 1, e =>
    match x.onGrid e with
    | some d => d
    | none => x.refine steps (e - 1)

/-- The decimal with the fewest digits that rounds to the number. -/
def Binary.shortest (x : Binary) : Scientific :=
  if x.mantissa = 0 then ⟨0, 0⟩ else x.refine 18 (x.scale - 1)

/-- Move zeros at the end of the digits into the exponent. -/
def Scientific.strip : Nat → Scientific → Scientific
  | fuel + 1, ⟨digits, exponent⟩ =>
    if digits ≠ 0 ∧ digits % 10 = 0 then Scientific.strip fuel ⟨digits / 10, exponent + 1⟩
    else ⟨digits, exponent⟩
  | 0, d => d

/-- A decimal in positional notation, with at least one digit on each side of the point. -/
def Scientific.positional (d : Scientific) : String :=
  let ⟨digits, exponent⟩ := d.strip (Nat.toDigits 10 d.digits).length
  let written := Nat.toDigits 10 digits
  if 0 ≤ exponent then
    String.ofList (written ++ List.replicate exponent.toNat '0') ++ ".0"
  else
    let places := (-exponent).toNat
    let padded := List.replicate (places + 1 - written.length) '0' ++ written
    let cut := padded.length - places
    String.ofList (padded.take cut) ++ "." ++ String.ofList (padded.drop cut)

end Componentry.Decimal
