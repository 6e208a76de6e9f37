/-!
# Dates and times of TOML

A moment is a date, a time of day, or both, then maybe with a difference to universal time.
`readMoment` reads one and answers with its standard form, which always has seconds, at most nine
digits of a fraction of them, and a `T` between date and time.
-/

namespace Componentry.Toml

/-- A number of exactly two digits, and what follows. -/
def readTwoDigits : List Char → Option (Nat × List Char)
  | a :: b :: rest =>
    if a.isDigit ∧ b.isDigit then
      some (10 * (a.toNat - '0'.toNat) + (b.toNat - '0'.toNat), rest)
    else none
  | _ => none

/-- How many days a month has. -/
def daysIn (year month : Nat) : Nat :=
  if month = 2 then
    if year % 4 = 0 ∧ (year % 100 ≠ 0 ∨ year % 400 = 0) then 29 else 28
  else if month ∈ [4, 6, 9, 11] then 30 else 31

/-- Two digits of a number below a hundred. -/
def twoDigits (n : Nat) : String := (if n < 10 then "0" else "") ++ toString n

/-- A date, and what follows. -/
def readDate (cs : List Char) : Option (String × List Char) := do
  let (century, cs) ← readTwoDigits cs
  let (decade, cs) ← readTwoDigits cs
  let year := 100 * century + decade
  match cs with
  | '-' :: cs =>
    let (month, cs) ← readTwoDigits cs
    match cs with
    | '-' :: cs =>
      let (day, cs) ← readTwoDigits cs
      if 1 ≤ month ∧ month ≤ 12 ∧ 1 ≤ day ∧ day ≤ daysIn year month then
        some (twoDigits century ++ twoDigits decade ++ "-" ++ twoDigits month ++ "-" ++
          twoDigits day, cs)
      else none
    | _ => none
  | _ => none

/-- The digits of a fraction of a second: nine at most count, and no zeros at the end. -/
def fractionText (digits : List Char) : String :=
  match ((digits.take 9).reverse.dropWhile (· == '0')).reverse with
  | [] => ""
  | kept => "." ++ String.ofList kept

/-- The seconds of a time, and what follows; a time without them is on the minute. -/
def readSeconds (cs : List Char) : Option (String × List Char) :=
  match cs with
  | ':' :: cs => do
    let (second, cs) ← readTwoDigits cs
    if 60 < second then none
    else
      match cs with
      | '.' :: cs =>
        let digits := cs.takeWhile Char.isDigit
        if digits = [] then none
        else some (":" ++ twoDigits second ++ fractionText digits, cs.dropWhile Char.isDigit)
      | _ => some (":" ++ twoDigits second, cs)
  | _ => some (":00", cs)

/-- A time of day, and what follows. -/
def readTime (cs : List Char) : Option (String × List Char) := do
  let (hour, cs) ← readTwoDigits cs
  match cs with
  | ':' :: cs =>
    let (minute, cs) ← readTwoDigits cs
    let (seconds, cs) ← readSeconds cs
    if hour ≤ 23 ∧ minute ≤ 59 then
      some (twoDigits hour ++ ":" ++ twoDigits minute ++ seconds, cs)
    else none
  | _ => none

/-- The difference to universal time, if there is one. -/
def readOffset : List Char → Option String
  | [] => some ""
  | ['Z'] | ['z'] => some "Z"
  | sign :: cs => do
    let (hour, cs) ← readTwoDigits cs
    match cs with
    | ':' :: cs =>
      let (minute, cs) ← readTwoDigits cs
      if cs = [] ∧ hour ≤ 23 ∧ minute ≤ 59 ∧ (sign = '+' ∨ sign = '-') then
        let shown := if sign = '-' ∧ (hour ≠ 0 ∨ minute ≠ 0) then "-" else "+"
        some (shown ++ twoDigits hour ++ ":" ++ twoDigits minute)
      else none
    | _ => none

/-- A date, a time, or a date and a time, in standard form. -/
def readMoment (cs : List Char) : Option String :=
  match readDate cs with
  | some (date, []) => some date
  | some (date, separator :: rest) =>
    if separator = 'T' ∨ separator = 't' ∨ separator = ' ' then
      match readTime rest with
      | some (time, rest) => (readOffset rest).map fun offset => date ++ "T" ++ time ++ offset
      | none => none
    else none
  | none =>
    match readTime cs with
    | some (time, []) => some time
    | _ => none

end Componentry.Toml
