/-!
# Glob patterns

A pattern is a list of tokens that together have to match a whole text. `?` stands for any
character, `*` for any text, a set in brackets for one of its characters (or, after `!`, for none of
them), and every other character for itself. `**` is a path wildcard: it has to form a whole path
component, takes the slash after it, and stands for nothing, for any text that ends in a slash, or
for all that is left. `*` and `?` match slashes too.

`compile` reads a pattern, `covers` says what it means, and `isMatch` runs it, going over the text
once for each token. Both give the same answer (`isMatch_eq_covers`).
-/

namespace Componentry.Glob

/-- A member of a bracketed set: one character, or a closed range of them. -/
inductive Member where
  | single (c : Char)
  | range (low high : Char)
  deriving DecidableEq, Repr

/-- Whether a member covers a character. -/
def Member.covers (c : Char) : Member → Bool
  | single d => c == d
  | range low high => decide (low ≤ c) && decide (c ≤ high)

/-- The tokens of a pattern. -/
inductive Token where
  | literal (c : Char)
  | anyChar
  | anyText
  | anyFolders
  | oneOf (set : List Member)
  | noneOf (set : List Member)
  deriving DecidableEq, Repr

/-- A compiled pattern. -/
abbrev Pattern := List Token

/-- Why a text is no pattern, and where. -/
structure SyntaxError where
  position : Nat
  reason : String
  deriving DecidableEq, Repr

/-- The error as text. -/
def SyntaxError.display (e : SyntaxError) : String :=
  "Pattern syntax error near position " ++ toString e.position ++ ": " ++ e.reason

/-! ## Reading patterns -/

/-- The members of a bracketed set: `x-y` is a range, any other character stands for itself. -/
def members : List Char → List Member
  | low :: '-' :: high :: rest => .range low high :: members rest
  | c :: rest => .single c :: members rest
  | [] => []

/-- The set that opens after a bracket, and the number of characters it takes together with its
closing bracket. The first character of a set is never its closing bracket. -/
def readSet : List Char → Option (Token × Nat)
  | '!' :: c :: rest =>
    if ']' ∈ rest then
      let set := c :: rest.takeWhile (· ≠ ']')
      some (.noneOf (members set), set.length + 2)
    else none
  | '!' :: [] => none
  | c :: rest =>
    if ']' ∈ rest then
      let set := c :: rest.takeWhile (· ≠ ']')
      some (.oneOf (members set), set.length + 1)
    else none
  | [] => none

def recursiveReason : String := "recursive wildcards must form a single path component"

/-- The path wildcard that a double star is, and how many of the characters after it it takes: only
at the start or after a slash, and only before a slash or the end. -/
def readFolders (position : Nat) (before : Option Char) (after : List Char) :
    Except SyntaxError Nat :=
  if position = 0 ∨ before = some '/' then
    match after with
    | '/' :: _ => .ok 1
    | [] => .ok 0
    | _ => .error ⟨position + 2, recursiveReason⟩
  else .error ⟨position - 1, recursiveReason⟩

/-- Add a path wildcard, unless the pattern already ends in one that is not its first token. -/
def pushFolders : List Token → List Token
  | .anyFolders :: t :: done => .anyFolders :: t :: done
  | done => .anyFolders :: done

/-- Compile the rest of a pattern: `position` counts the characters before it, `skip` says how many
of it are already taken by a token, `before` is the character before it, and `done` holds the tokens
so far, last one first. -/
def compileFrom : List Char → Nat → Nat → Option Char → List Token →
    Except SyntaxError (List Token)
  | [], _, _, _, done => .ok done.reverse
  | c :: rest, position, skip + 1, _, done =>
    compileFrom rest (position + 1) skip (some c) done
  | c :: rest, position, 0, before, done =>
    if c = '?' then compileFrom rest (position + 1) 0 (some c) (.anyChar :: done)
    else if c = '*' then
      match (rest.takeWhile (· = '*')).length with
      | 0 => compileFrom rest (position + 1) 0 (some c) (.anyText :: done)
      | 1 =>
        match readFolders position before (rest.drop 1) with
        | .ok taken => compileFrom rest (position + 1) (1 + taken) (some c) (pushFolders done)
        | .error e => .error e
      | _ => .error ⟨position + 2, "wildcards are either regular `*` or recursive `**`"⟩
    else if c = '[' then
      match readSet rest with
      | some (token, taken) => compileFrom rest (position + 1) taken (some c) (token :: done)
      | none => .error ⟨position, "invalid range pattern"⟩
    else compileFrom rest (position + 1) 0 (some c) (.literal c :: done)

/-- The tokens of a pattern, or why it is none. -/
def compile (pattern : String) : Except SyntaxError Pattern :=
  compileFrom pattern.toList 0 0 none []

/-! ## Matching -/

/-- All ends of a text, from the whole text to the empty one. -/
def ends : List Char → List (List Char)
  | [] => [[]]
  | c :: rest => (c :: rest) :: ends rest

/-- The ends of a text that follow one of its slashes. -/
def endsAfterSlash : List Char → List (List Char)
  | [] => []
  | c :: rest => if c = '/' then rest :: endsAfterSlash rest else endsAfterSlash rest

/-- Whether one token, if it takes exactly one character, takes `c`. -/
def Token.takes (c : Char) : Token → Bool
  | literal d => c == d
  | anyChar => true
  | oneOf set => set.any (·.covers c)
  | noneOf set => !set.any (·.covers c)
  | _ => false

/-- What a pattern means: whether its tokens together match the whole text. -/
def covers : Pattern → List Char → Bool
  | [], cs => cs.isEmpty
  | .anyText :: tokens, cs => (ends cs).any (covers tokens)
  | .anyFolders :: tokens, cs => (cs :: (endsAfterSlash cs ++ [[]])).any (covers tokens)
  | _ :: _, [] => false
  | token :: tokens, c :: cs => token.takes c && covers tokens cs

/-! Trying all ends anew for every wildcard takes time exponential in their number. A row holds the
answers for all ends of the text at once, and one pass over it puts one more token in front. -/

/-- The row with a token in front that takes one character. -/
def charRow (token : Token) : List Char → List Bool → List Bool
  | c :: cs, _ :: row => (token.takes c && row.headD false) :: charRow token cs row
  | _, _ => [false]

/-- The row with any text in front: at each end, whether the row answers yes from there on. -/
def textRow : List Bool → List Bool
  | [] => []
  | answer :: row =>
    let later := textRow row
    (answer || later.headD false) :: later

/-- The row with some folders in front: at each end, whether the row answers yes after one of the
slashes from there on, or at the empty end. -/
def folderRow : List Char → List Bool → List Bool
  | c :: cs, _ :: row =>
    let later := folderRow cs row
    ((c == '/' && row.headD false) || later.headD false) :: later
  | _, row => row

/-- The row of a text with one more token in front. -/
def Token.row (cs : List Char) (row : List Bool) : Token → List Bool
  | .anyText => textRow row
  | .anyFolders => List.zipWith or row (folderRow cs row)
  | token => charRow token cs row

/-- Whether the tokens match, for every end of a text. -/
def row (cs : List Char) : Pattern → List Bool
  | [] => (ends cs).map List.isEmpty
  | token :: tokens => token.row cs (row cs tokens)

/-- Whether the tokens together match the whole text. -/
def isMatch (tokens : Pattern) (cs : List Char) : Bool := (row cs tokens).headD false

theorem headD_map_ends (f : List Char → Bool) (cs : List Char) :
    ((ends cs).map f).headD false = f cs := by
  cases cs <;> rfl

theorem charRow_map_ends (token : Token) (f : List Char → Bool) (cs : List Char) :
    charRow token cs ((ends cs).map f) =
      (ends cs).map fun
        | [] => false
        | c :: rest => token.takes c && f rest := by
  induction cs with
  | nil => rfl
  | cons c cs ih => simp only [ends, List.map_cons, charRow, ih, headD_map_ends]

theorem textRow_map_ends (f : List Char → Bool) (cs : List Char) :
    textRow ((ends cs).map f) = (ends cs).map fun rest => (ends rest).any f := by
  induction cs with
  | nil => rfl
  | cons c cs ih => simp only [ends, List.map_cons, textRow, ih, headD_map_ends, List.any_cons]

theorem folderRow_map_ends (f : List Char → Bool) (cs : List Char) :
    folderRow cs ((ends cs).map f) =
      (ends cs).map fun rest => (endsAfterSlash rest ++ [[]]).any f := by
  induction cs with
  | nil => simp [ends, folderRow, endsAfterSlash]
  | cons c cs ih =>
    simp only [ends, List.map_cons, folderRow, ih, headD_map_ends, endsAfterSlash]
    by_cases h : c = '/' <;> simp [h]

/-- A row holds the answer for every end. -/
theorem row_eq_map_covers (cs : List Char) (tokens : Pattern) :
    row cs tokens = (ends cs).map (covers tokens) := by
  induction tokens with
  | nil => exact List.map_congr_left fun rest _ => by simp [covers]
  | cons token tokens ih =>
    have single : charRow token cs ((ends cs).map (covers tokens)) =
        (ends cs).map fun
          | [] => false
          | c :: rest => token.takes c && covers tokens rest := charRow_map_ends ..
    rw [row, ih]
    cases token with
    | anyText =>
      exact (textRow_map_ends _ cs).trans (List.map_congr_left fun rest _ => by rw [covers])
    | anyFolders =>
      rw [Token.row, folderRow_map_ends, List.zipWith_map_left, List.zipWith_map_right,
        List.zipWith_self]
      exact List.map_congr_left fun rest _ => by rw [covers, List.any_cons]
    | _ =>
      exact single.trans (List.map_congr_left fun rest _ => by cases rest <;> simp [covers])

/-- Running a pattern gives what it means. -/
theorem isMatch_eq_covers (tokens : Pattern) (cs : List Char) :
    isMatch tokens cs = covers tokens cs := by
  rw [isMatch, row_eq_map_covers, headD_map_ends]

end Componentry.Glob
