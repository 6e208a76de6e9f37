import Componentry.Text.Digits

/-!
# Quoted texts of TOML

`scanText` reads a quoted text one character at a time; its `Mode` says what the next character
means. `readLineText` and `readBlockText` read the two forms of quoted texts, those on one line and
those of several lines.
-/

namespace Componentry.Toml

/-- The ways to quote a text. -/
structure Quoting where
  /-- The quotation mark. -/
  mark : Char
  /-- Whether backslashes escape. -/
  escapes : Bool
  /-- Whether the text may run over several lines; it then stands between triple marks. -/
  multiline : Bool
  deriving DecidableEq, Repr

/-- What the next character of a quoted text means. -/
inductive Mode where
  | plain
  /-- So many marks were just read in a row. -/
  | marks (count : Nat)
  /-- A backslash was read. -/
  | escape
  /-- Inside the code of a character: digits left, and the number so far. -/
  | code (left value : Nat)
  /-- After a backslash at the end of a line: white space is dropped, line ends too. -/
  | folded (lineEnded : Bool)
  /-- A carriage return was read, which a line feed has to follow. -/
  | carriage (folded : Bool)
  deriving DecidableEq, Repr

/-- What a character does to a text being read. -/
inductive Move where
  | refuse
  | close
  /-- Go on in another mode, with characters added to the text. -/
  | proceed (mode : Mode) (added : List Char)

/-- A character that may stand for itself: no control character but the tab. -/
def isPlain (c : Char) : Bool := c == '\t' || (0x20 ≤ c.toNat && c.toNat != 0x7F)

/-- A character outside all escapes. -/
def plainMove (q : Quoting) (c : Char) : Move :=
  if c = q.mark then if q.multiline then .proceed (.marks 1) [] else .close
  else if c = '\\' ∧ q.escapes then .proceed .escape []
  else if c = '\n' ∧ q.multiline then .proceed .plain [c]
  else if c = '\r' ∧ q.multiline then .proceed (.carriage false) [c]
  else if isPlain c then .proceed .plain [c]
  else .refuse

/-- A character after a backslash. -/
def escapeMove (q : Quoting) (c : Char) : Move :=
  match c with
  | 'b' => .proceed .plain ['\x08']
  | 't' => .proceed .plain ['\t']
  | 'n' => .proceed .plain ['\n']
  | 'f' => .proceed .plain ['\x0c']
  | 'r' => .proceed .plain ['\r']
  | 'e' => .proceed .plain ['\x1b']
  | '"' => .proceed .plain ['"']
  | '\\' => .proceed .plain ['\\']
  | 'x' => .proceed (.code 2 0) []
  | 'u' => .proceed (.code 4 0) []
  | 'U' => .proceed (.code 8 0) []
  | _ =>
    if !q.multiline then .refuse
    else if c = ' ' ∨ c = '\t' then .proceed (.folded false) []
    else if c = '\n' then .proceed (.folded true) []
    else if c = '\r' then .proceed (.carriage true) []
    else .refuse

/-- A digit of a character's code; the code must be that of a character. -/
def codeMove (left value : Nat) (c : Char) : Move :=
  match Text.digitValue c with
  | none => .refuse
  | some d =>
    let code := 16 * value + d
    if 1 < left then .proceed (.code (left - 1) code) []
    else if code.isValidChar then .proceed .plain [Char.ofNat code]
    else .refuse

/-- A character in white space that is dropped. -/
def foldedMove (q : Quoting) (lineEnded : Bool) (c : Char) : Move :=
  if c = ' ' ∨ c = '\t' then .proceed (.folded lineEnded) []
  else if c = '\n' then .proceed (.folded true) []
  else if c = '\r' then .proceed (.carriage true) []
  else if lineEnded then plainMove q c
  else .refuse

/-- Read a text up to its closing marks, after the opening ones: the text, and what follows. `done`
is the text so far, last character first. Up to two marks before the closing ones belong to a text
of several lines. -/
def scanText (q : Quoting) : Mode → List Char → List Char → Option (String × List Char)
  | .marks n, done, [] =>
    if 3 ≤ n then some (String.ofList (List.replicate (n - 3) q.mark ++ done).reverse, []) else none
  | _, _, [] => none
  | .marks n, done, c :: rest =>
    if c = q.mark ∧ n < 5 then scanText q (.marks (n + 1)) done rest
    else if 3 ≤ n then
      some (String.ofList (List.replicate (n - 3) q.mark ++ done).reverse, c :: rest)
    else
      match plainMove q c with
      | .proceed mode added =>
        scanText q mode (added ++ (List.replicate n q.mark ++ done)) rest
      | _ => none
  | .carriage folded, done, c :: rest =>
    if c = '\n' then
      if folded then scanText q (.folded true) done rest else scanText q .plain (c :: done) rest
    else none
  | mode, done, c :: rest =>
    let move := match mode with
      | .escape => escapeMove q c
      | .code left value => codeMove left value c
      | .folded lineEnded => foldedMove q lineEnded c
      | _ => plainMove q c
    match move with
    | .close => some (String.ofList done.reverse, rest)
    | .proceed mode added => scanText q mode (added ++ done) rest
    | .refuse => none

/-- A line end right after the opening marks of a text of several lines is no part of it. -/
def dropLineEnd : List Char → List Char
  | '\n' :: rest => rest
  | '\r' :: '\n' :: rest => rest
  | cs => cs

/-- A text on one line, after its opening mark. -/
def readLineText (mark : Char) (cs : List Char) : Option (String × List Char) :=
  scanText ⟨mark, mark == '"', false⟩ .plain [] cs

/-- A text of several lines, after its opening marks. -/
def readBlockText (mark : Char) (cs : List Char) : Option (String × List Char) :=
  scanText ⟨mark, mark == '"', true⟩ .plain [] (dropLineEnd cs)

end Componentry.Toml
