/-!
# Terminal styles

A styled text stands between an escape sequence that switches the style on and the reset sequence.
A reset inside the text would end the style early, so the style is switched on again after it.
Without colour a styled text is the text itself.
-/

namespace Componentry.Text

/-- The styles that reports use. -/
inductive Style where
  | bold
  | dimmed
  | green
  | yellow
  | alarm
  deriving DecidableEq, Repr

namespace Style

/-- The display attribute codes of a style; `alarm` is bold red. -/
def code : Style → String
  | bold => "1"
  | dimmed => "2"
  | green => "32"
  | yellow => "33"
  | alarm => "1;31"

/-- The sequence that switches the style on. -/
def onset (s : Style) : String := "\x1b[" ++ s.code ++ "m"

/-- The sequence that switches every style off. -/
def reset : String := "\x1b[0m"

/-- Switch the style on again after every reset. -/
def resume (onset : List Char) : List Char → List Char
  | '\x1b' :: '[' :: '0' :: 'm' :: rest => reset.toList ++ onset ++ resume onset rest
  | c :: rest => c :: resume onset rest
  | [] => []

/-- `text` in the style, or as it is when colours are off. -/
def apply (s : Style) (colors : Bool) (text : String) : String :=
  if colors then
    s.onset ++ String.ofList (resume s.onset.toList text.toList) ++ reset
  else text

end Style

end Componentry.Text
