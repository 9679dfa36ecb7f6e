/-!
# BuildQuery — styled text

A terminal shows text in a style between a code that sets the style and the code that ends all
styles. Where a styled text itself ends all styles, its style is set again. On a terminal without
colours a styled text is the plain text.
-/

namespace BuildQuery.Report

/-- The styles in use. -/
inductive Style where
  | plain
  | yellow
  | green
  | red
  | magenta
  | dimmed
deriving DecidableEq

/-- Whether styles are shown. -/
inductive Ink where
  | none
  | colours
deriving DecidableEq

/-- The digits of the code of a style. -/
def Style.digits : Style → List Char
  | .plain => []
  | .yellow => ['3', '3']
  | .green => ['3', '2']
  | .red => ['3', '1']
  | .magenta => ['3', '5']
  | .dimmed => ['2']

/-- The code that sets a style. -/
def Style.code (style : Style) : List Char :=
  '\x1b' :: '[' :: style.digits ++ ['m']

/-- The code that ends all styles. -/
def reset : List Char := ['\x1b', '[', '0', 'm']

/-- The characters with a code after each end of all styles. -/
def resume (code : List Char) : List Char → List Char
  | '\x1b' :: '[' :: '0' :: 'm' :: rest => reset ++ code ++ resume code rest
  | [] => []
  | c :: rest => c :: resume code rest

/-- A text in a style. -/
def Style.paint (style : Style) (ink : Ink) (s : String) : String :=
  match style, ink with
  | .plain, _ => s
  | _, .none => s
  | style, .colours => String.ofList (style.code ++ resume style.code s.toList ++ reset)

end BuildQuery.Report
