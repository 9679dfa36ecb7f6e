import BuildQuery.Text.Graphic

/-!
# BuildQuery — quoted texts

A text is quoted for a log or an error between double quotes, so that every character can be told
apart: quotes and backslashes get a backslash, the four common controls have short names, and any
other character that does not show itself is written as its code point in hexadecimal.
-/

namespace BuildQuery.Text

/-- The code point in lower case hexadecimal, without leading zeros. -/
def hexDigits (n : Nat) : List Char :=
  Nat.toDigits 16 n

/-- One character inside a quoted text. -/
def quotedChar (c : Char) : List Char :=
  match c with
  | '\x00' => ['\\', '0']
  | '\t' => ['\\', 't']
  | '\r' => ['\\', 'r']
  | '\n' => ['\\', 'n']
  | '\\' => ['\\', '\\']
  | '"' => ['\\', '"']
  | c => if isGraphic c then [c] else ['\\', 'u', '\x7b'] ++ hexDigits c.toNat ++ ['\x7d']

/-- The text between double quotes, with what does not show itself escaped. -/
def quoted (s : String) : String :=
  String.ofList ('"' :: s.toList.flatMap quotedChar ++ ['"'])

end BuildQuery.Text
