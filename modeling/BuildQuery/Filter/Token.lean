import BuildQuery.Text.Blank
import BuildQuery.Text.Bytes
import BuildQuery.Text.Word

/-!
# BuildQuery — tokens of a filter

A filter is written as names and values, which are runs of word characters, `_`, `-` and `.`, and
the four operators `&`, `|`, `=` and `!=`, with any blanks between them. `tokenize` cuts a text into
tokens, each with the byte offset of its first character, or reports the offset of the first
character that belongs to no token.
-/

namespace BuildQuery.Filter

open Text

-- ---------------------------------------------------------------------------
-- Tokens and the errors of a filter
-- ---------------------------------------------------------------------------

/-- The kinds of tokens. -/
inductive TokenKind where
  | ident
  | and
  | or
  | notEqual
  | equal
deriving DecidableEq

/-- A token: its kind, its text and the byte offset of its first character. -/
structure Token where
  kind : TokenKind
  text : String
  offset : Nat
deriving DecidableEq

/-- Why a text is no filter. -/
inductive QueryError where
  /-- The character at this byte offset belongs to no token. -/
  | strayCharacter (offset : Nat)
  /-- The tokens end where a comparison was expected; these were left. -/
  | incomplete (tokens : List Token)
  /-- Three tokens stand where a comparison was expected and are none. -/
  | invalidComparison (tokens : List Token)
  /-- This token follows a comparison and is neither `&` nor `|`. -/
  | invalidConjunction (token : Token)
deriving DecidableEq

/-- The texts of the tokens between brackets, with blanks between them. -/
def listing (tokens : List Token) : String :=
  "[" ++ " ".intercalate (tokens.map Token.text) ++ "]"

/-- The text shown for an error of a filter. -/
def QueryError.message : QueryError → String
  | .strayCharacter offset => "Syntax error at " ++ toString offset
  | .incomplete tokens => "Invalid expression: " ++ listing tokens
  | .invalidComparison tokens => "Invalid comparison expression: " ++ listing tokens
  | .invalidConjunction token => "Invalid conjugation operator: " ++ token.text

-- ---------------------------------------------------------------------------
-- Cutting a text into tokens
-- ---------------------------------------------------------------------------

/-- The characters of names and values: word characters and the three marks that occur in the names
of parameters, of agents and of versions. -/
def isIdentChar (c : Char) : Bool :=
  isWord c || c == '_' || c == '-' || c == '.'

/-- How an operator is written; a name or value has no fixed text. -/
def TokenKind.symbol : TokenKind → String
  | .ident => ""
  | .and => "&"
  | .or => "|"
  | .notEqual => "!="
  | .equal => "="

/-- The operator that the characters begin with, and the characters after it. -/
def operator? : List Char → Option (TokenKind × List Char)
  | '&' :: rest => some (.and, rest)
  | '|' :: rest => some (.or, rest)
  | '=' :: rest => some (.equal, rest)
  | '!' :: '=' :: rest => some (.notEqual, rest)
  | _ => none

theorem length_of_operator? {cs rest : List Char} {kind : TokenKind}
    (h : operator? cs = some (kind, rest)) : rest.length < cs.length := by
  unfold operator? at h
  split at h
  case h_5 => simp at h
  all_goals
    simp only [Option.some.injEq, Prod.mk.injEq] at h
    obtain ⟨-, rfl⟩ := h
    simp only [List.length_cons]
    omega

/-- The tokens of the characters, the first of which has this byte offset. A name or value takes as
many characters as it can. -/
def scan (offset : Nat) (cs : List Char) : Except QueryError (List Token) :=
  match cs with
  | [] => .ok []
  | c :: rest =>
    if isIdentChar c then do
      let word := c :: rest.takeWhile isIdentChar
      let tokens ← scan (offset + byteLength word) (rest.dropWhile isIdentChar)
      return ⟨.ident, String.ofList word, offset⟩ :: tokens
    else if isBlank c then
      scan (offset + c.utf8Size) rest
    else
      match _h : operator? (c :: rest) with
      | none => .error (.strayCharacter offset)
      | some (kind, rest') => do
        let tokens ← scan (offset + kind.symbol.utf8ByteSize) rest'
        return ⟨kind, kind.symbol, offset⟩ :: tokens
termination_by cs.length
decreasing_by
  · have hLength := (List.dropWhile_sublist (l := rest) isIdentChar).length_le
    simp only [List.length_cons]
    omega
  · simp
  · exact length_of_operator? _h

/-- The tokens of a text. -/
def tokenize (input : String) : Except QueryError (List Token) :=
  scan 0 input.toList

-- ---------------------------------------------------------------------------
-- Pointing at a character
-- ---------------------------------------------------------------------------

/-- How many characters stand before a byte offset. -/
def columnOf : Nat → List Char → Nat
  | _, [] => 0
  | offset, c :: cs => if offset < c.utf8Size then 0 else columnOf (offset - c.utf8Size) cs + 1

/-- Two lines that show the text and a caret below the character at a byte offset. -/
def pointAt (input : String) (offset : Nat) : List String :=
  let column := columnOf offset input.toList
  ["  " ++ input, "  " ++ String.ofList (List.replicate column ' ') ++ "^"]

end BuildQuery.Filter
