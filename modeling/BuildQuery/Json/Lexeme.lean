import BuildQuery.Json.Numeral
import BuildQuery.Text.Bytes

/-!
# BuildQuery — lexemes of a document

A document is read in one pass from left to right, and the class of the first fault that is met is
part of the answer. `lex` cuts the bytes into lexemes. Strings keep their spelling, because a string
that is only skipped may hold bytes and escapes that are no text, and a lexeme that cannot be read
to its end keeps the faults it causes (`Break`).
-/

namespace BuildQuery.Json

-- ---------------------------------------------------------------------------
-- Faults
-- ---------------------------------------------------------------------------

/-- The classes of faults. -/
inductive Fault where
  /-- The bytes are no document. -/
  | malformed
  /-- The document does not have the shape that is wanted. -/
  | mismatch
  /-- The bytes end too early. -/
  | truncated
deriving DecidableEq

/-- A place where a document cannot be read on: the fault met when the value there is wanted, and
the fault met when it is skipped. -/
structure Break where
  read : Fault
  skipped : Fault
deriving DecidableEq

/-- A place that has the same fault for a reader and for a skipper. -/
def Break.of (fault : Fault) : Break := ⟨fault, fault⟩

-- ---------------------------------------------------------------------------
-- Spellings of strings
-- ---------------------------------------------------------------------------

/-- A part of a string: a byte, or a 16-bit unit given by its four hexadecimal digits. -/
inductive Piece where
  | byte (b : UInt8)
  | unit (u : Nat)
deriving DecidableEq

/-- The content of a string as it is written. -/
abbrev Spelling := List Piece

/-- A unit that opens a pair. -/
def isLead (u : Nat) : Bool := 0xD800 ≤ u && u ≤ 0xDBFF

/-- A unit that closes a pair. -/
def isTrail (u : Nat) : Bool := 0xDC00 ≤ u && u ≤ 0xDFFF

/-- The character of a pair. -/
def pairChar (lead trail : Nat) : Char :=
  Char.ofNat (0x10000 + (lead - 0xD800) * 0x400 + (trail - 0xDC00))

/-- The bytes of a string, if its units are characters or pairs. -/
def Spelling.bytes? : Spelling → Option (List UInt8)
  | [] => some []
  | .byte b :: ps => (bytes? ps).map (b :: ·)
  | .unit u :: ps =>
    if isTrail u then none
    else if isLead u then
      match ps with
      | .unit v :: ps =>
        if isTrail v then (bytes? ps).map (String.utf8EncodeChar (pairChar u v) ++ ·) else none
      | _ => none
    else (bytes? ps).map (String.utf8EncodeChar (Char.ofNat u) ++ ·)

/-- The text of a string. -/
def Spelling.text? (ps : Spelling) : Option String :=
  (bytes? ps).bind Text.ofBytes?

/-- The first fault in a string that breaks off with a fault after these pieces. -/
def Spelling.faultBefore (last : Fault) : Spelling → Fault
  | [] => last
  | .byte _ :: ps => faultBefore last ps
  | .unit u :: ps =>
    if isTrail u then .malformed
    else if isLead u then
      match ps with
      | [] => last
      | .unit v :: ps => if isTrail v then faultBefore last ps else .malformed
      | _ => .malformed
    else faultBefore last ps

/-- The byte that an escape of one letter stands for. -/
def escaped? (b : UInt8) : Option UInt8 :=
  match b with
  | 0x22 => some 0x22
  | 0x5C => some 0x5C
  | 0x2F => some 0x2F
  | 0x62 => some 0x08
  | 0x66 => some 0x0C
  | 0x6E => some 0x0A
  | 0x72 => some 0x0D
  | 0x74 => some 0x09
  | _ => none

/-- The value of a hexadecimal digit. -/
def hexValue? (b : UInt8) : Option Nat :=
  if 0x30 ≤ b && b ≤ 0x39 then some (b.toNat - 0x30)
  else if 0x41 ≤ b && b ≤ 0x46 then some (b.toNat - 0x41 + 10)
  else if 0x61 ≤ b && b ≤ 0x66 then some (b.toNat - 0x61 + 10)
  else none

/-- The unit with the given four digits. -/
def unit? (a b c d : UInt8) : Option Nat := do
  let a ← hexValue? a
  let b ← hexValue? b
  let c ← hexValue? c
  let d ← hexValue? d
  return ((a * 16 + b) * 16 + c) * 16 + d

/-- How the bytes of a string end. -/
inductive Ending where
  /-- The closing quote was found; these bytes follow it. -/
  | closed (rest : List UInt8)
  /-- The string cannot be read on. -/
  | cut (fault : Fault)

/-- The string whose opening quote stands before these bytes. -/
def spell : List UInt8 → Spelling × Ending
  | [] => ([], .cut .truncated)
  | 0x22 :: rest => ([], .closed rest)
  | [0x5C] => ([], .cut .truncated)
  | 0x5C :: 0x75 :: a :: b :: c :: d :: rest =>
    match unit? a b c d with
    | some u => let (ps, ending) := spell rest; (.unit u :: ps, ending)
    | none => ([], .cut .malformed)
  | 0x5C :: 0x75 :: _ => ([], .cut .truncated)
  | 0x5C :: b :: rest =>
    match escaped? b with
    | some b => let (ps, ending) := spell rest; (.byte b :: ps, ending)
    | none => ([], .cut .malformed)
  | b :: rest =>
    if b < 0x20 then ([], .cut .malformed)
    else let (ps, ending) := spell rest; (.byte b :: ps, ending)

-- ---------------------------------------------------------------------------
-- Numerals and words
-- ---------------------------------------------------------------------------

/-- The decimal digits. -/
def isDigit (b : UInt8) : Bool := 0x30 ≤ b && b ≤ 0x39

/-- The digits at the start of the bytes. -/
def digitsOf (bs : List UInt8) : List Nat :=
  (bs.takeWhile isDigit).map fun b => b.toNat - 0x30

/-- The bytes after the digits at their start. -/
def afterDigits (bs : List UInt8) : List UInt8 :=
  bs.dropWhile isDigit

/-- The fault where a digit is missing. A reader tells the end of the bytes apart, a skipper does
not. -/
def missingDigit (bs : List UInt8) : Break :=
  if bs.isEmpty then ⟨.truncated, .malformed⟩ else .of .malformed

/-- The digits that have to stand at the start of the bytes. -/
def someDigits (bs : List UInt8) : Except Break (List Nat × List UInt8) :=
  if (digitsOf bs).isEmpty then .error (missingDigit bs) else .ok (digitsOf bs, afterDigits bs)

/-- The digits before the point: a zero stands alone. -/
def wholeDigits (bs : List UInt8) : Except Break (List Nat × List UInt8) :=
  match digitsOf bs with
  | 0 :: _ :: _ => .error (.of .malformed)
  | _ => someDigits bs

/-- The digits after the point, if there is one. -/
def fractionDigits : List UInt8 → Except Break (List Nat × List UInt8)
  | 0x2E :: rest => someDigits rest
  | bs => .ok ([], bs)

/-- The sign of an exponent. -/
def exponentSign : List UInt8 → Bool × List UInt8
  | 0x2B :: rest => (false, rest)
  | 0x2D :: rest => (true, rest)
  | bs => (false, bs)

/-- The exponent, if there is one. -/
def exponentPart : List UInt8 → Except Break (Option Int × List UInt8)
  | b :: rest =>
    if b = 0x65 ∨ b = 0x45 then do
      let (negative, rest) := exponentSign rest
      let (ds, rest) ← someDigits rest
      let value : Int := Decimal.ofDigits ds
      return (some (if negative then -value else value), rest)
    else .ok (none, b :: rest)
  | [] => .ok (none, [])

/-- The numeral at the start of the bytes, its sign apart. -/
def numeral (negative : Bool) (bs : List UInt8) : Except Break (Numeral × List UInt8) := do
  let (whole, bs) ← wholeDigits bs
  let (fraction, bs) ← fractionDigits bs
  let (exponent, bs) ← exponentPart bs
  return (⟨negative, whole, fraction, exponent⟩, bs)

/-- The bytes after a word that has to stand at the start. -/
def word : List UInt8 → List UInt8 → Except Fault (List UInt8)
  | [], bs => .ok bs
  | _ :: _, [] => .error .truncated
  | w :: ws, b :: bs => if w = b then word ws bs else .error .malformed

-- ---------------------------------------------------------------------------
-- Lexemes
-- ---------------------------------------------------------------------------

/-- The lexemes of a document. -/
inductive Lexeme where
  | openList
  | closeList
  | openObject
  | closeObject
  | comma
  | colon
  | null
  | bool (value : Bool)
  | number (value : Numeral)
  | text (value : Spelling)
  /-- A string that cannot be read to its end. -/
  | brokenText (fault : Break)
  /-- Any other lexeme that cannot be read to its end. -/
  | broken (fault : Break)
deriving DecidableEq

/-- The blanks between lexemes. -/
def isBlank (b : UInt8) : Bool :=
  b == 0x20 || b == 0x0A || b == 0x0D || b == 0x09

/-- The string after an opening quote, and the bytes that follow. -/
def textLexeme (bs : List UInt8) : Lexeme × List UInt8 :=
  match spell bs with
  | (ps, .closed rest) => (.text ps, rest)
  | (ps, .cut fault) => (.brokenText ⟨Spelling.faultBefore fault ps, fault⟩, [])

/-- The number at the start of the bytes, and the bytes that follow. -/
def numberLexeme (negative : Bool) (bs : List UInt8) : Lexeme × List UInt8 :=
  match numeral negative bs with
  | .ok (n, rest) => (.number n, rest)
  | .error fault => (.broken fault, [])

/-- A lexeme that is a word, of which the first letter has been read. -/
def wordLexeme (lexeme : Lexeme) (letters bs : List UInt8) : Lexeme × List UInt8 :=
  match word letters bs with
  | .ok rest => (lexeme, rest)
  | .error fault => (.broken (.of fault), [])

/-- The lexeme that begins with a byte, and the bytes after it. Nothing follows a lexeme that cannot
be read to its end. -/
def lexeme (b : UInt8) (bs : List UInt8) : Lexeme × List UInt8 :=
  match b with
  | 0x5B => (.openList, bs)
  | 0x5D => (.closeList, bs)
  | 0x7B => (.openObject, bs)
  | 0x7D => (.closeObject, bs)
  | 0x2C => (.comma, bs)
  | 0x3A => (.colon, bs)
  | 0x22 => textLexeme bs
  | 0x2D => numberLexeme true bs
  | 0x6E => wordLexeme .null [0x75, 0x6C, 0x6C] bs
  | 0x74 => wordLexeme (.bool true) [0x72, 0x75, 0x65] bs
  | 0x66 => wordLexeme (.bool false) [0x61, 0x6C, 0x73, 0x65] bs
  | b => if isDigit b then numberLexeme false (b :: bs) else (.broken (.of .malformed), [])

-- ---------------------------------------------------------------------------
-- A lexeme takes at least one byte
-- ---------------------------------------------------------------------------

/-- A closed string takes at least its closing quote. -/
theorem length_of_spell {bs rest : List UInt8} {ps : Spelling}
    (h : spell bs = (ps, .closed rest)) : rest.length < bs.length := by
  -- a string that is cut has nothing behind it, so only the branches that read on are left, and each takes
  -- a byte before it does
  fun_induction spell bs generalizing ps with
  | case1 => simp at h
  | case2 => simp_all
  | case3 => simp at h
  | case4 a b c d bs u hu ps' ending hs ih =>
    simp only [Prod.mk.injEq] at h
    have := ih (hs.trans (by rw [h.2]))
    simp only [List.length_cons]
    omega
  | case5 => simp at h
  | case6 => simp at h
  | case7 b bs _ _ b' he ps' ending hs ih =>
    simp only [Prod.mk.injEq] at h
    have := ih (hs.trans (by rw [h.2]))
    simp only [List.length_cons]
    omega
  | case8 => simp at h
  | case9 => simp at h
  | case10 b bs _ _ _ _ _ hb ps' ending hs ih =>
    simp only [Prod.mk.injEq] at h
    have := ih (hs.trans (by rw [h.2]))
    simp only [List.length_cons]
    omega

/-- What stands behind the digits is no longer than what stands before them. -/
theorem length_afterDigits_le (bs : List UInt8) : (afterDigits bs).length ≤ bs.length :=
  (List.dropWhile_sublist isDigit).length_le

/-- Digits that have to be there take at least one byte. -/
theorem length_of_someDigits {bs rest : List UInt8} {ds : List Nat}
    (h : someDigits bs = .ok (ds, rest)) : rest.length < bs.length := by
  unfold someDigits at h
  split at h
  · simp at h
  · next hne =>
    simp only [Except.ok.injEq, Prod.mk.injEq] at h
    obtain ⟨-, rfl⟩ := h
    -- the first byte has to be a digit, since some digit was found
    cases bs with
    | nil => simp [digitsOf] at hne
    | cons b bs =>
      by_cases hb : isDigit b = true
      · have := length_afterDigits_le bs
        simp only [afterDigits, List.dropWhile_cons, hb, if_true, List.length_cons] at *
        omega
      · simp [digitsOf, hb] at hne

/-- The digits before the point take at least one byte. -/
theorem length_of_wholeDigits {bs rest : List UInt8} {ds : List Nat}
    (h : wholeDigits bs = .ok (ds, rest)) : rest.length < bs.length := by
  unfold wholeDigits at h
  split at h
  · simp at h
  · exact length_of_someDigits h

/-- The part behind the point may be missing, so it need not take a byte. -/
theorem length_of_fractionDigits {bs rest : List UInt8} {ds : List Nat}
    (h : fractionDigits bs = .ok (ds, rest)) : rest.length ≤ bs.length := by
  unfold fractionDigits at h
  split at h
  · have := length_of_someDigits h
    simp only [List.length_cons]
    omega
  · simp only [Except.ok.injEq, Prod.mk.injEq] at h
    simp [← h.2]

/-- The sign of an exponent may be missing. -/
theorem length_exponentSign_le (bs : List UInt8) : (exponentSign bs).2.length ≤ bs.length := by
  unfold exponentSign
  split <;> simp

/-- The exponent may be missing, so it need not take a byte. -/
theorem length_of_exponentPart {bs rest : List UInt8} {e : Option Int}
    (h : exponentPart bs = .ok (e, rest)) : rest.length ≤ bs.length := by
  cases bs with
  | nil => simp_all [exponentPart]
  | cons b bs =>
    simp only [exponentPart] at h
    split at h
    · -- the letter of the exponent is taken, then a sign that may be missing, then at least one digit
      have hs := length_exponentSign_le bs
      cases hd : someDigits (exponentSign bs).2 with
      | error fault => simp [hd, bind, Except.bind] at h
      | ok r =>
        obtain ⟨ds, r⟩ := r
        have hr := length_of_someDigits hd
        simp only [hd, bind, Except.bind, pure, Except.pure, Except.ok.injEq, Prod.mk.injEq] at h
        obtain ⟨-, rfl⟩ := h
        simp only [List.length_cons]
        omega
    · simp only [Except.ok.injEq, Prod.mk.injEq] at h
      simp [← h.2]

/-- A numeral takes at least one byte: its whole part does, and the other parts give none back. -/
theorem length_of_numeral {negative : Bool} {bs rest : List UInt8} {n : Numeral}
    (h : numeral negative bs = .ok (n, rest)) : rest.length < bs.length := by
  unfold numeral at h
  cases hw : wholeDigits bs with
  | error fault => simp [hw, bind, Except.bind] at h
  | ok w =>
    obtain ⟨whole, bs₁⟩ := w
    cases hf : fractionDigits bs₁ with
    | error fault => simp [hw, hf, bind, Except.bind] at h
    | ok f =>
      obtain ⟨fraction, bs₂⟩ := f
      cases he : exponentPart bs₂ with
      | error fault => simp [hw, hf, he, bind, Except.bind] at h
      | ok e =>
        obtain ⟨exponent, bs₃⟩ := e
        have h₁ := length_of_wholeDigits hw
        have h₂ := length_of_fractionDigits hf
        have h₃ := length_of_exponentPart he
        simp only [hw, hf, he, bind, Except.bind, pure, Except.pure, Except.ok.injEq,
          Prod.mk.injEq] at h
        obtain ⟨-, rfl⟩ := h
        omega

/-- A word takes the bytes of its letters. -/
theorem length_of_word {ws bs rest : List UInt8} (h : word ws bs = .ok rest) :
    rest.length ≤ bs.length := by
  induction ws generalizing bs with
  | nil => simp_all [word]
  | cons w ws ih =>
    cases bs with
    | nil => simp [word] at h
    | cons b bs =>
      simp only [word] at h
      split at h
      · have := ih h
        simp only [List.length_cons]
        omega
      · simp at h

/-- What follows a string stands behind its opening quote; nothing follows a string that is cut. -/
theorem length_textLexeme_le (bs : List UInt8) : (textLexeme bs).2.length ≤ bs.length := by
  unfold textLexeme
  split
  · next h => exact Nat.le_of_lt (length_of_spell h)
  · simp

/-- What follows a number that begins with a digit stands behind that digit. -/
theorem length_numberLexeme_le (negative : Bool) (b : UInt8) (bs : List UInt8) :
    (numberLexeme negative (b :: bs)).2.length ≤ bs.length := by
  unfold numberLexeme
  split
  · next h =>
    exact Nat.le_of_lt_succ (length_of_numeral h)
  · simp

/-- What follows a number behind its sign is no longer than what stood behind the sign, also when nothing
did. -/
theorem length_numberLexeme_le' (negative : Bool) (bs : List UInt8) :
    (numberLexeme negative bs).2.length ≤ bs.length := by
  cases bs with
  | nil =>
    unfold numberLexeme
    split
    · next h => exact absurd (length_of_numeral h) (by simp)
    · exact Nat.le_refl _
  | cons b bs =>
    have := length_numberLexeme_le negative b bs
    rw [List.length_cons]
    omega

/-- What follows a word stands behind its first letter. -/
theorem length_wordLexeme_le (l : Lexeme) (ws bs : List UInt8) :
    (wordLexeme l ws bs).2.length ≤ bs.length := by
  unfold wordLexeme
  split
  · next h => exact length_of_word h
  · simp

/-- What follows a lexeme stands behind its first byte, so `lex` comes to an end. -/
theorem length_lexeme_le (b : UInt8) (bs : List UInt8) : (lexeme b bs).2.length ≤ bs.length := by
  unfold lexeme
  split <;>
    -- a bracket, a comma or a colon takes its one byte, the other lexemes have their own bounds
    first
    | exact Nat.le_refl _
    | exact length_textLexeme_le bs
    | exact length_numberLexeme_le' true bs
    | exact length_wordLexeme_le _ _ bs
    | skip
  -- what is left is any other byte: a digit begins a number, and the rest is broken
  split
  · exact length_numberLexeme_le false _ bs
  · simp

/-- The lexemes of the bytes. -/
def lex : List UInt8 → List Lexeme
  | [] => []
  | b :: bs =>
    if isBlank b then lex bs
    else
      let found := lexeme b bs
      found.1 :: lex found.2
termination_by bs => bs.length
decreasing_by
  · simp
  · have := length_lexeme_le b bs
    simp only [List.length_cons]
    omega

end BuildQuery.Json
