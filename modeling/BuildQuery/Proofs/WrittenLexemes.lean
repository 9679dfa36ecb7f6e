import BuildQuery.Json.Value
import BuildQuery.Proofs.Encoding

/-!
# BuildQuery — written strings and numbers as lexemes

A string is written with escapes and a number with its digits, and both are cut back into one lexeme.
The closing quote ends a string whatever follows it; a number has no end mark of its own, so what is
behind it must not go on with it (`EndsNumeral`).

Main results:

* `spell_written`, `text?_written` — a written string is spelled up to its closing quote, and the
  spelling has its text.
* `lex_integer` — a written integer is one lexeme, the numeral of its digits.
* `int?_integerNumeral` — the numeral of an integer of 64 bits is the integer.
-/

namespace BuildQuery.Json

open Text Decimal

-- ---------------------------------------------------------------------------
-- Written strings
-- ---------------------------------------------------------------------------

/-- The pieces in which a character is spelled inside a written string. -/
def charPieces (c : Char) : List Piece :=
  if c.toNat < 0x20 ∧ c ∉ ['\x08', '\x0c', '\n', '\r', '\t'] then [.unit c.toNat]
  else (String.utf8EncodeChar c).map .byte

/-- The spelling of a written string. -/
def written (s : String) : Spelling :=
  s.toList.flatMap charPieces

/-- A string goes on with more pieces. -/
def prepend (ps : List Piece) (found : Spelling × Ending) : Spelling × Ending :=
  (ps ++ found.1, found.2)

/-- A byte that stands for itself in a string. -/
def IsPlain (b : UInt8) : Prop := 0x20 ≤ b.toNat ∧ b ≠ 0x22 ∧ b ≠ 0x5C

/-- A plain byte is spelled as itself. -/
theorem spell_plain {b : UInt8} (h : IsPlain b) (bs : List UInt8) :
    spell (b :: bs) = prepend [.byte b] (spell bs) := by
  obtain ⟨hLow, hQuote, hEscape⟩ := h
  have hControl : ¬ b < 0x20 := by
    rw [UInt8.lt_iff_toNat_lt]
    exact Nat.not_lt.mpr hLow
  rw [spell]
  · rw [if_neg hControl]
    rfl
  all_goals simp_all

/-- Plain bytes are spelled as themselves. -/
theorem spell_plains {bs : List UInt8} (h : ∀ b ∈ bs, IsPlain b) (rest : List UInt8) :
    spell (bs ++ rest) = prepend (bs.map .byte) (spell rest) := by
  induction bs with
  | nil => rfl
  | cons b bs ih =>
    obtain ⟨hb, hbs⟩ := List.forall_mem_cons.mp h
    rw [List.cons_append, spell_plain hb, ih hbs]
    rfl

/-- An escape of one letter is spelled as the byte it stands for. -/
theorem spell_escape {b found : UInt8} (h : escaped? b = some found) (bs : List UInt8) :
    spell (0x5C :: b :: bs) = prepend [.byte found] (spell bs) := by
  have hUnit : b ≠ 0x75 := by
    rintro rfl
    simp [escaped?] at h
  rw [spell]
  · rw [h]
    rfl
  · simp_all
  · simp_all

/-- An escape with four digits is spelled as their unit. -/
theorem spell_unit {a b c d : UInt8} {u : Nat} (h : unit? a b c d = some u) (bs : List UInt8) :
    spell (0x5C :: 0x75 :: a :: b :: c :: d :: bs) = prepend [.unit u] (spell bs) := by
  rw [spell, h]
  rfl

/-- The units of the controls, which are written with two zeros and two more digits. -/
theorem unit?_control : ∀ n < 0x20,
    unit? 0x30 0x30 (UInt8.ofNat (hexChar (n / 16)).toNat) (UInt8.ofNat (hexChar (n % 16)).toNat) =
      some n ∧ (hexChar (n / 16)).toNat < 0x80 ∧ (hexChar (n % 16)).toNat < 0x80 := by
  decide

/-- The bytes of a character that needs no escape. -/
theorem isPlain_of_mem_encodeChar {c : Char} (hLow : 0x20 ≤ c.toNat) (hQuote : c ≠ '"')
    (hEscape : c ≠ '\\') : ∀ b ∈ String.utf8EncodeChar c, IsPlain b := by
  intro b hb
  -- a character of one byte is that byte, and all bytes of the others lie above the quote and the backslash
  by_cases hAscii : c.toNat < 0x80
  · rw [encodeChar_ascii hAscii, List.mem_singleton] at hb
    have hByte : b.toNat = c.toNat := by
      rw [hb, UInt8.toNat_ofNat', Nat.mod_eq_of_lt (by omega)]
    refine ⟨by omega, ?_, ?_⟩
    · rintro rfl
      exact hQuote (Char.toNat_inj.mp hByte.symm)
    · rintro rfl
      exact hEscape (Char.toNat_inj.mp hByte.symm)
  · have hHigh := le_of_mem_encodeChar (Nat.not_lt.mp hAscii) b hb
    refine ⟨by omega, ?_, ?_⟩
    · rintro rfl
      exact absurd hHigh (by decide)
    · rintro rfl
      exact absurd hHigh (by decide)

/-- A character is spelled by its pieces. -/
theorem spell_escapedChar (c : Char) (bs : List UInt8) :
    spell (encode (escapedChar c) ++ bs) = prepend (charPieces c) (spell bs) := by
  unfold escapedChar
  -- the seven characters with a letter of their own, then the other controls, then everything else
  split
  · exact spell_escape rfl bs
  · exact spell_escape rfl bs
  · exact spell_escape rfl bs
  · exact spell_escape rfl bs
  · exact spell_escape rfl bs
  · exact spell_escape rfl bs
  · exact spell_escape rfl bs
  next hQuote hEscape hBack hFeed hLine hReturn hTab =>
    split
    · next hControl =>
      obtain ⟨hUnit, hHigh, hLow⟩ := unit?_control c.toNat hControl
      have hPieces : charPieces c = [.unit c.toNat] := by
        refine if_pos ⟨hControl, ?_⟩
        simp only [List.mem_cons, List.not_mem_nil, or_false, not_or]
        exact ⟨hBack, hFeed, hLine, hReturn, hTab⟩
      rw [hPieces, ← spell_unit hUnit]
      simp only [encode_cons, encode_nil, encodeChar_ascii hHigh, encodeChar_ascii hLow]
      rfl
    · next hControl =>
      have hPieces : charPieces c = (String.utf8EncodeChar c).map .byte := by
        rw [charPieces, if_neg fun h => hControl h.1]
      rw [hPieces, encode_cons, encode_nil, List.append_nil]
      exact spell_plains (isPlain_of_mem_encodeChar (Nat.not_lt.mp hControl) hQuote hEscape) bs

/-- **A written string is spelled as its text, up to its closing quote.** -/
theorem spell_written (s : String) (bs : List UInt8) :
    spell (encode (s.toList.flatMap escapedChar ++ ['"']) ++ bs) = (written s, .closed bs) := by
  rw [written]
  -- on the characters; the closing quote ends the spelling
  induction s.toList with
  | nil => rfl
  | cons c cs ih =>
    rw [List.flatMap_cons, List.append_assoc, encode_append, List.append_assoc, spell_escapedChar, ih]
    rfl

-- ---------------------------------------------------------------------------
-- The text of a spelling
-- ---------------------------------------------------------------------------

/-- Bytes of a spelling are bytes of its text. -/
theorem bytes?_bytes (bs : List UInt8) (ps : Spelling) :
    Spelling.bytes? (bs.map .byte ++ ps) = (Spelling.bytes? ps).map (bs ++ ·) := by
  induction bs with
  | nil => simp
  | cons b bs ih =>
    rw [List.map_cons, List.cons_append, Spelling.bytes?, ih, Option.map_map]
    rfl

/-- The pieces of a character have the bytes of the character. -/
theorem bytes?_charPieces (c : Char) (ps : Spelling) :
    Spelling.bytes? (charPieces c ++ ps) =
      (Spelling.bytes? ps).map (String.utf8EncodeChar c ++ ·) := by
  unfold charPieces
  split
  · next h =>
    -- a control is far below the units of pairs
    have hTrail : ¬ isTrail c.toNat = true := by simp [isTrail]; omega
    have hLead : ¬ isLead c.toNat = true := by simp [isLead]; omega
    rw [List.cons_append, List.nil_append, Spelling.bytes?.eq_def]
    simp only
    rw [if_neg hTrail, if_neg hLead, Char.ofNat_toNat]
  · exact bytes?_bytes _ _

/-- **A written string has its text.** -/
theorem text?_written (s : String) : (written s).text? = some s := by
  have hBytes : (written s).bytes? = some (encode s.toList) := by
    rw [written]
    induction s.toList with
    | nil => rfl
    | cons c cs ih => rw [List.flatMap_cons, bytes?_charPieces, ih, encode_cons]; rfl
  rw [Spelling.text?, hBytes, Option.bind_some, ofBytes?_encode, String.ofList_toList]

-- ---------------------------------------------------------------------------
-- Written integers
-- ---------------------------------------------------------------------------

/-- What stands behind a numeral does not go on with it. -/
def EndsNumeral (bs : List UInt8) : Prop :=
  ∀ b ∈ bs.head?, isDigit b = false ∧ b ≠ 0x2E ∧ b ≠ 0x65 ∧ b ≠ 0x45

/-- The numeral of an integer. -/
def integerNumeral (i : Int) : Numeral where
  negative := i < 0
  whole := digits i.natAbs
  fraction := []
  exponent := none

/-- The bytes of the digits, and the digits of these bytes. -/
theorem isDigit_digitByte : ∀ d < 10,
    isDigit (UInt8.ofNat (0x30 + d)) = true ∧ (UInt8.ofNat (0x30 + d)).toNat - 0x30 = d := by
  decide

/-- Digits are encoded with one byte each. -/
theorem encode_digits {ds : List Nat} (h : ∀ d ∈ ds, d < 10) :
    encode (ds.map digitChar) = ds.map fun d => UInt8.ofNat (0x30 + d) := by
  induction ds with
  | nil => rfl
  | cons d ds ih =>
    obtain ⟨hd, hds⟩ := List.forall_mem_cons.mp h
    have hChar := toNat_digitChar d hd
    rw [List.map_cons, encode_cons, ih hds, encodeChar_ascii (by omega), hChar]
    rfl

/-- Digits are read up to where the numeral ends. -/
theorem digitsOf_written {ds : List Nat} {rest : List UInt8} (h : ∀ d ∈ ds, d < 10)
    (hRest : EndsNumeral rest) :
    digitsOf (encode (ds.map digitChar) ++ rest) = ds ∧
      afterDigits (encode (ds.map digitChar) ++ rest) = rest := by
  have hDigits : ∀ b ∈ encode (ds.map digitChar), isDigit b = true := by
    rw [encode_digits h]
    intro b hb
    obtain ⟨d, hd, rfl⟩ := List.mem_map.mp hb
    exact (isDigit_digitByte d (h d hd)).1
  -- no digit follows, so all that is left stands behind the digits
  have hEnd : rest.takeWhile isDigit = [] ∧ rest.dropWhile isDigit = rest := by
    cases rest with
    | nil => exact ⟨rfl, rfl⟩
    | cons b rest =>
      have hb := (hRest b rfl).1
      exact ⟨by simp [hb], by simp [hb]⟩
  rw [digitsOf, afterDigits, List.takeWhile_append_of_pos hDigits,
    List.dropWhile_append_of_pos hDigits, hEnd.1, hEnd.2, List.append_nil, encode_digits h,
    List.map_map]
  refine ⟨?_, rfl⟩
  exact (List.map_congr_left fun d hd => (isDigit_digitByte d (h d hd)).2).trans (List.map_id' ds)

/-- A written number is read as its digits. -/
theorem numeral_written {negative : Bool} {n : Nat} {rest : List UInt8} (hRest : EndsNumeral rest) :
    numeral negative (encode (chars n) ++ rest) = .ok (⟨negative, digits n, [], none⟩, rest) := by
  obtain ⟨hDigits, hAfter⟩ := digitsOf_written (fun d hd => lt_ten_of_mem_digits hd) hRest
  have hSome : someDigits (encode (chars n) ++ rest) = .ok (digits n, rest) := by
    rw [chars, someDigits, hDigits, hAfter, if_neg]
    simp [digits_ne_nil]
  -- only zero is written with a zero in front
  have hWhole : wholeDigits (encode (chars n) ++ rest) = .ok (digits n, rest) := by
    rw [wholeDigits, chars, hDigits]
    split
    · next h => exact absurd h digits_ne_zero_cons
    · exact hSome
  -- neither a point nor the letter of an exponent follows
  have hFraction : fractionDigits rest = .ok ([], rest) := by
    cases rest with
    | nil => rfl
    | cons b rest =>
      have hb := (hRest b rfl).2.1
      rw [fractionDigits]
      simp_all
  have hExponent : exponentPart rest = .ok (none, rest) := by
    cases rest with
    | nil => rfl
    | cons b rest =>
      obtain ⟨-, -, hLower, hUpper⟩ := hRest b rfl
      rw [exponentPart, if_neg (not_or.mpr ⟨hLower, hUpper⟩)]
  simp only [numeral, hWhole, hFraction, hExponent, bind, Except.bind, pure, Except.pure]

/-- A byte that is no blank begins a lexeme. -/
theorem lex_cons {b : UInt8} (h : isBlank b = false) (bs : List UInt8) :
    lex (b :: bs) = (lexeme b bs).1 :: lex (lexeme b bs).2 := by
  rw [lex, if_neg (by simp [h])]

/-- A number begins with a digit. -/
theorem exists_digit_of_chars (n : Nat) (rest : List UInt8) :
    ∃ b bs, encode (chars n) ++ rest = b :: bs ∧ isDigit b = true := by
  obtain ⟨d, ds, hDigits⟩ := List.exists_cons_of_ne_nil (digits_ne_nil n)
  have hd : ∀ e ∈ d :: ds, e < 10 := by
    rw [← hDigits]
    exact fun e he => lt_ten_of_mem_digits he
  refine ⟨UInt8.ofNat (0x30 + d), (ds.map fun e => UInt8.ofNat (0x30 + e)) ++ rest, ?_,
    (isDigit_digitByte d (hd d List.mem_cons_self)).1⟩
  rw [chars, hDigits, encode_digits hd]
  rfl

/-- A digit is no blank and begins a number. -/
theorem lexeme_digit {b : UInt8} (h : isDigit b = true) (bs : List UInt8) :
    isBlank b = false ∧ lexeme b bs = numberLexeme false (b :: bs) := by
  constructor
  · rw [isBlank]
    simp only [Bool.or_eq_false_iff, beq_eq_false_iff_ne]
    refine ⟨⟨⟨?_, ?_⟩, ?_⟩, ?_⟩ <;> (rintro rfl; exact absurd h (by decide))
  · unfold lexeme
    split
    case h_12 => exact if_pos h
    all_goals exact absurd h (by decide)

/-- A written integer is one lexeme. -/
theorem lex_integer (i : Int) {rest : List UInt8} (hRest : EndsNumeral rest) :
    lex (encode (intText i).toList ++ rest) = .number (integerNumeral i) :: lex rest := by
  -- the sign of a negative number begins the lexeme, otherwise the first digit does
  by_cases hNegative : i < 0
  · have hDigits : (text i.natAbs).toList = chars i.natAbs := String.toList_ofList
    have hText : encode (intText i).toList ++ rest = 0x2D :: (encode (chars i.natAbs) ++ rest) := by
      rw [intText, if_pos hNegative, String.toList_append, encode_append, hDigits]
      rfl
    rw [hText, lex_cons (by decide)]
    show (numberLexeme true _).1 :: lex (numberLexeme true _).2 = _
    rw [numberLexeme, numeral_written hRest, integerNumeral, decide_eq_true hNegative]
  · have hText : (intText i).toList = chars i.natAbs := by
      rw [intText, if_neg hNegative, text, String.toList_ofList]
    obtain ⟨b, bs, hStart, hDigit⟩ := exists_digit_of_chars i.natAbs rest
    obtain ⟨hBlank, hLexeme⟩ := lexeme_digit hDigit bs
    rw [hText, hStart, lex_cons hBlank, hLexeme, ← hStart, numberLexeme, numeral_written hRest,
      integerNumeral, decide_eq_false hNegative]

/-- **The numeral of an integer that fits 64 bits, with a sign or without one, is the integer.** -/
theorem int?_integerNumeral {i : Int} (hLow : Int64.minValue.toInt ≤ i) (hHigh : i < UInt64.size) :
    (integerNumeral i).int? = some i := by
  have hWhole : ofDigits (integerNumeral i).whole = i.natAbs := ofDigits_digits i.natAbs
  have hInteger : (integerNumeral i).isInteger = true := rfl
  -- a negative integer has a sign and its own bound
  by_cases hNegative : i < 0
  · have hSign : (integerNumeral i).negative = true := decide_eq_true hNegative
    simp only [Numeral.int?, hWhole, hInteger, hSign]
    rw [if_neg (by decide), if_neg (by decide), if_pos ⟨by omega, by omega⟩]
    exact congrArg some (by omega)
  · have hSign : (integerNumeral i).negative = false := decide_eq_false hNegative
    simp only [Numeral.int?, hWhole, hInteger, hSign]
    rw [if_neg (by decide), if_pos (by decide), if_pos (by omega)]
    exact congrArg some (by omega)

end BuildQuery.Json
