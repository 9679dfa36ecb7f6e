import BuildQuery.Proofs.Tokens
import BuildQuery.Proofs.WrittenValues

/-!
# BuildQuery — the bytes of a lexeme

The bytes that a scanner consumes are the front of its bytes, and with the same front it finds the same
lexeme, whatever stands behind. Only a number has no end of its own: what is behind its front must not go
on with it. So bytes that end with a mark and blanks can be lexed on their own, and the lexemes of more
bytes behind them follow.

Main results:

* `spell_front`, `numeral_front` — the front of a string and of a number.
* `lexeme_front` — the same for all lexemes.
* `lex_append` — bytes can be cut behind a mark.
-/

namespace BuildQuery.Json

-- ---------------------------------------------------------------------------
-- Strings and words
-- ---------------------------------------------------------------------------

/-- The front of a string ends with its closing quote. -/
theorem spell_front {bs rest : List UInt8} {ps : Spelling} (h : spell bs = (ps, .closed rest)) :
    ∃ front, bs = front ++ rest ∧ ∀ more, spell (front ++ more) = (ps, .closed more) := by
  -- on the scan of the string, which goes by an escape, a unit or a plain byte at a time
  fun_induction spell bs generalizing ps with
  | case1 => simp at h
  | case2 rest' =>
    simp only [Prod.mk.injEq, Ending.closed.injEq] at h
    obtain ⟨rfl, rfl⟩ := h
    exact ⟨[0x22], rfl, fun more => rfl⟩
  | case3 => simp at h
  | case4 a b c d bs u hUnit ps' ending hSpell ih =>
    simp only [Prod.mk.injEq] at h
    obtain ⟨rfl, rfl⟩ := h
    obtain ⟨front, rfl, hFront⟩ := ih hSpell
    refine ⟨0x5C :: 0x75 :: a :: b :: c :: d :: front, rfl, ?_⟩
    intro more
    show spell (0x5C :: 0x75 :: a :: b :: c :: d :: (front ++ more)) = _
    rw [spell_unit hUnit, hFront]
    rfl
  | case5 => simp at h
  | case6 => simp at h
  | case7 b bs _ _ b' hEscape ps' ending hSpell ih =>
    simp only [Prod.mk.injEq] at h
    obtain ⟨rfl, rfl⟩ := h
    obtain ⟨front, rfl, hFront⟩ := ih hSpell
    refine ⟨0x5C :: b :: front, rfl, ?_⟩
    intro more
    show spell (0x5C :: b :: (front ++ more)) = _
    rw [spell_escape hEscape, hFront]
    rfl
  | case8 => simp at h
  | case9 => simp at h
  | case10 b bs hQuote hAlone _ _ hEscape hControl ps' ending hSpell ih =>
    simp only [Prod.mk.injEq] at h
    obtain ⟨rfl, rfl⟩ := h
    have hPlain : IsPlain b := by
      refine ⟨?_, hQuote, ?_⟩
      · rw [UInt8.lt_iff_toNat_lt] at hControl
        exact Nat.not_lt.mp hControl
      · intro hBackslash
        cases bs with
        | nil => exact hAlone hBackslash rfl
        | cons c bs => exact hEscape c bs hBackslash rfl
    obtain ⟨front, rfl, hFront⟩ := ih hSpell
    refine ⟨b :: front, rfl, ?_⟩
    intro more
    rw [List.cons_append, spell_plain hPlain, hFront]
    rfl

/-- The front of a word is the word. -/
theorem word_ok_iff {ws bs rest : List UInt8} : word ws bs = .ok rest ↔ bs = ws ++ rest := by
  induction ws generalizing bs with
  | nil => exact ⟨Except.ok.inj, congrArg Except.ok⟩
  | cons w ws ih =>
    cases bs with
    | nil => constructor <;> rintro ⟨⟩
    | cons b bs =>
      rw [word, List.cons_append, List.cons.injEq]
      by_cases hLetter : w = b
      · rw [if_pos hLetter, ih, and_iff_right hLetter.symm]
      · rw [if_neg hLetter]
        constructor
        · rintro ⟨⟩
        · exact fun h => absurd h.1.symm hLetter

-- ---------------------------------------------------------------------------
-- Numbers
-- ---------------------------------------------------------------------------

/-- The bytes do not begin with a digit. -/
def NoDigit (bs : List UInt8) : Prop :=
  ∀ b ∈ bs.head?, isDigit b = false

theorem EndsNumeral.noDigit {bs : List UInt8} (h : EndsNumeral bs) : NoDigit bs :=
  fun b hb => (h b hb).1

/-- Behind all digits there is no digit. -/
theorem noDigit_dropWhile (bs : List UInt8) : NoDigit (bs.dropWhile isDigit) := by
  intro b hb
  have hHead := List.head?_dropWhile_not isDigit bs
  rw [Option.mem_def.mp hb] at hHead
  simpa using hHead

/-- Bytes whose head is one of the front's or one of the others'. -/
theorem head?_append_cases {P : UInt8 → Prop} {front more : List UInt8}
    (hFront : ∀ b ∈ front.head?, P b) (hMore : ∀ b ∈ more.head?, P b) :
    ∀ b ∈ (front ++ more).head?, P b := by
  cases front with
  | nil => exact hMore
  | cons b front => exact hFront

/-- The front of some digits is the digits. -/
theorem someDigits_front {bs rest : List UInt8} {ds : List Nat} (h : someDigits bs = .ok (ds, rest)) :
    ∃ front, bs = front ++ rest ∧ NoDigit rest ∧ (∃ b ∈ front.head?, isDigit b = true) ∧
      ∀ more, NoDigit more →
        digitsOf (front ++ more) = digitsOf bs ∧ someDigits (front ++ more) = .ok (ds, more) := by
  unfold someDigits at h
  split at h
  · cases h
  · next hSome =>
    cases h
    have hDigits : ∀ b ∈ bs.takeWhile isDigit, isDigit b = true := fun b => List.mem_takeWhile_imp
    have hFirst : ∃ b ∈ (bs.takeWhile isDigit).head?, isDigit b = true := by
      cases hFront : bs.takeWhile isDigit with
      | nil => simp [digitsOf, hFront] at hSome
      | cons b front =>
        rw [hFront] at hDigits
        exact ⟨b, rfl, hDigits b List.mem_cons_self⟩
    refine ⟨bs.takeWhile isDigit, List.takeWhile_append_dropWhile.symm, noDigit_dropWhile bs,
      hFirst, ?_⟩
    intro more hMore
    have hEnd : more.takeWhile isDigit = [] ∧ more.dropWhile isDigit = more := by
      cases more with
      | nil => exact ⟨rfl, rfl⟩
      | cons b more =>
        have hb := hMore b rfl
        exact ⟨by simp [hb], by simp [hb]⟩
    have hSame : digitsOf (bs.takeWhile isDigit ++ more) = digitsOf bs := by
      rw [digitsOf, List.takeWhile_append_of_pos hDigits, hEnd.1, List.append_nil, digitsOf]
    have hAfter : afterDigits (bs.takeWhile isDigit ++ more) = more := by
      rw [afterDigits, List.dropWhile_append_of_pos hDigits, hEnd.2]
    refine ⟨hSame, ?_⟩
    rw [someDigits, hSame, hAfter, if_neg hSome]

/-- The front of the digits before the point. A zero with digits behind it is no such front. -/
theorem wholeDigits_front {bs rest : List UInt8} {ds : List Nat} (h : wholeDigits bs = .ok (ds, rest)) :
    ∃ front, bs = front ++ rest ∧ NoDigit rest ∧
      ∀ more, NoDigit more → wholeDigits (front ++ more) = .ok (ds, more) := by
  unfold wholeDigits at h
  split at h
  · cases h
  · next hZero =>
    obtain ⟨front, hBytes, hRest, -, hFront⟩ := someDigits_front h
    refine ⟨front, hBytes, hRest, ?_⟩
    intro more hMore
    obtain ⟨hSame, hDigits⟩ := hFront more hMore
    rw [wholeDigits, hSame]
    split
    · next d ds' hLeading => exact absurd hLeading (hZero d ds')
    · exact hDigits

/-- The front of a fraction is empty or begins with the point. -/
theorem fractionDigits_front {bs rest : List UInt8} {ds : List Nat}
    (h : fractionDigits bs = .ok (ds, rest)) (hBytes : NoDigit bs) :
    ∃ front, bs = front ++ rest ∧ NoDigit rest ∧ (∀ b ∈ front.head?, b = 0x2E) ∧
      ∀ more, NoDigit more → (∀ b ∈ more.head?, b ≠ 0x2E) →
        fractionDigits (front ++ more) = .ok (ds, more) := by
  unfold fractionDigits at h
  split at h
  · next bs =>
    obtain ⟨front, rfl, hRest, -, hFront⟩ := someDigits_front h
    refine ⟨0x2E :: front, rfl, hRest, ?_, ?_⟩
    · rintro b ⟨⟩
      rfl
    · exact fun more hMore _ => (hFront more hMore).2
  · cases h
    refine ⟨[], rfl, hBytes, nofun, ?_⟩
    intro more _ hPoint
    rw [List.nil_append, fractionDigits]
    rintro rest rfl
    exact hPoint 0x2E rfl rfl

/-- In front of a digit, a sign is the same sign, and none is none. -/
theorem exponentSign_front (bs : List UInt8) :
    ∃ front, bs = front ++ (exponentSign bs).2 ∧
      ∀ more, (∃ b ∈ more.head?, isDigit b = true) →
        exponentSign (front ++ more) = ((exponentSign bs).1, more) := by
  unfold exponentSign
  split
  · exact ⟨[0x2B], rfl, fun more _ => rfl⟩
  · exact ⟨[0x2D], rfl, fun more _ => rfl⟩
  · refine ⟨[], rfl, ?_⟩
    rintro more ⟨b, hHead, hDigit⟩
    refine exponentSign.eq_3 more ?_ ?_
    all_goals
      rintro rest rfl
      cases hHead
      exact absurd hDigit (by decide)

/-- The front of an exponent is empty or begins with its letter. -/
theorem exponentPart_front {bs rest : List UInt8} {e : Option Int}
    (h : exponentPart bs = .ok (e, rest)) (hBytes : NoDigit bs) :
    ∃ front, bs = front ++ rest ∧ NoDigit rest ∧ (∀ b ∈ front.head?, b = 0x65 ∨ b = 0x45) ∧
      ∀ more, EndsNumeral more → exponentPart (front ++ more) = .ok (e, more) := by
  have hNone : ∀ more, EndsNumeral more → exponentPart more = .ok (none, more) := by
    intro more hMore
    cases more with
    | nil => rfl
    | cons b more =>
      obtain ⟨-, -, hLower, hUpper⟩ := hMore b rfl
      rw [exponentPart, if_neg (not_or.mpr ⟨hLower, hUpper⟩)]
  cases bs with
  | nil =>
    cases h
    refine ⟨[], rfl, ?_, ?_, hNone⟩ <;> rintro _ ⟨⟩
  | cons b bs =>
    rw [exponentPart] at h
    split at h
    · next hLetter =>
      obtain ⟨sign, hSigned, hSign⟩ := exponentSign_front bs
      rcases hSplit : exponentSign bs with ⟨negative, signed⟩
      rw [hSplit] at h hSigned hSign
      obtain ⟨⟨ds, rest'⟩, hDigits, hDone⟩ := bind_eq_ok.mp h
      cases hDone
      obtain ⟨front, rfl, hRest, ⟨c, hHead, hDigit⟩, hFront⟩ := someDigits_front hDigits
      refine ⟨b :: (sign ++ front), ?_, hRest, ?_, ?_⟩
      · rw [List.cons_append, List.append_assoc]
        exact congrArg (b :: ·) hSigned
      · rintro _ ⟨⟩
        exact hLetter
      · intro more hMore
        have hStart : ∃ d ∈ (front ++ more).head?, isDigit d = true := by
          refine ⟨c, ?_, hDigit⟩
          rw [List.head?_append, Option.mem_def.mp hHead]
          rfl
        rw [List.cons_append, List.append_assoc, exponentPart, if_pos hLetter, hSign _ hStart]
        show (someDigits (front ++ more) >>= _) = _
        rw [(hFront more hMore.noDigit).2]
        rfl
    · cases h
      refine ⟨[], rfl, hBytes, ?_, hNone⟩
      rintro _ ⟨⟩

/-- The front of a number, behind which it must not go on. -/
theorem numeral_front {negative : Bool} {bs rest : List UInt8} {n : Numeral}
    (h : numeral negative bs = .ok (n, rest)) :
    ∃ front, bs = front ++ rest ∧ NoDigit rest ∧
      ∀ more, EndsNumeral more → numeral negative (front ++ more) = .ok (n, more) := by
  obtain ⟨⟨whole, bs₁⟩, hWhole, h⟩ := bind_eq_ok.mp h
  obtain ⟨⟨fraction, bs₂⟩, hFraction, h⟩ := bind_eq_ok.mp h
  obtain ⟨⟨exponent, bs₃⟩, hExponent, h⟩ := bind_eq_ok.mp h
  cases h
  obtain ⟨front₁, rfl, hRest₁, hFront₁⟩ := wholeDigits_front hWhole
  obtain ⟨front₂, rfl, hRest₂, hPoint, hFront₂⟩ := fractionDigits_front hFraction hRest₁
  obtain ⟨front₃, rfl, hRest₃, hLetter, hFront₃⟩ := exponentPart_front hExponent hRest₂
  refine ⟨front₁ ++ (front₂ ++ front₃), by simp only [List.append_assoc], hRest₃, ?_⟩
  intro more hMore
  -- what stands behind a part is the letter of the next part, or what stands behind all
  have hBehind₂ : NoDigit (front₃ ++ more) ∧ ∀ b ∈ (front₃ ++ more).head?, b ≠ 0x2E := by
    refine ⟨head?_append_cases ?_ hMore.noDigit, head?_append_cases ?_ fun b hb => (hMore b hb).2.1⟩
    all_goals
      intro b hb
      rcases hLetter b hb with rfl | rfl <;> decide
  have hBehind₁ : NoDigit (front₂ ++ (front₃ ++ more)) := by
    refine head?_append_cases ?_ hBehind₂.1
    intro b hb
    rw [hPoint b hb]
    decide
  rw [List.append_assoc, List.append_assoc, numeral, hFront₁ _ hBehind₁]
  show (fractionDigits (front₂ ++ (front₃ ++ more)) >>= _) = _
  rw [hFront₂ _ hBehind₂.1 hBehind₂.2]
  show (exponentPart (front₃ ++ more) >>= _) = _
  rw [hFront₃ _ hMore]
  rfl

-- ---------------------------------------------------------------------------
-- Lexemes
-- ---------------------------------------------------------------------------

/-- A lexeme that has been read to its end. -/
def Lexeme.sound : Lexeme → Bool
  | .brokenText _ | .broken _ => false
  | _ => true

/-- A lexeme that has its end in itself. A number ends where no digit follows, and what is broken has no
end. -/
def Lexeme.closed : Lexeme → Bool
  | .number _ | .brokenText _ | .broken _ => false
  | _ => true

theorem Lexeme.sound_of_closed {l : Lexeme} (h : l.closed = true) : l.sound = true := by
  cases l <;> first | rfl | cases h

/-- The lexeme has an end in the bytes. What is broken leaves nothing behind it. -/
def HasEnd (found : Lexeme × List UInt8) : Prop :=
  found.1.sound = true ∨ found.2 ≠ []

/-- The lexeme is found with any bytes behind its front with which it does not go on. -/
def HasFront (scan : List UInt8 → Lexeme × List UInt8) (bs : List UInt8) : Prop :=
  ∃ front, bs = front ++ (scan bs).2 ∧ ((scan bs).1.closed = true ∨ NoDigit (scan bs).2) ∧
    ∀ more, ((scan bs).1.closed = true ∨ EndsNumeral more) → scan (front ++ more) = ((scan bs).1, more)

theorem not_hasEnd_broken (fault : Break) : ¬ HasEnd (.broken fault, []) := by
  rintro (hSound | hRest)
  · cases hSound
  · exact hRest rfl

/-- A string ends with its closing quote, so anything can follow. -/
theorem textLexeme_front {bs : List UInt8} (h : HasEnd (textLexeme bs)) : HasFront textLexeme bs := by
  cases hSpell : spell bs with
  | mk ps ending =>
    cases ending with
    | closed rest =>
      obtain ⟨front, rfl, hFront⟩ := spell_front hSpell
      have hFound (more : List UInt8) : textLexeme (front ++ more) = (.text ps, more) := by
        rw [textLexeme, hFront]
      rw [HasFront, hFound]
      exact ⟨front, rfl, Or.inl rfl, fun more _ => hFound more⟩
    | cut fault =>
      rw [textLexeme, hSpell] at h
      rcases h with hSound | hRest
      · cases hSound
      · exact absurd rfl hRest

/-- A number is found again in front of all that does not go on with it. -/
theorem numberLexeme_front {negative : Bool} {bs : List UInt8} (h : HasEnd (numberLexeme negative bs)) :
    HasFront (numberLexeme negative) bs := by
  cases hNumeral : numeral negative bs with
  | ok found =>
    obtain ⟨n, rest⟩ := found
    have hFound : numberLexeme negative bs = (.number n, rest) := by rw [numberLexeme, hNumeral]
    obtain ⟨front, hBytes, hRest, hFront⟩ := numeral_front hNumeral
    rw [HasFront, hFound]
    refine ⟨front, hBytes, Or.inr hRest, ?_⟩
    rintro more (hClosed | hMore)
    · cases hClosed
    · rw [numberLexeme, hFront more hMore]
  | error fault =>
    rw [numberLexeme, hNumeral] at h
    exact absurd h (not_hasEnd_broken fault)

/-- The first digit of a number without a sign has been read. -/
theorem digit_front {b : UInt8} {bs : List UInt8} (h : HasEnd (numberLexeme false (b :: bs))) :
    HasFront (fun bs => numberLexeme false (b :: bs)) bs := by
  obtain ⟨front, hBytes, hRest, hFront⟩ := numberLexeme_front h
  cases front with
  | nil =>
    have hShorter := length_numberLexeme_le false b bs
    rw [List.nil_append] at hBytes
    rw [← hBytes, List.length_cons] at hShorter
    omega
  | cons c front =>
    obtain ⟨rfl, hLater⟩ := List.cons.inj hBytes
    exact ⟨front, hLater, hRest, hFront⟩

/-- A word ends with its last letter. -/
theorem wordLexeme_front {l : Lexeme} {ws bs : List UInt8} (hClosed : l.closed = true)
    (h : HasEnd (wordLexeme l ws bs)) : HasFront (wordLexeme l ws) bs := by
  cases hWord : word ws bs with
  | ok rest =>
    obtain rfl := word_ok_iff.mp hWord
    have hFound (more : List UInt8) : wordLexeme l ws (ws ++ more) = (l, more) := by
      rw [wordLexeme, word_ok_iff.mpr rfl]
    rw [HasFront, hFound]
    exact ⟨ws, rfl, Or.inl hClosed, fun more _ => hFound more⟩
  | error fault =>
    rw [wordLexeme, hWord] at h
    exact absurd h (not_hasEnd_broken _)

/-- **The front of a lexeme.** -/
theorem lexeme_front {b : UInt8} {bs : List UInt8} (h : HasEnd (lexeme b bs)) :
    HasFront (lexeme b) bs := by
  unfold lexeme at h ⊢
  split at h
  case h_7 => exact textLexeme_front h
  case h_8 => exact numberLexeme_front h
  case h_9 | h_10 | h_11 => exact wordLexeme_front rfl h
  case h_12 =>
    split at h
    · next hDigit =>
      simp only [if_pos hDigit]
      exact digit_front h
    · exact absurd h (not_hasEnd_broken _)
  -- what is left are the marks of one byte
  all_goals exact ⟨[], rfl, Or.inl rfl, fun _ _ => rfl⟩

/-- What stands behind a number and does not go on with it, or is broken and is the end. -/
theorem endsNumeral_of_noDigit {rest : List UInt8} (hRest : NoDigit rest)
    (hLast : ∀ l ∈ (lex rest).getLast?, l.closed = true) : EndsNumeral rest := by
  have hBroken {b : UInt8} {bs : List UInt8} {fault : Break} (hBlank : isBlank b = false)
      (hLexeme : lexeme b bs = (.broken fault, [])) : (lex (b :: bs)).getLast? = some (.broken fault) := by
    rw [lex_cons hBlank, hLexeme, lex]
    rfl
  rintro b hb
  obtain ⟨bs, rfl⟩ : ∃ bs, rest = b :: bs := List.head?_eq_some_iff.mp hb
  refine ⟨hRest b rfl, ?_, ?_, ?_⟩
  all_goals
    rintro rfl
    cases hLast _ (hBroken (by decide) rfl)

/-- **Bytes can be cut behind a lexeme that has its end in itself.** -/
theorem lex_append {bs : List UInt8} (h : ∀ l ∈ (lex bs).getLast?, l.closed = true)
    (more : List UInt8) : lex (bs ++ more) = lex bs ++ lex more := by
  -- On the bytes that are cut off. A blank goes by; a lexeme leaves what is behind it.
  fun_induction lex bs with
  | case1 => rfl
  | case2 b bs hBlank ih =>
    rw [List.cons_append, lex, if_pos hBlank]
    exact ih h
  | case3 b bs hBlank found ih =>
    have hLater : ∀ l ∈ (lex found.2).getLast?, l.closed = true := by
      intro l hl
      refine h l ?_
      rw [List.getLast?_cons, Option.mem_def.mp hl]
      rfl
    have hAlone (hNone : found.2 = []) : found.1.closed = true := by
      refine h found.1 ?_
      rw [hNone, lex]
      rfl
    -- a lexeme that leaves nothing is the last one, and only the last one has to be closed
    have hEnd : HasEnd found := by
      by_cases hNone : found.2 = []
      · exact Or.inl (Lexeme.sound_of_closed (hAlone hNone))
      · exact Or.inr hNone
    obtain ⟨front, hBytes, hBehind, hFront⟩ := lexeme_front hEnd
    -- a number in front of other lexemes ends before them; a last number is excluded
    have hMore : found.1.closed = true ∨ EndsNumeral (found.2 ++ more) := by
      by_cases hNone : found.2 = []
      · exact Or.inl (hAlone hNone)
      · refine hBehind.imp_right ?_
        intro hNoDigit b hb
        obtain ⟨c, cs, hRest⟩ := List.exists_cons_of_ne_nil hNone
        refine endsNumeral_of_noDigit hNoDigit hLater b ?_
        rw [hRest] at hb ⊢
        exact hb
    have hFound : lexeme b (bs ++ more) = (found.1, found.2 ++ more) := by
      conv_lhs => rw [hBytes, List.append_assoc]
      exact hFront _ hMore
    rw [List.cons_append, lex, if_neg hBlank, hFound]
    show found.1 :: lex (found.2 ++ more) = _
    rw [ih hLater]
    rfl

end BuildQuery.Json
