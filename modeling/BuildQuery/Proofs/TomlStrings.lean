import BuildQuery.Toml.Text
import Mathlib.Data.List.Basic

/-!
# BuildQuery — written strings of a settings file

Whatever text a string has, the spelling that is chosen for it is read as that text, up to the closing
quotes and not further, as long as the line ends behind them. With double quotes this holds for every
text, because what cannot stand for itself is escaped. With single quotes nothing is escaped, and they
are chosen only for texts that can do without (`hasOther`, `hasThree`).

A text may end with quotes next to the closing ones. No three quotes of the text stand in a row, so at
most five stand in a row at the end, and a reader that looks ahead this far can tell which are the
closing ones.

Main results:

* `quotedRest_quotedChars`, `longQuotedRest_longQuotedChars` — the spellings with double quotes.
* `plainRest_append`, `longPlainRest_append` — the spellings with single quotes.
* `text?_literalChars` — the spelling that is chosen.
-/

namespace BuildQuery.Toml

-- ---------------------------------------------------------------------------
-- Escapes
-- ---------------------------------------------------------------------------

/-- A character in front of what has been found. -/
theorem Found.cons_some (c : Char) (cs rest : List Char) :
    Found.cons c (some (cs, rest)) = some (c :: cs, rest) := rfl

/-- How a character is written between double quotes, apart from quotes and line breaks. -/
inductive EscapedAs (c : Char) : List Char → Prop
  | itself : c ≠ '\\' → c ≠ '\r' → isControl c = false → EscapedAs c [c]
  | letter {e : Char} : escaped? e = some c → EscapedAs c ['\\', e]
  | unit {a b : Char} : codePoint? ['0', '0', a, b] = some c → EscapedAs c ['\\', 'u', '0', '0', a, b]

/-- The two digits of a unit below 128 are read as that unit. -/
theorem codePoint?_control : ∀ n < 0x80,
    codePoint? ['0', '0', hexDigit (n / 16), hexDigit (n % 16)] = some (Char.ofNat n) := by
  decide

/-- The control characters lie below 128, so four digits with two zeros are enough for them. -/
theorem toNat_lt_of_isControl {c : Char} (h : isControl c = true) : c.toNat < 0x80 := by
  simp only [isControl, Bool.or_eq_true, Bool.and_eq_true, decide_eq_true_eq, beq_iff_eq] at h
  omega

/-- Every other character has a writing. -/
theorem escapedAs (c : Char) : EscapedAs c ((escapeOf? c).getD [c]) := by
  unfold escapeOf?
  -- the five characters with a letter of their own come first, then the other controls
  split
  · exact .letter rfl
  · exact .letter rfl
  · exact .letter rfl
  · exact .letter rfl
  · exact .letter rfl
  next hBack hTab hFeed hReturn hSlash =>
    split
    · next hControl =>
      refine .unit ?_
      rw [codePoint?_control c.toNat (toNat_lt_of_isControl hControl), Char.ofNat_toNat]
    · next hPlain =>
      exact .itself hSlash hReturn (Bool.not_eq_true _ ▸ hPlain)

/-- Of the marks that a reader looks ahead for, only the character itself is written. -/
theorem exists_escaped (c : Char) (rest : List Char) :
    ∃ d ds, (escapeOf? c).getD [c] ++ rest = d :: ds ∧ d ≠ '\r' ∧ (c ≠ '"' → d ≠ '"') ∧
      (c ≠ '\n' → d ≠ '\n') := by
  generalize hChars : (escapeOf? c).getD [c] = ds
  have hEscaped : EscapedAs c ds := hChars ▸ escapedAs c
  cases hEscaped with
  | itself _ hReturn => exact ⟨c, _, rfl, hReturn, id, id⟩
  | letter => exact ⟨'\\', _, rfl, by decide, fun _ => by decide, fun _ => by decide⟩
  | unit => exact ⟨'\\', _, rfl, by decide, fun _ => by decide, fun _ => by decide⟩

/-- The letters of escapes are not those of units. -/
theorem ne_of_escaped? {e c : Char} (h : escaped? e = some c) : e ≠ 'u' ∧ e ≠ 'U' := by
  constructor
  · rintro rfl
    cases h
  · rintro rfl
    cases h

-- ---------------------------------------------------------------------------
-- One double quote
-- ---------------------------------------------------------------------------

/-- An escape of one letter is read as the character it stands for. -/
theorem quotedRest_letter {e c : Char} (h : escaped? e = some c) (cs : List Char) :
    quotedRest ('\\' :: e :: cs) = (quotedRest cs).cons c := by
  obtain ⟨hUnit, hLong⟩ := ne_of_escaped? h
  rw [quotedRest, h]
  · rfl
  · -- the reader tries units first, and no letter opens one
    exact fun _ _ _ _ _ hEq => absurd hEq hUnit
  · exact fun _ _ _ _ _ _ _ _ _ hEq => absurd hEq hLong

/-- A character that is no quote is read from each of its writings. -/
theorem quotedRest_escapedAs {c : Char} {ds : List Char} (h : EscapedAs c ds) (hQuote : c ≠ '"')
    (rest : List Char) : quotedRest (ds ++ rest) = (quotedRest rest).cons c := by
  cases h with
  | itself hSlash hReturn hPlain =>
    show quotedRest (c :: rest) = _
    rw [quotedRest.eq_6 c rest hQuote (fun _ _ _ _ _ hEq => absurd hEq hSlash)
      (fun _ _ _ _ _ _ _ _ _ hEq => absurd hEq hSlash) (fun _ _ hEq => absurd hEq hSlash), hPlain]
    rfl
  | letter hLetter => exact quotedRest_letter hLetter rest
  | unit hUnit =>
    show quotedRest ('\\' :: 'u' :: '0' :: '0' :: _ :: _ :: rest) = _
    rw [quotedRest, hUnit]
    rfl

/-- **A text between double quotes is read up to the closing quote.** -/
theorem quotedRest_quotedChars (cs rest : List Char) :
    quotedRest (quotedChars cs ++ '"' :: rest) = some (cs, rest) := by
  -- quotes and line breaks have writings of their own, all other characters the one of EscapedAs
  induction cs using quotedChars.induct with
  | case1 => rfl
  | case2 cs ih =>
    show quotedRest ('\\' :: '"' :: (quotedChars cs ++ '"' :: rest)) = _
    rw [quotedRest_letter rfl, ih, Found.cons_some]
  | case3 cs ih =>
    show quotedRest ('\\' :: 'n' :: (quotedChars cs ++ '"' :: rest)) = _
    rw [quotedRest_letter rfl, ih, Found.cons_some]
  | case4 c cs hQuote hBreak ih =>
    rw [quotedChars.eq_4 c cs hQuote hBreak, List.append_assoc,
      quotedRest_escapedAs (escapedAs c) hQuote, ih, Found.cons_some]

-- ---------------------------------------------------------------------------
-- One single quote
-- ---------------------------------------------------------------------------

/-- **A text between single quotes is read up to the closing quote.** -/
theorem plainRest_append {cs : List Char} (hPlain : ∀ c ∈ cs, c ≠ '\'' ∧ isControl c = false)
    (rest : List Char) : plainRest (cs ++ '\'' :: rest) = some (cs, rest) := by
  induction cs with
  | nil => rfl
  | cons c cs ih =>
    obtain ⟨⟨hQuote, hControl⟩, hRest⟩ := List.forall_mem_cons.mp hPlain
    rw [List.cons_append, plainRest.eq_3 _ _ hQuote, hControl, ih hRest]
    rfl

-- ---------------------------------------------------------------------------
-- Three double quotes
-- ---------------------------------------------------------------------------

/-- Between three quotes an escape of one letter is read as well, since it joins no lines. -/
theorem longQuotedRest_letter {e c : Char} (h : escaped? e = some c) (cs : List Char) :
    longQuotedRest false ('\\' :: e :: cs) = (longQuotedRest false cs).cons c := by
  obtain ⟨hUnit, hLong⟩ := ne_of_escaped? h
  have hJoins : joinsLines (e :: cs) = false := by
    unfold escaped? at h
    split at h <;> first | rfl | cases h
  rw [longQuotedRest, hJoins, h]
  · rfl
  · exact fun _ _ _ _ _ hEq => absurd hEq hUnit
  · exact fun _ _ _ _ _ _ _ _ _ hEq => absurd hEq hLong

/-- Between three quotes a character that is no mark stands for itself. -/
theorem longQuotedRest_itself {c : Char} (hQuote : c ≠ '"') (hBreak : c ≠ '\n') (hSlash : c ≠ '\\')
    (hReturn : c ≠ '\r') (hPlain : isControl c = false) (cs : List Char) :
    longQuotedRest false (c :: cs) = (longQuotedRest false cs).cons c := by
  rw [longQuotedRest.eq_11 false c cs (fun _ hEq => absurd hEq hQuote)
    (fun _ hEq => absurd hEq hQuote) (fun _ hEq => absurd hEq hQuote) hQuote
    (fun _ _ _ _ _ hEq => absurd hEq hSlash) (fun _ _ _ _ _ _ _ _ _ hEq => absurd hEq hSlash)
    (fun _ _ hEq => absurd hEq hSlash) (fun _ hEq => absurd hEq hReturn) hBreak, hPlain]
  split <;> rfl

/-- Between three quotes a character that is no quote and no line break is read from each of its writings.
-/
theorem longQuotedRest_escapedAs {c : Char} {ds : List Char} (h : EscapedAs c ds) (hQuote : c ≠ '"')
    (hBreak : c ≠ '\n') (rest : List Char) :
    longQuotedRest false (ds ++ rest) = (longQuotedRest false rest).cons c := by
  cases h with
  | itself hSlash hReturn hPlain =>
    exact longQuotedRest_itself hQuote hBreak hSlash hReturn hPlain rest
  | letter hLetter => exact longQuotedRest_letter hLetter rest
  | unit hUnit =>
    show longQuotedRest false ('\\' :: 'u' :: '0' :: '0' :: _ :: _ :: rest) = _
    rw [longQuotedRest, hUnit]
    rfl

/-- A quote that two others do not follow is one of the text. -/
theorem longQuotedRest_quote {cs : List Char} (h : ∀ ds, cs ≠ '"' :: '"' :: ds) :
    longQuotedRest false ('"' :: cs) = (longQuotedRest false cs).cons '"' :=
  longQuotedRest.eq_5 false cs (fun _ hEq => h _ hEq) (fun _ hEq => h _ hEq) (fun _ hEq => h _ hEq)

/-- After two quotes, or in front of another character, no quote is written. -/
theorem exists_longQuotedChars {quotes : Nat} {c : Char} (h : quotes = 2 ∨ c ≠ '"') (cs : List Char) :
    ∃ d ds, longQuotedChars quotes (c :: cs) = d :: ds ∧ d ≠ '"' := by
  by_cases hQuote : c = '"'
  · obtain rfl : quotes = 2 := h.resolve_right (not_not_intro hQuote)
    rw [hQuote]
    exact ⟨'\\', _, rfl, by decide⟩
  by_cases hBreak : c = '\n'
  · rw [hBreak]
    exact ⟨'\n', _, rfl, by decide⟩
  rw [longQuotedChars.eq_4 quotes c cs hQuote hBreak]
  obtain ⟨d, ds, hChars, -, hOther, -⟩ := exists_escaped c (longQuotedChars 0 cs)
  exact ⟨d, ds, hChars, hOther hQuote⟩

/-- **A text between three double quotes is read up to the closing quotes**, whatever quotes of the text
stand before. -/
theorem longQuotedRest_longQuotedChars {quotes : Nat} (hQuotes : quotes ≤ 2) (cs rest : List Char) :
    longQuotedRest false (longQuotedChars quotes cs ++ '"' :: '"' :: '"' :: '\n' :: rest) =
      some (cs, '\n' :: rest) := by
  -- on the text, with the number of quotes just written: a third one in a row is escaped
  induction quotes, cs using longQuotedChars.induct with
  | case1 quotes => rfl
  | case2 cs ih =>
    show longQuotedRest false ('\\' :: '"' :: (longQuotedChars 0 cs ++ _)) = _
    rw [longQuotedRest_letter rfl, ih (Nat.zero_le 2), Found.cons_some]
  | case3 quotes cs hNot ih =>
    have hRest := ih (by omega)
    rw [longQuotedChars, if_neg hNot, List.cons_append]
    cases cs with
    | nil => rfl
    | cons c cs =>
      -- a quote is one of the text when what is written next is no quote, or the one after it is none
      by_cases hHead : quotes + 1 = 2 ∨ c ≠ '"'
      · obtain ⟨d, ds, hChars, hOther⟩ := exists_longQuotedChars hHead cs
        rw [longQuotedRest_quote, hRest, Found.cons_some]
        rw [hChars]
        exact fun _ hEq => hOther (List.cons.inj hEq).1
      -- the first of two quotes of the text
      · obtain ⟨hFirst, hQuote⟩ := not_or.mp hHead
        obtain rfl : c = '"' := not_not.mp hQuote
        obtain rfl : quotes = 0 := by omega
        cases cs with
        | nil => rfl
        | cons e cs =>
          obtain ⟨d, ds, hChars, hOther⟩ := exists_longQuotedChars (c := e) (.inl rfl) cs
          rw [longQuotedRest_quote, hRest, Found.cons_some]
          show ∀ _, '"' :: (longQuotedChars 2 (e :: cs) ++ _) ≠ _
          rw [hChars]
          exact fun _ hEq => hOther (List.cons.inj (List.cons.inj hEq).2).1
  | case4 quotes cs ih =>
    show longQuotedRest false ('\n' :: (longQuotedChars 0 cs ++ _)) = _
    rw [longQuotedRest, ih (Nat.zero_le 2)]
    rfl
  | case5 quotes c cs hQuote hBreak ih =>
    rw [longQuotedChars.eq_4 quotes c cs hQuote hBreak, List.append_assoc,
      longQuotedRest_escapedAs (escapedAs c) hQuote hBreak, ih (Nat.zero_le 2), Found.cons_some]

-- ---------------------------------------------------------------------------
-- Three single quotes
-- ---------------------------------------------------------------------------

/-- A single quote that two others do not follow is one of the text. -/
theorem longPlainRest_quote {cs : List Char} (h : ∀ ds, cs ≠ '\'' :: '\'' :: ds) :
    longPlainRest ('\'' :: cs) = (longPlainRest cs).cons '\'' := by
  rw [longPlainRest.eq_7 '\'' cs (fun _ _ hEq => h _ hEq) (fun _ _ hEq => h _ hEq)
    (fun _ _ hEq => h _ hEq) (fun _ hEq => absurd hEq (by decide)) (by decide)]
  rfl

/-- **A text between three single quotes is read up to the closing quotes**, if three quotes do not
stand in it and no other control than line breaks and tabs. -/
theorem longPlainRest_append {cs : List Char} (hThree : hasThree '\'' cs = false)
    (hOther : hasOther cs = false) (rest : List Char) :
    longPlainRest (cs ++ '\'' :: '\'' :: '\'' :: '\n' :: rest) = some (cs, '\n' :: rest) := by
  induction cs with
  | nil => rfl
  | cons c cs ih =>
    rw [hasThree, Bool.or_eq_false_iff] at hThree
    rw [hasOther, List.any_cons, Bool.or_eq_false_iff] at hOther
    have hRest := ih hThree.2 hOther.2
    -- a quote of the text is followed by at most one more, so the closing three are not met too early
    by_cases hQuote : c = '\''
    · rw [hQuote] at hThree ⊢
      cases cs with
      | nil => rfl
      | cons d ds =>
        by_cases hNext : d = '\''
        · rw [hNext] at hThree hRest ⊢
          cases ds with
          | nil => rfl
          | cons e es =>
            have hNot : e ≠ '\'' := by
              rintro rfl
              simp at hThree
            rw [List.cons_append, longPlainRest_quote, hRest, Found.cons_some]
            exact fun _ hEq => hNot (List.cons.inj (List.cons.inj hEq).2).1
        · rw [List.cons_append, longPlainRest_quote, hRest, Found.cons_some]
          exact fun _ hEq => hNext (List.cons.inj hEq).1
    -- a line break is read as it stands, every other character has to be no control
    by_cases hBreak : c = '\n'
    · rw [hBreak, List.cons_append, longPlainRest, hRest]
      rfl
    · have hPlain : isControl c = false := by
        simpa [hBreak] using hOther.1
      have hReturn : c ≠ '\r' := by
        rintro rfl
        cases hPlain
      rw [List.cons_append, longPlainRest.eq_7 c _ (fun _ hEq => absurd hEq hQuote)
        (fun _ hEq => absurd hEq hQuote) (fun _ hEq => absurd hEq hQuote)
        (fun _ hEq => absurd hEq hReturn) hBreak, hPlain, hRest]
      rfl

-- ---------------------------------------------------------------------------
-- The spelling that is chosen
-- ---------------------------------------------------------------------------

/-- One single quote is chosen for texts without single quotes, line breaks and controls. -/
theorem spellingOf_plain {cs : List Char} (h : spellingOf cs = .plain) :
    '\'' ∉ cs ∧ '\n' ∉ cs ∧ hasOther cs = false := by
  unfold spellingOf at h
  dsimp only at h
  split_ifs at h with _ hPlain
  simp only [Bool.and_eq_true, Bool.not_eq_true', List.contains_eq_mem, decide_eq_false_iff_not]
    at hPlain
  exact ⟨hPlain.2, hPlain.1.1, hPlain.1.2⟩

/-- Three single quotes are chosen for texts without three of them in a row and without controls. -/
theorem spellingOf_longPlain {cs : List Char} (h : spellingOf cs = .longPlain) :
    hasThree '\'' cs = false ∧ hasOther cs = false := by
  unfold spellingOf at h
  dsimp only at h
  split_ifs at h with _ _ _ hPlain
  simp only [Bool.and_eq_true, Bool.not_eq_true'] at hPlain
  exact hPlain.symm

/-- Where a text has no other controls than line breaks and tabs, what is no line break is no control. -/
theorem isControl_of_mem {cs : List Char} {c : Char} (hOther : hasOther cs = false) (hc : c ∈ cs)
    (hBreak : c ≠ '\n') : isControl c = false := by
  rw [hasOther, List.any_eq_false] at hOther
  simpa [hBreak] using hOther c hc

/-- A line break is one of two characters. -/
theorem afterBreak?_cons {c : Char} (hBreak : c ≠ '\n') (hReturn : c ≠ '\r') (cs : List Char) :
    afterBreak? (c :: cs) = none :=
  afterBreak?.eq_3 (c :: cs) (fun _ hEq => hBreak (List.cons.inj hEq).1)
    (fun _ hEq => hReturn (List.cons.inj hEq).1)

/-- Only a line break that was put there is dropped. -/
theorem dropBreak_openingBreak {cs ds : List Char} (h : '\n' ∉ cs → afterBreak? ds = none) :
    dropBreak (openingBreak cs ++ ds) = ds := by
  unfold openingBreak
  split
  · rfl
  · next hNone =>
    rw [List.nil_append, dropBreak, h (by simpa using hNone)]
    rfl

/-- The written form of a text without line breaks begins with none. -/
theorem afterBreak?_longQuotedChars {cs : List Char} (hBreak : '\n' ∉ cs) (rest : List Char) :
    afterBreak? (longQuotedChars 0 cs ++ '"' :: rest) = none := by
  cases cs with
  | nil => rfl
  | cons c cs =>
    by_cases hQuote : c = '"'
    · rw [hQuote]
      rfl
    · have hNot : c ≠ '\n' := (List.ne_of_not_mem_cons hBreak).symm
      obtain ⟨d, ds, hChars, hReturn, -, hOther⟩ := exists_escaped c (longQuotedChars 0 cs)
      rw [longQuotedChars.eq_4 0 c cs hQuote hNot, hChars]
      exact afterBreak?_cons (hOther hNot) hReturn _

/-- A text without line breaks and controls begins with no line break. -/
theorem afterBreak?_plain {cs : List Char} (hBreak : '\n' ∉ cs) (hOther : hasOther cs = false)
    (rest : List Char) : afterBreak? (cs ++ '\'' :: rest) = none := by
  cases cs with
  | nil => rfl
  | cons c cs =>
    have hNot : c ≠ '\n' := (List.ne_of_not_mem_cons hBreak).symm
    refine afterBreak?_cons hNot ?_ _
    rintro rfl
    cases isControl_of_mem hOther List.mem_cons_self hNot

/-- A double quote that two others do not follow opens a text on one line. -/
theorem text?_quoted {cs : List Char} (h : ∀ ds, cs ≠ '"' :: '"' :: ds) :
    text? ('"' :: cs) = quotedRest cs := by
  rw [text?.eq_3 _ (fun _ hEq => h _ (List.cons.inj hEq).2) (fun _ hEq => by cases hEq)]
  rfl

/-- A single quote that two others do not follow opens a text on one line. -/
theorem text?_plain {cs : List Char} (h : ∀ ds, cs ≠ '\'' :: '\'' :: ds) :
    text? ('\'' :: cs) = plainRest cs := by
  rw [text?.eq_3 _ (fun _ hEq => by cases hEq) (fun _ hEq => h _ (List.cons.inj hEq).2)]
  rfl

/-- The written form of a text on one line begins with no quote. -/
theorem exists_quotedChars (c : Char) (cs : List Char) :
    ∃ d ds, quotedChars (c :: cs) = d :: ds ∧ d ≠ '"' := by
  by_cases hQuote : c = '"'
  · rw [hQuote]
    exact ⟨'\\', _, rfl, by decide⟩
  by_cases hBreak : c = '\n'
  · rw [hBreak]
    exact ⟨'\\', _, rfl, by decide⟩
  rw [quotedChars.eq_4 c cs hQuote hBreak]
  obtain ⟨d, ds, hChars, -, hOther, -⟩ := exists_escaped c (quotedChars cs)
  exact ⟨d, ds, hChars, hOther hQuote⟩

/-- **The spelling that is chosen for a text is read as the text.** -/
theorem text?_literalChars (cs rest : List Char) :
    text? (literalChars cs ++ '\n' :: rest) = some (cs, '\n' :: rest) := by
  unfold literalChars
  -- on the spelling: with one quote it has to be seen that no two others follow, with three that the break
  -- put behind them is the one dropped
  cases hSpelling : spellingOf cs with
  | quoted =>
    show text? ('"' :: (quotedChars cs ++ ['"']) ++ '\n' :: rest) = _
    rw [List.cons_append, List.append_assoc, text?_quoted]
    · exact quotedRest_quotedChars cs ('\n' :: rest)
    · cases cs with
      | nil => exact fun _ hEq => by cases hEq
      | cons c cs =>
        obtain ⟨d, ds, hChars, hOther⟩ := exists_quotedChars c cs
        rw [hChars]
        exact fun _ hEq => hOther (List.cons.inj hEq).1
  | plain =>
    obtain ⟨hQuote, hBreak, hOther⟩ := spellingOf_plain hSpelling
    have hPlain : ∀ c ∈ cs, c ≠ '\'' ∧ isControl c = false := by
      intro c hc
      refine ⟨fun hEq => hQuote (hEq ▸ hc), ?_⟩
      exact isControl_of_mem hOther hc fun hEq => hBreak (hEq ▸ hc)
    show text? ('\'' :: (cs ++ ['\'']) ++ '\n' :: rest) = _
    rw [List.cons_append, List.append_assoc, text?_plain]
    · exact plainRest_append hPlain ('\n' :: rest)
    · cases cs with
      | nil => exact fun _ hEq => by cases hEq
      | cons c cs => exact fun _ hEq => (hPlain c List.mem_cons_self).1 (List.cons.inj hEq).1
  | longQuoted =>
    simp only [List.append_assoc]
    show longQuotedRest false (dropBreak (openingBreak cs ++
      (longQuotedChars 0 cs ++ '"' :: '"' :: '"' :: '\n' :: rest))) = _
    rw [dropBreak_openingBreak fun hBreak => afterBreak?_longQuotedChars hBreak _]
    exact longQuotedRest_longQuotedChars (Nat.zero_le 2) cs rest
  | longPlain =>
    obtain ⟨hThree, hOther⟩ := spellingOf_longPlain hSpelling
    simp only [List.append_assoc]
    show longPlainRest (dropBreak (openingBreak cs ++
      (cs ++ '\'' :: '\'' :: '\'' :: '\n' :: rest))) = _
    rw [dropBreak_openingBreak fun hBreak => afterBreak?_plain hBreak hOther _]
    exact longPlainRest_append hThree hOther rest

end BuildQuery.Toml
