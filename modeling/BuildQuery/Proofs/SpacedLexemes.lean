import BuildQuery.Proofs.WholeDocuments

/-!
# BuildQuery — documents written with blanks

A document may be written with any blanks around its lexemes (`Doc.Written`). No two lexemes of a document
need a blank between them: only a number could go on in the bytes behind it, and what follows a number in
a document is a mark. So the blanks do not matter to the reader, and whatever it reads without a fault is
a document that is written in this way.

Main results:

* `spaced_lex`, `lex_of_spaced` — the lexemes that are found are the ones that are written.
* `written_iff` — a document is written exactly in the bytes that are read as it.
-/

namespace BuildQuery.Json

-- ---------------------------------------------------------------------------
-- Written lexemes
-- ---------------------------------------------------------------------------

/-- The bytes are one lexeme, from the first to the last. -/
def Lexeme.WrittenAs (l : Lexeme) (token : List UInt8) : Prop :=
  ∃ b bs, token = b :: bs ∧ isBlank b = false ∧ lexeme b bs = (l, [])

/-- Lexemes written one behind the other, with any blanks around them. -/
inductive Spaced : List Lexeme → List UInt8 → Prop
  | nil {blanks : List UInt8} (hBlanks : ∀ b ∈ blanks, isBlank b = true) : Spaced [] blanks
  | cons {l : Lexeme} {ls : List Lexeme} {blanks token rest : List UInt8}
      (hBlanks : ∀ b ∈ blanks, isBlank b = true) (hToken : l.WrittenAs token) (hRest : Spaced ls rest) :
      Spaced (l :: ls) (blanks ++ (token ++ rest))

/-- The bytes are a document without a fault, written with any blanks. -/
def Doc.Written (doc : Doc) (bytes : List UInt8) : Prop :=
  doc.Whole ∧ Spaced doc.lexemes bytes

/-- Blanks in front of lexemes are skipped. -/
theorem lex_blanks {blanks : List UInt8} (h : ∀ b ∈ blanks, isBlank b = true) (rest : List UInt8) :
    lex (blanks ++ rest) = lex rest := by
  induction blanks with
  | nil => rfl
  | cons b blanks ih =>
    obtain ⟨hb, hBlanks⟩ := List.forall_mem_cons.mp h
    rw [List.cons_append, lex, if_pos hb, ih hBlanks]

/-- A blank in front is one more blank. -/
theorem Spaced.blank {b : UInt8} {ls : List Lexeme} {bytes : List UInt8} (hBlank : isBlank b = true)
    (h : Spaced ls bytes) : Spaced ls (b :: bytes) := by
  cases h with
  | nil hBlanks => exact .nil (List.forall_mem_cons.mpr ⟨hBlank, hBlanks⟩)
  | cons hBlanks hToken hRest =>
    exact .cons (List.forall_mem_cons.mpr ⟨hBlank, hBlanks⟩) hToken hRest

/-- **Lexemes that are found are written**, unless one of them is broken. -/
theorem spaced_lex {bytes : List UInt8} (h : ∀ l ∈ lex bytes, l.sound = true) :
    Spaced (lex bytes) bytes := by
  fun_induction lex bytes with
  | case1 => exact .nil (List.forall_mem_nil _)
  | case2 b bs hBlank ih => exact (ih h).blank hBlank
  | case3 b bs hBlank found ih =>
    obtain ⟨hSound, hLater⟩ := List.forall_mem_cons.mp h
    obtain ⟨front, hBytes, -, hFront⟩ := lexeme_front (Or.inl hSound)
    -- the bytes of a lexeme are found by cutting them off behind it, where they are still that lexeme
    have hToken : found.1.WrittenAs (b :: front) := by
      refine ⟨b, front, rfl, Bool.eq_false_iff.mpr hBlank, ?_⟩
      have hNothing : EndsNumeral [] := by rintro _ ⟨⟩
      have hAlone := hFront [] (Or.inr hNothing)
      rwa [List.append_nil] at hAlone
    have hSpaced : Spaced (found.1 :: lex found.2) ([] ++ ((b :: front) ++ found.2)) :=
      .cons (List.forall_mem_nil _) hToken (ih hLater)
    have hAll : b :: bs = [] ++ ((b :: front) ++ found.2) := congrArg (b :: ·) hBytes
    rw [hAll]
    exact hSpaced

-- ---------------------------------------------------------------------------
-- What follows a number
-- ---------------------------------------------------------------------------

/-- A document with something behind it stays so. -/
theorem foldl_followed (doc : Doc) (ls : List Lexeme) :
    ls.foldl Progress.step (.followed doc) = .followed doc := by
  induction ls with
  | nil => rfl
  | cons l ls ih => exact ih

/-- A reader that has stopped reads nothing more. -/
theorem foldl_stopped (doc : Doc) (ls : List Lexeme) :
    ls.foldl Progress.step (.stopped doc) = .stopped doc := by
  induction ls with
  | nil => rfl
  | cons l ls ih => exact ih

/-- Where reading ends well, it has been inside the document or behind it. -/
theorem not_complete_of_over {p : Progress} {ls : List Lexeme} {all : Doc}
    (h : ls.foldl Progress.step p = .complete all) :
    (∀ doc, p ≠ .followed doc) ∧ ∀ doc, p ≠ .stopped doc := by
  refine ⟨?_, ?_⟩
  · rintro doc rfl
    rw [foldl_followed] at h
    cases h
  · rintro doc rfl
    rw [foldl_stopped] at h
    cases h

/-- A mark that may stand behind a value. -/
def Lexeme.endsValue : Lexeme → Bool
  | .comma | .closeList | .closeObject => true
  | _ => false

/-- The reader goes on behind a value with a mark only. -/
theorem endsValue_of_place {doc all : Doc} (stack : List Frame) {l : Lexeme} {ls : List Lexeme}
    (h : (l :: ls).foldl Progress.step (place doc stack) = .complete all) : l.endsValue = true := by
  obtain ⟨hFollowed, hStopped⟩ := not_complete_of_over (p := (place doc stack).step l) h
  -- behind a whole document nothing may stand; inside a list or an object only two marks may
  rcases stack with _ | ⟨_ | _, stack⟩
  · exact absurd rfl (hFollowed doc)
  · cases l <;> first | rfl | exact absurd rfl (hStopped _)
  · cases l <;> first | rfl | exact absurd rfl (hStopped _)

/-- Behind a number, too, the reader goes on with a mark only. -/
theorem endsValue_of_number {p : Progress} {n : Numeral} {l : Lexeme} {ls : List Lexeme} {all : Doc}
    (h : (.number n :: l :: ls).foldl Progress.step p = .complete all) : l.endsValue = true := by
  obtain ⟨hFollowed, hStopped⟩ := not_complete_of_over (p := p.step (.number n)) h
  -- a number is read where a value is wanted, which may be the first of a list, and nowhere else
  cases p with
  | inside want stack =>
    cases want with
    | value => exact endsValue_of_place stack h
    | firstItem => exact endsValue_of_place (.list [] :: stack) h
    | _ => exact absurd rfl (hStopped _)
  | complete doc => exact absurd rfl (hFollowed doc)
  | followed doc => exact absurd rfl (hFollowed doc)
  | stopped doc => exact absurd rfl (hStopped doc)

/-- A broken lexeme is not read on. -/
theorem sound_of_complete {p : Progress} {l : Lexeme} {ls : List Lexeme} {all : Doc}
    (h : (l :: ls).foldl Progress.step p = .complete all) : l.sound = true := by
  obtain ⟨hFollowed, hStopped⟩ := not_complete_of_over (p := p.step l) h
  cases l with
  | brokenText fault | broken fault =>
    exfalso
    cases p with
    | inside want stack => cases want <;> exact hStopped _ rfl
    | complete doc => exact hFollowed doc rfl
    | followed doc => exact hFollowed doc rfl
    | stopped doc => exact hStopped doc rfl
  | _ => rfl

/-- The marks that may stand behind a value are these three bytes. -/
theorem byte_of_endsValue {b : UInt8} (bs : List UInt8) (h : (lexeme b bs).1.endsValue = true) :
    b = 0x2C ∨ b = 0x5D ∨ b = 0x7D := by
  have hNumber {negative : Bool} {bs : List UInt8} :
      (numberLexeme negative bs).1.endsValue = false := by
    unfold numberLexeme
    split <;> rfl
  unfold lexeme at h
  split at h
  case h_2 | h_4 | h_5 => decide
  case h_7 =>
    unfold textLexeme at h
    -- the branches of commas and closing marks; no other lexeme is such a mark
    split at h <;> cases h
  case h_8 => exact nomatch h.symm.trans hNumber
  case h_9 | h_10 | h_11 =>
    unfold wordLexeme at h
    split at h <;> cases h
  case h_12 =>
    split at h
    · exact nomatch h.symm.trans hNumber
    · cases h
  all_goals cases h

/-- Blanks and marks do not go on with a number. -/
theorem endsNumeral_of_spaced {ls : List Lexeme} {bytes : List UInt8} (h : Spaced ls bytes)
    (hFirst : ∀ l ∈ ls.head?, l.endsValue = true) : EndsNumeral bytes := by
  have hBlank {b : UInt8} (h : isBlank b = true) :
      isDigit b = false ∧ b ≠ 0x2E ∧ b ≠ 0x65 ∧ b ≠ 0x45 := by
    simp only [isBlank, Bool.or_eq_true, beq_iff_eq] at h
    rcases h with ((rfl | rfl) | rfl) | rfl <;> decide
  cases h with
  | nil hBlanks => exact fun b hb => hBlank (hBlanks b (List.mem_of_mem_head? hb))
  | cons hBlanks hToken hRest =>
    obtain ⟨b, bs, rfl, -, hLexeme⟩ := hToken
    -- behind the blanks stands the first lexeme, which is a mark
    have hMark : b = 0x2C ∨ b = 0x5D ∨ b = 0x7D := by
      refine byte_of_endsValue bs ?_
      rw [hLexeme]
      exact hFirst _ rfl
    refine head?_append_cases (fun b hb => hBlank (hBlanks b (List.mem_of_mem_head? hb))) ?_
    refine endsNumeral_cons _ ?_
    rcases hMark with rfl | rfl | rfl <;> decide

-- ---------------------------------------------------------------------------
-- Written documents
-- ---------------------------------------------------------------------------

/-- **Lexemes that are written are found**, if they can be read as a document. -/
theorem lex_of_spaced {ls : List Lexeme} {bytes : List UInt8} (h : Spaced ls bytes) {p : Progress}
    {all : Doc} (hComplete : ls.foldl Progress.step p = .complete all) : lex bytes = ls := by
  -- on the lexemes, from wherever the reader is when it meets them
  induction h generalizing p with
  | @nil blanks hBlanks =>
    have hNone := lex_blanks hBlanks []
    rwa [List.append_nil, lex] at hNone
  | @cons l ls blanks token rest hBlanks hToken hRest ih =>
    have hLater : lex rest = ls := ih hComplete
    have hSound : l.sound = true := sound_of_complete hComplete
    obtain ⟨b, bs, rfl, hBlank, hLexeme⟩ := hToken
    -- only a number could go on, and then the next lexeme is a mark
    have hEnd : l.closed = true ∨ EndsNumeral rest := by
      cases l with
      | number n =>
        refine Or.inr (endsNumeral_of_spaced hRest ?_)
        intro l' hl'
        obtain ⟨later, rfl⟩ : ∃ later, ls = l' :: later := List.head?_eq_some_iff.mp hl'
        exact endsValue_of_number hComplete
      | brokenText fault | broken fault => cases hSound
      | _ => exact Or.inl rfl
    have hFound : lexeme b (bs ++ rest) = (l, rest) := by
      have hAlone : (lexeme b bs).1.sound = true := by
        rw [hLexeme]
        exact hSound
      obtain ⟨front, hBytes, -, hFront⟩ := lexeme_front (Or.inl hAlone)
      rw [hLexeme] at hBytes hFront
      rw [hBytes, List.append_nil]
      exact hFront rest hEnd
    rw [lex_blanks hBlanks, List.cons_append, lex_cons hBlank, hFound, hLater]

/-- **A document is written** in the bytes that are read as it without a fault, and in no others. -/
theorem written_iff {doc : Doc} {bytes : List UInt8} :
    doc.Written bytes ↔ read bytes = ⟨doc, false⟩ ∧ doc.skipFault? = none := by
  rw [read_whole_iff]
  refine and_congr_right ?_
  intro hWhole
  have hComplete : doc.lexemes.foldl Progress.step (.inside .value []) = .complete doc := hWhole.reads []
  constructor
  · exact fun hSpaced => lex_of_spaced hSpaced hComplete
  · intro hLex
    -- a document that is whole has no broken lexeme
    have hSound : ∀ l ∈ lex bytes, l.sound = true := by
      rw [hLex]
      intro l hl
      obtain ⟨before, after, hSplit⟩ := List.append_of_mem hl
      rw [hSplit, List.foldl_append] at hComplete
      exact sound_of_complete hComplete
    rw [← hLex]
    exact spaced_lex hSound

end BuildQuery.Json
