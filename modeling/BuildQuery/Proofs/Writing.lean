import BuildQuery.Proofs.Tokens
import Mathlib.Data.List.Chain

/-!
# BuildQuery — how tokens are written

Tokens are written one after the other, with blanks in front of the first and behind each of them. Two
names need a blank between them, all other tokens may touch. Cutting a text into tokens is the inverse
of writing them: the tokens that are found are the ones that the text can be a writing of, each at its
own place.

Main results:

* `scan_chars` — the writing of tokens is cut into these tokens.
* `exists_writing_of_scan` — what is cut into tokens is a writing of them.
* `tokenize_ok_iff` — both, for texts.
-/

namespace BuildQuery

/-- The bytes of the characters of a text are the bytes of the text. -/
theorem Text.byteLength_toList (s : String) : byteLength s.toList = s.utf8ByteSize := by
  have hChars : ∀ cs : List Char, byteLength cs = (String.ofList cs).utf8ByteSize := by
    intro cs
    induction cs with
    | nil => rfl
    | cons c cs ih =>
      rw [byteLength_cons, String.ofList_cons, String.utf8ByteSize_append,
        String.utf8ByteSize_singleton, ih]
  rw [hChars, String.ofList_toList]

namespace Filter

open Text

-- ---------------------------------------------------------------------------
-- Writings
-- ---------------------------------------------------------------------------

/-- A token with the text that stands between it and the next one. -/
structure Written where
  token : Token
  gap : String

/-- Tokens as they are written, after the text in front of the first one. -/
structure Writing where
  lead : String
  items : List Written

namespace Written

/-- The text of a token and of the gap behind it. -/
def text (i : Written) : String :=
  i.token.text ++ i.gap

/-- Two tokens that may follow each other: between two names there is something. -/
def Apart (i j : Written) : Prop :=
  i.token.kind = .ident → j.token.kind = .ident → i.gap ≠ ""

end Written

namespace Writing

/-- The tokens that are written. -/
def tokens (w : Writing) : List Token :=
  w.items.map Written.token

/-- The text that is written. -/
def text (w : Writing) : String :=
  w.lead ++ String.join (w.items.map Written.text)

/-- The writing before a token. -/
def upTo (w : Writing) (before : List Written) : Writing :=
  { w with items := before }

/-- What makes a writing one of its tokens. -/
structure Sound (w : Writing) : Prop where
  /-- Only blanks stand in front of the first token. -/
  lead_blank : isBlankText w.lead = true
  /-- Only blanks stand between tokens and behind the last one. -/
  gap_blank : ∀ i ∈ w.items, isBlankText i.gap = true
  /-- Each token is written in the way of its kind. -/
  legal : ∀ i ∈ w.items, i.token.Legal
  /-- Two names do not touch. -/
  apart : w.items.IsChain Written.Apart
  /-- Each token knows how many bytes stand before it. -/
  offset : ∀ before i after, w.items = before ++ i :: after →
    i.token.offset = (w.upTo before).text.utf8ByteSize

end Writing

-- ---------------------------------------------------------------------------
-- Writings from an offset on
-- ---------------------------------------------------------------------------

/-- The characters of tokens and of the gaps behind them. -/
def chars (items : List Written) : List Char :=
  items.flatMap fun i => i.token.text.toList ++ i.gap.toList

/-- The first token, its gap, and the other tokens. -/
theorem chars_cons (i : Written) (items : List Written) :
    chars (i :: items) = i.token.text.toList ++ (i.gap.toList ++ chars items) := by
  rw [chars, List.flatMap_cons, List.append_assoc]
  rfl

/-- The characters of a writing are its lead and those of its tokens and gaps. -/
theorem Writing.toList_text (w : Writing) : w.text.toList = w.lead.toList ++ chars w.items := by
  rw [Writing.text, String.toList_append, String.toList_join, List.flatMap_map, chars]
  simp only [Written.text, String.toList_append]

/-- The offsets of tokens of which the first one stands at an offset. -/
def Placed : Nat → List Written → Prop
  | _, [] => True
  | offset, i :: items =>
    i.token.offset = offset ∧
      Placed (offset + byteLength i.token.text.toList + byteLength i.gap.toList) items

/-- Each token stands behind the characters of the tokens before it. -/
theorem placed_iff {offset : Nat} {items : List Written} :
    Placed offset items ↔ ∀ before i after, items = before ++ i :: after →
      i.token.offset = offset + byteLength (chars before) := by
  -- on the tokens, for any offset: the others stand behind the first one and its gap
  induction items generalizing offset with
  | nil =>
    refine iff_of_true trivial ?_
    intro before i after h
    simp at h
  | cons i items ih =>
    rw [Placed, ih]
    constructor
    · rintro ⟨hFirst, hLater⟩ before j after h
      cases before with
      | nil =>
        obtain ⟨rfl, -⟩ := List.cons.inj h
        exact hFirst
      | cons j' before =>
        obtain ⟨rfl, hItems⟩ := List.cons.inj h
        rw [hLater before j after hItems, chars_cons, byteLength_append, byteLength_append]
        omega
    · intro h
      refine ⟨h [] i items rfl, ?_⟩
      intro before j after hItems
      rw [h (i :: before) j after (by rw [hItems]; rfl), chars_cons, byteLength_append,
        byteLength_append]
      omega

/-- All characters of a blank text are blanks. -/
theorem isBlank_of_isBlankText {s : String} (h : isBlankText s = true) :
    ∀ c ∈ s.toList, isBlank c = true :=
  List.all_eq_true.mp h

/-- What makes tokens with gaps a writing from an offset on. -/
structure SoundFrom (offset : Nat) (items : List Written) : Prop where
  gap_blank : ∀ i ∈ items, isBlankText i.gap = true
  legal : ∀ i ∈ items, i.token.Legal
  apart : items.IsChain Written.Apart
  placed : Placed offset items

/-- A sound writing is a blank lead and sound tokens behind it. -/
theorem Writing.sound_iff {w : Writing} :
    w.Sound ↔ isBlankText w.lead = true ∧ SoundFrom (byteLength w.lead.toList) w.items := by
  -- the offsets are told from the texts in front, which begin with the lead
  have hOffset : (∀ before i after, w.items = before ++ i :: after →
      i.token.offset = (w.upTo before).text.utf8ByteSize) ↔
        Placed (byteLength w.lead.toList) w.items := by
    rw [placed_iff]
    simp only [← byteLength_toList, Writing.toList_text, byteLength_append, Writing.upTo]
  constructor
  · intro h
    exact ⟨h.lead_blank, h.gap_blank, h.legal, h.apart, hOffset.mp h.offset⟩
  · rintro ⟨hLead, h⟩
    exact ⟨hLead, h.gap_blank, h.legal, h.apart, hOffset.mpr h.placed⟩

namespace SoundFrom

variable {offset : Nat} {i : Written} {items : List Written}

/-- No tokens are a writing. -/
theorem nil (offset : Nat) : SoundFrom offset [] :=
  ⟨nofun, nofun, .nil, trivial⟩

/-- A writing is its first token and a writing of the others. -/
theorem cons_iff : SoundFrom offset (i :: items) ↔
    i.token.offset = offset ∧ isBlankText i.gap = true ∧ i.token.Legal ∧
      (∀ j ∈ items.head?, i.Apart j) ∧
      SoundFrom (offset + byteLength i.token.text.toList + byteLength i.gap.toList) items := by
  constructor
  · intro h
    obtain ⟨hGap, hGaps⟩ := List.forall_mem_cons.mp h.gap_blank
    obtain ⟨hLegal, hLegals⟩ := List.forall_mem_cons.mp h.legal
    obtain ⟨hApart, hAparts⟩ := List.isChain_cons.mp h.apart
    exact ⟨h.placed.1, hGap, hLegal, hApart, hGaps, hLegals, hAparts, h.placed.2⟩
  · rintro ⟨hOffset, hGap, hLegal, hApart, h⟩
    exact ⟨List.forall_mem_cons.mpr ⟨hGap, h.gap_blank⟩, List.forall_mem_cons.mpr ⟨hLegal, h.legal⟩,
      List.isChain_cons.mpr ⟨hApart, h.apart⟩, hOffset, h.placed⟩

end SoundFrom

-- ---------------------------------------------------------------------------
-- Steps of a scan
-- ---------------------------------------------------------------------------

/-- The characters do not begin with one of a name. -/
def EndsName (cs : List Char) : Prop :=
  ∀ c ∈ cs.head?, isIdentChar c = false

/-- Behind all characters of names no name goes on. -/
theorem endsName_dropWhile (cs : List Char) : EndsName (cs.dropWhile isIdentChar) := by
  intro c hc
  have hHead := List.head?_dropWhile_not isIdentChar cs
  rw [Option.mem_def.mp hc] at hHead
  exact hHead

/-- Where no name goes on there are no characters of one. -/
theorem takeWhile_of_endsName {cs : List Char} (h : EndsName cs) :
    cs.takeWhile isIdentChar = [] ∧ cs.dropWhile isIdentChar = cs := by
  cases cs with
  | nil => exact ⟨rfl, rfl⟩
  | cons c cs =>
    have hc : isIdentChar c = false := h c rfl
    exact ⟨by simp [hc], by simp [hc]⟩

/-- A name is one token, up to where it ends. -/
theorem scan_name {offset : Nat} {text : String} {cs : List Char} (hName : IsName text)
    (hEnd : EndsName cs) :
    scan offset (text.toList ++ cs) =
      (scan (offset + byteLength text.toList) cs).map (⟨.ident, text, offset⟩ :: ·) := by
  obtain ⟨hNonempty, hChars⟩ := hName
  obtain ⟨hTake, hDrop⟩ := takeWhile_of_endsName hEnd
  obtain ⟨c, word, hText⟩ := List.exists_cons_of_ne_nil hNonempty
  rw [hText, List.forall_mem_cons] at hChars
  -- the word ends where its characters do, since what follows does not go on with it
  have hWord : (word ++ cs).takeWhile isIdentChar = word := by
    rw [List.takeWhile_append_of_pos hChars.2, hTake, List.append_nil]
  have hRest : (word ++ cs).dropWhile isIdentChar = cs := by
    rw [List.dropWhile_append_of_pos hChars.2, hDrop]
  rw [hText, List.cons_append, scan, if_pos hChars.1, hWord, hRest, ← hText]
  simp only [String.ofList_toList]
  rfl

/-- A blank is skipped, and moves the offset on. -/
theorem scan_blank {offset : Nat} {c : Char} {cs : List Char} (h : isBlank c = true) :
    scan offset (c :: cs) = scan (offset + c.utf8Size) cs := by
  have hIdent : ¬ isIdentChar c = true := by
    intro hc
    rw [not_isBlank_of_isIdentChar hc] at h
    cases h
  rw [scan, if_neg hIdent, if_pos h]

/-- A gap is skipped, and moves the offset on by its bytes. -/
theorem scan_blanks {offset : Nat} {gap cs : List Char} (h : ∀ c ∈ gap, isBlank c = true) :
    scan offset (gap ++ cs) = scan (offset + byteLength gap) cs := by
  induction gap generalizing offset with
  | nil => rfl
  | cons c gap ih =>
    obtain ⟨hc, hGap⟩ := List.forall_mem_cons.mp h
    rw [List.cons_append, scan_blank hc, ih hGap, byteLength_cons, Nat.add_assoc]

/-- The symbol of an operator is found at the start of any text, and no name begins there. -/
theorem operator?_symbol {kind : TokenKind} (h : kind ≠ .ident) (cs : List Char) :
    operator? (kind.symbol.toList ++ cs) = some (kind, cs) ∧
      ∃ c rest, kind.symbol.toList = c :: rest ∧ isIdentChar c = false ∧ isBlank c = false := by
  cases kind with
  | ident => exact absurd rfl h
  | and => exact ⟨rfl, '&', [], rfl, by decide +kernel, by decide⟩
  | or => exact ⟨rfl, '|', [], rfl, by decide +kernel, by decide⟩
  | notEqual => exact ⟨rfl, '!', ['='], rfl, by decide +kernel, by decide⟩
  | equal => exact ⟨rfl, '=', [], rfl, by decide +kernel, by decide⟩

/-- An operator is one token, whatever follows it. -/
theorem scan_operator {offset : Nat} {kind : TokenKind} {cs : List Char} (h : kind ≠ .ident) :
    scan offset (kind.symbol.toList ++ cs) =
      (scan (offset + byteLength kind.symbol.toList) cs).map (⟨kind, kind.symbol, offset⟩ :: ·) := by
  obtain ⟨hFound, c, rest, hSymbol, hIdent, hBlank⟩ := operator?_symbol h cs
  have hStart : kind.symbol.toList ++ cs = c :: (rest ++ cs) := by rw [hSymbol, List.cons_append]
  rw [hStart] at hFound ⊢
  rw [scan, if_neg (by simp [hIdent]), if_neg (by simp [hBlank]), byteLength_toList]
  split
  · next hNone => rw [hFound] at hNone; cases hNone
  · next kind' rest' hSome =>
    rw [hFound] at hSome
    cases hSome
    rfl

-- ---------------------------------------------------------------------------
-- A writing is cut into its tokens
-- ---------------------------------------------------------------------------

/-- Behind a name, and behind the gap that separates it from another name, no name goes on. -/
theorem endsName_gap {i : Written} {items : List Written} {offset : Nat}
    (h : SoundFrom offset (i :: items)) (hName : i.token.kind = .ident) :
    EndsName (i.gap.toList ++ chars items) := by
  obtain ⟨-, hGap, -, hApart, hItems⟩ := SoundFrom.cons_iff.mp h
  intro c hc
  rcases hGapChars : i.gap.toList with _ | ⟨d, gap⟩
  · -- the gap is empty, and what follows is an operator
    have hEmpty : i.gap = "" := String.toList_eq_nil_iff.mp hGapChars
    rw [hGapChars, List.nil_append] at hc
    cases items with
    | nil => simp [chars] at hc
    | cons j items =>
      obtain ⟨-, -, hLegal, -⟩ := SoundFrom.cons_iff.mp hItems
      have hKind : j.token.kind ≠ .ident := fun hKind => hApart j rfl hName hKind hEmpty
      rw [Token.Legal, if_neg hKind] at hLegal
      obtain ⟨-, e, rest, hSymbol, hIdent, -⟩ := operator?_symbol hKind []
      rw [chars_cons, hLegal, hSymbol] at hc
      obtain rfl : e = c := Option.some.inj hc
      exact hIdent
  · rw [hGapChars] at hc
    obtain rfl : d = c := Option.some.inj hc
    have hBlank := isBlank_of_isBlankText hGap d (by rw [hGapChars]; exact List.mem_cons_self)
    by_contra hIdent
    rw [not_isBlank_of_isIdentChar (Bool.not_eq_false _ ▸ hIdent)] at hBlank
    cases hBlank

/-- **A writing is cut into its tokens.** -/
theorem scan_chars {offset : Nat} {items : List Written} (h : SoundFrom offset items) :
    scan offset (chars items) = .ok (items.map Written.token) := by
  induction items generalizing offset with
  | nil => rw [chars, List.flatMap_nil, scan]; rfl
  | cons i items ih =>
    obtain ⟨hOffset, hGap, hLegal, -, hItems⟩ := SoundFrom.cons_iff.mp h
    have hLater : scan (offset + byteLength i.token.text.toList) (i.gap.toList ++ chars items) =
        .ok (items.map Written.token) := by
      rw [scan_blanks (isBlank_of_isBlankText hGap), ih hItems]
    rw [chars_cons, List.map_cons]
    by_cases hKind : i.token.kind = .ident
    · rw [Token.Legal, if_pos hKind] at hLegal
      rw [scan_name hLegal (endsName_gap h hKind), hLater, ← hKind, ← hOffset]
      rfl
    · rw [Token.Legal, if_neg hKind] at hLegal
      rw [hLegal, scan_operator hKind, ← hLegal, hLater, ← hOffset]
      rfl

-- ---------------------------------------------------------------------------
-- What is cut into tokens is a writing of them
-- ---------------------------------------------------------------------------

/-- Blanks make a blank text. -/
theorem isBlankText_ofList {cs : List Char} (h : ∀ c ∈ cs, isBlank c = true) :
    isBlankText (String.ofList cs) = true := by
  rw [isBlankText, String.toList_ofList]
  exact List.all_eq_true.mpr h

/-- **What is cut into tokens is a writing of them**, behind some blanks. -/
theorem exists_writing_of_scan {offset : Nat} {cs : List Char} {tokens : List Token}
    (h : scan offset cs = .ok tokens) :
    ∃ (lead : String) (items : List Written), isBlankText lead = true ∧
      SoundFrom (offset + byteLength lead.toList) items ∧ items.map Written.token = tokens ∧
      lead.toList ++ chars items = cs := by
  -- on the scan: the end, a name, a blank, a stray character, or an operator
  fun_induction scan offset cs generalizing tokens with
  | case1 offset =>
    cases h
    exact ⟨"", [], rfl, .nil _, rfl, rfl⟩
  | case2 offset c rest hIdent word =>
    rename_i ih
    obtain ⟨later, hLater, hTokens⟩ := bind_eq_ok.mp h
    cases hTokens
    obtain ⟨gap, items, hGap, hItems, rfl, hRest⟩ := ih hLater
    let token : Token := ⟨.ident, String.ofList word, offset⟩
    have hText : token.text.toList = word := String.toList_ofList
    have hLegal : token.Legal := by
      rw [Token.Legal, if_pos rfl, IsName, hText]
      exact ⟨List.cons_ne_nil _ _, fun d hd => isIdentChar_of_mem_word hIdent hd⟩
    have hApart : ∀ j ∈ items.head?, Written.Apart ⟨token, gap⟩ j := by
      intro j hj _ hKind hEmpty
      -- a name right behind the word would belong to the word
      obtain ⟨items', rfl⟩ := List.head?_eq_some_iff.mp hj
      obtain ⟨-, -, hLegal, -⟩ := SoundFrom.cons_iff.mp hItems
      rw [Token.Legal, if_pos hKind] at hLegal
      obtain ⟨d, name, hName⟩ := List.exists_cons_of_ne_nil hLegal.1
      have hFirst : d ∈ (rest.dropWhile isIdentChar).head? := by
        rw [← hRest, show gap = "" from hEmpty, chars_cons, hName]
        rfl
      have hIdent' := hLegal.2 d (by rw [hName]; exact List.mem_cons_self)
      rw [endsName_dropWhile rest d hFirst] at hIdent'
      cases hIdent'
    refine ⟨"", ⟨token, gap⟩ :: items, rfl, ?_, rfl, ?_⟩
    · refine SoundFrom.cons_iff.mpr ⟨rfl, hGap, hLegal, hApart, ?_⟩
      rw [hText]
      exact hItems
    · rw [chars_cons, hText, hRest]
      exact congrArg (c :: ·) List.takeWhile_append_dropWhile
  | case3 offset c rest hIdent hBlank ih =>
    obtain ⟨lead, items, hLead, hItems, hTokens, rfl⟩ := ih h
    -- the blank joins the lead of what is found behind it
    refine ⟨String.ofList (c :: lead.toList), items, ?_, ?_, hTokens, ?_⟩
    · exact isBlankText_ofList (List.forall_mem_cons.mpr ⟨hBlank, isBlank_of_isBlankText hLead⟩)
    · rw [String.toList_ofList, byteLength_cons, ← Nat.add_assoc]
      exact hItems
    · rw [String.toList_ofList]
      rfl
  | case4 offset c rest hIdent hBlank hNone => cases h
  | case5 offset c rest hIdent hBlank kind rest' hSome ih =>
    obtain ⟨later, hLater, hTokens⟩ := bind_eq_ok.mp h
    cases hTokens
    obtain ⟨gap, items, hGap, hItems, rfl, hRest⟩ := ih hLater
    obtain ⟨hKind, hChars, -⟩ := eq_of_operator? hSome
    let token : Token := ⟨kind, kind.symbol, offset⟩
    refine ⟨"", ⟨token, gap⟩ :: items, rfl, ?_, rfl, ?_⟩
    · refine SoundFrom.cons_iff.mpr ⟨rfl, hGap, ?_, fun j _ hName => absurd hName hKind, ?_⟩
      · rw [Token.Legal, if_neg hKind]
      · rw [byteLength_toList kind.symbol]
        exact hItems
    · rw [chars_cons, hRest, hChars]
      rfl

/--
**Cutting a text into tokens is the inverse of writing them.** A text is cut into some tokens exactly
if it is a writing of them: blanks, and then each token in the way of its kind with blanks behind it,
at least one of them between two names, where the offset of a token is the number of bytes in front
of it.
-/
theorem tokenize_ok_iff (input : String) (tokens : List Token) :
    tokenize input = .ok tokens ↔
      ∃ w : Writing, w.Sound ∧ w.tokens = tokens ∧ w.text = input := by
  constructor
  · intro h
    obtain ⟨lead, items, hLead, hItems, hTokens, hChars⟩ := exists_writing_of_scan h
    rw [Nat.zero_add] at hItems
    refine ⟨⟨lead, items⟩, Writing.sound_iff.mpr ⟨hLead, hItems⟩, hTokens, ?_⟩
    rw [← String.toList_inj, Writing.toList_text]
    exact hChars
  · rintro ⟨w, hSound, rfl, rfl⟩
    obtain ⟨hLead, hItems⟩ := Writing.sound_iff.mp hSound
    rw [tokenize, Writing.toList_text, scan_blanks (isBlank_of_isBlankText hLead), Nat.zero_add]
    exact scan_chars hItems

end Filter

end BuildQuery
