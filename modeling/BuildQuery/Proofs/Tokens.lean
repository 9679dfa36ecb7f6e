import BuildQuery.Filter.Token
import Mathlib.Data.List.TakeWhile
import Mathlib.Tactic.Common

/-!
# BuildQuery — what the tokens of a text say about it

The tokens of a text and the blanks between them are all there is in it: the texts of the tokens,
one after the other, are the text without its blanks, and each of them has the form of its kind.

Main results:

* `not_isBlank_of_isIdentChar` — no character of a name is a blank.
* `text_of_tokenize`, `legal_of_tokenize` — what a text without stray characters is made of.
-/

namespace BuildQuery

/-- A computation in two steps succeeds when both steps do. -/
theorem bind_eq_ok {ε α β : Type} {x : Except ε α} {f : α → Except ε β} {b : β} :
    (x >>= f) = .ok b ↔ ∃ a, x = .ok a ∧ f a = .ok b := by
  cases x with
  | error e => simp [bind, Except.bind]
  | ok a => simp [bind, Except.bind]

/-- It fails when the first step fails, or the second after it. -/
theorem bind_eq_error {ε α β : Type} {x : Except ε α} {f : α → Except ε β} {e : ε} :
    (x >>= f) = .error e ↔ x = .error e ∨ ∃ a, x = .ok a ∧ f a = .error e := by
  cases x with
  | error e => simp [bind, Except.bind]
  | ok a => simp [bind, Except.bind]

-- ---------------------------------------------------------------------------
-- Names and blanks
-- ---------------------------------------------------------------------------

/-- No range of one set of characters meets a range of the other. -/
def Text.CharRanges.disjoint (first second : CharRanges) : Bool :=
  first.all fun r => second.all fun s => Nat.blt r.2 s.1 || Nat.blt s.2 r.1

/-- No character is in both of two sets whose ranges do not meet. -/
theorem Text.CharRanges.not_has_of_disjoint {first second : CharRanges} {c : Char}
    (hDisjoint : disjoint first second = true) (hFirst : first.has c = true) :
    second.has c = false := by
  rw [Bool.eq_false_iff]
  intro hSecond
  obtain ⟨r, hr, hLow, hHigh⟩ := has_iff.mp hFirst
  obtain ⟨s, hs, hLow', hHigh'⟩ := has_iff.mp hSecond
  have hApart := List.all_eq_true.mp (List.all_eq_true.mp hDisjoint r hr) s hs
  rw [Bool.or_eq_true, Nat.blt_eq, Nat.blt_eq] at hApart
  omega

namespace Filter

open Text

/-- **No character of a name is a blank.** -/
theorem not_isBlank_of_isIdentChar {c : Char} (h : isIdentChar c = true) : isBlank c = false := by
  unfold isIdentChar at h
  simp only [Bool.or_eq_true, beq_iff_eq] at h
  -- letters and digits are told apart by the ranges of both sets, the three marks one by one
  rcases h with ((hWord | rfl) | rfl) | rfl
  · exact CharRanges.not_has_of_disjoint (by decide +kernel) hWord
  · decide
  · decide
  · decide

/-- A name or a value: a text of at least one character, all of which belong to names. -/
def IsName (text : String) : Prop :=
  text.toList ≠ [] ∧ ∀ c ∈ text.toList, isIdentChar c = true

/-- The text of the token is one that its kind allows. -/
def Token.Legal (t : Token) : Prop :=
  if t.kind = .ident then IsName t.text else t.text = t.kind.symbol

/-- What is left of a text when its blanks are taken out. -/
def solid (cs : List Char) : List Char :=
  cs.filter fun c => !isBlank c

/-- Blanks are taken out piece by piece. -/
theorem solid_append (cs ds : List Char) : solid (cs ++ ds) = solid cs ++ solid ds :=
  List.filter_append ..

/-- A blank is taken out. -/
theorem solid_of_blank {c : Char} (h : isBlank c = true) (cs : List Char) :
    solid (c :: cs) = solid cs := by
  simp [solid, h]

/-- A word has no blanks to take out. -/
theorem solid_of_identChars {cs : List Char} (h : ∀ c ∈ cs, isIdentChar c = true) :
    solid cs = cs := by
  rw [solid, List.filter_eq_self]
  intro c hc
  rw [not_isBlank_of_isIdentChar (h c hc)]
  rfl

-- ---------------------------------------------------------------------------
-- Scanning
-- ---------------------------------------------------------------------------

/-- An operator is its symbol, and no symbol holds a blank. -/
theorem eq_of_operator? {cs rest : List Char} {kind : TokenKind}
    (h : operator? cs = some (kind, rest)) :
    kind ≠ .ident ∧ cs = kind.symbol.toList ++ rest ∧
      solid kind.symbol.toList = kind.symbol.toList := by
  unfold operator? at h
  split at h
  case h_5 => simp at h
  all_goals
    simp only [Option.some.injEq, Prod.mk.injEq] at h
    obtain ⟨rfl, rfl⟩ := h
    exact ⟨by decide, rfl, by decide⟩

/-- The characters of the word that a text begins with. -/
theorem isIdentChar_of_mem_word {c d : Char} {rest : List Char} (hIdent : isIdentChar c = true)
    (hd : d ∈ c :: rest.takeWhile isIdentChar) : isIdentChar d = true := by
  rcases List.mem_cons.mp hd with rfl | hd
  · exact hIdent
  · exact List.mem_takeWhile_imp hd

/-- A text that begins with a word is the word, which has no blanks, and the rest. -/
theorem solid_word {c : Char} (rest : List Char) (hIdent : isIdentChar c = true) :
    solid (c :: rest) =
      (c :: rest.takeWhile isIdentChar) ++ solid (rest.dropWhile isIdentChar) := by
  calc solid (c :: rest)
      = solid ((c :: rest.takeWhile isIdentChar) ++ rest.dropWhile isIdentChar) := by
        rw [List.cons_append, List.takeWhile_append_dropWhile]
    _ = (c :: rest.takeWhile isIdentChar) ++ solid (rest.dropWhile isIdentChar) := by
        rw [solid_append, solid_of_identChars fun d hd => isIdentChar_of_mem_word hIdent hd]

/-- Both facts about a scan at once, since the same recursion carries them. -/
theorem scan_ok {offset : Nat} {cs : List Char} {tokens : List Token}
    (h : scan offset cs = .ok tokens) :
    (∀ t ∈ tokens, t.Legal) ∧ tokens.flatMap (fun t => t.text.toList) = solid cs := by
  -- on the scan: the end, a word, a blank, a stray character, or an operator
  fun_induction scan offset cs generalizing tokens with
  | case1 offset =>
    cases h
    exact ⟨nofun, rfl⟩
  | case2 offset c rest hIdent word =>
    rename_i ih
    obtain ⟨later, hLater, hTokens⟩ := bind_eq_ok.mp h
    cases hTokens
    obtain ⟨hLegal, hText⟩ := ih hLater
    refine ⟨?_, ?_⟩
    · intro t ht
      rcases List.mem_cons.mp ht with rfl | ht
      · rw [Token.Legal, if_pos rfl, IsName, String.toList_ofList]
        exact ⟨List.cons_ne_nil _ _, fun d hd => isIdentChar_of_mem_word hIdent hd⟩
      · exact hLegal t ht
    · rw [List.flatMap_cons, hText, solid_word rest hIdent, String.toList_ofList]
  | case3 offset c rest hIdent hBlank ih =>
    -- a blank makes no token and is not among what is left of the text
    rw [solid_of_blank hBlank]
    exact ih h
  | case4 offset c rest hIdent hBlank hNone => cases h
  | case5 offset c rest hIdent hBlank kind rest' hSome ih =>
    obtain ⟨later, hLater, hTokens⟩ := bind_eq_ok.mp h
    cases hTokens
    obtain ⟨hLegal, hText⟩ := ih hLater
    obtain ⟨hKind, hChars, hSolid⟩ := eq_of_operator? hSome
    refine ⟨?_, ?_⟩
    · intro t ht
      rcases List.mem_cons.mp ht with rfl | ht
      · rw [Token.Legal, if_neg hKind]
      · exact hLegal t ht
    · rw [List.flatMap_cons, hText, hChars, solid_append, hSolid]

/-- The tokens of a text have the form of their kinds. -/
theorem legal_of_tokenize {input : String} {tokens : List Token}
    (h : tokenize input = .ok tokens) : ∀ t ∈ tokens, t.Legal :=
  (scan_ok h).1

/-- **Nothing is lost or added.** The texts of the tokens are the text without its blanks. -/
theorem text_of_tokenize {input : String} {tokens : List Token}
    (h : tokenize input = .ok tokens) :
    tokens.flatMap (fun t => t.text.toList) = solid input.toList :=
  (scan_ok h).2

end Filter

end BuildQuery
