import BuildQuery.Filter.Grammar
import BuildQuery.Proofs.Tokens

/-!
# BuildQuery — the filters that a text can stand for

Reading a filter from text gives either the filter that matches all or a **chain**: comparisons with
a conjunction between each two, which the filter groups to the right. A chain is written as marks,
which are what is left of the tokens when their offsets are dropped.

Main results:

* `chain_ok_iff` — what the grammar accepts: the writings of chains, each read as its own chain.
* `parse_ok` — a text that is a filter is blank or says a chain, and the filter is that chain.
-/

namespace BuildQuery.Filter

open Text

-- ---------------------------------------------------------------------------
-- Chains and how they are written
-- ---------------------------------------------------------------------------

/-- A field, an operator and the value that the field is compared with. -/
@[ext]
structure Comparison where
  field : String
  op : CompareOp
  value : String
deriving DecidableEq

/-- Comparisons from left to right, with a conjunction between each two. -/
inductive Chain where
  | single (c : Comparison)
  | cons (c : Comparison) (op : JoinOp) (later : Chain)
deriving DecidableEq

/-- A token without its offset. -/
inductive Mark where
  | name (text : String)
  | compare (op : CompareOp)
  | join (op : JoinOp)
deriving DecidableEq

/-- How a mark is written. -/
def Mark.text : Mark → String
  | .name text => text
  | .compare op => op.symbol
  | .join op => op.symbol

/-- The mark that a token makes. -/
def Token.mark (t : Token) : Mark :=
  match t.kind with
  | .ident => .name t.text
  | .and => .join .and
  | .or => .join .or
  | .notEqual => .compare .ne
  | .equal => .compare .eq

/-- A comparison is written as three marks. -/
def Comparison.marks (c : Comparison) : List Mark :=
  [.name c.field, .compare c.op, .name c.value]

/-- A comparison as a filter. -/
def Comparison.filter (c : Comparison) : Filter :=
  .compare c.field c.op c.value

namespace Chain

/-- The comparisons from left to right. -/
def comparisons : Chain → List Comparison
  | single c => [c]
  | cons c _ later => c :: later.comparisons

/-- The conjunctions from left to right, one fewer than the comparisons. -/
def joins : Chain → List JoinOp
  | single _ => []
  | cons _ op later => op :: later.joins

/-- The marks from left to right. -/
def marks : Chain → List Mark
  | single c => c.marks
  | cons c op later => c.marks ++ .join op :: later.marks

/-- A chain as a filter, grouped to the right. -/
def filter : Chain → Filter
  | single c => c.filter
  | cons c op later => .join op c.filter later.filter

theorem comparisons_ne_nil (ch : Chain) : ch.comparisons ≠ [] := by
  cases ch <;> exact List.cons_ne_nil _ _

/-- The names of a chain stand in its marks. -/
theorem name_mem_marks {ch : Chain} {c : Comparison} (h : c ∈ ch.comparisons) :
    .name c.field ∈ ch.marks ∧ .name c.value ∈ ch.marks := by
  induction ch with
  | single d =>
    rw [List.mem_singleton.mp h]
    simp [marks, Comparison.marks]
  | cons d op later ih =>
    rcases List.mem_cons.mp h with rfl | h
    · simp [marks, Comparison.marks]
    · simp [marks, ih h]

/-- Nothing of a chain is lost in writing. -/
theorem marks_injective : Function.Injective marks := by
  intro ch other h
  induction ch generalizing other with
  | single c =>
    cases other with
    | single d => simpa [marks, Comparison.marks, Comparison.ext_iff] using h
    | cons d op later => simp [marks, Comparison.marks] at h
  | cons c op later ih =>
    cases other with
    | single d => simp [marks, Comparison.marks] at h
    | cons d op' later' =>
      -- a comparison has three marks, so both writings can be cut behind the third
      obtain ⟨hFirst, hLater⟩ := List.append_inj h rfl
      obtain ⟨hOp, hLater⟩ := List.cons.inj hLater
      have hComparison : c = d := by simpa [Comparison.marks, Comparison.ext_iff] using hFirst
      rw [hComparison, Mark.join.inj hOp, ih hLater]

end Chain

-- ---------------------------------------------------------------------------
-- Tokens and their marks
-- ---------------------------------------------------------------------------

/-- The tokens that make names. -/
theorem Token.mark_eq_name_iff {t : Token} {text : String} :
    t.mark = .name text ↔ t.kind = .ident ∧ t.text = text := by
  unfold Token.mark
  cases t.kind <;> simp

/-- The tokens that make an operator that compares. -/
theorem Token.mark_eq_compare_iff {t : Token} {op : CompareOp} :
    t.mark = .compare op ↔ t.kind.compareOp? = some op := by
  unfold Token.mark
  cases t.kind <;> simp [TokenKind.compareOp?]

/-- The tokens that make an operator that joins. -/
theorem Token.mark_eq_join_iff {t : Token} {op : JoinOp} :
    t.mark = .join op ↔ t.kind.joinOp? = some op := by
  unfold Token.mark
  cases t.kind <;> simp [TokenKind.joinOp?]

/-- A token that has the form of its kind is written like its mark. -/
theorem Token.Legal.text_mark {t : Token} (h : t.Legal) : t.mark.text = t.text := by
  rw [Token.Legal] at h
  unfold Token.mark
  cases hKind : t.kind <;> simp [hKind] at h <;> simp [Mark.text, h] <;> rfl

-- ---------------------------------------------------------------------------
-- Reading
-- ---------------------------------------------------------------------------

/-- Three tokens are read as a comparison when they are its writing. -/
theorem comparison_ok_iff {field op value : Token} {f : Filter} :
    comparison field op value = .ok f ↔
      ∃ c : Comparison, [field, op, value].map Token.mark = c.marks ∧ f = c.filter := by
  constructor
  · intro h
    unfold comparison at h
    split at h
    · next cmp hField hOp hValue =>
      cases h
      refine ⟨⟨field.text, cmp, value.text⟩, ?_, rfl⟩
      -- a name, an operator and a name, or the three tokens would have been refused
      have hMarks := And.intro (Token.mark_eq_name_iff.mpr ⟨hField, rfl⟩)
        (And.intro (Token.mark_eq_compare_iff.mpr hOp) (Token.mark_eq_name_iff.mpr ⟨hValue, rfl⟩))
      simp [Comparison.marks, hMarks]
    · cases h
  · rintro ⟨c, hMarks, rfl⟩
    simp only [List.map_cons, List.map_nil, Comparison.marks, List.cons.injEq, and_true] at hMarks
    obtain ⟨hField, hOp, hValue⟩ := hMarks
    obtain ⟨hField, hFieldText⟩ := Token.mark_eq_name_iff.mp hField
    obtain ⟨hValue, hValueText⟩ := Token.mark_eq_name_iff.mp hValue
    rw [comparison, hField, hValue, Token.mark_eq_compare_iff.mp hOp]
    simp [Comparison.filter, hFieldText, hValueText]

/-- **Soundness and completeness of the grammar.** Tokens are read as a filter when they are the
writing of a chain, and then the filter is that chain. -/
theorem chain_ok_iff {tokens : List Token} {f : Filter} :
    chain tokens = .ok f ↔ ∃ ch : Chain, tokens.map Token.mark = ch.marks ∧ f = ch.filter := by
  -- on the tokens, four at a time: three of a comparison and an operator that joins
  fun_induction chain tokens generalizing f with
  | case1 field cmp value =>
    rw [comparison_ok_iff]
    constructor
    · rintro ⟨c, hMarks, hf⟩
      exact ⟨.single c, hMarks, hf⟩
    · rintro ⟨ch, hMarks, hf⟩
      cases ch with
      | single c => exact ⟨c, hMarks, hf⟩
      | cons c op later => simp [Chain.marks, Comparison.marks] at hMarks
  | case2 field cmp value conj rest ih =>
    rw [bind_eq_ok]
    constructor
    · rintro ⟨left, hLeft, h⟩
      obtain ⟨c, hMarks, rfl⟩ := comparison_ok_iff.mp hLeft
      split at h
      case h_1 => cases h
      case h_2 op hJoin =>
        obtain ⟨right, hRight, hFilter⟩ := bind_eq_ok.mp h
        cases hFilter
        -- the rest is read as the later chain, in front of which the comparison is put
        obtain ⟨later, hLater, rfl⟩ := ih.mp hRight
        refine ⟨.cons c op later, ?_, rfl⟩
        rw [Chain.marks, ← hMarks, ← hLater, ← Token.mark_eq_join_iff.mpr hJoin]
        rfl
    · rintro ⟨ch, hMarks, rfl⟩
      cases ch with
      | single c => simp [Chain.marks, Comparison.marks] at hMarks
      | cons c op later =>
        have hSplit : [field, cmp, value].map Token.mark ++ conj.mark :: rest.map Token.mark =
            c.marks ++ .join op :: later.marks := hMarks
        obtain ⟨hFirst, hLater⟩ := List.append_inj hSplit rfl
        obtain ⟨hJoin, hLater⟩ := List.cons.inj hLater
        refine ⟨c.filter, comparison_ok_iff.mpr ⟨c, hFirst, rfl⟩, ?_⟩
        rw [Token.mark_eq_join_iff.mp hJoin]
        exact bind_eq_ok.mpr ⟨later.filter, ih.mpr ⟨later, hLater, rfl⟩, rfl⟩
  | case3 tokens hNotThree hNotMore =>
    -- fewer than three tokens, which write no chain
    refine iff_of_false nofun ?_
    rintro ⟨ch, hMarks, -⟩
    match tokens, hNotThree, hNotMore with
    | [], _, _ => cases ch <;> simp [Chain.marks, Comparison.marks] at hMarks
    | [_], _, _ => cases ch <;> simp [Chain.marks, Comparison.marks] at hMarks
    | [_, _], _, _ => cases ch <;> simp [Chain.marks, Comparison.marks] at hMarks
    | [a, b, c], hNotThree, _ => exact hNotThree a b c rfl
    | a :: b :: c :: d :: rest, _, hNotMore => exact hNotMore a b c d rest rfl

/-- The names among the marks of a text. -/
theorem isName_of_tokenize {input text : String} {tokens : List Token}
    (hTokens : tokenize input = .ok tokens) (hText : .name text ∈ tokens.map Token.mark) :
    IsName text := by
  obtain ⟨t, ht, hMark⟩ := List.mem_map.mp hText
  obtain ⟨hKind, rfl⟩ := Token.mark_eq_name_iff.mp hMark
  have hLegal := legal_of_tokenize hTokens t ht
  rwa [Token.Legal, if_pos hKind] at hLegal

/-- What it means that a text says a chain. -/
structure Chain.SaidBy (ch : Chain) (input : String) : Prop where
  /-- The tokens of the text are the marks of the chain. -/
  tokens : ∃ tokens, tokenize input = .ok tokens ∧ tokens.map Token.mark = ch.marks
  /-- The marks, one after the other, are the text without its blanks. -/
  text : ch.marks.flatMap (fun mark => mark.text.toList) = solid input.toList
  /-- All fields and values are names. -/
  names : ∀ c ∈ ch.comparisons, IsName c.field ∧ IsName c.value

/-- A text says one chain at most. -/
theorem Chain.SaidBy.unique {ch other : Chain} {input : String} (h : ch.SaidBy input)
    (hOther : other.SaidBy input) : ch = other := by
  obtain ⟨tokens, hTokens, hMarks⟩ := h.tokens
  obtain ⟨tokens', hTokens', hMarks'⟩ := hOther.tokens
  have hSame : tokens = tokens' := Except.ok.inj (hTokens.symm.trans hTokens')
  apply marks_injective
  rw [← hMarks, ← hMarks', hSame]

/-- A text says the chain whose marks are those of its tokens. -/
theorem Chain.saidBy_of_tokenize {input : String} {tokens : List Token} {ch : Chain}
    (hTokens : tokenize input = .ok tokens) (hMarks : tokens.map Token.mark = ch.marks) :
    ch.SaidBy input where
  tokens := ⟨tokens, hTokens, hMarks⟩
  text := by
    have hTexts : tokens.map (fun t => t.mark.text) = tokens.map Token.text :=
      List.map_congr_left fun t ht => (legal_of_tokenize hTokens t ht).text_mark
    calc ch.marks.flatMap (fun mark => mark.text.toList)
        = (tokens.map fun t => t.mark.text).flatMap String.toList := by
          rw [← hMarks, List.flatMap_map, List.flatMap_map]
      _ = solid input.toList := by
          rw [hTexts, List.flatMap_map, text_of_tokenize hTokens]
  names := by
    have hName : ∀ text, Mark.name text ∈ ch.marks → IsName text := by
      rw [← hMarks]
      exact fun text hText => isName_of_tokenize hTokens hText
    intro c hc
    obtain ⟨hField, hValue⟩ := name_mem_marks hc
    exact ⟨hName _ hField, hName _ hValue⟩

/-- A text that is read as a filter is blank, and the filter matches all, or it says the chain that
the filter is. -/
theorem parse_ok {input : String} {f : Filter} (h : parse input = .ok f) :
    (isBlankText input = true ∧ f = .all) ∨ ∃ ch : Chain, ch.SaidBy input ∧ f = ch.filter := by
  obtain ⟨tokens, hTokens, hFilter⟩ := bind_eq_ok.mp h
  unfold ofTokens at hFilter
  split at hFilter
  case h_1 =>
    left
    cases hFilter
    -- without tokens nothing is left of the text but blanks
    have hSolid : solid input.toList = [] := (text_of_tokenize hTokens).symm
    rw [solid, List.filter_eq_nil_iff] at hSolid
    refine ⟨?_, rfl⟩
    rw [isBlankText, List.all_eq_true]
    intro c hc
    simpa using hSolid c hc
  case h_2 =>
    right
    obtain ⟨ch, hMarks, rfl⟩ := chain_ok_iff.mp hFilter
    exact ⟨ch, Chain.saidBy_of_tokenize hTokens hMarks, rfl⟩

end BuildQuery.Filter
