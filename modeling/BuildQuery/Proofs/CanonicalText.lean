import BuildQuery.Proofs.Grouping
import BuildQuery.Proofs.Writing

/-!
# BuildQuery — the canonical text of a filter

The canonical text puts parentheses around a right side that is itself joined, and around no other
filter. It is read from its end: the last side is a name, a pair of parentheses with nothing in between
or one around a joined filter, and what stands before the operator in front of it is the left side. So
the text determines the filter, however it is grouped.

The grammar knows no parentheses. The filters that are read from text group to the right, which is how
a text is grouped that has none, so such a filter is read back from its canonical text without them.

Main results:

* `canonical_cancel` — what stands before a canonical text, and the filter, are determined together.
* `render_injective_of_named` — filters of names are equal if their canonical texts are.
* `parse_spaced` — a chain is read from its marks with a blank between each two.
* `parse_canonical` — a filter that was read is read back from its canonical text.
-/

namespace BuildQuery.Filter

open Text

-- ---------------------------------------------------------------------------
-- Characters of the canonical text
-- ---------------------------------------------------------------------------

/-- All fields and values are names. -/
def Named : Filter → Prop
  | .all => True
  | .compare field _ value => IsName field ∧ IsName value
  | .join _ left right => left.Named ∧ right.Named

/-- The characters of the canonical text. -/
def canonical (f : Filter) : List Char :=
  f.render.toList

/-- The characters of a right side. -/
def side (f : Filter) : List Char :=
  if f.isJoin then ['('] ++ f.canonical ++ [')'] else f.canonical

/-- The filter that matches all is a pair of parentheses. -/
theorem canonical_all : canonical .all = ['(', ')'] := by
  decide

/-- A comparison is its field, its operator and its value with blanks between them, and ends with the value.
-/
theorem canonical_compare (field : String) (op : CompareOp) (value : String) :
    canonical (.compare field op value) =
      (field.toList ++ [' '] ++ op.symbol.toList ++ [' ']) ++ value.toList := by
  simp [canonical, render]

/-- A joined filter is its left side, its operator between blanks and its right side, and ends with the
latter. -/
theorem canonical_join (op : JoinOp) (left right : Filter) :
    canonical (.join op left right) =
      (left.canonical ++ [' '] ++ op.symbol.toList ++ [' ']) ++ right.side := by
  unfold canonical side
  rw [render]
  split <;> simp [canonical]

/-- The blanks and parentheses of the canonical text are in no name. -/
theorem isIdentChar_mark {c : Char} (h : c ∈ [' ', '(', ')']) : isIdentChar c = false := by
  have hMarks : [' ', '(', ')'].all (fun c => !isIdentChar c) = true := by decide +kernel
  simpa using List.all_eq_true.mp hMarks c h

-- ---------------------------------------------------------------------------
-- Runs of characters at the end
-- ---------------------------------------------------------------------------

/-- The characters do not end with one of a kind. -/
def Stops (kind : Char → Bool) (cs : List Char) : Prop :=
  ∀ c ∈ cs.getLast?, kind c = false

/-- What ends with a character of another kind stops. -/
theorem stops_concat {kind : Char → Bool} {c : Char} (h : kind c = false) (cs : List Char) :
    Stops kind (cs ++ [c]) := by
  intro d hd
  rw [List.getLast?_concat] at hd
  obtain rfl : c = d := Option.some.inj hd
  exact h

/-- A run of characters of one kind is told from what stops in front of it. -/
theorem run_cancel {kind : Char → Bool} {cs ds run run' : List Char} (hcs : Stops kind cs)
    (hds : Stops kind ds) (hRun : ∀ c ∈ run, kind c = true) (hRun' : ∀ c ∈ run', kind c = true)
    (h : cs ++ run = ds ++ run') : cs = ds ∧ run = run' := by
  -- the longer of the two fronts would end inside the run behind the shorter one
  have hSame : ∀ {front extra back : List Char}, Stops kind (front ++ extra) →
      (∀ c ∈ extra ++ back, kind c = true) → extra = [] := by
    intro front extra back hStops hBack
    rcases List.eq_nil_or_concat' extra with hNil | ⟨init, c, rfl⟩
    · exact hNil
    · have hLast : kind c = false := hStops c (by rw [← List.append_assoc, List.getLast?_concat]; rfl)
      rw [hBack c (by simp)] at hLast
      cases hLast
  rcases List.append_eq_append_iff.mp h with ⟨extra, rfl, rfl⟩ | ⟨extra, rfl, rfl⟩
  · obtain rfl := hSame hds hRun
    simp
  · obtain rfl := hSame hcs hRun'
    simp

/-- What ends with a name does not end with a character that is in no name. -/
theorem name_ne_concat {cs ds : List Char} {name : String} {c : Char} (h : IsName name)
    (hc : isIdentChar c = false) : cs ++ name.toList ≠ ds ++ [c] := by
  intro hEq
  obtain ⟨init, d, hName⟩ := (List.eq_nil_or_concat' name.toList).resolve_left h.1
  have hIdent : isIdentChar d = true := h.2 d (by rw [hName]; simp)
  rw [hName, ← List.append_assoc] at hEq
  obtain rfl : d = c := by simpa using (List.append_inj' hEq rfl).2
  rw [hc] at hIdent
  cases hIdent

/-- The two sides of a comparison are told from what stops in front of it. -/
theorem comparison_cancel {cs ds : List Char} {field value field' value' : String}
    {op op' : CompareOp} (hcs : Stops isIdentChar cs) (hds : Stops isIdentChar ds)
    (hNamed : Named (.compare field op value)) (hNamed' : Named (.compare field' op' value'))
    (h : cs ++ canonical (.compare field op value) = ds ++ canonical (.compare field' op' value')) :
    cs = ds ∧ field = field' ∧ op = op' ∧ value = value' := by
  have hBlank : isIdentChar ' ' = false := isIdentChar_mark (by decide)
  have hSolid : ∀ op : CompareOp, ∀ c ∈ op.symbol.toList, (c != ' ') = true := by
    intro op
    refine List.all_eq_true.mp ?_
    cases op <;> decide
  rw [canonical_compare, canonical_compare] at h
  have hValues : (cs ++ field.toList ++ [' '] ++ op.symbol.toList ++ [' ']) ++ value.toList =
      (ds ++ field'.toList ++ [' '] ++ op'.symbol.toList ++ [' ']) ++ value'.toList := by
    simpa using h
  -- the value, the operator and the field are three runs, each told from the blank in front of it, or from
  -- what stops in front of the filter
  obtain ⟨hRest, hValue⟩ := run_cancel (stops_concat hBlank _) (stops_concat hBlank _) hNamed.2.2
    hNamed'.2.2 hValues
  have hOps : (cs ++ field.toList ++ [' ']) ++ op.symbol.toList =
      (ds ++ field'.toList ++ [' ']) ++ op'.symbol.toList := List.append_cancel_right hRest
  have hStops : ∀ cs, Stops (· != ' ') (cs ++ [' ']) := fun cs => stops_concat (by decide) cs
  obtain ⟨hRest, hOp⟩ := run_cancel (hStops _) (hStops _) (hSolid op) (hSolid op') hOps
  obtain ⟨hFront, hField⟩ := run_cancel hcs hds hNamed.1.2 hNamed'.1.2 (List.append_cancel_right hRest)
  refine ⟨hFront, String.toList_inj.mp hField, ?_, String.toList_inj.mp hValue⟩
  cases op <;> cases op' <;> first | rfl | exact absurd hOp (by decide)

-- ---------------------------------------------------------------------------
-- The canonical text determines the filter
-- ---------------------------------------------------------------------------

/-- A place where a filter may begin: at the start, or behind an opening parenthesis. -/
def Opens (cs : List Char) : Prop :=
  cs = [] ∨ ∃ init, cs = init ++ ['(']

/-- Where a filter may begin no name goes on. -/
theorem Opens.stops {cs : List Char} (h : Opens cs) : Stops isIdentChar cs := by
  rcases h with rfl | ⟨init, rfl⟩
  · exact nofun
  · exact stops_concat (isIdentChar_mark (by decide)) init

/-- No filter begins behind a blank. -/
theorem not_opens_blank (cs : List Char) : ¬ Opens (cs ++ [' ']) := by
  rintro (hNil | ⟨init, hInit⟩)
  · simp at hNil
  · simpa using (List.append_inj' hInit rfl).2

/-- The text of a filter and what stands before it, from where filters may begin, determine the filter. -/
def Cancels (f : Filter) : Prop :=
  ∀ {g : Filter} {cs ds : List Char}, g.Named → Opens cs → Opens ds →
    cs ++ f.canonical = ds ++ g.canonical → cs = ds ∧ f = g

/-- A joined right side has parentheses around it. -/
theorem side_of_isJoin {f : Filter} (h : f.isJoin = true) :
    f.side = ['('] ++ f.canonical ++ [')'] :=
  if_pos h

/-- Any other right side has none. -/
theorem side_of_not_isJoin {f : Filter} (h : f.isJoin = false) : f.side = f.canonical :=
  if_neg (by simp [h])

/-- Behind a comparison there is no parenthesis. -/
theorem compare_ne_concat {cs ds : List Char} {field value : String} {op : CompareOp} {c : Char}
    (h : Named (.compare field op value)) (hc : isIdentChar c = false) :
    cs ++ canonical (.compare field op value) ≠ ds ++ [c] := by
  rw [canonical_compare, ← List.append_assoc]
  exact name_ne_concat h.2 hc

/-- No filter ends with an opening parenthesis. -/
theorem canonical_ne_open {f : Filter} (h : f.Named) {cs ds : List Char} :
    cs ++ f.canonical ≠ ds ++ ['('] := by
  -- on the filter: the text ends with the right side, which is closed or ends like the filter there
  induction f generalizing cs with
  | all =>
    intro hEq
    rw [canonical_all, ← List.singleton_append, ← List.append_assoc] at hEq
    simpa using (List.append_inj' hEq rfl).2
  | compare field op value => exact compare_ne_concat h (isIdentChar_mark (by decide))
  | join op left right _ ih =>
    intro hEq
    rw [canonical_join, ← List.append_assoc] at hEq
    cases hRight : right.isJoin with
    | true =>
      rw [side_of_isJoin hRight, ← List.append_assoc] at hEq
      simpa using (List.append_inj' hEq rfl).2
    | false =>
      rw [side_of_not_isJoin hRight] at hEq
      exact ih h.2 hEq

/-- A pair of parentheses with nothing in between is no side that is joined. -/
theorem all_ne_side {f : Filter} {cs ds : List Char} (hf : f.Named) (hJoin : f.isJoin = true) :
    cs ++ canonical .all ≠ ds ++ f.side := by
  intro hEq
  have hClosed : (cs ++ ['(']) ++ [')'] = (ds ++ ['('] ++ f.canonical) ++ [')'] := by
    simpa [canonical_all, side_of_isJoin hJoin] using hEq
  exact canonical_ne_open hf (List.append_cancel_right hClosed).symm

/-- A comparison is no side with parentheses. -/
theorem compare_ne_side {f : Filter} {cs ds : List Char} {field value : String} {op : CompareOp}
    (h : Named (.compare field op value)) (hf : ∀ field' op' value', f ≠ .compare field' op' value') :
    cs ++ canonical (.compare field op value) ≠ ds ++ f.side := by
  have hClose : ∃ front, f.side = front ++ [')'] := by
    cases f with
    | all => exact ⟨['('], canonical_all⟩
    | compare field' op' value' => exact absurd rfl (hf field' op' value')
    | join op' left right => exact ⟨'(' :: canonical (.join op' left right), rfl⟩
  obtain ⟨front, hSide⟩ := hClose
  rw [hSide, ← List.append_assoc]
  exact compare_ne_concat h (isIdentChar_mark (by decide))

/-- A side and what stops before it are determined, once that is known of a joined side. -/
theorem side_cancel {f g : Filter} {cs ds : List Char} (hf : f.Named) (hg : g.Named)
    (hCancels : f.isJoin = true → f.Cancels) (hcs : Stops isIdentChar cs) (hds : Stops isIdentChar ds)
    (h : cs ++ f.side = ds ++ g.side) : cs = ds ∧ f = g := by
  -- both sides have to be of one kind, since their ends differ; of the same kind they are told apart by
  -- what is in them
  cases f with
  | all =>
    cases g with
    | all => exact ⟨List.append_cancel_right h, rfl⟩
    | compare field' op' value' => exact absurd h.symm (compare_ne_side hg nofun)
    | join op' left' right' => exact absurd h (all_ne_side hg rfl)
  | compare field op value =>
    cases g with
    | all => exact absurd h (compare_ne_side hf nofun)
    | compare field' op' value' =>
      obtain ⟨hFront, rfl, rfl, rfl⟩ := comparison_cancel hcs hds hf hg h
      exact ⟨hFront, rfl⟩
    | join op' left' right' => exact absurd h (compare_ne_side hf nofun)
  | join op left right =>
    cases g with
    | all => exact absurd h.symm (all_ne_side hf rfl)
    | compare field' op' value' => exact absurd h.symm (compare_ne_side hg nofun)
    | join op' left' right' =>
      -- the opening parenthesis makes a place where a filter may begin
      have hClosed : ((cs ++ ['(']) ++ canonical (.join op left right)) ++ [')'] =
          ((ds ++ ['(']) ++ canonical (.join op' left' right')) ++ [')'] := by
        simpa [side, isJoin] using h
      obtain ⟨hFront, hSame⟩ := hCancels rfl hg (Or.inr ⟨cs, rfl⟩) (Or.inr ⟨ds, rfl⟩)
        (List.append_cancel_right hClosed)
      exact ⟨List.append_cancel_right hFront, hSame⟩

/-- An operator between blanks is told from the filter in front of it. -/
theorem join_cancel {cs ds : List Char} {op op' : JoinOp}
    (h : cs ++ [' '] ++ op.symbol.toList ++ [' '] = ds ++ [' '] ++ op'.symbol.toList ++ [' ']) :
    cs = ds ∧ op = op' := by
  have hOps := List.append_cancel_right h
  have hOne : op.symbol.toList.length = op'.symbol.toList.length := by
    cases op <;> cases op' <;> rfl
  obtain ⟨hFront, hOp⟩ := List.append_inj' hOps hOne
  refine ⟨List.append_cancel_right hFront, ?_⟩
  cases op <;> cases op' <;> first | rfl | exact absurd hOp (by decide)

/-- A joined filter and the front of its right side. -/
theorem append_canonical_join (cs : List Char) (op : JoinOp) (left right : Filter) :
    cs ++ canonical (.join op left right) =
      ((cs ++ left.canonical) ++ [' '] ++ op.symbol.toList ++ [' ']) ++ right.side := by
  rw [canonical_join]
  simp only [List.append_assoc]

/-- A joined filter is not written like one that is not joined. -/
theorem join_ne {left right g : Filter} {op : JoinOp} {cs ds : List Char} (hRight : right.Named)
    (hg : g.Named) (hJoin : g.isJoin = false) (hds : Opens ds) :
    cs ++ canonical (.join op left right) ≠ ds ++ g.canonical := by
  intro hEq
  rw [append_canonical_join, ← side_of_not_isJoin hJoin] at hEq
  have hBlank : isIdentChar ' ' = false := isIdentChar_mark (by decide)
  have hNoJoin : g.isJoin = true → g.Cancels := by simp [hJoin]
  obtain ⟨hFront, -⟩ := side_cancel hg hRight hNoJoin hds.stops (stops_concat hBlank _) hEq.symm
  exact not_opens_blank _ (hFront ▸ hds)

/-- A filter that is not joined is determined like a side. -/
theorem cancels_of_not_isJoin {f : Filter} (h : f.Named) (hJoin : f.isJoin = false) : f.Cancels := by
  intro g cs ds hg hcs hds hEq
  cases hOther : g.isJoin with
  | false =>
    have hNoJoin : f.isJoin = true → f.Cancels := by simp [hJoin]
    rw [← side_of_not_isJoin hJoin, ← side_of_not_isJoin hOther] at hEq
    exact side_cancel h hg hNoJoin hcs.stops hds.stops hEq
  | true =>
    cases g with
    | all => cases hOther
    | compare field op value => cases hOther
    | join op left right => exact absurd hEq.symm (join_ne hg.2 h hJoin hcs)

/-- **What stands before a canonical text, and the filter, are determined together.** -/
theorem canonical_cancel {f : Filter} (h : f.Named) : f.Cancels := by
  -- on the filter; a joined one gives back its right side first, then the operator, then the left side
  induction f with
  | all => exact cancels_of_not_isJoin h rfl
  | compare field op value => exact cancels_of_not_isJoin h rfl
  | join op left right ihLeft ihRight =>
    intro g cs ds hg hcs hds hEq
    cases g with
    | all => exact absurd hEq (join_ne h.2 hg rfl hds)
    | compare field' op' value' => exact absurd hEq (join_ne h.2 hg rfl hds)
    | join op' left' right' =>
      have hBlank : isIdentChar ' ' = false := isIdentChar_mark (by decide)
      rw [append_canonical_join, append_canonical_join] at hEq
      -- the right side stands behind a blank, where filters do not begin, hence the statement on sides
      obtain ⟨hFront, rfl⟩ := side_cancel h.2 hg.2 (fun _ => ihRight h.2) (stops_concat hBlank _)
        (stops_concat hBlank _) hEq
      obtain ⟨hLeft, rfl⟩ := join_cancel hFront
      obtain ⟨hSame, rfl⟩ := ihLeft h.1 hg.1 hcs hds hLeft
      exact ⟨hSame, rfl⟩

/-- **The canonical text determines the filter**, whatever its grouping is. -/
theorem render_injective_of_named {f g : Filter} (hf : f.Named) (hg : g.Named)
    (h : f.render = g.render) : f = g := by
  have hChars : [] ++ f.canonical = [] ++ g.canonical := congrArg String.toList h
  exact (canonical_cancel hf hg (Or.inl rfl) (Or.inl rfl) hChars).2

/-- A filter that groups to the left, with a joined right side that matches all in its own left side. -/
theorem render_injective_of_named_mixed :
    let a : Filter := .compare "a" .eq "é"
    let b : Filter := .compare "b-1" .ne "2.0"
    let right : Filter := .join .and .all b
    let f : Filter := .join .or (.join .and a b) right
    let g : Filter := [(JoinOp.and, b), (JoinOp.or, right)].foldl (fun f (op, side) => .join op f side) a
    f.Named ∧ g.Named ∧ f.render = "a = é & b-1 != 2.0 | (() & b-1 != 2.0)" ∧ f.render = g.render ∧
      f = g := by
  intro a b right f g
  have hNames : ∀ name ∈ ["a", "é", "b-1", "2.0"], IsName name := by
    intro name hName
    have hChars : ["a", "é", "b-1", "2.0"].all (fun name => name.toList.all isIdentChar) = true := by
      decide +kernel
    refine ⟨?_, List.all_eq_true.mp (List.all_eq_true.mp hChars name hName)⟩
    exact (by decide : ∀ name ∈ ["a", "é", "b-1", "2.0"], name.toList ≠ []) name hName
  have ha : a.Named := ⟨hNames "a" (by decide), hNames "é" (by decide)⟩
  have hb : b.Named := ⟨hNames "b-1" (by decide), hNames "2.0" (by decide)⟩
  have hf : f.Named := ⟨⟨ha, hb⟩, trivial, hb⟩
  have hText : f.render = g.render := by decide +kernel
  exact ⟨hf, hf, by decide +kernel, hText, render_injective_of_named hf hf hText⟩

-- ---------------------------------------------------------------------------
-- Marks with blanks between them
-- ---------------------------------------------------------------------------

/-- Marks with one blank between each two. -/
def spaced : List Mark → List Char
  | [] => []
  | [m] => m.text.toList
  | m :: ms => m.text.toList ++ ' ' :: spaced ms

/-- The first mark stands in front of the others with a blank between. -/
theorem spaced_cons (m : Mark) {ms : List Mark} (h : ms ≠ []) :
    spaced (m :: ms) = m.text.toList ++ ' ' :: spaced ms :=
  spaced.eq_3 m ms h

/-- A mark is one token, up to where a name ends. -/
theorem scan_mark {m : Mark} {cs : List Char} (offset : Nat)
    (hName : ∀ text, m = .name text → IsName text) (hEnd : EndsName cs) :
    ∃ t : Token, t.mark = m ∧ scan offset (m.text.toList ++ cs) =
      (scan (offset + byteLength m.text.toList) cs).map (t :: ·) := by
  cases m with
  | name text => exact ⟨⟨.ident, text, offset⟩, rfl, scan_name (hName text rfl) hEnd⟩
  | compare op =>
    cases op with
    | eq => exact ⟨⟨.equal, "=", offset⟩, rfl, scan_operator (by decide : TokenKind.equal ≠ .ident)⟩
    | ne => exact ⟨⟨.notEqual, "!=", offset⟩, rfl, scan_operator (by decide : TokenKind.notEqual ≠ .ident)⟩
  | join op =>
    cases op with
    | and => exact ⟨⟨.and, "&", offset⟩, rfl, scan_operator (by decide : TokenKind.and ≠ .ident)⟩
    | or => exact ⟨⟨.or, "|", offset⟩, rfl, scan_operator (by decide : TokenKind.or ≠ .ident)⟩

/-- Marks with blanks between them are cut into tokens that make these marks. -/
theorem scan_spaced {ms : List Mark} (offset : Nat) (hNames : ∀ text, .name text ∈ ms → IsName text) :
    ∃ tokens, scan offset (spaced ms) = .ok tokens ∧ tokens.map Token.mark = ms := by
  induction ms generalizing offset with
  | nil => exact ⟨[], by rw [spaced, scan], rfl⟩
  | cons m ms ih =>
    have hName : ∀ text, m = .name text → IsName text := by
      rintro text rfl
      exact hNames text List.mem_cons_self
    -- a name ends at the blank behind it or at the end of the text
    by_cases hLast : ms = []
    · have hEnd : EndsName [] := by
        rintro c ⟨⟩
      obtain ⟨t, hMark, hScan⟩ := scan_mark offset hName hEnd
      refine ⟨[t], ?_, by rw [hLast, List.map_cons, hMark]; rfl⟩
      rw [hLast, spaced, ← List.append_nil m.text.toList, hScan, scan]
      rfl
    · have hEnd : EndsName (' ' :: spaced ms) := by
        rintro c ⟨⟩
        exact isIdentChar_mark (by decide)
      obtain ⟨t, hMark, hScan⟩ := scan_mark offset hName hEnd
      obtain ⟨tokens, hTokens, hMarks⟩ := ih (offset + byteLength m.text.toList + ' '.utf8Size)
        fun text hText => hNames text (List.mem_cons_of_mem _ hText)
      refine ⟨t :: tokens, ?_, by rw [List.map_cons, hMark, hMarks]⟩
      rw [spaced_cons m hLast, hScan, scan_blank (by decide), hTokens]
      rfl

/-- **A chain is read from its marks** with a blank between each two. -/
theorem parse_spaced {ch : Chain} (h : ∀ text, .name text ∈ ch.marks → IsName text) :
    parse (String.ofList (spaced ch.marks)) = .ok ch.filter := by
  obtain ⟨tokens, hTokens, hMarks⟩ := scan_spaced 0 h
  have hRead : ofTokens tokens = .ok ch.filter :=
    ofTokens_ok_iff_chain.mpr (Or.inr ⟨ch, hMarks, rfl⟩)
  refine bind_eq_ok.mpr ⟨tokens, ?_, hRead⟩
  rw [tokenize, String.toList_ofList]
  exact hTokens

-- ---------------------------------------------------------------------------
-- Reading the canonical text
-- ---------------------------------------------------------------------------

/-- A character that is no parenthesis. -/
def isPlain (c : Char) : Bool :=
  c != '(' && c != ')'

/-- The text without its parentheses. -/
def withoutParentheses (s : String) : String :=
  String.ofList (s.toList.filter isPlain)

/-- No character of a name is a parenthesis. -/
theorem isPlain_of_isIdentChar {c : Char} (h : isIdentChar c = true) : isPlain c = true := by
  rw [isPlain, Bool.and_eq_true, bne_iff_ne, bne_iff_ne]
  constructor
  · rintro rfl
    exact nomatch h.symm.trans (isIdentChar_mark (by decide))
  · rintro rfl
    exact nomatch h.symm.trans (isIdentChar_mark (by decide))

/-- A name has no parentheses. -/
theorem filter_isPlain_name {name : String} (h : IsName name) :
    name.toList.filter isPlain = name.toList :=
  List.filter_eq_self.mpr fun c hc => isPlain_of_isIdentChar (h.2 c hc)

/-- A right side differs from its filter by parentheses only. -/
theorem filter_isPlain_side (f : Filter) : f.side.filter isPlain = f.canonical.filter isPlain := by
  unfold side
  split
  · simp [isPlain]
  · rfl

/-- A comparison has no parentheses. -/
theorem filter_isPlain_comparison {c : Comparison} (h : IsName c.field ∧ IsName c.value) :
    c.filter.canonical.filter isPlain = spaced c.marks := by
  have hOp : c.op.symbol.toList.filter isPlain = c.op.symbol.toList := by
    cases c.op <;> decide
  have hBlank : [' '].filter isPlain = [' '] := by decide
  rw [Comparison.filter, canonical_compare]
  simp only [List.filter_append, filter_isPlain_name h.1, filter_isPlain_name h.2, hOp, hBlank]
  simp [Comparison.marks, spaced, Mark.text]

/-- Marks behind other marks have a blank between the two. -/
theorem spaced_append {ms later : List Mark} (hms : ms ≠ []) (hLater : later ≠ []) :
    spaced (ms ++ later) = spaced ms ++ ' ' :: spaced later := by
  induction ms with
  | nil => exact absurd rfl hms
  | cons m ms ih =>
    by_cases hLast : ms = []
    · rw [hLast]
      exact spaced_cons m hLater
    · rw [List.cons_append, spaced_cons m (by simp [hLast]), ih hLast, spaced_cons m hLast,
        List.append_assoc, List.cons_append]

/-- A chain is written as its marks, apart from the parentheses. -/
theorem filter_isPlain_canonical {ch : Chain}
    (h : ∀ c ∈ ch.comparisons, IsName c.field ∧ IsName c.value) :
    ch.filter.canonical.filter isPlain = spaced ch.marks := by
  -- on the chain, which groups to the right: what is joined later is the right side
  induction ch with
  | single c => exact filter_isPlain_comparison (h c List.mem_cons_self)
  | cons c op later ih =>
    obtain ⟨hFirst, hLater⟩ := List.forall_mem_cons.mp h
    have hOp : op.symbol.toList.filter isPlain = op.symbol.toList := by
      cases op <;> decide
    have hBlank : [' '].filter isPlain = [' '] := by decide
    rw [Chain.filter, canonical_join, Chain.marks, spaced_append (by simp [Comparison.marks]) (by simp),
      spaced_cons _ later.marks_ne_nil]
    simp only [List.filter_append, filter_isPlain_comparison hFirst, filter_isPlain_side, ih hLater, hOp,
      hBlank]
    simp [Mark.text]

/-- A filter that was read is read back once the parentheses are taken out. -/
theorem parse_withoutParentheses {input : String} {f : Filter} (h : parse input = .ok f) :
    parse (withoutParentheses f.render) = .ok f := by
  -- an empty text stands for the filter that matches all, whose parentheses are all there is
  rcases parse_ok h with ⟨-, rfl⟩ | ⟨ch, hSaid, rfl⟩
  · decide +kernel
  · obtain ⟨tokens, hTokens, hMarks⟩ := hSaid.tokens
    have hNames : ∀ text, .name text ∈ ch.marks → IsName text := by
      rw [← hMarks]
      exact fun text hText => isName_of_tokenize hTokens hText
    have hText : ch.filter.render.toList.filter isPlain = spaced ch.marks :=
      filter_isPlain_canonical hSaid.names
    rw [withoutParentheses, hText]
    exact parse_spaced hNames

/--
**A filter that was read is read back from its canonical text** once the parentheses are taken out, and
from the text itself if there are none. So two texts stand for one filter exactly if the canonical texts
are the same.
-/
theorem parse_canonical {input : String} {f : Filter} (h : parse input = .ok f) :
    parse (withoutParentheses f.render) = .ok f ∧
      ((∀ c ∈ f.render.toList, c ≠ '(' ∧ c ≠ ')') → parse f.render = .ok f) ∧
      ∀ (other : String) (g : Filter), parse other = .ok g → (f = g ↔ f.render = g.render) := by
  have hBack := parse_withoutParentheses h
  refine ⟨hBack, ?_, ?_⟩
  · intro hNone
    have hSame : withoutParentheses f.render = f.render := by
      rw [withoutParentheses, List.filter_eq_self.mpr, String.ofList_toList]
      intro c hc
      rw [isPlain, Bool.and_eq_true, bne_iff_ne, bne_iff_ne]
      exact hNone c hc
    rwa [hSame] at hBack
  · intro other g hg
    refine ⟨congrArg render, ?_⟩
    intro hText
    have hOther := parse_withoutParentheses hg
    rw [← hText, hBack] at hOther
    exact Except.ok.inj hOther

/-- A filter of three comparisons, and a text without its one pair of parentheses. -/
theorem parse_canonical_three :
    let f : Filter := .join .and (.compare "a" .eq "é")
      (.join .or (.compare "b-1" .ne "2.0") (.compare "c" .eq "c"))
    parse "a=é&b-1!=2.0 |c =c" = .ok f ∧ f.render = "a = é & (b-1 != 2.0 | c = c)" ∧
      withoutParentheses f.render = "a = é & b-1 != 2.0 | c = c" ∧
      parse (withoutParentheses f.render) = .ok f := by
  intro f
  have hRead : parse "a=é&b-1!=2.0 |c =c" = .ok f := by decide +kernel
  exact ⟨hRead, by decide +kernel, by decide +kernel, (parse_canonical hRead).1⟩

end BuildQuery.Filter
