import BuildQuery.Proofs.Chains
import Mathlib.Computability.RegularExpressions

/-!
# BuildQuery — what tokens are read as

Whether tokens are a filter depends on their kinds only, and the kinds are those of a regular
expression. The filter that is read groups to the right, and its marks from left to right are the
marks of the tokens: reading loses the offsets and nothing else.

Main results:

* `mem_filterKinds_iff` — the kinds of the expression are those of no marks and of chains.
* `groupedRight_iff` — the filters that group to the right are those of chains.
* `ofTokens_inverts_marks` — which tokens are read, what they are read as, and that each filter
  which groups to the right is read from its own tokens.
-/

namespace BuildQuery.Filter

-- ---------------------------------------------------------------------------
-- Kinds
-- ---------------------------------------------------------------------------

/-- The kind of the token that makes a mark. -/
def Mark.kind : Mark → TokenKind
  | .name _ => .ident
  | .compare .eq => .equal
  | .compare .ne => .notEqual
  | .join .and => .and
  | .join .or => .or

/-- A token has the kind of the mark that it makes. -/
theorem Token.kind_mark (t : Token) : t.mark.kind = t.kind := by
  unfold Token.mark
  split <;> simp_all [Mark.kind]

/-- The marks of the kind of names are the names. -/
theorem Mark.kind_eq_ident_iff {m : Mark} : m.kind = .ident ↔ ∃ text, m = .name text := by
  rcases m with text | op | op
  · simp [Mark.kind]
  · cases op <;> simp [Mark.kind]
  · cases op <;> simp [Mark.kind]

/-- The marks of the kinds of comparisons are the operators that compare. -/
theorem Mark.kind_eq_compare_iff {m : Mark} :
    m.kind = .equal ∨ m.kind = .notEqual ↔ ∃ op, m = .compare op := by
  rcases m with text | op | op
  · simp [Mark.kind]
  · cases op <;> simp [Mark.kind]
  · cases op <;> simp [Mark.kind]

/-- The marks of the kinds of conjunctions are the operators that join. -/
theorem Mark.kind_eq_join_iff {m : Mark} :
    m.kind = .and ∨ m.kind = .or ↔ ∃ op, m = .join op := by
  rcases m with text | op | op
  · simp [Mark.kind]
  · cases op <;> simp [Mark.kind]
  · cases op <;> simp [Mark.kind]

/-- The kinds of a comparison. -/
def comparisonKinds : RegularExpression TokenKind :=
  .char .ident * (.char .equal + .char .notEqual) * .char .ident

/-- The kinds of a conjunction. -/
def joinKinds : RegularExpression TokenKind :=
  .char .and + .char .or

/-- The kinds of a filter: none at all, or those of a comparison and of any number of groups that are
a conjunction and a comparison. -/
def filterKinds : RegularExpression TokenKind :=
  1 + comparisonKinds * (joinKinds * comparisonKinds).star

-- ---------------------------------------------------------------------------
-- The kinds of chains
-- ---------------------------------------------------------------------------

/-- The kinds of a comparison are those of a name, an operator and a name. -/
theorem mem_comparisonKinds_iff {ms : List Mark} :
    ms.map Mark.kind ∈ comparisonKinds.matches' ↔ ∃ c : Comparison, ms = c.marks := by
  -- the expression says three kinds, of which only the second leaves a choice
  have hKinds : ms.map Mark.kind ∈ comparisonKinds.matches' ↔
      ∃ k, (k = .equal ∨ k = .notEqual) ∧ ms.map Mark.kind = [.ident, k, .ident] := by
    constructor
    · rintro ⟨_, ⟨_, hField, _, hOp, rfl⟩, _, hValue, hms⟩
      rcases hOp with hOp | hOp
      all_goals
        rw [Set.mem_singleton_iff.mp hField, Set.mem_singleton_iff.mp hOp,
          Set.mem_singleton_iff.mp hValue] at hms
        exact ⟨_, by simp, hms.symm⟩
    · rintro ⟨k, hk, hms⟩
      refine ⟨[.ident, k], ⟨[.ident], rfl, [k], ?_, rfl⟩, [.ident], rfl, hms.symm⟩
      rcases hk with rfl | rfl
      · exact Or.inl rfl
      · exact Or.inr rfl
  rw [hKinds]
  constructor
  · rintro ⟨k, hk, hms⟩
    -- three kinds come from three marks
    obtain ⟨first, ms₁, rfl, hFirst, hms₁⟩ := List.map_eq_cons_iff.mp hms
    obtain ⟨second, ms₂, rfl, hSecond, hms₂⟩ := List.map_eq_cons_iff.mp hms₁
    obtain ⟨third, ms₃, rfl, hThird, hms₃⟩ := List.map_eq_cons_iff.mp hms₂
    rw [← hSecond] at hk
    obtain ⟨field, rfl⟩ := Mark.kind_eq_ident_iff.mp hFirst
    obtain ⟨op, rfl⟩ := Mark.kind_eq_compare_iff.mp hk
    obtain ⟨value, rfl⟩ := Mark.kind_eq_ident_iff.mp hThird
    rw [List.map_eq_nil_iff.mp hms₃]
    exact ⟨⟨field, op, value⟩, rfl⟩
  · rintro ⟨c, rfl⟩
    exact ⟨(Mark.compare c.op).kind, Mark.kind_eq_compare_iff.mpr ⟨c.op, rfl⟩, rfl⟩

/-- The kinds of a conjunction are those of one operator that joins. -/
theorem mem_joinKinds_iff {ms : List Mark} :
    ms.map Mark.kind ∈ joinKinds.matches' ↔ ∃ op, ms = [.join op] := by
  constructor
  · intro hms
    have hKind : ∃ k, (k = .and ∨ k = .or) ∧ ms.map Mark.kind = [k] := by
      rcases hms with hms | hms
      · exact ⟨_, Or.inl rfl, hms⟩
      · exact ⟨_, Or.inr rfl, hms⟩
    obtain ⟨k, hk, hOne⟩ := hKind
    obtain ⟨m, rest, rfl, hm, hRest⟩ := List.map_eq_cons_iff.mp hOne
    rw [← hm] at hk
    obtain ⟨op, rfl⟩ := Mark.kind_eq_join_iff.mp hk
    rw [List.map_eq_nil_iff.mp hRest]
    exact ⟨op, rfl⟩
  · rintro ⟨op, rfl⟩
    cases op
    · exact Or.inl rfl
    · exact Or.inr rfl

/-- A comparison and groups behind it make a chain. -/
theorem exists_chain_of_groups {groups : List (List TokenKind)} {c : Comparison} {ms : List Mark}
    (hGroups : ∀ ks ∈ groups, ks ∈ (joinKinds * comparisonKinds).matches')
    (hms : ms.map Mark.kind = groups.flatten) : ∃ ch : Chain, c.marks ++ ms = ch.marks := by
  -- on the groups, for any comparison in front of them
  induction groups generalizing c ms with
  | nil =>
    rw [List.map_eq_nil_iff.mp hms, List.append_nil]
    exact ⟨.single c, rfl⟩
  | cons ks groups ih =>
    rw [List.flatten_cons] at hms
    obtain ⟨group, later, rfl, hGroup, hLater⟩ := List.map_eq_append_iff.mp hms
    obtain ⟨joinPart, hJoin, comparisonPart, hComparison, hks⟩ := hGroups ks List.mem_cons_self
    -- the marks of a group are those of an operator and of a comparison
    have hParts : group.map Mark.kind = joinPart ++ comparisonPart := hGroup.trans hks.symm
    obtain ⟨first, second, rfl, hFirst, hSecond⟩ := List.map_eq_append_iff.mp hParts
    rw [← hFirst] at hJoin
    rw [← hSecond] at hComparison
    obtain ⟨op, rfl⟩ := mem_joinKinds_iff.mp hJoin
    obtain ⟨d, rfl⟩ := mem_comparisonKinds_iff.mp hComparison
    obtain ⟨ch, hch⟩ := ih (c := d) (fun ks hks => hGroups ks (List.mem_cons_of_mem _ hks)) hLater
    refine ⟨.cons c op ch, ?_⟩
    rw [Chain.marks, ← hch]
    rfl

/-- A chain is a comparison and groups behind it. -/
theorem Chain.kinds_mem (ch : Chain) :
    ch.marks.map Mark.kind ∈ (comparisonKinds * (joinKinds * comparisonKinds).star).matches' := by
  induction ch with
  | single c =>
    exact ⟨_, mem_comparisonKinds_iff.mpr ⟨c, rfl⟩, [], Language.nil_mem_kstar _, List.append_nil _⟩
  | cons c op later ih =>
    -- the later chain begins with a comparison, which joins the operator in front of it to make a group
    obtain ⟨first, hFirst, groups, hGroups, hLater⟩ := ih
    obtain ⟨rest, rfl, hRest⟩ := Language.mem_kstar.mp hGroups
    have hJoin : [Mark.join op].map Mark.kind ∈ joinKinds.matches' := mem_joinKinds_iff.mpr ⟨op, rfl⟩
    have hGroup : [Mark.join op].map Mark.kind ++ first ∈ (joinKinds * comparisonKinds).matches' :=
      ⟨_, hJoin, first, hFirst, rfl⟩
    refine ⟨_, mem_comparisonKinds_iff.mpr ⟨c, rfl⟩,
      (([Mark.join op].map Mark.kind ++ first) :: rest).flatten, ?_, ?_⟩
    · exact Language.join_mem_kstar (List.forall_mem_cons.mpr ⟨hGroup, hRest⟩)
    · simp [Chain.marks, ← hLater]

/-- **The kinds of the expression.** They are those of nothing and of the chains. -/
theorem mem_filterKinds_iff {ms : List Mark} :
    ms.map Mark.kind ∈ filterKinds.matches' ↔ ms = [] ∨ ∃ ch : Chain, ms = ch.marks := by
  constructor
  · rintro (hNone | ⟨first, hFirst, groups, hGroups, hms⟩)
    · exact Or.inl (List.map_eq_nil_iff.mp hNone)
    · right
      obtain ⟨start, later, rfl, rfl, hLater⟩ := List.map_eq_append_iff.mp hms.symm
      -- the comparison in front of the groups begins the chain
      obtain ⟨c, rfl⟩ := mem_comparisonKinds_iff.mp hFirst
      obtain ⟨rest, rfl, hRest⟩ := Language.mem_kstar.mp hGroups
      exact exists_chain_of_groups hRest hLater
  · rintro (rfl | ⟨ch, rfl⟩)
    · exact Or.inl rfl
    · exact Or.inr ch.kinds_mem

-- ---------------------------------------------------------------------------
-- Filters that group to the right
-- ---------------------------------------------------------------------------

/-- A filter of comparisons, none of them missing, in which every left side is a comparison. -/
inductive GroupedRight : Filter → Prop
  | compare (field : String) (op : CompareOp) (value : String) :
    GroupedRight (.compare field op value)
  | join (op : JoinOp) (field : String) (cmp : CompareOp) (value : String) {right : Filter} :
    GroupedRight right → GroupedRight (.join op (.compare field cmp value) right)

/-- The marks of a filter from left to right; the filter that matches all has none. -/
def marks : Filter → List Mark
  | .all => []
  | .compare field op value => [.name field, .compare op, .name value]
  | .join op left right => left.marks ++ .join op :: right.marks

/-- The marks of the filter of a chain are those of the chain. -/
theorem Chain.marks_filter (ch : Chain) : ch.filter.marks = ch.marks := by
  induction ch with
  | single c => rfl
  | cons c op later ih =>
    rw [filter, Filter.marks, ih]
    rfl

/-- **The filters that group to the right** are those of chains. -/
theorem groupedRight_iff {f : Filter} : f.GroupedRight ↔ ∃ ch : Chain, f = ch.filter := by
  constructor
  · intro h
    induction h with
    | compare field op value => exact ⟨.single ⟨field, op, value⟩, rfl⟩
    | join op field cmp value _ ih =>
      obtain ⟨ch, rfl⟩ := ih
      exact ⟨.cons ⟨field, cmp, value⟩ op ch, rfl⟩
  · rintro ⟨ch, rfl⟩
    induction ch with
    | single c => exact .compare c.field c.op c.value
    | cons c op later ih => exact .join op c.field c.op c.value ih

/-- A chain has at least one comparison. -/
theorem Chain.marks_ne_nil (ch : Chain) : ch.marks ≠ [] := by
  cases ch <;> exact List.cons_ne_nil _ _

-- ---------------------------------------------------------------------------
-- Reading
-- ---------------------------------------------------------------------------

/-- What tokens are read as, in terms of chains. -/
theorem ofTokens_ok_iff_chain {tokens : List Token} {f : Filter} :
    ofTokens tokens = .ok f ↔
      (tokens = [] ∧ f = .all) ∨ ∃ ch : Chain, tokens.map Token.mark = ch.marks ∧ f = ch.filter := by
  -- no tokens are the filter that matches all, which no chain is
  cases tokens with
  | nil =>
    have hNoChain : ¬ ∃ ch : Chain, ([] : List Token).map Token.mark = ch.marks ∧ f = ch.filter := by
      rintro ⟨ch, hMarks, -⟩
      exact ch.marks_ne_nil hMarks.symm
    rw [ofTokens, or_iff_left hNoChain]
    constructor
    · intro h
      exact ⟨rfl, (Except.ok.inj h).symm⟩
    · rintro ⟨-, rfl⟩
      rfl
  | cons t tokens =>
    rw [ofTokens, chain_ok_iff]
    · simp
    · exact List.cons_ne_nil t tokens

/-- A filter that groups to the right and its marks are a chain. -/
theorem groupedRight_and_marks_iff {f : Filter} {ms : List Mark} :
    f.GroupedRight ∧ f.marks = ms ↔ ∃ ch : Chain, ms = ch.marks ∧ f = ch.filter := by
  rw [groupedRight_iff]
  constructor
  · rintro ⟨⟨ch, rfl⟩, rfl⟩
    exact ⟨ch, ch.marks_filter, rfl⟩
  · rintro ⟨ch, rfl, rfl⟩
    exact ⟨⟨ch, rfl⟩, ch.marks_filter⟩

/-- A token that makes a mark; it has no place in a text. -/
def Mark.token (m : Mark) : Token :=
  ⟨m.kind, m.text, 0⟩

/-- The token of a mark makes the mark. -/
theorem Mark.mark_token (m : Mark) : m.token.mark = m := by
  rcases m with text | op | op
  · rfl
  · cases op <;> rfl
  · cases op <;> rfl

/-- The tokens of a filter from left to right. -/
def tokens (f : Filter) : List Token :=
  f.marks.map Mark.token

/-- The tokens of a filter make its marks. -/
theorem map_mark_tokens (f : Filter) : f.tokens.map Token.mark = f.marks := by
  rw [tokens, List.map_map, List.map_congr_left fun m _ => m.mark_token, List.map_id']

/--
**Reading tokens is the inverse of writing a filter down.** Tokens are read exactly if their kinds
are those of the expression, whatever their texts are. No tokens are the filter that matches all;
other tokens are read as the one filter that groups to the right and has their marks from left to
right; and each filter that groups to the right is read from its own tokens.
-/
theorem ofTokens_inverts_marks :
    (∀ tokens : List Token,
      (∃ f, ofTokens tokens = .ok f) ↔ tokens.map Token.kind ∈ filterKinds.matches') ∧
    (∀ (tokens : List Token) (f : Filter), ofTokens tokens = .ok f ↔
      (tokens = [] ∧ f = .all) ∨ (f.GroupedRight ∧ f.marks = tokens.map Token.mark)) ∧
    ∀ f : Filter, f.GroupedRight → ofTokens f.tokens = .ok f := by
  have hReads : ∀ (tokens : List Token) (f : Filter), ofTokens tokens = .ok f ↔
      (tokens = [] ∧ f = .all) ∨ (f.GroupedRight ∧ f.marks = tokens.map Token.mark) := by
    intro tokens f
    rw [ofTokens_ok_iff_chain, groupedRight_and_marks_iff]
  refine ⟨?_, hReads, ?_⟩
  · intro tokens
    have hKinds : tokens.map Token.kind = (tokens.map Token.mark).map Mark.kind := by
      rw [List.map_map]
      exact List.map_congr_left fun t _ => t.kind_mark.symm
    rw [hKinds, mem_filterKinds_iff, List.map_eq_nil_iff]
    constructor
    · rintro ⟨f, hf⟩
      rcases ofTokens_ok_iff_chain.mp hf with ⟨hNone, -⟩ | ⟨ch, hMarks, -⟩
      · exact Or.inl hNone
      · exact Or.inr ⟨ch, hMarks⟩
    · rintro (hNone | ⟨ch, hMarks⟩)
      · exact ⟨.all, ofTokens_ok_iff_chain.mpr (Or.inl ⟨hNone, rfl⟩)⟩
      · exact ⟨ch.filter, ofTokens_ok_iff_chain.mpr (Or.inr ⟨ch, hMarks, rfl⟩)⟩
  · intro f hf
    exact (hReads f.tokens f).mpr (Or.inr ⟨hf, (map_mark_tokens f).symm⟩)

/-- Three comparisons whose texts are no names: the kinds alone decide. -/
theorem ofTokens_inverts_marks_three :
    let f : Filter := .join .or (.compare "a b" .eq "")
      (.join .and (.compare "&" .ne "!") (.compare "c" .eq "="))
    f.GroupedRight ∧ ofTokens f.tokens = .ok f :=
  have hGrouped := .join .or "a b" .eq "" (.join .and "&" .ne "!" (.compare "c" .eq "="))
  ⟨hGrouped, ofTokens_inverts_marks.2.2 _ hGrouped⟩

end BuildQuery.Filter
