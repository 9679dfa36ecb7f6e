import BuildQuery.Command.Run
import BuildQuery.Proofs.Writing

/-!
# BuildQuery — characters that belong to no token

A text is cut into tokens unless one of its characters is stray: no character of names, no blank, no
operator, and no `!` with the `=` behind it that makes an operator of it. The error is the one for the
first stray character, whatever the tokens before it would be read as, and gives the bytes before it.
The caret that a run shows below the text stands under that character, so it counts characters.

Main results:

* `scan_error_iff` — a scan fails at the first stray character.
* `columnOf_byteLength` — bytes before a character are told as characters.
* `tokenize_stray` — when a text is refused, where, and what is shown of it.
-/

namespace BuildQuery

namespace Filter

open Text

-- ---------------------------------------------------------------------------
-- Stray characters
-- ---------------------------------------------------------------------------

/-- A character that belongs to no token when these characters stand behind it. -/
structure Stray (c : Char) (after : List Char) : Prop where
  no_name : isIdentChar c = false
  no_blank : isBlank c = false
  no_operator : c ∉ ['&', '|', '=']
  /-- A `!` with an `=` right behind it is an operator. -/
  no_pair : ¬ (c = '!' ∧ after.head? = some '=')

/-- The first stray character of some characters, and what stands before and behind it. -/
structure FirstStray (cs before : List Char) (c : Char) (after : List Char) : Prop where
  split : cs = before ++ c :: after
  stray : Stray c after
  first : ∀ before' c' after', cs = before' ++ c' :: after' → Stray c' after' →
    before.length ≤ before'.length

theorem not_firstStray_nil {before after : List Char} {c : Char} : ¬ FirstStray [] before c after := by
  intro h
  simpa using h.split

/-- A stray character at the start is the first one. -/
theorem firstStray_cons_of_stray {c d : Char} {cs before after : List Char} (h : Stray c cs) :
    FirstStray (c :: cs) before d after ↔ before = [] ∧ d = c ∧ after = cs := by
  constructor
  · intro hFirst
    have hNone : before = [] := List.length_eq_zero_iff.mp (Nat.le_zero.mp (hFirst.first [] c cs rfl h))
    have hSplit := hFirst.split
    rw [hNone, List.nil_append, List.cons.injEq] at hSplit
    exact ⟨hNone, hSplit.1.symm, hSplit.2.symm⟩
  · rintro ⟨rfl, rfl, rfl⟩
    exact ⟨rfl, h, fun _ _ _ _ _ => Nat.zero_le _⟩

/-- A character that is not stray is not the first stray one. -/
theorem firstStray_cons_of_not_stray {c d : Char} {cs before after : List Char} (h : ¬ Stray c cs) :
    FirstStray (c :: cs) before d after ↔
      ∃ before', before = c :: before' ∧ FirstStray cs before' d after := by
  constructor
  · intro hFirst
    cases before with
    | nil =>
      obtain ⟨rfl, rfl⟩ := List.cons.inj hFirst.split
      exact absurd hFirst.stray h
    | cons c' before' =>
      obtain ⟨rfl, hSplit⟩ := List.cons.inj hFirst.split
      refine ⟨before', rfl, hSplit, hFirst.stray, ?_⟩
      intro earlier c'' after' hSplit' hStray
      have hLength := hFirst.first (c :: earlier) c'' after' (by rw [hSplit']; rfl) hStray
      simpa using hLength
  · rintro ⟨before', rfl, hFirst⟩
    refine ⟨by rw [hFirst.split]; rfl, hFirst.stray, ?_⟩
    intro earlier c'' after' hSplit hStray
    cases earlier with
    | nil =>
      obtain ⟨rfl, rfl⟩ := List.cons.inj hSplit
      exact absurd hStray h
    | cons c' earlier =>
      obtain ⟨rfl, hLater⟩ := List.cons.inj hSplit
      simpa using hFirst.first earlier c'' after' hLater hStray

/-- None of the characters is stray when others stand behind them. -/
def Clean : List Char → List Char → Prop
  | [], _ => True
  | c :: front, rest => ¬ Stray c (front ++ rest) ∧ Clean front rest

/-- Behind characters that are not stray the first stray one is the first of the others. -/
theorem Clean.append_iff {front rest before after : List Char} {c : Char} (h : Clean front rest) :
    FirstStray (front ++ rest) before c after ↔
      ∃ before', before = front ++ before' ∧ FirstStray rest before' c after := by
  induction front generalizing before with
  | nil => simp
  | cons d front ih =>
    obtain ⟨hNot, hFront⟩ := h
    rw [List.cons_append, firstStray_cons_of_not_stray hNot]
    simp only [ih hFront]
    constructor
    · rintro ⟨_, rfl, before', rfl, hFirst⟩
      exact ⟨before', rfl, hFirst⟩
    · rintro ⟨before', rfl, hFirst⟩
      exact ⟨front ++ before', rfl, before', rfl, hFirst⟩

/-- A stray character behind none is the first. -/
theorem Clean.firstStray {before after : List Char} {c : Char} (h : Clean before (c :: after))
    (hStray : Stray c after) : FirstStray (before ++ c :: after) before c after :=
  h.append_iff.mpr ⟨[], (List.append_nil _).symm, (firstStray_cons_of_stray hStray).mpr ⟨rfl, rfl, rfl⟩⟩

/-- The error for the first stray character, behind characters that are not stray. -/
theorem Clean.error_iff {front rest : List Char} {offset : Nat} {e : QueryError} (h : Clean front rest) :
    (∃ before c after, FirstStray (front ++ rest) before c after ∧
        e = .strayCharacter (offset + byteLength before)) ↔
      ∃ before c after, FirstStray rest before c after ∧
        e = .strayCharacter (offset + byteLength front + byteLength before) := by
  simp only [h.append_iff]
  constructor
  · rintro ⟨_, c, after, ⟨before, rfl, hFirst⟩, rfl⟩
    exact ⟨before, c, after, hFirst, by rw [byteLength_append, Nat.add_assoc]⟩
  · rintro ⟨before, c, after, hFirst, rfl⟩
    exact ⟨front ++ before, c, after, ⟨before, rfl, hFirst⟩, by rw [byteLength_append, Nat.add_assoc]⟩

/-- Where one character is stray, one is the first. -/
theorem exists_firstStray_iff {cs : List Char} :
    (∃ before c after, FirstStray cs before c after) ↔
      ∃ before c after, cs = before ++ c :: after ∧ Stray c after := by
  constructor
  · rintro ⟨before, c, after, hFirst⟩
    exact ⟨before, c, after, hFirst.split, hFirst.stray⟩
  · rintro ⟨before, c, after, rfl, hStray⟩
    -- from the stray character backwards: each character in front of it is stray, or leaves the first one
    -- where it is
    induction before with
    | nil => exact ⟨[], c, after, (firstStray_cons_of_stray hStray).mpr ⟨rfl, rfl, rfl⟩⟩
    | cons d before ih =>
      obtain ⟨earlier, c', after', hFirst⟩ := ih
      by_cases hd : Stray d (before ++ c :: after)
      · exact ⟨[], d, _, (firstStray_cons_of_stray hd).mpr ⟨rfl, rfl, rfl⟩⟩
      · exact ⟨d :: earlier, c', after', (firstStray_cons_of_not_stray hd).mpr ⟨earlier, rfl, hFirst⟩⟩

-- ---------------------------------------------------------------------------
-- Scanning
-- ---------------------------------------------------------------------------

/-- A character that begins no name, no blank and no operator is stray. -/
theorem stray_of_operator?_eq_none {c : Char} {rest : List Char} (hIdent : ¬ isIdentChar c = true)
    (hBlank : ¬ isBlank c = true) (h : operator? (c :: rest) = none) : Stray c rest := by
  refine ⟨by simpa using hIdent, by simpa using hBlank, ?_, ?_⟩
  · intro hOperator
    simp only [List.mem_cons, List.not_mem_nil, or_false] at hOperator
    rcases hOperator with rfl | rfl | rfl <;> cases h
  · rintro ⟨rfl, hNext⟩
    obtain ⟨later, rfl⟩ := List.head?_eq_some_iff.mp hNext
    cases h

/-- The characters of a name are not stray. -/
theorem clean_word {word rest : List Char} (h : ∀ c ∈ word, isIdentChar c = true) :
    Clean word rest := by
  induction word with
  | nil => trivial
  | cons c word ih =>
    obtain ⟨hc, hWord⟩ := List.forall_mem_cons.mp h
    refine ⟨?_, ih hWord⟩
    intro hStray
    rw [hStray.no_name] at hc
    cases hc

theorem clean_blank {c : Char} {rest : List Char} (h : isBlank c = true) : Clean [c] rest := by
  refine ⟨?_, trivial⟩
  intro hStray
  rw [hStray.no_blank] at h
  cases h

/-- The characters of an operator are not stray; a `!` has its `=` behind it. -/
theorem clean_operator (kind : TokenKind) (rest : List Char) : Clean kind.symbol.toList rest := by
  cases kind with
  | ident => exact trivial
  | and => exact ⟨fun hStray => hStray.no_operator (by decide), trivial⟩
  | or => exact ⟨fun hStray => hStray.no_operator (by decide), trivial⟩
  | equal => exact ⟨fun hStray => hStray.no_operator (by decide), trivial⟩
  | notEqual =>
    exact ⟨fun hStray => hStray.no_pair ⟨rfl, rfl⟩, fun hStray => hStray.no_operator (by decide), trivial⟩

/-- **A scan fails at the first stray character**, and only there. -/
theorem scan_error_iff {offset : Nat} {cs : List Char} {e : QueryError} :
    scan offset cs = .error e ↔ ∃ before c after, FirstStray cs before c after ∧
      e = .strayCharacter (offset + byteLength before) := by
  -- on the scan: the end, a name, a blank, a character that begins no operator, an operator
  fun_induction scan offset cs generalizing e with
  | case1 offset =>
    refine iff_of_false (by rintro ⟨⟩) ?_
    rintro ⟨before, c, after, hFirst, -⟩
    exact not_firstStray_nil hFirst
  | case2 offset c rest hIdent word =>
    rename_i ih
    have hText : c :: rest = word ++ rest.dropWhile isIdentChar := by
      rw [List.cons_append, List.takeWhile_append_dropWhile]
    have hWord : ∀ d ∈ word, isIdentChar d = true := fun d hd => isIdentChar_of_mem_word hIdent hd
    rw [hText, (clean_word hWord).error_iff, ← ih, bind_eq_error]
    simp [pure, Except.pure]
  | case3 offset c rest hIdent hBlank ih =>
    have hFront : byteLength [c] = c.utf8Size := rfl
    rw [ih, ← hFront, ← (clean_blank hBlank).error_iff]
    rfl
  | case4 offset c rest hIdent hBlank hNone =>
    -- here the scan fails, and nothing has been read, so this character is the first
    simp only [firstStray_cons_of_stray (stray_of_operator?_eq_none hIdent hBlank hNone)]
    constructor
    · intro hError
      cases hError
      exact ⟨[], c, rest, ⟨rfl, rfl, rfl⟩, rfl⟩
    · rintro ⟨_, _, _, ⟨rfl, rfl, rfl⟩, rfl⟩
      rfl
  | case5 offset c rest hIdent hBlank kind rest' hSome ih =>
    obtain ⟨-, hText, -⟩ := eq_of_operator? hSome
    rw [hText, (clean_operator kind rest').error_iff, byteLength_toList, ← ih, bind_eq_error]
    simp [pure, Except.pure]

/-- A text is refused for its first stray character, at the bytes before it. -/
theorem tokenize_error_iff {input : String} {e : QueryError} :
    tokenize input = .error e ↔ ∃ before c after, FirstStray input.toList before c after ∧
      e = .strayCharacter (byteLength before) := by
  rw [tokenize, scan_error_iff]
  simp only [Nat.zero_add]

-- ---------------------------------------------------------------------------
-- Pointing
-- ---------------------------------------------------------------------------

/-- The bytes before a character are told as the characters before it. -/
theorem columnOf_byteLength (before : List Char) (c : Char) (after : List Char) :
    columnOf (byteLength before) (before ++ c :: after) = before.length := by
  induction before with
  | nil => exact if_pos c.utf8Size_pos
  | cons d before ih =>
    -- each character that goes by takes its bytes off the offset and adds one to the column
    have hPast : ¬ d.utf8Size + byteLength before < d.utf8Size := by omega
    rw [List.cons_append, byteLength_cons, columnOf, if_neg hPast, Nat.add_sub_cancel_left, ih]
    rfl

/-- A text can be cut where some of its characters end. -/
theorem isValid_byteLength {input : String} {before after : List Char}
    (h : input.toList = before ++ after) :
    String.Pos.Raw.IsValid input ⟨byteLength before⟩ := by
  have hText : input = String.ofList before ++ String.ofList after := by
    rw [← String.ofList_append, ← h, String.ofList_toList]
  refine String.Pos.Raw.isValid_iff_exists_append.mpr ⟨_, _, hText, ?_⟩
  have hBytes : byteLength before = (String.ofList before).utf8ByteSize := by
    rw [← byteLength_toList, String.toList_ofList]
  rw [hBytes]
  rfl

end Filter

-- ---------------------------------------------------------------------------
-- What a run shows of a filter with a stray character
-- ---------------------------------------------------------------------------

namespace Command

open Text BuildQuery.Filter

/-- The text of a filter, a caret below the character that has so many characters before it, and the
error that names the bytes before it. -/
def strayReport (input : String) (column offset : Nat) : String :=
  "  " ++ input ++ "\n" ++ "  " ++ spaces column ++ "^\n" ++
    "Error: Query error: Syntax error at " ++ toString offset ++ "\n"

/-- A line is shown above the others. -/
theorem unlines_cons (line : String) (lines : List String) :
    unlines (line :: lines) = line ++ "\n" ++ unlines lines := by
  rw [unlines, List.map_cons, String.join_cons]
  rfl

theorem errorLine_stray (wording : Wording) (offset : Nat) :
    errorLine wording (.query (.strayCharacter offset)) =
      "Error: Query error: Syntax error at " ++ toString offset := by
  show "Error: " ++ ("Query error: " ++ ("Syntax error at " ++ toString offset)) = _
  rw [← String.append_assoc, ← String.append_assoc]
  rfl

/-- A run that fails for a stray character shows the report and nothing else. -/
theorem failing_of_stray {w : World} {input : String} {before after : List Char} {c : Char}
    (h : input.toList = before ++ c :: after) :
    w.failing (pointer input (.strayCharacter (byteLength before)))
        (.query (.strayCharacter (byteLength before))) =
      ⟨1, "", strayReport input before.length (byteLength before), w.files, []⟩ := by
  have hColumn : columnOf (byteLength before) input.toList = before.length := by
    rw [h, columnOf_byteLength]
  -- the caret counts characters, the error counts bytes
  have hPointer : pointer input (.strayCharacter (byteLength before)) =
      "  " ++ input ++ "\n" ++ ("  " ++ spaces before.length ++ "^" ++ "\n" ++ unlines []) := by
    rw [pointer, pointAt, hColumn, unlines_cons, unlines_cons, spaces]
  have hReport : pointer input (.strayCharacter (byteLength before)) ++
      unlines [errorLine w.wording (.query (.strayCharacter (byteLength before)))] =
        strayReport input before.length (byteLength before) := by
    rw [hPointer, unlines_cons, errorLine_stray, strayReport]
    simp only [String.append_assoc]
    rfl
  rw [World.failing, hReport]

/--
**A text is refused for its first stray character.** It can be cut into tokens exactly if no character
is stray, and otherwise the error gives the bytes before the first one that is, also if the tokens in
front of it are no filter. These bytes end with a character, so that the text can be cut there. What a
run shows of the filter, alone or in front of a listing of builds, is the text and a caret with as many
blanks before it as there are characters before the stray one.
-/
theorem tokenize_stray :
    (∀ input : String, (∃ e, tokenize input = .error e) ↔
      ∃ before c after, input.toList = before ++ c :: after ∧ Stray c after) ∧
    (∀ (input : String) (e : QueryError), tokenize input = .error e ↔
      ∃ before c after, FirstStray input.toList before c after ∧
        e = .strayCharacter (byteLength before)) ∧
    ∀ (input : String) (before : List Char) (c : Char) (after : List Char),
      FirstStray input.toList before c after →
      Filter.parse input = .error (.strayCharacter (byteLength before)) ∧
      String.Pos.Raw.IsValid input ⟨byteLength before⟩ ∧
      (∀ (w : World) (tokens : Bool), run w (.parse input tokens) =
        ⟨1, "", strayReport input before.length (byteLength before), w.files, []⟩) ∧
      ∀ (w : World) (command : BuildsCommand) (s : Settings) (job : String),
        command.filter = input → Settings.load w.files w.env = .ok s →
        s.job command.job = .ok job → run w (.builds command) =
          ⟨1, "", strayReport input before.length (byteLength before), w.files, []⟩ := by
  refine ⟨?_, fun input e => tokenize_error_iff, ?_⟩
  · intro input
    rw [← exists_firstStray_iff]
    simp only [tokenize_error_iff]
    constructor
    · rintro ⟨_, before, c, after, hFirst, -⟩
      exact ⟨before, c, after, hFirst⟩
    · rintro ⟨before, c, after, hFirst⟩
      exact ⟨_, before, c, after, hFirst, rfl⟩
  · intro input before c after hFirst
    have hTokens : tokenize input = .error (.strayCharacter (byteLength before)) :=
      tokenize_error_iff.mpr ⟨before, c, after, hFirst, rfl⟩
    have hParse : Filter.parse input = .error (.strayCharacter (byteLength before)) :=
      bind_eq_error.mpr (Or.inl hTokens)
    refine ⟨hParse, isValid_byteLength hFirst.split, ?_, ?_⟩
    · intro w tokens
      rw [run, runParse, hTokens]
      exact failing_of_stray hFirst.split
    · rintro w command s job rfl hLoad hJob
      have hPrepare : prepare w command =
          (.error (.query (.strayCharacter (byteLength before))),
            pointer command.filter (.strayCharacter (byteLength before))) := by
        rw [prepare, hLoad]
        simp only [hJob, hParse]
      rw [run, runBuilds, hPrepare]
      exact failing_of_stray hFirst.split

/-- The tokens before the stray character are no filter, and one of its characters has two bytes. -/
theorem tokenize_stray_behind_operator :
    let input := "=é!"
    let env : Environment := .ofVariables [("JENQ_ROOT", "/r")]
    let w : World := ⟨⟨[]⟩, env, none, fun r => .error (.badStatus r.url 404), default⟩
    let command : BuildsCommand := ⟨some "j", input, .compact, none⟩
    FirstStray input.toList ['=', 'é'] '!' [] ∧
      (∃ s, Settings.load w.files w.env = .ok s ∧ s.job command.job = .ok "j") ∧
      Filter.parse input = .error (.strayCharacter 3) ∧
      run w (.parse input true) = ⟨1, "", strayReport input 2 3, ⟨[]⟩, []⟩ ∧
      run w (.builds command) = ⟨1, "", strayReport input 2 3, ⟨[]⟩, []⟩ := by
  intro input env w command
  have hStray : Stray '!' [] := ⟨by decide +kernel, by decide, by decide, by decide⟩
  have hWord : Clean ['é'] ['!'] := clean_word (List.all_eq_true.mp (by decide +kernel))
  have hClean : Clean ['=', 'é'] ['!'] := ⟨fun hEqual => hEqual.no_operator (by decide), hWord⟩
  have hChars : input.toList = ['=', 'é'] ++ ['!'] := by decide
  have hFirst : FirstStray input.toList ['=', 'é'] '!' [] := by
    rw [hChars]
    exact hClean.firstStray hStray
  have hLoad : Settings.load w.files w.env = .ok ⟨"/r", none, none, "unknown", 8, 32, 30⟩ := by
    decide +kernel
  obtain ⟨hParse, -, hRun, hBuilds⟩ := tokenize_stray.2.2 input _ _ _ hFirst
  have hListing := hBuilds w command _ "j" rfl hLoad (by decide)
  exact ⟨hFirst, ⟨_, hLoad, by decide⟩, hParse, hRun w true, hListing⟩

end Command

end BuildQuery
