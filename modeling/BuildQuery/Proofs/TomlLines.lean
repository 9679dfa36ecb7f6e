import BuildQuery.Proofs.TomlStrings
import BuildQuery.Toml.Reader

/-!
# BuildQuery — written lines of a settings file

A line holds a key, whose name needs no quotes, and a value that can be read in front of the end of the
line. A file of such lines is the table of its keys, in their order, as long as no key repeats.

Main results:

* `spells_literal`, `spells_number` — a written string and a written number are such values.
* `read_lines` — a file of written lines is the table that it says.
-/

namespace BuildQuery.Toml

open Decimal

-- ---------------------------------------------------------------------------
-- Written numbers
-- ---------------------------------------------------------------------------

/-- A digit is a character of bare values and no mark of another value. -/
theorem digitChar_facts : ∀ d < 10, isBare (digitChar d) = true ∧ isSpace (digitChar d) = false ∧
    digitIn? 10 (digitChar d) = some d ∧
    digitChar d ∉ ['"', '\'', '[', '\x7b', '_', '+', '-', ':', 'x', 'o', 'b', 't', 'f'] := by
  decide

/-- Digits are read as they stand, since no underscore is among them. -/
theorem groupedDigits?_digits {ds : List Nat} (hSome : ds ≠ []) (h : ∀ d ∈ ds, d < 10) :
    groupedDigits? 10 (ds.map digitChar) = some ds := by
  induction ds with
  | nil => exact absurd rfl hSome
  | cons d ds ih =>
    obtain ⟨hd, hds⟩ := List.forall_mem_cons.mp h
    obtain ⟨-, -, hDigit, -⟩ := digitChar_facts d hd
    -- a digit in front of another is read only when no underscore stands between the two
    cases ds with
    | nil => simp [groupedDigits?, hDigit]
    | cons e es =>
      have hMark := (digitChar_facts e (hds e List.mem_cons_self)).2.2.2
      have hRest := ih (List.cons_ne_nil e es) hds
      rw [List.map_cons, List.map_cons, groupedDigits?, hDigit, ← List.map_cons, hRest]
      · rfl
      · simp_all
      · simp_all

/-- A number is written with at least one digit. -/
theorem chars_ne_nil (n : Nat) : chars n ≠ [] := by
  simp [chars, digits_ne_nil]

/-- The digits of a number are read back: only zero begins with a zero. -/
theorem plainDigits?_chars (n : Nat) : plainDigits? (chars n) = some (digits n) := by
  have hDigits : ∀ d ∈ digits n, d < 10 := fun d hd => lt_ten_of_mem_digits hd
  have hGrouped : groupedDigits? 10 (chars n) = some (digits n) :=
    groupedDigits?_digits (digits_ne_nil n) hDigits
  simp only [plainDigits?, hGrouped, Option.bind_eq_bind, Option.bind_some]
  split
  · next h => exact absurd h digits_ne_zero_cons
  · rfl

/-- The characters of a number are digits. -/
theorem chars_facts {n : Nat} {c : Char} (h : c ∈ chars n) :
    isBare c = true ∧ isSpace c = false ∧
      c ∉ ['"', '\'', '[', '\x7b', '_', '+', '-', ':', 'x', 'o', 'b', 't', 'f'] := by
  obtain ⟨d, hd, rfl⟩ := List.mem_map.mp h
  obtain ⟨hBare, hSpace, -, hMark⟩ := digitChar_facts d (lt_ten_of_mem_digits hd)
  exact ⟨hBare, hSpace, hMark⟩

/-- A date has dashes. -/
theorem isDate_eq_false {cs : List Char} (h : '-' ∉ cs) : isDate cs = false := by
  unfold isDate
  split
  · simp at h
  · rfl

/-- A time of day has colons. -/
theorem afterTime?_eq_none {cs : List Char} (h : ':' ∉ cs) : afterTime? cs = none := by
  unfold afterTime?
  split
  · simp at h
  · rfl

/-- Characters without dashes and colons are no moment. -/
theorem isMoment_eq_false {cs : List Char} (hDate : '-' ∉ cs) (hTime : ':' ∉ cs) :
    isMoment cs = false := by
  -- the date of a moment that has both parts is told by its first ten characters
  have hTake : isDate (cs.take 10) = false :=
    isDate_eq_false fun h => hDate (List.mem_of_mem_take h)
  rw [isMoment, isDate_eq_false hDate, afterTime?_eq_none hTime, hTake]
  rfl

/-- A written number that fits is read as an integer, without a sign and in the decimal system. -/
theorem integer?_chars {n : Nat} (h : (n : Int) ≤ Int64.maxValue.toInt) :
    integer? (chars n) = some (.integer n) := by
  have hMarks : ∀ c ∈ chars n, c ∉ ['+', '-', 'x', 'o', 'b'] := by
    intro c hc
    have hMark := (chars_facts hc).2.2
    simp_all
  have hSigned : signed (chars n) = (false, chars n) := by
    unfold signed
    split <;> simp_all
  have hWord : word? (ofDigits (digits n)) = some (.integer n) := by
    have hMin : Int64.minValue.toInt ≤ 0 := by decide
    rw [ofDigits_digits, word?, if_pos ⟨by omega, h⟩]
  -- the first three branches are those of another base, whose letter is no digit
  unfold integer?
  split
  · simp_all
  · simp_all
  · simp_all
  · rw [hSigned]
    simp only [plainDigits?_chars, Option.bind_eq_bind, Option.bind_some]
    exact hWord

/-- A written number is read as that number and neither as a word nor as a moment. -/
theorem bare?_chars {n : Nat} (h : (n : Int) ≤ Int64.maxValue.toInt) :
    bare? (chars n) = some (.integer n) := by
  have hWords : 't' ∉ chars n ∧ 'f' ∉ chars n ∧ '-' ∉ chars n ∧ ':' ∉ chars n := by
    refine ⟨?_, ?_, ?_, ?_⟩ <;> exact fun hc => absurd (chars_facts hc).2.2 (by decide)
  obtain ⟨hTrue, hFalse, hDate, hTime⟩ := hWords
  rw [bare?, if_neg, if_neg, isMoment_eq_false hDate hTime, integer?_chars h]
  · rfl
  · intro hEq
    exact hFalse (hEq ▸ List.mem_cons_self)
  · intro hEq
    exact hTrue (hEq ▸ List.mem_cons_self)

/-- The characters of a written number are the bare ones up to the end of the line. -/
theorem bareRun_chars (n : Nat) (rest : List Char) :
    bareRun (chars n ++ '\n' :: rest) = (chars n, '\n' :: rest) := by
  have hBare : ∀ c ∈ chars n, isBare c = true := fun c hc => (chars_facts hc).1
  have hBreak : isBare '\n' = false := by decide
  rw [bareRun, List.takeWhile_append_of_pos hBare, List.dropWhile_append_of_pos hBare,
    List.takeWhile_cons, List.dropWhile_cons, hBreak]
  show (chars n ++ [], '\n' :: rest) = _
  rw [List.append_nil]

-- ---------------------------------------------------------------------------
-- Values in front of the end of a line
-- ---------------------------------------------------------------------------

/-- The characters are read as a value up to the end of the line, and begin with no blank. -/
structure Spells (cs : List Char) (item : Item) : Prop where
  start : ∀ c ∈ cs.head?, isSpace c = false
  value : ∀ fuel levels rest, value? (fuel + 1) levels (cs ++ '\n' :: rest) =
    some (item, '\n' :: rest)

/-- **A written string is a value in front of the end of a line.** -/
theorem spells_literal (cs : List Char) : Spells (literalChars cs) (.text (String.ofList cs)) := by
  -- each spelling opens with one of the two quotes, and only the quote decides how a value is read
  have hQuote : ∃ q ds, literalChars cs = q :: ds ∧ (q = '"' ∨ q = '\'') := by
    unfold literalChars
    split
    · exact ⟨_, _, rfl, .inl rfl⟩
    · exact ⟨_, _, rfl, .inr rfl⟩
    · exact ⟨_, _, rfl, .inl rfl⟩
    · exact ⟨_, _, rfl, .inr rfl⟩
  obtain ⟨q, ds, hChars, hQuote⟩ := hQuote
  constructor
  · rw [hChars]
    rcases hQuote with rfl | rfl
    · simp [isSpace]
    · simp [isSpace]
  · intro fuel levels rest
    have hText := text?_literalChars cs rest
    rw [hChars] at hText ⊢
    rcases hQuote with rfl | rfl
    · rw [List.cons_append] at hText ⊢
      rw [value?, hText]
      rfl
    · rw [List.cons_append] at hText ⊢
      rw [value?, hText]
      rfl

/-- **A written number is a value in front of the end of a line**, if it fits. -/
theorem spells_number {n : Nat} (h : (n : Int) ≤ Int64.maxValue.toInt) :
    Spells (chars n) (.integer n) := by
  constructor
  · intro c hc
    exact (chars_facts (List.mem_of_mem_head? hc)).2.1
  · intro fuel levels rest
    obtain ⟨c, cs, hChars⟩ := List.exists_cons_of_ne_nil (chars_ne_nil n)
    have hMark : c ∉ ['"', '\'', '[', '\x7b', '_', '+', '-', ':', 'x', 'o', 'b', 't', 'f'] :=
      (chars_facts (hChars ▸ List.mem_cons_self)).2.2
    -- a digit opens none of the other values, so the bare characters are what is read
    rw [value?.eq_6, bareRun_chars]
    · simp only [bare?_chars h, Option.map_some]
    all_goals
      rw [hChars]
      rintro _ hEq
      simp_all

-- ---------------------------------------------------------------------------
-- Lines
-- ---------------------------------------------------------------------------

/-- A line with a key and what its value says. -/
structure Line where
  key : List Char
  value : List Char
  item : Item

namespace Line

/-- The characters of a line. -/
def chars (l : Line) : List Char :=
  l.key ++ ' ' :: '=' :: ' ' :: (l.value ++ ['\n'])

/-- The key and what it stands for. -/
def entry (l : Line) : String × Item :=
  (String.ofList l.key, l.item)

/-- The key is a name without quotes, and the value can be read. -/
structure Sound (l : Line) : Prop where
  key : l.key ≠ []
  name : ∀ c ∈ l.key, isNameChar c = true
  value : Spells l.value l.item

end Line

/-- What begins with no blank has no blanks to drop. -/
theorem dropSpaces_of_head {cs : List Char} (h : ∀ c ∈ cs.head?, isSpace c = false) :
    dropSpaces cs = cs := by
  cases cs with
  | nil => rfl
  | cons c cs =>
    rw [dropSpaces, List.dropWhile_cons, h c rfl]
    rfl

/-- A line and what follows it, with the end of the line in front of what follows. -/
theorem Line.chars_append (l : Line) (rest : List Char) :
    l.chars ++ rest = l.key ++ ' ' :: '=' :: ' ' :: (l.value ++ '\n' :: rest) := by
  simp [chars]

namespace Line.Sound

variable {l : Line}

/-- A line begins with a character of its key, which is no mark of another line. -/
theorem exists_chars (h : l.Sound) (rest : List Char) :
    ∃ c cs, l.chars ++ rest = c :: cs ∧ isSpace c = false ∧
      c ∉ ['"', '\'', '[', '#', '\n', '\r', '\ufeff'] := by
  obtain ⟨c, key, hKey⟩ := List.exists_cons_of_ne_nil h.key
  have hName : isNameChar c = true := h.name c (hKey ▸ List.mem_cons_self)
  have hMarks : [' ', '\t', '"', '\'', '[', '#', '\n', '\r', '\ufeff'].any isNameChar = false := by
    decide
  have hNot : c ∉ [' ', '\t', '"', '\'', '[', '#', '\n', '\r', '\ufeff'] :=
    fun hMark => List.any_eq_false.mp hMarks c hMark hName
  refine ⟨c, key ++ ' ' :: '=' :: ' ' :: (l.value ++ '\n' :: rest), ?_, ?_, ?_⟩
  · rw [Line.chars_append, hKey]
    rfl
  · simp_all [isSpace]
  · simp_all

/-- A line begins with no blank. -/
theorem dropSpaces_chars (h : l.Sound) (rest : List Char) :
    dropSpaces (l.chars ++ rest) = l.chars ++ rest := by
  obtain ⟨c, cs, hChars, hSpace, -⟩ := h.exists_chars rest
  rw [hChars]
  refine dropSpaces_of_head ?_
  rintro d ⟨⟩
  exact hSpace

/-- The key of a line is read as its one name, up to the mark behind it. -/
theorem key?_chars (h : l.Sound) (rest : List Char) : key? (l.chars ++ rest) =
    some (([], String.ofList l.key), '=' :: ' ' :: (l.value ++ '\n' :: rest)) := by
  have hEnd : isNameChar ' ' = false := by decide
  -- the name ends at the blank in front of the mark, which is no character of a name
  have hName : name? (l.chars ++ rest) =
      some (l.key, ' ' :: '=' :: ' ' :: (l.value ++ '\n' :: rest)) := by
    obtain ⟨c, cs, hChars, -, hMark⟩ := h.exists_chars rest
    rw [name?.eq_3]
    · rw [Line.chars_append, List.takeWhile_append_of_pos h.name,
        List.dropWhile_append_of_pos h.name, List.takeWhile_cons, List.dropWhile_cons, hEnd]
      simp [h.key]
    all_goals
      rw [hChars]
      rintro _ hEq
      simp_all
  -- no dot follows, so the key has this one name
  have hNames : names? depthLimit (l.chars ++ rest) =
      some ([String.ofList l.key], '=' :: ' ' :: (l.value ++ '\n' :: rest)) := by
    show names? (78 + 1) _ = _
    rw [names?, h.dropSpaces_chars, hName]
    rfl
  rw [key?, hNames]
  rfl

/-- The value of a line begins with no blank, also when it has no characters. -/
theorem dropSpaces_value (h : l.Sound) (rest : List Char) :
    dropSpaces (l.value ++ '\n' :: rest) = l.value ++ '\n' :: rest := by
  refine dropSpaces_of_head ?_
  cases hValue : l.value with
  | nil =>
    rintro c ⟨⟩
    rfl
  | cons d ds =>
    rintro c ⟨⟩
    exact h.value.start d (hValue ▸ rfl)

/-- A line puts its key and value behind the entries that are there. -/
theorem keyLine?_chars (h : l.Sound) {root : Table}
    (hNew : root.lookup (String.ofList l.key) = none) (fuel : Nat) (rest : List Char) :
    keyLine? (fuel + 1) ⟨root, []⟩ (l.chars ++ rest) = some (⟨root ++ [l.entry], []⟩, rest) := by
  have hValue : dropSpaces (' ' :: (l.value ++ '\n' :: rest)) = l.value ++ '\n' :: rest :=
    h.dropSpaces_value rest
  -- the key is new, so the value is put behind the others instead of being refused
  have hAssign : root.assign [] [] (String.ofList l.key) l.item = some (root ++ [l.entry]) := by
    show (if _ ∧ (root.lookup (String.ofList l.key)).isNone then _ else _) = _
    rw [hNew]
    simp [Line.entry]
  rw [keyLine?, h.key?_chars]
  simp only [Option.bind_eq_bind, Option.bind_some, afterMark?, if_pos, hValue,
    h.value.value fuel depthLimit rest]
  show ((root.assign [] [] (String.ofList l.key) l.item).bind fun root => _) = _
  rw [hAssign]
  rfl

/-- A line with a key is not an empty one. -/
theorem afterLine?_chars (h : l.Sound) (rest : List Char) : afterLine? (l.chars ++ rest) = none := by
  obtain ⟨c, cs, hChars, -, hMark⟩ := h.exists_chars rest
  have hComment : dropComment (l.chars ++ rest) = l.chars ++ rest := by
    refine dropComment.eq_2 _ ?_
    rw [hChars]
    rintro _ hEq
    simp_all
  rw [afterLine?, h.dropSpaces_chars, hComment, hChars]
  refine afterBreak?_cons ?_ ?_ cs
  · rintro rfl
    simp at hMark
  · rintro rfl
    simp at hMark

/-- A line is read as one with a key, since its first character opens no other kind of line. -/
theorem line?_chars (h : l.Sound) {root : Table}
    (hNew : root.lookup (String.ofList l.key) = none) (fuel : Nat) (rest : List Char) :
    line? (fuel + 1) ⟨root, []⟩ (l.chars ++ rest) = some (⟨root ++ [l.entry], []⟩, rest) := by
  obtain ⟨c, cs, hChars, -, hMark⟩ := h.exists_chars rest
  rw [line?.eq_3]
  · rw [h.afterLine?_chars]
    exact h.keyLine?_chars hNew fuel rest
  all_goals
    rw [hChars]
    rintro _ hEq
    simp_all

/-- Reading goes on behind a line. -/
theorem lines?_chars (h : l.Sound) {root : Table}
    (hNew : root.lookup (String.ofList l.key) = none) (fuel : Nat) (rest : List Char) :
    lines? (fuel + 2) ⟨root, []⟩ (l.chars ++ rest) = lines? (fuel + 1) ⟨root ++ [l.entry], []⟩ rest := by
  obtain ⟨c, cs, hChars, -⟩ := h.exists_chars rest
  have hStart := h.dropSpaces_chars rest
  have hLine := h.line?_chars hNew fuel rest
  rw [hChars] at hStart hLine ⊢
  rw [lines?, hStart]
  simp only [hLine, Option.bind_eq_bind, Option.bind_some]

end Line.Sound

/-- Written lines add their entries in their order, as long as no key repeats. -/
theorem lines?_written {lines : List Line} (h : ∀ l ∈ lines, l.Sound) {root : Table}
    (hKeys : ((root ++ lines.map Line.entry).map Prod.fst).Nodup) {fuel : Nat}
    (hFuel : lines.length ≤ fuel) :
    lines? (fuel + 1) ⟨root, []⟩ (lines.flatMap Line.chars) = some (root ++ lines.map Line.entry) := by
  -- on the lines, for any entries that are there already: each line takes one step of the fuel
  induction lines generalizing root fuel with
  | nil =>
    rw [List.map_nil, List.append_nil]
    rfl
  | cons l lines ih =>
    obtain ⟨hLine, hLines⟩ := List.forall_mem_cons.mp h
    obtain ⟨fuel, rfl⟩ : ∃ spare, fuel = spare + 1 := Nat.exists_eq_add_one.mpr (by
      rw [List.length_cons] at hFuel
      omega)
    -- no key repeats, so the key of this line is not among the entries before it
    have hNew : root.lookup (String.ofList l.key) = none := by
      rw [List.map_append, List.nodup_append] at hKeys
      refine List.lookup_eq_none_iff.mpr ?_
      intro p hp
      refine bne_iff_ne.mpr (Ne.symm ?_)
      exact hKeys.2.2 p.1 (List.mem_map_of_mem hp) _ List.mem_cons_self
    rw [List.map_cons, List.append_cons] at hKeys ⊢
    rw [List.flatMap_cons, hLine.lines?_chars hNew]
    exact ih hLines hKeys (Nat.le_of_succ_le_succ hFuel)

/-- A file has at least one character for each of its lines, which is why the fuel is enough. -/
theorem length_lines_le (lines : List Line) : lines.length ≤ (lines.flatMap Line.chars).length := by
  induction lines with
  | nil => exact Nat.le_refl 0
  | cons l lines ih =>
    have hLine : 0 < l.chars.length := by
      simp only [Line.chars, List.length_append, List.length_cons]
      omega
    rw [List.flatMap_cons, List.length_append, List.length_cons]
    omega

/-- **A file of written lines is the table that it says.** -/
theorem read_lines {lines : List Line} (h : ∀ l ∈ lines, l.Sound)
    (hKeys : ((lines.map Line.entry).map Prod.fst).Nodup) {s : String}
    (hText : s.toList = lines.flatMap Line.chars) : read s = some (lines.map Line.entry) := by
  have hLength := length_lines_le lines
  -- the file begins with a key, hence with no mark of the byte order
  have hOrder : dropByteOrder (lines.flatMap Line.chars) = lines.flatMap Line.chars := by
    cases lines with
    | nil => rfl
    | cons l lines =>
      obtain ⟨c, cs, hChars, -, hMark⟩ :=
        (h l List.mem_cons_self).exists_chars (lines.flatMap Line.chars)
      refine dropByteOrder.eq_2 _ ?_
      rw [List.flatMap_cons, hChars]
      rintro _ hEq
      simp_all
  rw [read, hText, hOrder]
  show lines? (2 * (lines.flatMap Line.chars).length + 1 + 1) ⟨[], []⟩ _ = _
  exact lines?_written h hKeys (by omega)

end BuildQuery.Toml
