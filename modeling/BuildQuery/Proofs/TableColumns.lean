import BuildQuery.Proofs.ShownTimes
import BuildQuery.Proofs.Writing
import BuildQuery.Report.Line
import BuildQuery.Build.Reader

/-!
# BuildQuery — where the cells of a table begin

A line of a table puts its cells side by side with a space between them, and each of them is filled up to
the width of its column, as the names are in the header. Widths are counted in characters, but the cell of
the status is filled up by the bytes of its label. A label with a character of several bytes gets too few
spaces, and all cells behind it begin to the left of their names; only a label that has the width of its
column needs no spaces.

Main results:

* `cells_standAt` — the cells stand in the text where they are said to begin.
* `cellStarts_lineCells` — where the cells of a build begin.
* `columns_of_line` — which builds have their cells below the names of the columns.
* `label_out_of_column` — a build that has not.
-/

namespace BuildQuery

namespace Text

theorem length_spaces (n : Nat) : (spaces n).length = n := by
  simp [spaces]

/-- A text is as long as its column, or as long as it is when it does not fit. -/
theorem length_padEnd (width : Nat) (s : String) : (padEnd width s).length = max width s.length := by
  rw [padEnd, String.length_append, length_spaces]
  omega

/-- Characters take at least one byte. -/
theorem length_le_byteLength (cs : List Char) : cs.length ≤ byteLength cs := by
  induction cs with
  | nil => exact Nat.le_refl 0
  | cons c cs ih =>
    have hByte := c.utf8Size_pos
    rw [byteLength_cons, List.length_cons]
    omega

/-- There are as many bytes as characters just when each takes one byte. -/
theorem byteLength_eq_length_iff (cs : List Char) :
    byteLength cs = cs.length ↔ ∀ c ∈ cs, c.utf8Size = 1 := by
  induction cs with
  | nil => simp [byteLength_nil]
  | cons c cs ih =>
    have hByte := c.utf8Size_pos
    have hBytes := length_le_byteLength cs
    -- neither the first character nor the others can make up for a byte too many
    rw [byteLength_cons, List.length_cons, List.forall_mem_cons, ← ih]
    omega

end Text

namespace Report

open Text Calendar

-- ---------------------------------------------------------------------------
-- Cells side by side
-- ---------------------------------------------------------------------------

/-- Where cells begin that stand side by side with a space between them, the first one at a position. -/
def cellStarts (position : Nat) : List String → List Nat
  | [] => []
  | cell :: cells => position :: cellStarts (position + cell.length + 1) cells

/-- A cell stands in a text at a position. -/
def StandsAt (text cell : String) (position : Nat) : Prop :=
  ∃ before after, text = before ++ cell ++ after ∧ before.length = position

/-- Cells stand in a text where they are said to begin, whatever stands in front of them and behind. -/
theorem cells_standAt (front : String) (cells : List String) (rest : String) :
    List.Forall₂ (StandsAt (front ++ " ".intercalate cells ++ rest)) cells
      (cellStarts front.length cells) := by
  -- the cells that have gone by, each with a space, are what stands in front of the others
  induction cells generalizing front with
  | nil => exact .nil
  | cons cell cells ih =>
    cases cells with
    | nil => exact .cons ⟨front, rest, rfl, rfl⟩ .nil
    | cons other cells =>
      have hText : front ++ " ".intercalate (cell :: other :: cells) ++ rest =
          front ++ cell ++ " " ++ " ".intercalate (other :: cells) ++ rest := by
        simp only [String.intercalate_cons_cons, String.append_assoc]
      have hLength : (front ++ cell ++ " ").length = front.length + cell.length + 1 := by
        rw [String.length_append, String.length_append]
        rfl
      have hOthers := ih (front ++ cell ++ " ")
      rw [hLength] at hOthers
      rw [hText]
      refine .cons ⟨front, " " ++ " ".intercalate (other :: cells) ++ rest, ?_, rfl⟩ hOthers
      simp only [String.append_assoc]

-- ---------------------------------------------------------------------------
-- The cells of a table
-- ---------------------------------------------------------------------------

/-- The cells of the header. -/
def headerCells : List String :=
  [padEnd 8 "NUMBER", padEnd 10 "STATUS", padEnd 17 "STARTED", padEnd 14 "WORKER", "DESCRIPTION"]

/-- The cells of a build. -/
def lineCells (ink : Ink) (build : Build) : List String :=
  [padEnd 8 build.number, statusCell ink build.outcome, padEnd 17 (timeText build.started.toInt),
    padEnd 14 (shownWorker build), shownDescription build]

/-- Why a build was started, as it is shown behind the cells. -/
def causeNote (ink : Ink) (build : Build) : String :=
  match shownCause? build with
  | some cause => Style.dimmed.paint ink ("  [" ++ cause ++ "]")
  | none => ""

theorem tableHeader_eq : tableHeader = " ".intercalate headerCells := rfl

theorem tableLine_eq (ink : Ink) (build : Build) :
    tableLine ink build = " ".intercalate (lineCells ink build) ++ causeNote ink build := by
  cases hCause : shownCause? build with
  | none | some cause =>
    simp only [lineCells, String.intercalate_cons_cons, String.intercalate_singleton, tableLine,
      causeNote, hCause, String.append_assoc]

/-- On a terminal without colours a styled text is the plain text. -/
theorem Style.paint_none (style : Style) (s : String) : style.paint .none s = s := by
  cases style <;> rfl

/-- A time takes 16 characters as long as four digits are enough for its year. -/
theorem length_timeText {millis : Int} (hFirst : 0 ≤ (Minute.ofMillis millis).date.year)
    (hLast : (Minute.ofMillis millis).date.year ≤ 9999) : (timeText millis).length = 16 := by
  have hFrom : firstYear ≤ (Minute.ofMillis millis).date.year := Int.le_trans (by decide) hFirst
  have hUntil : (Minute.ofMillis millis).date.year ≤ lastYear := Int.le_trans hLast (by decide)
  have hRange : inRange millis = true := by
    simp only [inRange, hFrom, hUntil, decide_true, Bool.and_self]
  have hShort := Decimal.length_digits_le_iff 3 (Minute.ofMillis millis).date.year.toNat
  have hFour : (Decimal.digits (Minute.ofMillis millis).date.year.toNat).length ≤ 4 := by
    refine hShort.mpr ?_
    show _ < 10000
    omega
  obtain ⟨m₁, m₂, d₁, d₂, h₁, h₂, n₁, n₂, hText, -⟩ :=
    Minute.exists_fields (Minute.valid_ofMillis millis)
  rw [timeText, if_pos hRange, ← String.length_toList, hText, yearText, if_pos ⟨hFirst, hLast⟩,
    List.length_append, length_padded, Nat.max_eq_left hFour]
  rfl

/-- The status is filled up by the bytes of its label, not by its characters. -/
theorem length_statusCell (outcome : Outcome) : (statusCell .none outcome).length =
    (label outcome).length + (10 - byteLength (label outcome).toList) := by
  rw [statusCell, status, Style.paint_none, String.length_append, length_spaces, byteLength_toList]

theorem length_shownWorker {build : Build} (h : build.worker.length ≤ 14) :
    (shownWorker build).length ≤ 14 := by
  unfold shownWorker
  split
  · decide
  · exact h

-- ---------------------------------------------------------------------------
-- Where the cells of a build begin
-- ---------------------------------------------------------------------------

/-- How far the cells behind the status are to the left of their columns. -/
def shift (label : String) : Nat :=
  min (byteLength label.toList) 10 - label.length

/-- Nothing is shifted behind a label of ASCII characters, and behind one as wide as its column. -/
theorem shift_eq_zero_iff {label : String} (h : label.length ≤ 10) :
    shift label = 0 ↔ (∀ c ∈ label.toList, c.utf8Size = 1) ∨ label.length = 10 := by
  have hBytes := length_le_byteLength label.toList
  rw [← byteLength_eq_length_iff, String.length_toList, shift]
  rw [String.length_toList] at hBytes
  -- all the rest is about two numbers, of which the bytes are not fewer than the characters
  omega

section

variable {build : Build} (hNumber : build.number.length ≤ 8)
  (hLabel : (label build.outcome).length ≤ 10) (hWorker : build.worker.length ≤ 14)
  (hFirst : 0 ≤ (Minute.ofMillis build.started.toInt).date.year)
  (hLast : (Minute.ofMillis build.started.toInt).date.year ≤ 9999)

include hNumber hLabel hWorker hFirst hLast

/-- **Where the cells of a build begin.** -/
theorem cellStarts_lineCells : cellStarts 0 (lineCells .none build) =
    [0, 9, 20 - shift (label build.outcome), 38 - shift (label build.outcome),
      53 - shift (label build.outcome)] := by
  have hBytes := length_le_byteLength (label build.outcome).toList
  have hShown := length_shownWorker hWorker
  rw [String.length_toList] at hBytes
  simp only [lineCells, cellStarts, length_padEnd, length_statusCell, length_timeText hFirst hLast,
    shift, List.cons.injEq, and_true, true_and]
  omega

/-- **The columns of a table.** The header and the line of a build put their cells side by side, and the
cells stand where they are said to begin. The number and the status begin below their names, and so do
all other cells just when the label of the status has characters of one byte only, or fills its column.
Behind any other label they begin further to the left. -/
theorem columns_of_line :
    tableHeader = " ".intercalate headerCells ∧
      tableLine .none build = " ".intercalate (lineCells .none build) ++ causeNote .none build ∧
      List.Forall₂ (StandsAt tableHeader) headerCells (cellStarts 0 headerCells) ∧
      List.Forall₂ (StandsAt (tableLine .none build)) (lineCells .none build)
        (cellStarts 0 (lineCells .none build)) ∧
      cellStarts 0 headerCells = [0, 9, 20, 38, 53] ∧
      cellStarts 0 (lineCells .none build) =
        [0, 9, 20 - shift (label build.outcome), 38 - shift (label build.outcome),
          53 - shift (label build.outcome)] ∧
      (cellStarts 0 (lineCells .none build) = cellStarts 0 headerCells ↔
        (∀ c ∈ (label build.outcome).toList, c.utf8Size = 1) ∨ (label build.outcome).length = 10) := by
  have hHeader : cellStarts 0 headerCells = [0, 9, 20, 38, 53] := by
    decide +kernel
  have hLine := cellStarts_lineCells hNumber hLabel hWorker hFirst hLast
  have hHeaderCells := cells_standAt "" headerCells ""
  have hLineCells := cells_standAt "" (lineCells .none build) (causeNote .none build)
  rw [String.empty_append, String.append_empty, ← tableHeader_eq] at hHeaderCells
  rw [String.empty_append, ← tableLine_eq] at hLineCells
  refine ⟨tableHeader_eq, tableLine_eq .none build, hHeaderCells, hLineCells, hHeader, hLine, ?_⟩
  have hWidth : shift (label build.outcome) ≤ 10 := by
    unfold shift
    omega
  -- the three cells behind the status are shifted alike, so one of them tells
  rw [hLine, hHeader, ← shift_eq_zero_iff hLabel]
  simp only [List.cons.injEq, and_true, true_and]
  omega

end

/-- An outcome of the server's own in ASCII characters, and one with a character of two bytes. -/
theorem columns_of_line_two_labels :
    let build (name : String) : Build := ⟨"42", some "smoke", .other name, "", [], 0⟩
    cellStarts 0 (lineCells .none (build "CANCELLED")) = cellStarts 0 headerCells ∧
      cellStarts 0 (lineCells .none (build "\u00c9CHEC")) = [0, 9, 19, 37, 52] := by
  intro build
  have hYear : (Minute.ofMillis 0).date.year = 1970 := by decide +kernel
  have hFirst : 0 ≤ (Minute.ofMillis 0).date.year := by omega
  have hLast : (Minute.ofMillis 0).date.year ≤ 9999 := by omega
  have hPlain := @columns_of_line (build "CANCELLED") (by decide) (by decide) (by decide) hFirst hLast
  have hAccent := @columns_of_line (build "\u00c9CHEC") (by decide) (by decide) (by decide) hFirst hLast
  have hBytes : ∀ c ∈ (label (build "CANCELLED").outcome).toList, c.utf8Size = 1 :=
    (byteLength_eq_length_iff _).mp (by decide +kernel)
  have hShift : shift (label (build "\u00c9CHEC").outcome) = 1 := by decide +kernel
  rw [hShift] at hAccent
  obtain ⟨-, -, -, -, -, -, hSame⟩ := hPlain
  obtain ⟨-, -, -, -, -, hStarts, -⟩ := hAccent
  exact ⟨hSame.mpr (.inl hBytes), hStarts⟩

/-- **A label out of its column.** A build of which all texts fit their columns, and what is behind its
status begins to the left of its name: the label has five characters and six bytes. -/
theorem label_out_of_column :
    let body := "\x7b\"id\":\"1\",\"result\":\"\u00c9CHEC\",\"builtOn\":\"w\",\"timestamp\":0\x7d"
    let build : Build := ⟨"1", none, .other "\u00c9CHEC", "w", [], 0⟩
    Build.ofBytes (bytes body) = .ok build ∧
      (build.number.length ≤ 8 ∧ (label build.outcome).length ≤ 10 ∧ build.worker.length ≤ 14 ∧
        (Minute.ofMillis build.started.toInt).date.year = 1970) ∧
      tableLine .none build = "1        \u00c9CHEC     1970-01-01 00:00  w              " ∧
      cellStarts 0 (lineCells .none build) = [0, 9, 19, 37, 52] ∧
      cellStarts 0 headerCells = [0, 9, 20, 38, 53] := by
  decide +kernel

end Report

end BuildQuery
