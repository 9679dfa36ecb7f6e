import BuildQuery.Proofs.BuildsOutput
import BuildQuery.Proofs.BuildText
import BuildQuery.Proofs.TableColumns

/-!
# BuildQuery — one line for each build

A report shows each build on a line of its own, if no text that it shows of the build has a line feed. The
document of a build has none, whatever its texts are, since they are escaped there. The other two formats
show texts of the server as they are (`Report.shownTexts`), and a line feed in one of them breaks the line
of its build.

Main results:

* `Report.mem_line_iff` — which texts bring a control character into the line of a build, and
  `Report.newline_mem_line_iff` — which break it.
* `linesOf_unlines_iff` — when a text that was put together from lines falls apart into them.
* `lines_of_listing` — when the lines of a listing are those of its builds.
* `build_on_two_lines` — a build that takes two lines.
-/

namespace BuildQuery

-- ---------------------------------------------------------------------------
-- Control characters in styled and padded texts
-- ---------------------------------------------------------------------------

namespace Report

open Text Calendar Json

/-- The characters that are in a line only where a text of the build has them: control characters, but
where there are colours not the one that begins a code. -/
def FromTexts (ink : Ink) (c : Char) : Prop :=
  c.toNat < 0x20 ∧ (ink = .colours → c ≠ '\x1b')

/-- A line feed is in a line only where a text has it. -/
theorem fromTexts_newline (ink : Ink) : FromTexts ink '\n' :=
  ⟨by decide, fun _ => by decide⟩

/-- Printed texts have no control characters. -/
theorem not_mem_of_printed {c : Char} {cs : List Char} (hc : c.toNat < 0x20) (h : Printed cs) : c ∉ cs :=
  fun hMem => absurd (h c hMem) (Nat.not_le.mpr hc)

/-- Putting a code behind the ends of all styles brings in the characters of codes only. -/
theorem mem_resume_iff {c : Char} {code : List Char} (hCode : c ∉ code) (hReset : c ∉ reset)
    (cs : List Char) : c ∈ resume code cs ↔ c ∈ cs := by
  fun_induction resume code cs with
  | case1 rest ih =>
    have hChars : '\x1b' :: '[' :: '0' :: 'm' :: rest = reset ++ rest := rfl
    rw [hChars]
    simp only [List.mem_append, hReset, hCode, ih, false_or]
  | case2 => rfl
  | case3 d rest hNotReset ih => rw [List.mem_cons, List.mem_cons, ih]

/-- Styling a text brings in no control character but the one that begins a code. -/
theorem mem_paint_iff {ink : Ink} {c : Char} (h : FromTexts ink c) (style : Style) (s : String) :
    c ∈ (style.paint ink s).toList ↔ c ∈ s.toList := by
  cases ink with
  | none => rw [Style.paint_none]
  | colours =>
    obtain ⟨hControl, hNoEscape⟩ := h
    -- what stands around the text is an escape character and printed ones
    have hCodes : ∀ d ∈ style.code ++ reset, d = '\x1b' ∨ 0x20 ≤ d.toNat := by
      cases style <;> simp [Style.code, Style.digits, reset]
    have hNone : c ∉ style.code ++ reset := by
      intro hMem
      rcases hCodes c hMem with hEscape | hPrinted
      · exact hNoEscape rfl hEscape
      · omega
    rw [List.mem_append, not_or] at hNone
    obtain ⟨hCode, hReset⟩ := hNone
    unfold Style.paint
    split
    · rfl
    · rfl
    · rw [String.toList_ofList, List.mem_append, List.mem_append, mem_resume_iff hCode hReset]
      simp only [hCode, hReset, false_or, or_false]

/-- Filling up a column brings in blanks only. -/
theorem mem_padEnd_iff {c : Char} (hc : c.toNat < 0x20) (width : Nat) (s : String) :
    c ∈ (padEnd width s).toList ↔ c ∈ s.toList := by
  have hSpace : c ≠ ' ' := by
    rintro rfl
    exact absurd hc (by decide)
  simp [padEnd, spaces, hSpace]

/-- Digits with leading zeros are printed. -/
theorem printed_padded (width n : Nat) : Printed (Decimal.padded width n).toList := by
  have hDigit : ∀ d < 10, 0x20 ≤ (Decimal.digitChar d).toNat := by decide
  rw [toList_padded]
  refine List.forall_mem_map.mpr ?_
  intro d hd
  exact hDigit d (lt_ten_of_mem_paddedDigits hd)

/-- A time is printed, whether it can be shown or not. -/
theorem printed_timeText (millis : Int) : Printed (timeText millis).toList := by
  -- only a year may have a sign
  have hYear (year : Int) : Printed (yearText year).toList := by
    unfold yearText
    split
    · exact printed_padded 4 _
    · rw [String.toList_append]
      refine Printed.append ?_ (printed_padded 4 _)
      split <;> decide
  unfold timeText
  split
  · simp only [Minute.text, String.toList_append]
    exact ((((((((hYear _).append (by decide)).append (printed_padded 2 _)).append (by decide)).append
      (printed_padded 2 _)).append (by decide)).append (printed_padded 2 _)).append (by decide)).append
      (printed_padded 2 _)
  · decide

-- ---------------------------------------------------------------------------
-- Control characters in lines
-- ---------------------------------------------------------------------------

/-- The texts of a build that a format shows as they are. -/
def shownTexts (format : Format) (build : Build) : List String :=
  match format with
  | .compact => [label build.outcome, shownDescription build]
  | .table => [build.number, label build.outcome, shownWorker build, shownDescription build] ++
      (shownCause? build).toList
  | .json => []

/-- The document of a build is printed, whatever its texts are. -/
theorem printed_json (build : Build) : Printed build.json.toList := by
  rw [Build.json, Json.Value.render, String.toList_ofList]
  exact build.integral.printed

/-- The note on the cause has the control characters of the cause. -/
theorem mem_causeNote_iff {ink : Ink} {c : Char} (h : FromTexts ink c) (build : Build) :
    c ∈ (causeNote ink build).toList ↔ ∃ s ∈ shownCause? build, c ∈ s.toList := by
  have hFrame : c ∉ "  [".toList ∧ c ∉ "]".toList :=
    ⟨not_mem_of_printed h.1 (by decide), not_mem_of_printed h.1 (by decide)⟩
  unfold causeNote
  cases shownCause? build with
  | none => simp
  | some cause =>
    simp only [mem_paint_iff h, String.toList_append, List.mem_append, hFrame.1, hFrame.2, false_or,
      or_false, Option.mem_some_iff, exists_eq_left']

/-- **Which texts bring a control character into the line of a build.** -/
theorem mem_line_iff {ink : Ink} {c : Char} (h : FromTexts ink c) (format : Format) (build : Build) :
    c ∈ (line format ink build).toList ↔ ∃ s ∈ shownTexts format build, c ∈ s.toList := by
  have hSpace : c ≠ ' ' := by
    rintro rfl
    exact absurd h.1 (by decide)
  cases format with
  | compact =>
    simp [line, compactLine, status, shownTexts, mem_paint_iff h, hSpace]
  | table =>
    have hTime := not_mem_of_printed h.1 (printed_timeText build.started.toInt)
    rw [line, tableLine_eq]
    simp [lineCells, statusCell, status, spaces, shownTexts, mem_padEnd_iff h.1, mem_paint_iff h,
      mem_causeNote_iff h, hTime, hSpace]
  | json =>
    simp [line, shownTexts, not_mem_of_printed h.1 (printed_json build)]

/-- Which texts break the line of a build. -/
theorem newline_mem_line_iff (format : Format) (ink : Ink) (build : Build) :
    '\n' ∈ (line format ink build).toList ↔ ∃ s ∈ shownTexts format build, '\n' ∈ s.toList :=
  mem_line_iff (fromTexts_newline ink) format build

end Report

-- ---------------------------------------------------------------------------
-- The lines of a text
-- ---------------------------------------------------------------------------

namespace Command

open Remote Report Text

/-- The lines of a text in which each line ends with a line feed. -/
def linesOf (s : String) : List String :=
  (pieces '\n' s.toList).dropLast.map String.ofList

/-- No line of a text has a line feed. -/
theorem newline_not_mem_linesOf {s l : String} (h : l ∈ linesOf s) : '\n' ∉ l.toList := by
  obtain ⟨piece, hPiece, rfl⟩ := List.mem_map.mp h
  rw [String.toList_ofList]
  exact mark_not_mem_piece (List.mem_of_mem_dropLast hPiece)

/-- Lines without line feeds are the pieces of their text, with nothing behind the last line feed. -/
theorem pieces_unlines {lines : List String} (h : ∀ l ∈ lines, '\n' ∉ l.toList) :
    pieces '\n' (unlines lines).toList = lines.map String.toList ++ [[]] := by
  induction lines with
  | nil => rfl
  | cons l lines ih =>
    obtain ⟨hLine, hLines⟩ := List.forall_mem_cons.mp h
    have hChars : (unlines (l :: lines)).toList = l.toList ++ '\n' :: (unlines lines).toList := by
      simp [unlines]
    rw [hChars, pieces_append_mark hLine, ih hLines]
    rfl

/-- **A text that was put together from lines** falls apart into them just when none of them has a line
feed. -/
theorem linesOf_unlines_iff (lines : List String) :
    linesOf (unlines lines) = lines ↔ ∀ l ∈ lines, '\n' ∉ l.toList := by
  constructor
  · -- lines that are found have no line feed, so neither do these
    intro hSame l hl
    rw [← hSame] at hl
    exact newline_not_mem_linesOf hl
  · intro h
    rw [linesOf, pieces_unlines h, List.dropLast_concat, List.map_map]
    exact (List.map_congr_left fun l _ => String.ofList_toList).trans (List.map_id lines)

-- ---------------------------------------------------------------------------
-- The lines of a listing
-- ---------------------------------------------------------------------------

/-- The build that a response describes, if the filter selects it. -/
def selected? (v : View) : Except Error (List UInt8) → Option Build
  | .ok body => (Build.ofBytes body).toOption.filter fun build => v.filter.selects build.field
  | .error _ => none

/-- The line of an entry is the one of the selected build, and other entries have none. -/
theorem line?_entryOf (v : View) (locator : String) (response : Except Error (List UInt8)) :
    (v.entryOf locator response).line? = (selected? v response).map (line v.format v.ink) := by
  cases response with
  | error e => rfl
  | ok body =>
    rw [View.entryOf, selected?]
    cases Build.ofBytes body with
    | error fault => rfl
    | ok build =>
      by_cases hSelects : v.filter.selects build.field
      · simp [hSelects, Except.toOption, Entry.line?]
      · simp [hSelects, Except.toOption, Entry.line?]

/-- The header of the table is one line. -/
theorem newline_not_mem_headerLines (format : Format) : ∀ l ∈ headerLines format, '\n' ∉ l.toList := by
  cases format <;> decide

section

variable {w : World} {c : BuildsCommand} {ready : Ready} {shown : String} {locators : List String}

/-- **The lines of a listing.** The line of a build has a line feed just when a text has one that is shown of
the build as it is. So the lines of a listing are those of the header and of the selected builds, one by
one and in the order of the list, just when no such text of these builds has a line feed; where builds are
shown as documents, they always are. -/
theorem lines_of_listing (hReady : prepare w c = (.ok ready, shown))
    (hLists : ready.client.list w.transport ready.job = .ok locators) :
    let builds := locators.filterMap fun l => selected? ready.view (w.transport (ready.client.request l))
    let lines := headerLines c.format ++ builds.map (line c.format ready.view.ink)
    (∀ format ink build, '\n' ∈ (line format ink build).toList ↔
      ∃ s ∈ shownTexts format build, '\n' ∈ s.toList) ∧
    (∀ args, ofArguments args = .ok (.builds c) → Leaves w c (runArguments w args)) ∧
      ∀ done, Leaves w c done →
        done.out = unlines lines ∧
        (linesOf done.out = lines ↔
          ∀ build ∈ builds, ∀ s ∈ shownTexts c.format build, '\n' ∉ s.toList) ∧
        (c.format = .json → linesOf done.out = lines) := by
  intro builds lines
  refine ⟨newline_mem_line_iff, fun args hArgs => leaves_runArguments w hArgs, fun done hLeaves => ?_⟩
  obtain ⟨-, hFormat⟩ := view_of_prepare hReady
  -- the output of the run is known from its entries; what is left is to name their builds
  have hOut : done.out = unlines lines := by
    rw [(listed_of_ready hReady hLists hLeaves).1]
    simp only [line?_entryOf, hFormat, ← List.map_filterMap]
    rfl
  have hBreaks : linesOf done.out = lines ↔
      ∀ build ∈ builds, ∀ s ∈ shownTexts c.format build, '\n' ∉ s.toList := by
    rw [hOut, linesOf_unlines_iff, List.forall_mem_append, List.forall_mem_map,
      and_iff_right (newline_not_mem_headerLines c.format)]
    simp only [newline_mem_line_iff, not_exists, not_and]
  refine ⟨hOut, hBreaks, ?_⟩
  intro hJson
  -- no text is shown as it is where builds are shown as documents
  rw [hBreaks, hJson]
  exact fun build _ => List.forall_mem_nil _

end

/-- **A build that takes two lines** in a report without colours: a line feed in its description. -/
theorem build_on_two_lines :
    let body := "\x7b\"id\":\"1\",\"result\":\"SUCCESS\",\"description\":\"a\\nb\"\x7d"
    let build : Build := ⟨"1", some "a\nb", .success, "", [], 0⟩
    Build.ofBytes (bytes body) = .ok build ∧
      line .compact .none build = "SUCCESS a\nb" ∧
      line .table .none build = "1        SUCCESS    1970-01-01 00:00  -              a\nb" ∧
      linesOf (unlines [line .compact .none build]) = ["SUCCESS a", "b"] := by
  decide +kernel

/-- The same build in a listing, in short and as a document. -/
theorem lines_of_listing_two_formats :
    let respond : Transport := fun r =>
      if r.url = "h/job/j/api/json" then
        .ok (bytes "\x7b\"builds\":[\x7b\"url\":\"h/1\"\x7d]\x7d")
      else .ok (bytes "\x7b\"id\":\"1\",\"result\":\"SUCCESS\",\"description\":\"a\\nb\"\x7d")
    let env : Environment := .ofVariables
      [("JENQ_ROOT", "/r"), ("JENKINS_HOST_URL", "h"), ("JENKINS_API_TOKEN", "t")]
    let w : World := ⟨⟨[]⟩, env, none, respond, default⟩
    let build : Build := ⟨"1", some "a\nb", .success, "", [], 0⟩
    let compact := runArguments w ["builds", "j"]
    let json := runArguments w ["builds", "-F", "json", "j"]
    linesOf compact.out ≠ [compactLine .none build] ∧ linesOf json.out = [build.json] := by
  intro respond env w build compact json
  let s : Settings := ⟨"/r", some "h", none, "unknown", 8, 32, 30⟩
  let short : Prepared w ⟨some "j", "", .compact, none⟩ :=
    ⟨s, "j", "h/", "t", .all, by decide +kernel, by decide +kernel, by decide +kernel,
      by decide +kernel, by decide +kernel⟩
  let full : Prepared w ⟨some "j", "", .json, none⟩ :=
    ⟨s, "j", "h/", "t", .all, short.loads, short.has_job, short.has_host, short.has_secret,
      short.parses⟩
  have hLists : short.client.list w.transport "j" = .ok ["h/1/api/json"] := by decide +kernel
  have hBuilds : ["h/1/api/json"].filterMap (fun l =>
      selected? short.view (w.transport (short.client.request l))) = [build] := by
    decide +kernel
  have hBuilds' : ["h/1/api/json"].filterMap (fun l =>
      selected? full.view (w.transport (full.client.request l))) = [build] := by
    decide +kernel
  obtain ⟨-, hRun, hAll⟩ := lines_of_listing short.prepare_eq hLists
  obtain ⟨-, hBreaks, -⟩ := hAll _ (hRun ["builds", "j"] (by decide +kernel))
  obtain ⟨-, hRun', hAll'⟩ := lines_of_listing full.prepare_eq hLists
  obtain ⟨-, -, hJson⟩ := hAll' _ (hRun' ["builds", "-F", "json", "j"] (by decide +kernel))
  have hLines := hJson rfl
  simp only [hBuilds] at hBreaks
  simp only [hBuilds'] at hLines
  constructor
  · intro hSame
    exact absurd (hBreaks.mp hSame build List.mem_cons_self) (by decide +kernel)
  · exact hLines

end Command

end BuildQuery
