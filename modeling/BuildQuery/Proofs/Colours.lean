import BuildQuery.Proofs.LineBreaks
import BuildQuery.Proofs.LinkTitles
import BuildQuery.Proofs.StyleCodes

/-!
# BuildQuery — coloured lines without their codes

In a line with colours the status and the cause are styled, and all else is as in the plain line; the cells
are filled up outside of the styled texts. So a coloured line is the plain line but for the codes, whatever
the texts of the build are. Where no text of the build has an escape character, the plain line has no codes
of its own, since all that it shows is of the build (`Build.texts`) or without control characters.

Main results:

* `withoutCodes_compactLine`, `withoutCodes_tableLine` — a coloured line and the plain line.
* `exists_text_of_shown` — where a control character that is shown comes from.
* `only_codes_added` — what colours add to the line of a build.
-/

namespace BuildQuery

-- ---------------------------------------------------------------------------
-- The texts of a build
-- ---------------------------------------------------------------------------

/-- The texts of a cause. -/
def Cause.texts (cause : Cause) : List String :=
  [cause.kind, cause.summary] ++ cause.triggerProject.toList ++ cause.triggerUrl.toList

/-- The texts of an action. -/
def Action.texts : Action → List String
  | .parameters ps => ps.flatMap fun p => [p.name, p.value]
  | .causes cs => cs.flatMap Cause.texts
  | .other kind => kind.toList

/-- All texts of a build. -/
def Build.texts (build : Build) : List String :=
  [build.number, build.outcome.name, build.worker] ++ build.description.toList ++
    build.actions.flatMap Action.texts

/-- A cause that names the build that triggered it has the project of that build. -/
theorem Cause.project_of_trigger? {cause : Cause} {up : Trigger} (h : cause.trigger? = some up) :
    cause.triggerProject = some up.project := by
  unfold Cause.trigger? at h
  split at h
  · obtain ⟨project, hProject, h⟩ := Option.bind_eq_some_iff.mp h
    obtain ⟨number, -, h⟩ := Option.bind_eq_some_iff.mp h
    cases h
    exact hProject
  · cases h

/-- The texts of the causes of a build are texts of the build. -/
theorem Build.text_of_cause {build : Build} {cause : Cause} (hCause : cause ∈ build.causes) {s : String}
    (hs : s ∈ cause.texts) : s ∈ build.texts := by
  obtain ⟨causes, hCauses, hMem⟩ := List.mem_flatten.mp hCause
  obtain ⟨action, hAction, hHolds⟩ := List.mem_filterMap.mp hCauses
  have hText : s ∈ action.texts := by
    cases action with
    | causes held =>
      cases hHolds
      exact List.mem_flatMap.mpr ⟨cause, hMem, hs⟩
    | parameters ps => cases hHolds
    | other kind => cases hHolds
  exact List.mem_append_right _ (List.mem_flatMap.mpr ⟨action, hAction, hText⟩)

namespace Report

open Text

-- ---------------------------------------------------------------------------
-- Coloured lines
-- ---------------------------------------------------------------------------

/-- **A coloured line in short** is the plain line but for the codes. -/
theorem withoutCodes_compactLine (ink : Ink) (build : Build) :
    withoutCodes (compactLine ink build).toList = withoutCodes (compactLine .none build).toList := by
  -- the same for both inks, since only the status is styled and a blank follows it
  have hLine (ink : Ink) : withoutCodes (compactLine ink build).toList =
      withoutCodes (label build.outcome).toList ++
        withoutCodes (' ' :: (shownDescription build).toList) := by
    have hChars : (compactLine ink build).toList =
        (status ink build.outcome).toList ++ ' ' :: (shownDescription build).toList := by
      simp [compactLine]
    rw [hChars, withoutCodes_append _ (breaks_space _), status, withoutCodes_paint]
  rw [hLine, hLine]

/-- The note on the cause begins with a blank or a code, so it goes on with no code. -/
theorem breaks_causeNote (ink : Ink) (build : Build) : Breaks (causeNote ink build).toList := by
  unfold causeNote
  split
  · refine breaks_paint _ ink ?_
    rw [String.append_assoc, String.toList_append]
    exact breaks_space _
  · exact breaks_nil

/-- The note on the cause is the same but for the codes. -/
theorem withoutCodes_causeNote (ink : Ink) (build : Build) :
    withoutCodes (causeNote ink build).toList = withoutCodes (causeNote .none build).toList := by
  unfold causeNote
  cases shownCause? build with
  | none => rfl
  | some cause =>
    exact (withoutCodes_paint .dimmed ink _).trans (withoutCodes_paint .dimmed .none _).symm

/-- **A coloured line of the table** is the plain line but for the codes. -/
theorem withoutCodes_tableLine (ink : Ink) (build : Build) :
    withoutCodes (tableLine ink build).toList = withoutCodes (tableLine .none build).toList := by
  -- the cells behind the status, from the spaces that fill up its column
  let behind := (spaces (10 - (label build.outcome).utf8ByteSize)).toList ++
    ' ' :: (" ".intercalate [padEnd 17 (Calendar.timeText build.started.toInt),
      padEnd 14 (shownWorker build), shownDescription build]).toList
  -- spaces or a blank follow the status, so no code goes on behind it
  have hBehind : Breaks behind := by
    refine breaks_append ?_ (breaks_space _)
    intro c hc
    rw [spaces, String.toList_ofList] at hc
    rw [List.eq_of_mem_replicate (List.mem_of_mem_head? hc)]
    decide
  have hLine (ink : Ink) : withoutCodes (tableLine ink build).toList =
      withoutCodes (padEnd 8 build.number).toList ++ ' ' :: (withoutCodes (label build.outcome).toList ++
        (withoutCodes behind ++ withoutCodes (causeNote .none build).toList)) := by
    -- the number, a blank, the styled status, the other cells, and the styled note
    have hChars : (tableLine ink build).toList = (padEnd 8 build.number).toList ++
        ' ' :: ((status ink build.outcome).toList ++ (behind ++ (causeNote ink build).toList)) := by
      rw [tableLine_eq]
      simp [lineCells, statusCell, behind]
    have hNote := breaks_causeNote ink build
    rw [hChars, withoutCodes_append _ (breaks_space _), withoutCodes_cons (afterCode?_of_ne (by decide) _),
      withoutCodes_append _ (breaks_append hBehind hNote), withoutCodes_append _ hNote, status,
      withoutCodes_paint, withoutCodes_causeNote]
  rw [hLine, hLine]

-- ---------------------------------------------------------------------------
-- Builds without escape characters
-- ---------------------------------------------------------------------------

section

variable {build : Build} {c : Char} (hc : c.toNat < 0x20)

include hc

/-- A text that is shown in the place of another one brings in no control character. -/
theorem mem_of_replaced {p : Prop} [Decidable p] {fixed s : String} (hFixed : Json.Printed fixed.toList)
    (h : c ∈ (if p then fixed else s).toList) : c ∈ s.toList := by
  split at h
  · exact absurd h (not_mem_of_printed hc hFixed)
  · exact h

/-- The status shows the name of the outcome, or a text of its own. -/
theorem exists_text_of_label (h : c ∈ (label build.outcome).toList) : ∃ t ∈ build.texts, c ∈ t.toList :=
  ⟨build.outcome.name, by simp [Build.texts], mem_of_replaced hc (by decide) h⟩

/-- The worker that is shown is the one of the build, or a dash. -/
theorem exists_text_of_worker (h : c ∈ (shownWorker build).toList) : ∃ t ∈ build.texts, c ∈ t.toList :=
  ⟨build.worker, by simp [Build.texts], mem_of_replaced hc (by decide) h⟩

omit hc in
/-- The description that is shown is the one of the build, or the title of the link in it. -/
theorem exists_text_of_description (h : c ∈ (shownDescription build).toList) :
    ∃ t ∈ build.texts, c ∈ t.toList := by
  unfold shownDescription at h
  cases hDescription : build.description with
  | none =>
    rw [hDescription] at h
    exact absurd h List.not_mem_nil
  | some description =>
    rw [hDescription, Option.map_some, Option.getD_some] at h
    refine ⟨description, by simp [Build.texts, hDescription], ?_⟩
    -- the title of a link stands inside the description
    rcases plainDescription_cases description with ⟨⟨rest, hLink⟩, -⟩ | ⟨-, hSame⟩
    · rw [hLink]
      simp only [String.toList_append, List.mem_append]
      exact .inl (.inl (.inr h))
    · rw [hSame] at h
      exact h

/-- The cause that is shown has the project that triggered the build, or the summary of the cause. -/
theorem exists_text_of_cause {shown : String} (hShown : shownCause? build = some shown)
    (h : c ∈ shown.toList) : ∃ t ∈ build.texts, c ∈ t.toList := by
  obtain ⟨cause, hCause, hText⟩ := Option.bind_eq_some_iff.mp hShown
  have hMem : cause ∈ build.causes := List.mem_of_mem_head? hCause
  unfold causeText? at hText
  split at hText
  · next up hUp =>
    cases hText
    have hProject := Cause.project_of_trigger? hUp
    refine ⟨up.project, build.text_of_cause hMem (by simp [Cause.texts, hProject]), ?_⟩
    -- all that stands around the project is printed
    have hFrame : c ∉ "upstream ".toList ∧ c ∉ "#".toList :=
      ⟨not_mem_of_printed hc (by decide), not_mem_of_printed hc (by decide)⟩
    have hNumber := not_mem_of_printed hc (Json.printed_text up.build.toNat)
    simp only [String.toList_append, List.mem_append, hFrame.1, hFrame.2, hNumber, false_or, or_false]
      at h
    exact h
  · split at hText
    · cases hText
    · cases hText
      exact ⟨cause.summary, build.text_of_cause hMem (by simp [Cause.texts]), h⟩

/-- A control character in a text that is shown is in a text of the build. -/
theorem exists_text_of_shown {format : Format} {s : String} (hs : s ∈ shownTexts format build)
    (h : c ∈ s.toList) : ∃ t ∈ build.texts, c ∈ t.toList := by
  cases format with
  | compact =>
    simp only [shownTexts, List.mem_cons, List.not_mem_nil, or_false] at hs
    rcases hs with rfl | rfl
    · exact exists_text_of_label hc h
    · exact exists_text_of_description h
  | table =>
    simp only [shownTexts, List.mem_append, List.mem_cons, List.not_mem_nil, or_false,
      Option.mem_toList] at hs
    -- the cells of the table, and the cause if there is one
    rcases hs with (rfl | rfl | rfl | rfl) | hShown
    · exact ⟨build.number, by simp [Build.texts], h⟩
    · exact exists_text_of_label hc h
    · exact exists_text_of_worker hc h
    · exact exists_text_of_description h
    · exact exists_text_of_cause hc hShown h
  | json => cases hs

end

/-- A plain line has no codes if no text of the build has an escape character. -/
theorem withoutCodes_plainLine {build : Build} (h : ∀ s ∈ build.texts, '\x1b' ∉ s.toList)
    (format : Format) :
    withoutCodes (line format .none build).toList = (line format .none build).toList := by
  have hEscape : FromTexts .none '\x1b' := ⟨by decide, nofun⟩
  refine withoutCodes_of_not_mem ?_
  rw [mem_line_iff hEscape]
  rintro ⟨s, hs, hMem⟩
  obtain ⟨t, ht, hMem⟩ := exists_text_of_shown hEscape.1 hs hMem
  exact h t ht hMem

/-- **What colours add to the line of a build.** Without codes a coloured line is the plain line without
codes, whatever the texts of the build hold. If no text of the build has an escape character, it is the
plain line. -/
theorem only_codes_added (build : Build) :
    withoutCodes (compactLine .colours build).toList = withoutCodes (compactLine .none build).toList ∧
      withoutCodes (tableLine .colours build).toList = withoutCodes (tableLine .none build).toList ∧
      ((∀ s ∈ build.texts, '\x1b' ∉ s.toList) →
        withoutCodes (compactLine .colours build).toList = (compactLine .none build).toList ∧
          withoutCodes (tableLine .colours build).toList = (tableLine .none build).toList) := by
  have hCompact := withoutCodes_compactLine .colours build
  have hTable := withoutCodes_tableLine .colours build
  refine ⟨hCompact, hTable, fun hTexts => ⟨?_, ?_⟩⟩
  · rw [hCompact]
    exact withoutCodes_plainLine hTexts .compact
  · rw [hTable]
    exact withoutCodes_plainLine hTexts .table

/-- A running build with a cause: its status and its cause are coloured. -/
theorem only_codes_added_running :
    let cause : Cause := ⟨triggerKind, "", some 7, some "up", none⟩
    let build : Build := ⟨"42", some "smoke", .running, "w", [.causes [cause]], 0⟩
    (∀ s ∈ build.texts, '\x1b' ∉ s.toList) ∧
      compactLine .colours build = "\x1b[33mRUNNING\x1b[0m smoke" ∧
      withoutCodes (compactLine .colours build).toList = "RUNNING smoke".toList ∧
      withoutCodes (tableLine .colours build).toList =
        "42       RUNNING    1970-01-01 00:00  w              smoke  [upstream up#7]".toList := by
  intro cause build
  have hTexts : ∀ s ∈ build.texts, '\x1b' ∉ s.toList := by decide
  obtain ⟨hCompact, hTable⟩ := (only_codes_added build).2.2 hTexts
  refine ⟨hTexts, by decide +kernel, ?_, ?_⟩
  · rw [hCompact]
    decide +kernel
  · rw [hTable]
    decide +kernel

end Report

end BuildQuery
