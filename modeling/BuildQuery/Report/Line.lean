import BuildQuery.Build.Writer
import BuildQuery.Calendar
import BuildQuery.Report.Style
import BuildQuery.Text.Columns
import BuildQuery.Text.Search

/-!
# BuildQuery — lines of a report

A report shows one build per line, in one of three formats: the status and the description, the
columns of a table, or the document of the build. `tableHeader` names the columns.
-/

namespace BuildQuery.Report

open Text

-- ---------------------------------------------------------------------------
-- Cells
-- ---------------------------------------------------------------------------

/-- The label of an outcome. -/
def label (outcome : Outcome) : String :=
  if outcome.isRunning then "RUNNING" else outcome.name

/-- The style of the label of an outcome. -/
def labelStyle : Outcome → Style
  | .running => .yellow
  | .success => .green
  | .failure => .red
  | .aborted => .magenta
  | _ => .plain

/-- The label of an outcome in its style. -/
def status (ink : Ink) (outcome : Outcome) : String :=
  (labelStyle outcome).paint ink (label outcome)

/-- What a description that is a link begins with. -/
def linkStart : List Char := "<a title=\"".toList

/-- What follows the title of a link. -/
def linkMark : List Char := "\" href=\"".toList

/-- The title of a link, or the description itself. -/
def plainDescription (s : String) : String :=
  match (after? linkStart s.toList).bind (before? linkMark) with
  | some title => String.ofList title
  | none => s

/-- The description that is shown of a build. -/
def shownDescription (build : Build) : String :=
  (build.description.map plainDescription).getD ""

/-- What is shown of a cause. -/
def causeText? (cause : Cause) : Option String :=
  match cause.trigger? with
  | some up => some ("upstream " ++ up.project ++ "#" ++ Decimal.text up.build.toNat)
  | none => if cause.summary.isEmpty then none else some cause.summary

/-- What is shown of why a build was started: the first cause decides. -/
def shownCause? (build : Build) : Option String :=
  build.causes.head?.bind causeText?

-- ---------------------------------------------------------------------------
-- Lines
-- ---------------------------------------------------------------------------

/-- The formats of a report. -/
inductive Format where
  | compact
  | table
  | json
deriving DecidableEq

/-- The status and the description of a build. -/
def compactLine (ink : Ink) (build : Build) : String :=
  status ink build.outcome ++ " " ++ shownDescription build

/-- The names of the columns. -/
def tableHeader : String :=
  padEnd 8 "NUMBER" ++ " " ++ padEnd 10 "STATUS" ++ " " ++ padEnd 17 "STARTED" ++ " "
    ++ padEnd 14 "WORKER" ++ " DESCRIPTION"

/-- The cell of the status. Its width counts the bytes of the label. -/
def statusCell (ink : Ink) (outcome : Outcome) : String :=
  status ink outcome ++ spaces (10 - (label outcome).utf8ByteSize)

/-- The name of the worker of a build, or a dash. -/
def shownWorker (build : Build) : String :=
  if build.worker.isEmpty then "-" else build.worker

/-- The columns of the table for a build, followed by why it was started. -/
def tableLine (ink : Ink) (build : Build) : String :=
  let cause := match shownCause? build with
    | some cause => Style.dimmed.paint ink ("  [" ++ cause ++ "]")
    | none => ""
  padEnd 8 build.number ++ " " ++ statusCell ink build.outcome ++ " "
    ++ padEnd 17 (Calendar.timeText build.started.toInt) ++ " " ++ padEnd 14 (shownWorker build)
    ++ " " ++ shownDescription build ++ cause

/-- The line of a build. -/
def line (format : Format) (ink : Ink) (build : Build) : String :=
  match format with
  | .compact => compactLine ink build
  | .table => tableLine ink build
  | .json => build.json

end BuildQuery.Report
