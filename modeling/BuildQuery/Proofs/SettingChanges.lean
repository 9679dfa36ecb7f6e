import BuildQuery.Command.Run
import BuildQuery.Proofs.Addresses
import BuildQuery.Proofs.TomlNumbers

/-!
# BuildQuery — changes of the stored settings

A run that changes a setting loads all of them and writes all of them again. It replaces one setting
and nothing else: what is written is what is loaded next, and the overrides of the environment are not
among it. The file is written where it was before, and its content is what the settings are now. So it
does not matter how changes of the host stand between changes of the job.

Main results:

* `runs_of_changes` — what changes leave, one after another.
* `changed_settings` — the last change of each setting is the one that counts.
-/

namespace BuildQuery

namespace Settings

open Text

-- ---------------------------------------------------------------------------
-- Saving once more
-- ---------------------------------------------------------------------------

/-- The settings file of a root directory is written at a place, once the directories are made. -/
structure SavedAt (files : Files) (root : String) (made : Files) (place : Place) : Prop where
  makes : files.makeDirectories (Path.ofText root) = ⟨made, none⟩
  leads : made.locate (filePath root) = .ok place
  free : made.isDirectory place = false

/-- Where settings can be saved, the settings file has a place. -/
theorem CanSave.savedAt {files : Files} {root : String} (h : CanSave files root) :
    ∃ made place, SavedAt files root made place := by
  obtain ⟨hMade, content, later, hWritten⟩ := h
  obtain ⟨place, hPlace, hFree, -⟩ := Files.write_ok_iff.mp hWritten
  refine ⟨(files.makeDirectories (Path.ofText root)).files, place, ?_, hPlace, hFree⟩
  rw [← hMade]

namespace SavedAt

variable {files made : Files} {root : String} {place : Place}

/-- The settings file is put at its place. -/
theorem write (h : SavedAt files root made place) (content : List UInt8) :
    made.write (filePath root) content = .ok ⟨Files.put place content made.nodes⟩ :=
  Files.write_ok_iff.mpr ⟨place, h.leads, h.free, rfl⟩

/-- Settings that fit are saved by putting their file at its place. -/
theorem save (h : SavedAt files root made place) {s : Settings} (hRoot : s.root = root)
    (hRange : s.InRange) :
    s.save files = ⟨⟨Files.put place (bytes s.content) made.nodes⟩, none⟩ := by
  have hWrite : s.write made = .ok ⟨Files.put place (bytes s.content) made.nodes⟩ := by
    rw [Settings.write, if_pos (fits_iff.mpr hRange), hRoot, h.write]
    rfl
  simp only [Settings.save, hRoot, h.makes, hWrite]

/-- The directories are there when the file is written, and its place stays the same. -/
theorem put (h : SavedAt files root made place) (content : List UInt8) :
    SavedAt ⟨Files.put place content made.nodes⟩ root ⟨Files.put place content made.nodes⟩ place := by
  have hReaches : made.Reaches ⟨Files.put place content made.nodes⟩ :=
    Files.reaches_put h.free content
  have hMade : (files.makeDirectories (Path.ofText root)).failure = none := by
    rw [h.makes]
  have hStill : (files.makeDirectories (Path.ofText root)).files.Reaches
      ⟨Files.put place content made.nodes⟩ := by
    rw [h.makes]
    exact hReaches
  exact ⟨Files.makeDirectories_again hMade hStill, hReaches.locate h.leads,
    Files.isDirectory_put h.free content⟩

/-- Settings whose file was put at its place are loaded again. -/
theorem storedIn_put (h : SavedAt files root made place) {s : Settings} (hRoot : s.root = root)
    (hRange : s.InRange) (env : Environment) :
    storedIn ⟨Files.put place (bytes s.content) made.nodes⟩ env root = .ok s := by
  obtain ⟨hHas, hRead⟩ := Files.read_write (h.write (bytes s.content))
  subst hRoot
  exact storedIn_of_read hRange hHas hRead env

end SavedAt

/-- Settings are loaded from the root directory, and carry it. -/
theorem stored_ok_iff {files : Files} {env : Environment} {s : Settings} :
    stored files env = .ok s ↔
      rootOf env = .ok s.root ∧ storedIn files env s.root = .ok s := by
  unfold stored
  rw [bind_eq_ok]
  constructor
  · rintro ⟨root, hRoot, hStored⟩
    -- loaded settings carry the root they were loaded from
    obtain rfl : s.root = root := (inRange_of_storedIn hStored).2
    cases hFound : rootOf env with
    | error e =>
      rw [hFound] at hRoot
      cases hRoot
    | ok found =>
      rw [hFound] at hRoot
      cases hRoot
      exact ⟨rfl, hStored⟩
  · rintro ⟨hRoot, hStored⟩
    exact ⟨s.root, by rw [hRoot]; rfl, hStored⟩

end Settings

namespace Command

open Text Settings

-- ---------------------------------------------------------------------------
-- Changes
-- ---------------------------------------------------------------------------

/-- A change of a stored setting. -/
inductive Change where
  | host (url : String)
  | job (name : String)

namespace Change

def command : Change → Command
  | host url => .setHost url
  | job name => .setJob name

/-- What is typed on the command line. -/
def text : Change → String
  | host url => url
  | job name => name

/-- The settings after a change. -/
def apply : Change → Settings → Settings
  | host url, s => s.setHost (trim url)
  | job name, s => s.setJob (trim name)

/-- The line that is shown when a change is made. -/
def line : Change → String
  | host url => "Host set to " ++ Remote.hostAddress (trim url)
  | job name => "Default job set to " ++ trim name

/-- The hosts that are typed, in order; `jobs` has the jobs. -/
def hosts (changes : List Change) : List String :=
  changes.filterMap fun
    | host url => some url
    | job _ => none

def jobs (changes : List Change) : List String :=
  changes.filterMap fun
    | host _ => none
    | job name => some name

/-- The settings in which the last host and the last job that are typed take the place of older ones. -/
def latest (changes : List Change) (s : Settings) : Settings :=
  { s with
    hostUrl := ((hosts changes).getLast?.map fun url => Remote.hostAddress (trim url)).or s.hostUrl
    defaultJob := ((jobs changes).getLast?.map trim).or s.defaultJob }

/-- A change leaves the root directory. -/
@[simp] theorem root_apply (c : Change) (s : Settings) : (c.apply s).root = s.root := by
  cases c <;> rfl

/-- A change leaves the numbers. -/
theorem inRange_apply (c : Change) {s : Settings} (h : s.InRange) : (c.apply s).InRange := by
  cases c <;> exact h

theorem latest_nil (s : Settings) : latest [] s = s :=
  rfl

/-- A change counts as long as no later one is of the same setting. -/
theorem latest_cons (c : Change) (changes : List Change) (s : Settings) :
    latest (c :: changes) s = latest changes (c.apply s) := by
  -- the change is the last of its setting when no other one of it follows
  cases c with
  | host url =>
    have hHosts : hosts (host url :: changes) = url :: hosts changes := rfl
    have hJobs : jobs (host url :: changes) = jobs changes := rfl
    rw [latest, latest, hHosts, hJobs, List.getLast?_cons]
    cases (hosts changes).getLast? <;> rfl
  | job name =>
    have hHosts : hosts (job name :: changes) = hosts changes := rfl
    have hJobs : jobs (job name :: changes) = name :: jobs changes := rfl
    rw [latest, latest, hHosts, hJobs, List.getLast?_cons]
    cases (jobs changes).getLast? <;> rfl

/-- There is no change if there is neither a host nor a job. -/
theorem eq_nil_iff {changes : List Change} :
    changes = [] ↔ hosts changes = [] ∧ jobs changes = [] := by
  constructor
  · rintro rfl
    exact ⟨rfl, rfl⟩
  · rintro ⟨hHosts, hJobs⟩
    cases changes with
    | nil => rfl
    | cons c changes =>
      cases c with
      | host url => exact absurd hHosts (List.cons_ne_nil url _)
      | job name => exact absurd hJobs (List.cons_ne_nil name _)

/-- A change of settings that can be saved shows its line. -/
theorem runChange_eq {w : World} {s : Settings} {made : Files} {place : Place}
    (hStored : stored w.files w.env = .ok s) (hSaved : SavedAt w.files s.root made place)
    (change : Settings → Settings) (hRoot : (change s).root = s.root) (hRange : (change s).InRange)
    (line : String) : runChange w change line =
      ⟨0, unlines [line], "", ⟨Files.put place (bytes (change s).content) made.nodes⟩, []⟩ := by
  have hSave := hSaved.save hRoot hRange
  simp only [runChange, hStored, hSave, World.showing]

/-- What one change leaves. -/
theorem run_change {w : World} {s : Settings} {made : Files} {place : Place}
    (hStored : stored w.files w.env = .ok s) (hSaved : SavedAt w.files s.root made place)
    {c : Change} (hText : isBlankText c.text = false) : run w c.command =
      ⟨0, unlines [c.line], "", ⟨Files.put place (bytes (c.apply s).content) made.nodes⟩, []⟩ := by
  obtain ⟨hRange, -⟩ := inRange_of_storedIn (stored_ok_iff.mp hStored).2
  have hSome : ¬ (trim c.text).isEmpty = true := by
    rw [isEmpty_trim, hText]
    exact Bool.false_ne_true
  cases c with
  | host url =>
    have hRun := runChange_eq hStored hSaved (·.setHost (trim url)) rfl hRange
    exact (if_neg hSome).trans (hRun _)
  | job name =>
    have hRun := runChange_eq hStored hSaved (·.setJob (trim name)) rfl hRange
    exact (if_neg hSome).trans (hRun _)

end Change

-- ---------------------------------------------------------------------------
-- Runs one after another
-- ---------------------------------------------------------------------------

/-- The world that a run leaves for the next one. -/
def World.next (w : World) (args : List String) : World :=
  { w with files := (runArguments w args).files }

/-- The world after runs of some command lines, one after another. -/
def World.after (w : World) (lines : List (List String)) : World :=
  lines.foldl World.next w

/-- The runs of some command lines, one after another. -/
def World.runs (w : World) : List (List String) → List Done
  | [] => []
  | args :: lines => runArguments w args :: (w.next args).runs lines

/-- A command line that makes a change, with a text that is not blank. -/
def Makes (args : List String) (c : Change) : Prop :=
  ofArguments args = .ok c.command ∧ isBlankText c.text = false

instance (args : List String) (c : Change) : Decidable (Makes args c) :=
  inferInstanceAs (Decidable (_ ∧ _))

/-- What changes leave, one after another. -/
theorem runs_of_changes {lines : List (List String)} {changes : List Change}
    (h : List.Forall₂ Makes lines changes) {w : World} {s : Settings} {made : Files} {place : Place}
    (hStored : stored w.files w.env = .ok s) (hSaved : SavedAt w.files s.root made place) :
    List.Forall₂ (fun done c => done.code = 0 ∧ done.out = unlines [c.line]) (w.runs lines) changes ∧
      stored (w.after lines).files w.env = .ok (Change.latest changes s) ∧
      (changes ≠ [] → (w.after lines).files =
        ⟨Files.put place (bytes (Change.latest changes s).content) made.nodes⟩) := by
  -- on the command lines; what carries over is that the settings can be loaded and have a place to be saved
  -- at
  induction h generalizing w s made with
  | nil => exact ⟨.nil, hStored, fun hSome => absurd rfl hSome⟩
  | @cons args c lines changes hMakes hRest ih =>
    obtain ⟨hArgs, hText⟩ := hMakes
    obtain ⟨hRoot, hLoaded⟩ := stored_ok_iff.mp hStored
    have hRange := Change.inRange_apply c (inRange_of_storedIn hLoaded).1
    have hSameRoot := c.root_apply s
    have hRun : runArguments w args =
        ⟨0, unlines [c.line], "", ⟨Files.put place (bytes (c.apply s).content) made.nodes⟩, []⟩ := by
      rw [runArguments, hArgs]
      exact Change.run_change hStored hSaved hText
    have hNext : (w.next args).files = ⟨Files.put place (bytes (c.apply s).content) made.nodes⟩ := by
      rw [World.next, hRun]
    -- what was written is what is loaded next
    have hNextStored : stored (w.next args).files w.env = .ok (c.apply s) := by
      rw [hNext]
      refine stored_ok_iff.mpr ⟨hSameRoot.symm ▸ hRoot, ?_⟩
      rw [hSameRoot]
      exact hSaved.storedIn_put hSameRoot hRange w.env
    -- the directories are there from now on, and the file is written over where it stands
    have hNextSaved : SavedAt (w.next args).files (c.apply s).root (w.next args).files place := by
      rw [hNext, hSameRoot]
      exact hSaved.put _
    obtain ⟨hRuns, hAfter, hFiles⟩ := ih (w := w.next args) hNextStored hNextSaved
    rw [← Change.latest_cons] at hAfter hFiles
    refine ⟨?_, hAfter, ?_⟩
    · refine .cons ?_ hRuns
      rw [hRun]
      exact ⟨rfl, rfl⟩
    · intro _
      show ((w.next args).after lines).files = _
      -- the files are those of the last change, since each file is put in the place of the one before
      cases changes with
      | nil =>
        cases hRest
        rw [Change.latest_cons, Change.latest_nil]
        exact hNext
      | cons later changes =>
        rw [hFiles (List.cons_ne_nil _ _), hNext, Files.put_put]

/-- Runs do not change the environment. -/
theorem env_after (w : World) (lines : List (List String)) : (w.after lines).env = w.env := by
  induction lines generalizing w with
  | nil => rfl
  | cons args lines ih => exact ih (w.next args)

/-- The host that was stored is shown as it was stored, unless the environment overrides it. -/
theorem host_overridden {env : Environment} (hFree : override? env hostVariable = none) {s : Settings}
    {url : String} (hHost : s.hostUrl = some (Remote.hostAddress (trim url))) :
    (overridden env s).host = .ok (Remote.hostAddress (trim url)) := by
  -- the address was trimmed when it was stored, and showing it trims and normalises it once more
  have hTrimmed : trim (Remote.hostAddress (trim url)) = Remote.hostAddress (trim url) :=
    trim_eq_self (Remote.trimmed_hostAddress (trimmed_trim url))
  have hShown : (overridden env s).hostUrl = some (Remote.hostAddress (trim url)) := by
    rw [← hHost]
    simp only [overridden, hFree, Option.none_or]
  have hSome := Remote.isEmpty_hostAddress (trim url)
  rw [Settings.host, hShown, Option.map_some, hTrimmed]
  simp only [hSome, Bool.false_eq_true, if_false, Remote.hostAddress_hostAddress]

/-- **The last change of each setting is the one that counts.** If the stored settings can be loaded and
saved, all command lines succeed that make changes, and show what they store. The settings that are
stored afterwards have the last host and the last job, if there are any, and are the old ones otherwise.
The files are the same for all sequences with the same hosts and the same jobs, in whatever order hosts
and jobs alternate. The host is shown later as it was shown when it was stored, unless the environment
overrides it. -/
theorem changed_settings {w : World} {s : Settings} (hStored : stored w.files w.env = .ok s)
    (hRoot : CanSave w.files s.root) {lines : List (List String)} {changes : List Change}
    (h : List.Forall₂ Makes lines changes) :
    List.Forall₂ (fun done c => done.code = 0 ∧ done.out = unlines [c.line]) (w.runs lines) changes ∧
      stored (w.after lines).files w.env = .ok (Change.latest changes s) ∧
      (∀ lines' changes', List.Forall₂ Makes lines' changes' →
        Change.hosts changes' = Change.hosts changes → Change.jobs changes' = Change.jobs changes →
        (w.after lines').files = (w.after lines).files) ∧
      ∀ url, (Change.hosts changes).getLast? = some url → override? w.env hostVariable = none →
        ∀ args, ofArguments args = .ok .showSettings →
          let done := runArguments (w.after lines) args
          done.code = 0 ∧ ∃ others, done.out = unlines
            ((padEnd 15 "Config:" ++ s.fileText) ::
              (padEnd 15 "Host:" ++ Remote.hostAddress (trim url)) :: others) := by
  obtain ⟨made, place, hSaved⟩ := hRoot.savedAt
  obtain ⟨hRuns, hAfter, hFiles⟩ := runs_of_changes h hStored hSaved
  refine ⟨hRuns, hAfter, ?_, ?_⟩
  · intro lines' changes' h' hHosts hJobs
    obtain ⟨-, -, hFiles'⟩ := runs_of_changes h' hStored hSaved
    -- the hosts and the jobs decide, each in their own order
    have hLatest : Change.latest changes' s = Change.latest changes s := by
      rw [Change.latest, Change.latest, hHosts, hJobs]
    have hSame : changes' = [] ↔ changes = [] := by
      rw [Change.eq_nil_iff, Change.eq_nil_iff, hHosts, hJobs]
    by_cases hNone : changes = []
    · -- nothing is written without a change, and the files are what they were
      have hNone' := hSame.mpr hNone
      subst hNone hNone'
      cases h
      cases h'
      rfl
    · rw [hFiles hNone, hFiles' (mt hSame.mp hNone), hLatest]
  · intro url hLast hFree args hArgs
    have hHost : (Change.latest changes s).hostUrl = some (Remote.hostAddress (trim url)) := by
      rw [Change.latest, hLast]
      rfl
    -- what is shown is what was stored last, under the overrides of the environment
    have hLoaded : load (w.after lines).files w.env =
        .ok (overridden w.env (Change.latest changes s)) := by
      rw [load, hAfter]
      rfl
    have hDone : runArguments (w.after lines) args =
        (w.after lines).showing (settingsLines (overridden w.env (Change.latest changes s))) := by
      rw [runArguments, hArgs]
      show runShowSettings (w.after lines) = _
      rw [runShowSettings, env_after, hLoaded]
    rw [hDone]
    refine ⟨rfl, (settingsLines (overridden w.env (Change.latest changes s))).drop 2, ?_⟩
    rw [World.showing, settingsLines, host_overridden hFree hHost]
    rfl

/-- Two hosts and a job, for settings that are stored with three workers. -/
theorem changed_settings_two_hosts :
    let env : Environment := .ofVariables [("JENQ_ROOT", "/r"), ("JENKINS_HOST_URL", " ")]
    let w : World := ⟨⟨[(["r", "config.toml"], .file (bytes "workers = 3"))]⟩, env, none,
      fun r => .error (.badStatus r.url 404), default⟩
    let first := [["config", "set-host", "http://h"], ["config", "set-job", " a/b"],
      ["-v", "config", "set-host", "\tx// "]]
    let second := [["config", "set-host", "http://h"], ["config", "set-host", "\tx// "],
      ["config", "set-job", "--", " a/b"]]
    stored (w.after first).files env = .ok ⟨"/r", some "x/", some "a/b", "unknown", 3, 32, 30⟩ ∧
      (w.after second).files = (w.after first).files ∧
      ∃ others, (runArguments (w.after first) ["config"]).out = unlines
        ("Config:        /r/config.toml" :: "Host:          x/" :: others) := by
  intro env w first second
  have hStored : stored w.files w.env = .ok ⟨"/r", none, none, "unknown", 3, 32, 30⟩ := by
    decide +kernel
  have hRoot : CanSave w.files "/r" :=
    ⟨by decide +kernel, [], ⟨[(["r", "config.toml"], .file [])]⟩, by decide +kernel⟩
  have hFirst : List.Forall₂ Makes first [.host "http://h", .job " a/b", .host "\tx// "] :=
    .cons (by decide +kernel) (.cons (by decide +kernel) (.cons (by decide +kernel) .nil))
  have hSecond : List.Forall₂ Makes second [.host "http://h", .host "\tx// ", .job " a/b"] :=
    .cons (by decide +kernel) (.cons (by decide +kernel) (.cons (by decide +kernel) .nil))
  obtain ⟨-, hAfter, hSame, hShown⟩ := changed_settings hStored hRoot hFirst
  refine ⟨?_, hSame second _ hSecond rfl rfl, ?_⟩
  · rw [hAfter]
    decide +kernel
  · obtain ⟨-, hOut⟩ := hShown "\tx// " rfl (by decide +kernel) ["config"] (by decide +kernel)
    exact hOut

end Command

end BuildQuery
