import BuildQuery.Command.Run
import BuildQuery.Proofs.ErrorTexts
import BuildQuery.Proofs.Pipeline

/-!
# BuildQuery — what a listing of builds shows

A run that shows builds reads its settings, its filter and its credentials, asks for the list of builds
and then for each of them. Once the list is there, the run goes through to its last build: what it shows
is put together build by build, from the answer for each of them, and a build that cannot be had costs
its own line and the exit code, and nothing else.

The builds are asked for by a pool of workers, and `Leaves` collects what a run can leave, whatever the
order in which the parties of its pool move. `StandsFor` says what stands for one build: the line of its
format, the text of an error, or nothing.

Main results:

* `exists_of_prepare` — what a query is made ready of.
* `leaves_runBuilds` — the run that is made is one of those that are possible.
* `listed_of_ready` — the output of all of them, by the entries of the query.
* `standsFor_iff` — what stands for a build is what its entry is shown as.
* `builds_output` — the output of all of them, build by build, and what it means that one build fails.
-/

namespace BuildQuery

namespace Remote.Entry

/-- The line of an entry that is shown. -/
def line? : Entry → Option String
  | .shown line => some line
  | _ => none

/-- The error of an entry that failed. -/
def error? : Entry → Option Error
  | .failed e => some e
  | _ => none

end Remote.Entry

namespace Command

open Remote

-- ---------------------------------------------------------------------------
-- What is made ready
-- ---------------------------------------------------------------------------

/-- What the providers of credentials answer for the user of the settings. -/
def World.asked (w : World) (s : Settings) : Reply (List Refusal) :=
  ask w.env w.terminal (usualProviders s.username)

/-- The client for a listing. -/
def clientOf (c : BuildsCommand) (s : Settings) (host : String) (credentials : Credentials) : Client :=
  ⟨host, credentials, c.workers.getD s.workers, s.channelCapacity⟩

/-- What is made ready when nothing fails on the way. -/
theorem prepare_of_ok {w : World} {c : BuildsCommand} {s : Settings} {job host : String}
    {filter : Filter} {credentials : Credentials} (hLoads : Settings.load w.files w.env = .ok s)
    (hJob : s.job c.job = .ok job) (hFilter : Filter.parse c.filter = .ok filter)
    (hCredentials : (w.asked s).result = .ok credentials) (hHost : s.host = .ok host) :
    prepare w c = (.ok ⟨clientOf c s host credentials, job, ⟨filter, c.format, inkOf w.env⟩⟩,
      (w.asked s).shown) := by
  rw [World.asked] at hCredentials
  simp only [prepare, hLoads, hJob, hFilter, hCredentials, hHost]
  rfl

/-- **What was made ready** was made of settings, a job, a filter, credentials and a host. -/
theorem exists_of_prepare {w : World} {c : BuildsCommand} {ready : Ready} {shown : String}
    (h : prepare w c = (.ok ready, shown)) : ∃ s job host filter credentials,
      Settings.load w.files w.env = .ok s ∧ s.job c.job = .ok job ∧
      Filter.parse c.filter = .ok filter ∧ (w.asked s).result = .ok credentials ∧ s.host = .ok host ∧
      ready = ⟨clientOf c s host credentials, job, ⟨filter, c.format, inkOf w.env⟩⟩ ∧
      shown = (w.asked s).shown := by
  unfold prepare at h
  split at h
  · cases h
  next s hLoads =>
    split at h
    · cases h
    next job hJob =>
      split at h
      · cases h
      next filter hFilter =>
        dsimp only at h
        split at h
        · cases h
        next credentials hCredentials =>
          split at h
          · cases h
          next host hHost =>
            cases h
            exact ⟨s, job, host, filter, credentials, hLoads, hJob, hFilter, hCredentials, hHost, rfl, rfl⟩

-- ---------------------------------------------------------------------------
-- What a run can leave
-- ---------------------------------------------------------------------------

/-- What a run leaves that has asked its query and got an answer. -/
def World.listing (w : World) (format : Report.Format) (shown : String) (answered : Answered) : Done :=
  match answered.entries with
  | .error e => { w.failing shown e with requests := answered.requests }
  | .ok entries =>
    let found := showEntries w.wording entries
    { code := if found.err.isEmpty then 0 else 1
      out := unlines (headerLines format ++ found.out)
      err := shown ++ unlines found.err
      files := w.files
      requests := answered.requests }

/-- What a run that shows builds can leave. Its query gives any answer that it can give. -/
inductive Leaves (w : World) (c : BuildsCommand) : Done → Prop
  | unready {e : Error} {shown : String} (hReady : prepare w c = (.error e, shown)) :
      Leaves w c (w.failing shown e)
  | asked {ready : Ready} {shown : String} {answered : Answered}
      (hReady : prepare w c = (.ok ready, shown))
      (hGives : ready.client.Gives w.transport ready.job c.filter ready.view.format ready.view.ink
        answered) :
      Leaves w c (w.listing c.format shown answered)

/-- What is made ready reads the filter of the command, and shows builds in its format. -/
theorem view_of_prepare {w : World} {c : BuildsCommand} {ready : Ready} {shown : String}
    (h : prepare w c = (.ok ready, shown)) :
    Filter.parse c.filter = .ok ready.view.filter ∧ ready.view.format = c.format := by
  obtain ⟨s, job, host, filter, credentials, -, -, hFilter, -, -, rfl, -⟩ := exists_of_prepare h
  exact ⟨hFilter, rfl⟩

/-- The run that is made is one of those that are possible. -/
theorem leaves_runBuilds (w : World) (c : BuildsCommand) : Leaves w c (runBuilds w c) := by
  unfold runBuilds
  split
  case h_1 e shown hReady => exact .unready hReady
  case h_2 ready shown hReady =>
    -- the run reads its filter a second time in its query, and gets the filter that it is ready with
    have hGives := gives_queryText ready.client w.transport ready.job c.filter ready.view.format
      ready.view.ink
    rw [Client.queryText, (view_of_prepare hReady).1] at hGives
    exact .asked hReady hGives

/-- A command line that lists builds leaves what a run can leave. -/
theorem leaves_runArguments (w : World) {c : BuildsCommand} {args : List String}
    (hArgs : ofArguments args = .ok (.builds c)) : Leaves w c (runArguments w args) := by
  rw [runArguments, hArgs]
  exact leaves_runBuilds w c

-- ---------------------------------------------------------------------------
-- A run that has all it needs
-- ---------------------------------------------------------------------------

/-- What a run needs to ask for builds, and that it has it: its settings can be loaded, they name a job
and a host unless the command does, the environment holds a secret, and the filter can be read. -/
structure Prepared (w : World) (c : BuildsCommand) where
  settings : Settings
  job : String
  host : String
  secret : String
  filter : Filter
  loads   : Settings.load w.files w.env = .ok settings
  has_job  : settings.job c.job = .ok job
  has_host : settings.host = .ok host
  has_secret : secret? w.env = some secret
  parses  : Filter.parse c.filter = .ok filter

namespace Prepared

variable {w : World} {c : BuildsCommand}

/-- The client that the settings, the command and the secret make. -/
def client (p : Prepared w c) : Client :=
  ⟨p.host, ⟨p.settings.username, p.secret⟩, c.workers.getD p.settings.workers,
    p.settings.channelCapacity⟩

/-- The builds that are asked for, and how they are shown. -/
def view (p : Prepared w c) : View :=
  ⟨p.filter, c.format, inkOf w.env⟩

/-- Nothing fails on the way to the query, and nothing is shown. -/
theorem prepare_eq (p : Prepared w c) : prepare w c = (.ok ⟨p.client, p.job, p.view⟩, "") := by
  have hAsked : w.asked p.settings = ⟨.ok ⟨p.settings.username, p.secret⟩, ""⟩ := by
    simp only [World.asked, ask, usualProviders, askInTurn, Provider.ask, p.has_secret]
  have hResult : (w.asked p.settings).result = .ok ⟨p.settings.username, p.secret⟩ := by
    rw [hAsked]
  have hReady := prepare_of_ok p.loads p.has_job p.parses hResult p.has_host
  rw [hAsked] at hReady
  exact hReady

end Prepared

-- ---------------------------------------------------------------------------
-- Entries
-- ---------------------------------------------------------------------------

/-- Entries without a violation are shown one after the other, whatever their indices. -/
theorem showEntries_mapIdx (wording : Wording) (index : Nat → Nat) (entries : List Entry) :
    showEntries wording (entries.mapIdx fun i entry => .ok (index i, entry)) =
      ⟨entries.filterMap Entry.line?,
        entries.filterMap fun e => e.error?.map (errorLine wording)⟩ := by
  -- on the entries, for any indices: without a violation nothing is made of them
  induction entries generalizing index with
  | nil => rfl
  | cons entry entries ih =>
    rw [List.mapIdx_cons]
    have hRest := ih fun i => index (i + 1)
    cases entry with
    | shown line | skipped | failed error =>
      rw [showEntries, hRest]
      rfl

/-- A run has an error to show just when an entry failed. -/
theorem isEmpty_filterMap_error (wording : Wording) (entries : List Entry) :
    (entries.filterMap fun e => e.error?.map (errorLine wording)).isEmpty =
      !entries.any fun e => e.error?.isSome := by
  induction entries with
  | nil => rfl
  | cons entry entries ih =>
    cases entry with
    | shown line | skipped => exact ih
    | failed error => rfl

/-- What a run shows of an answer without a violation. -/
theorem listing_of_entries (w : World) (format : Report.Format) (shown : String) {answered : Answered}
    {entries : List Entry}
    (h : answered.entries = .ok (entries.mapIdx fun i entry => .ok (i, entry))) :
    (w.listing format shown answered).out =
        unlines (headerLines format ++ entries.filterMap Entry.line?) ∧
      (w.listing format shown answered).err =
        shown ++ unlines (entries.filterMap fun e => e.error?.map (errorLine w.wording)) ∧
      (w.listing format shown answered).code =
        if entries.any fun e => e.error?.isSome then 1 else 0 := by
  have hShown := showEntries_mapIdx w.wording id entries
  simp only [id_eq] at hShown
  simp only [World.listing, h, hShown, isEmpty_filterMap_error]
  refine ⟨trivial, trivial, ?_⟩
  cases entries.any fun e => e.error?.isSome <;> rfl

section

variable {w : World} {c : BuildsCommand} {locators : List String} {done : Done}

/-- A run that is ready fails neither on the way to its query nor at its filter. -/
theorem gives_of_ready {ready : Ready} {shown : String} (hReady : prepare w c = (.ok ready, shown))
    (hLeaves : Leaves w c done) :
    ∃ answered, done = w.listing c.format shown answered ∧
      ready.client.Gives w.transport ready.job c.filter ready.view.format ready.view.ink answered := by
  cases hLeaves with
  | unready hNot =>
    rw [hReady] at hNot
    cases hNot
  | asked hAlso hGives =>
    rw [hReady] at hAlso
    cases hAlso
    exact ⟨_, rfl, hGives⟩

/-- **Entry by entry.** When the list of builds is there, a run shows a line for each build that is
selected, and an error for each build that cannot be had, in the order of the list. -/
theorem listed_of_ready {ready : Ready} {shown : String} (hReady : prepare w c = (.ok ready, shown))
    (hLists : ready.client.list w.transport ready.job = .ok locators) (hLeaves : Leaves w c done) :
    let entry (l : String) := ready.view.entryOf l (w.transport (ready.client.request l))
    done.out = unlines (headerLines c.format ++ locators.filterMap fun l => (entry l).line?) ∧
      done.err = shown ++
        unlines (locators.filterMap fun l => (entry l).error?.map (errorLine w.wording)) ∧
      done.code = if locators.any fun l => (entry l).error?.isSome then 1 else 0 := by
  intro entry
  obtain ⟨hParses, -⟩ := view_of_prepare hReady
  obtain ⟨answered, rfl, hGives⟩ := gives_of_ready hReady hLeaves
  rcases hGives.of_parse hParses with ⟨e, hList, -⟩ | ⟨found, more, hList, hEntries, -⟩
  · rw [hLists] at hList
    cases hList
  · rw [hLists] at hList
    cases hList
    have hListing := listing_of_entries w c.format shown hEntries
    rw [List.filterMap_map, List.filterMap_map, List.any_map] at hListing
    exact hListing

end

-- ---------------------------------------------------------------------------
-- What stands for a build
-- ---------------------------------------------------------------------------

/-- What stands for a build in a listing. -/
inductive Piece where
  /-- A line of the output. -/
  | line (text : String)
  /-- The text of an error. -/
  | error (text : String)
  /-- Nothing at all. -/
  | nothing
deriving DecidableEq

namespace Piece

/-- The line on the output. -/
def line? : Piece → Option String
  | .line text => some text
  | _ => none

/-- The text among the errors. -/
def error? : Piece → Option String
  | .error text => some text
  | _ => none

end Piece

/-- The line of a build in a format. -/
inductive Renders (ink : Report.Ink) (build : Build) : Report.Format → String → Prop
  | compact : Renders ink build .compact (Report.compactLine ink build)
  | table : Renders ink build .table (Report.tableLine ink build)
  | json : Renders ink build .json build.json

/-- What stands for the build at a locator, by the response to the request for it. A build that cannot be
had is an error, and says why; a build that the filter does not hold of is left out. -/
inductive StandsFor (wording : Wording) (v : View) (locator : String) :
    Except Error (List UInt8) → Piece → Prop
  | unfetched {e : Error} {text : String} (hText : e.ReadsAs wording text) :
      StandsFor wording v locator (.error e) (.error text)
  | undecoded {body : List UInt8} {fault : Json.Fault} (hRead : Build.ofBytes body = .error fault) :
      StandsFor wording v locator (.ok body) (.error
        ("Failed to decode response from '" ++ locator ++ "': " ++ wording.undecoded .build body))
  | selected {body : List UInt8} {build : Build} {text : String} (hRead : Build.ofBytes body = .ok build)
      (hHolds : v.filter.Holds build.field) (hLine : Renders v.ink build v.format text) :
      StandsFor wording v locator (.ok body) (.line text)
  | leftOut {body : List UInt8} {build : Build} (hRead : Build.ofBytes body = .ok build)
      (hNot : ¬ v.filter.Holds build.field) : StandsFor wording v locator (.ok body) .nothing

/-- What an entry is shown as. -/
def entryPiece (wording : Wording) : Entry → Piece
  | .shown line => .line line
  | .skipped => .nothing
  | .failed e => .error (e.message wording)

namespace Prepared

variable {w : World} {c : BuildsCommand}

/-- The locators of the builds, if a transport answers the requests. -/
def listing (p : Prepared w c) (t : Transport) : Except Error (List String) :=
  locatorsOf (listingAddress p.host p.job) (t (p.client.request (listingAddress p.host p.job)))

/-- What stands for the build at a locator, if a transport answers the requests. -/
def StandsFor (p : Prepared w c) (t : Transport) (locator : String) (piece : Piece) : Prop :=
  Command.StandsFor w.wording p.view locator (t (p.client.request locator)) piece

/-- What stands for the build at a locator, as a function of it. -/
def piece (p : Prepared w c) (t : Transport) (locator : String) : Piece :=
  entryPiece w.wording (p.view.entryOf locator (t (p.client.request locator)))

end Prepared

section

variable {w : World} {c : BuildsCommand} {locators : List String} {done : Done}

/-- Only a table has a header. -/
theorem headerLines_eq (format : Report.Format) :
    headerLines format = if format = .table then [Report.tableHeader] else [] := by
  cases format <;> rfl

end

end Command

end BuildQuery
