import BuildQuery.Proofs.BuildsOutput

/-!
# BuildQuery — the first thing that is wrong with a listing

Before it shows a build, a run loads the settings, picks the job, reads the filter, obtains credentials,
requires a host and asks for the list of builds. Any of these can fail, for reasons of its own and
whatever the others do (`Fails`). The run reports one failure, the first in this order, and the host is
asked only when nothing else is wrong.

Main results:

* `runBuilds_of_firstFails` — the run reports the first failure.
* `runBuilds_of_met` — a run of which nothing fails goes on to the builds.
* `first_failure_reported` — both for a command line, and what has been requested by then.
-/

namespace BuildQuery.Command

open Remote

-- ---------------------------------------------------------------------------
-- What can fail
-- ---------------------------------------------------------------------------

/-- What a run needs before it shows a build. -/
inductive Need where
  | settings
  | job
  | filter
  | credentials
  | host
  | listing
deriving DecidableEq

/-- The order in which a run takes care of what it needs. -/
def Need.inOrder : List Need :=
  [.settings, .job, .filter, .credentials, .host, .listing]

/-- A need that is not met: the error, what has been shown above it, and what has been requested. -/
structure Failure where
  error : Error
  shown : String
  requests : List Request

/-- How each need can fail. A failure depends on what the need is about and on nothing else; what needs
the settings cannot fail without them, and the list of builds cannot be asked for without a job,
credentials and a host. -/
inductive Fails (w : World) (c : BuildsCommand) : Need → Failure → Prop
  | settings {e : Error} (hFails : Settings.load w.files w.env = .error e) :
      Fails w c .settings ⟨e, "", []⟩
  | job {s : Settings} {e : SettingsError} (hLoads : Settings.load w.files w.env = .ok s)
      (hFails : s.job c.job = .error e) : Fails w c .job ⟨.settings e, "", []⟩
  | filter {e : Filter.QueryError} (hFails : Filter.parse c.filter = .error e) :
      Fails w c .filter ⟨.query e, pointer c.filter e, []⟩
  | credentials {s : Settings} {refusals : List Refusal}
      (hLoads : Settings.load w.files w.env = .ok s)
      (hFails : (w.asked s).result = .error refusals) :
      Fails w c .credentials ⟨.noCredentials refusals, (w.asked s).shown, []⟩
  | host {s : Settings} {e : SettingsError} (hLoads : Settings.load w.files w.env = .ok s)
      (hFails : s.host = .error e) : Fails w c .host ⟨.settings e, (w.asked s).shown, []⟩
  | listing {s : Settings} {job host : String} {credentials : Credentials} {e : Error}
      (hLoads : Settings.load w.files w.env = .ok s) (hJob : s.job c.job = .ok job)
      (hCredentials : (w.asked s).result = .ok credentials) (hHost : s.host = .ok host)
      (hFails : locatorsOf (listingAddress host job)
        (w.transport ⟨listingAddress host job, credentials.authorization⟩) = .error e) :
      Fails w c .listing ⟨e, (w.asked s).shown, [⟨listingAddress host job, credentials.authorization⟩]⟩

/-- A need that is met. -/
def Met (w : World) (c : BuildsCommand) (need : Need) : Prop :=
  ∀ f, ¬ Fails w c need f

/-- The first need that fails. -/
def FirstFails (w : World) (c : BuildsCommand) (need : Need) (f : Failure) : Prop :=
  Fails w c need f ∧ ∀ earlier ∈ Need.inOrder.takeWhile (· ≠ need), Met w c earlier

variable {w : World} {c : BuildsCommand} {need : Need} {f : Failure} {s : Settings}

/-- Of the needs in a list that are not met, one comes first. -/
theorem exists_first {P : Need → Prop} {needs : List Need} {need : Need} (hMem : need ∈ needs)
    (h : ¬ P need) :
    ∃ first ∈ needs.takeWhile (· ≠ need) ++ [need], ¬ P first ∧
      ∀ earlier ∈ needs.takeWhile (· ≠ first), P earlier := by
  -- on the order of the needs: the next one is the first that is not met, or it is met and the first stands
  -- behind it
  induction needs with
  | nil => cases hMem
  | cons next needs ih =>
    by_cases hNext : P next
    · have hOther : next ≠ need := fun hSame => h (hSame ▸ hNext)
      obtain ⟨first, hFirst, hFails, hEarlier⟩ := ih ((List.mem_cons.mp hMem).resolve_left hOther.symm)
      have hLater : next ≠ first := fun hSame => hFails (hSame ▸ hNext)
      refine ⟨first, ?_, hFails, ?_⟩
      · rw [List.takeWhile_cons_of_pos (by simpa using hOther)]
        exact List.mem_cons_of_mem next hFirst
      · rw [List.takeWhile_cons_of_pos (by simpa using hLater)]
        exact List.forall_mem_cons.mpr ⟨hNext, hEarlier⟩
    · refine ⟨next, ?_, hNext, by simp⟩
      by_cases hSame : next = need
      · simp [hSame]
      · simp [hSame]

/-- If a need fails, there is one that fails first, the same or an earlier one. -/
theorem exists_firstFails (h : Fails w c need f) :
    ∃ first ∈ Need.inOrder.takeWhile (· ≠ need) ++ [need], ∃ g, FirstFails w c first g := by
  have hMem : need ∈ Need.inOrder := by
    cases need <;> decide
  have hNotMet : ¬ Met w c need := fun hMet => hMet f h
  obtain ⟨first, hFirst, hFails, hEarlier⟩ := exists_first hMem hNotMet
  obtain ⟨g, hg⟩ := not_forall_not.mp hFails
  exact ⟨first, hFirst, g, hg, hEarlier⟩

-- ---------------------------------------------------------------------------
-- Needs that are met
-- ---------------------------------------------------------------------------

/-- A need that fails just when something cannot be had is met just when it can be had. -/
theorem met_iff_ok {ε α : Type} {x : Except ε α} (hOnly : ∀ f, Fails w c need f → ∃ e, x = .error e)
    (hFails : ∀ e, x = .error e → ∃ f, Fails w c need f) : Met w c need ↔ ∃ a, x = .ok a := by
  constructor
  · intro hMet
    cases hResult : x with
    | error e =>
      obtain ⟨f, hf⟩ := hFails e hResult
      exact absurd hf (hMet f)
    | ok a => exact ⟨a, rfl⟩
  · rintro ⟨a, hOk⟩ f hf
    obtain ⟨e, hError⟩ := hOnly f hf
    cases hOk.symm.trans hError

/-- The settings are there just when they load. -/
theorem met_settings_iff : Met w c .settings ↔ ∃ s, Settings.load w.files w.env = .ok s := by
  refine met_iff_ok ?_ fun e hError => ⟨_, .settings hError⟩
  rintro _ ⟨hError⟩
  exact ⟨_, hError⟩

/-- The filter is there just when its text is accepted, with or without settings. -/
theorem met_filter_iff : Met w c .filter ↔ ∃ filter, Filter.parse c.filter = .ok filter := by
  refine met_iff_ok ?_ fun e hError => ⟨_, .filter hError⟩
  rintro _ (_ | _ | hError)
  exact ⟨_, hError⟩

section Loaded

variable (hLoads : Settings.load w.files w.env = .ok s)

include hLoads

theorem met_job_iff : Met w c .job ↔ ∃ job, s.job c.job = .ok job := by
  refine met_iff_ok ?_ fun e hError => ⟨_, .job hLoads hError⟩
  rintro _ (_ | ⟨hOther, hError⟩)
  cases hOther.symm.trans hLoads
  exact ⟨_, hError⟩

theorem met_credentials_iff :
    Met w c .credentials ↔ ∃ credentials, (w.asked s).result = .ok credentials := by
  refine met_iff_ok ?_ fun e hError => ⟨_, .credentials hLoads hError⟩
  rintro _ (_ | _ | _ | ⟨hOther, hError⟩)
  cases hOther.symm.trans hLoads
  exact ⟨_, hError⟩

theorem met_host_iff : Met w c .host ↔ ∃ host, s.host = .ok host := by
  refine met_iff_ok ?_ fun e hError => ⟨_, .host hLoads hError⟩
  rintro _ (_ | _ | _ | _ | ⟨hOther, hError⟩)
  cases hOther.symm.trans hLoads
  exact ⟨_, hError⟩

end Loaded

/-- What a run leaves that reports a failure. -/
def World.reporting (w : World) (f : Failure) : Done :=
  { w.failing f.shown f.error with requests := f.requests }

theorem runBuilds_of_unready {e : Error} {shown : String} (h : prepare w c = (.error e, shown)) :
    runBuilds w c = w.reporting ⟨e, shown, []⟩ := by
  rw [runBuilds, h]
  rfl

/-- **The run reports the first failure.** -/
theorem runBuilds_of_firstFails (h : FirstFails w c need f) : runBuilds w c = w.reporting f := by
  obtain ⟨hFails, hEarlier⟩ := h
  -- A case for each need. That the earlier ones are met takes the preparation as far as this one.
  cases hFails with
  | settings hFails =>
    refine runBuilds_of_unready ?_
    rw [prepare, hFails]
  | @job s _ hLoads hFails =>
    refine runBuilds_of_unready ?_
    simp only [prepare, hLoads, hFails]
  | filter hFails =>
    obtain ⟨s, hLoads⟩ := met_settings_iff.mp (hEarlier .settings (by decide))
    obtain ⟨job, hJob⟩ := (met_job_iff hLoads).mp (hEarlier .job (by decide))
    refine runBuilds_of_unready ?_
    simp only [prepare, hLoads, hJob, hFails]
  | @credentials s _ hLoads hFails =>
    obtain ⟨job, hJob⟩ := (met_job_iff hLoads).mp (hEarlier .job (by decide))
    obtain ⟨filter, hFilter⟩ := met_filter_iff.mp (hEarlier .filter (by decide))
    refine runBuilds_of_unready ?_
    -- the terminal is read only here, so what it showed is part of the failure from this need on
    rw [World.asked] at hFails ⊢
    simp only [prepare, hLoads, hJob, hFilter, hFails]
  | @host s _ hLoads hFails =>
    obtain ⟨job, hJob⟩ := (met_job_iff hLoads).mp (hEarlier .job (by decide))
    obtain ⟨filter, hFilter⟩ := met_filter_iff.mp (hEarlier .filter (by decide))
    obtain ⟨credentials, hCredentials⟩ := (met_credentials_iff hLoads).mp (hEarlier .credentials (by decide))
    refine runBuilds_of_unready ?_
    rw [World.asked] at hCredentials ⊢
    simp only [prepare, hLoads, hJob, hFilter, hCredentials, hFails]
  | @listing s job host credentials e hLoads hJob hCredentials hHost hFails =>
    obtain ⟨filter, hFilter⟩ := met_filter_iff.mp (hEarlier .filter (by decide))
    have hList : (clientOf c s host credentials).list w.transport job = .error e := by
      rw [list_eq]
      exact hFails
    rw [runBuilds, prepare_of_ok hLoads hJob hFilter hCredentials hHost]
    simp only [Client.query, hList]
    rfl

/-- **A run of which nothing fails goes on to the builds**: it shows their lines below the header, and makes
its requests for them after the one for the list. -/
theorem runBuilds_of_met (h : ∀ need, Met w c need) : ∃ lines listing more,
    (runBuilds w c).out = unlines ((if c.format = .table then [Report.tableHeader] else []) ++ lines) ∧
      (runBuilds w c).requests = listing :: more := by
  rw [← headerLines_eq]
  obtain ⟨s, hLoads⟩ := met_settings_iff.mp (h .settings)
  obtain ⟨job, hJob⟩ := (met_job_iff hLoads).mp (h .job)
  obtain ⟨filter, hFilter⟩ := met_filter_iff.mp (h .filter)
  obtain ⟨credentials, hCredentials⟩ := (met_credentials_iff hLoads).mp (h .credentials)
  obtain ⟨host, hHost⟩ := (met_host_iff hLoads).mp (h .host)
  have hPrepared := prepare_of_ok hLoads hJob hFilter hCredentials hHost
  -- the list of builds is the last thing that can fail
  cases hList : (clientOf c s host credentials).list w.transport job with
  | error e =>
    rw [list_eq] at hList
    exact absurd (.listing hLoads hJob hCredentials hHost hList) (h .listing _)
  | ok locators =>
    rw [runBuilds, hPrepared]
    simp only [Client.query, hList, View.answered]
    exact ⟨_, _, _, rfl, rfl⟩

theorem length_requests (h : Fails w c need f) :
    f.requests.length = if need = .listing then 1 else 0 := by
  cases h <;> rfl

/-- **The first failure is reported.** A run that lists builds reports the first of its needs that is not
met, whatever becomes of the later ones: the text of the error behind what was shown on the way, a failure
as the exit code, and nothing on the output, not even the header of a table. Nothing is requested unless
only the list of builds can fail, which takes one request. If nothing fails, the run comes to the
builds. -/
theorem first_failure_reported {args : List String} (hArgs : ofArguments args = .ok (.builds c)) :
    let done := runArguments w args
    (∀ need f, FirstFails w c need f →
      done.code = 1 ∧ done.out = "" ∧
        (∃ text, f.error.ReadsAs w.wording text ∧ done.err = f.shown ++ ("Error: " ++ text ++ "\n")) ∧
        done.files = w.files ∧ done.requests = f.requests ∧
        f.requests.length = if need = .listing then 1 else 0) ∧
    (∀ need f, Fails w c need f → ∃ first g, FirstFails w c first g) ∧
    (∀ need f, need ≠ .listing → Fails w c need f → done.requests = []) ∧
    ((∀ need, Met w c need) → ∃ lines listing more,
      done.out = unlines ((if c.format = .table then [Report.tableHeader] else []) ++ lines) ∧
        done.requests = listing :: more) := by
  intro done
  have hDone : done = runBuilds w c := by
    show runArguments w args = _
    rw [runArguments, hArgs]
    rfl
  rw [hDone]
  refine ⟨?_, ?_, ?_, runBuilds_of_met⟩
  · intro need f hFirst
    rw [runBuilds_of_firstFails hFirst]
    exact ⟨rfl, rfl, ⟨_, (f.error.readsAs_iff w.wording _).mpr rfl, rfl⟩, rfl, rfl,
      length_requests hFirst.1⟩
  · intro need f hFails
    obtain ⟨first, -, g, hFirst⟩ := exists_firstFails hFails
    exact ⟨first, g, hFirst⟩
  · intro need f hNeed hFails
    obtain ⟨first, hMem, g, hFirst⟩ := exists_firstFails hFails
    have hOther : ∀ need, need ≠ .listing →
        ∀ first ∈ Need.inOrder.takeWhile (· ≠ need) ++ [need], first ≠ .listing := by
      intro need
      cases need <;> decide
    have hNone := length_requests hFirst.1
    rw [if_neg (hOther need hNeed first hMem)] at hNone
    rw [runBuilds_of_firstFails hFirst]
    exact List.length_eq_zero_iff.mp hNone

/-- A filter that cannot be read, where credentials and a host are missing as well; and a list of builds
that is no document. -/
theorem first_failure_reported_filter_and_listing :
    let respond : Transport := fun _ => .ok (Text.bytes "x")
    let bare : Environment := .ofVariables [("JENQ_ROOT", "/r")]
    let env : Environment := .ofVariables
      [("JENQ_ROOT", "/r"), ("JENKINS_HOST_URL", "h"), ("JENKINS_API_TOKEN", "t")]
    let wording : Wording := { (default : Wording) with
      undecoded := fun _ _ => "expected value at line 1 column 1" }
    let unready : World := ⟨⟨[]⟩, bare, none, respond, wording⟩
    let w : World := ⟨⟨[]⟩, env, none, respond, wording⟩
    let unread := runArguments unready ["builds", "-F", "table", "-f", "a!", "j"]
    let unlisted := runArguments w ["builds", "-F", "table", "j"]
    unread.code = 1 ∧ unread.out = "" ∧ unread.requests = [] ∧
      unread.err = "  a!\n   ^\nError: Query error: Syntax error at 1\n" ∧
      unlisted.code = 1 ∧ unlisted.out = "" ∧ unlisted.requests.length = 1 ∧
      unlisted.err = "Error: Failed to decode response from 'h/job/j/api/json': " ++
        "expected value at line 1 column 1\n" := by
  intro respond bare env wording unready w unread unlisted
  have hUnread : FirstFails unready ⟨some "j", "a!", .table, none⟩ .filter
      ⟨.query (.strayCharacter 1), "  a!\n   ^\n", []⟩ := by
    have hLoads : Settings.load unready.files unready.env =
        .ok ⟨"/r", none, none, "unknown", 8, 32, 30⟩ := by
      decide +kernel
    refine ⟨.filter (e := .strayCharacter 1) (by decide +kernel), ?_⟩
    show ∀ earlier ∈ [Need.settings, .job], Met _ _ earlier
    simp only [List.forall_mem_cons, List.not_mem_nil, false_implies, implies_true, and_true]
    exact ⟨met_settings_iff.mpr ⟨_, hLoads⟩, (met_job_iff hLoads).mpr ⟨"j", by decide +kernel⟩⟩
  let c : BuildsCommand := ⟨some "j", "", .table, none⟩
  let s : Settings := ⟨"/r", some "h", none, "unknown", 8, 32, 30⟩
  let credentials : Credentials := ⟨"unknown", "t"⟩
  have hUnlisted : FirstFails w c .listing
      ⟨.notDecoded "h/job/j/api/json" .listing (Text.bytes "x") .malformed, "",
        [⟨"h/job/j/api/json", credentials.authorization⟩]⟩ := by
    have hLoads : Settings.load w.files w.env = .ok s := by decide +kernel
    have hJob : s.job c.job = .ok "j" := by decide +kernel
    have hHost : s.host = .ok "h/" := by decide +kernel
    have hAsked : (w.asked s).result = .ok credentials := by decide +kernel
    constructor
    · exact .listing hLoads hJob hAsked hHost (by decide +kernel)
    · show ∀ earlier ∈ [Need.settings, .job, .filter, .credentials, .host], Met w c earlier
      simp only [List.forall_mem_cons, List.not_mem_nil, false_implies, implies_true, and_true]
      exact ⟨met_settings_iff.mpr ⟨s, hLoads⟩, (met_job_iff hLoads).mpr ⟨_, hJob⟩,
        met_filter_iff.mpr ⟨.all, by decide +kernel⟩, (met_credentials_iff hLoads).mpr ⟨_, hAsked⟩,
        (met_host_iff hLoads).mpr ⟨_, hHost⟩⟩
  have hArgs : ofArguments ["builds", "-F", "table", "-f", "a!", "j"] =
      .ok (.builds ⟨some "j", "a!", .table, none⟩) := by decide +kernel
  have hArgs' : ofArguments ["builds", "-F", "table", "j"] = .ok (.builds c) := by decide +kernel
  obtain ⟨hCode, hOut, ⟨text, hText, hErr⟩, -, hRequests, -⟩ :=
    (first_failure_reported hArgs).1 _ _ hUnread
  obtain ⟨hCode', hOut', ⟨text', hText', hErr'⟩, -, hRequests', -⟩ :=
    (first_failure_reported hArgs').1 _ _ hUnlisted
  refine ⟨hCode, hOut, hRequests, ?_, hCode', hOut', congrArg List.length hRequests', ?_⟩
  · rw [hErr, (Error.readsAs_iff _ _ _).mp hText]
    decide +kernel
  · rw [hErr', (Error.readsAs_iff _ _ _).mp hText']
    decide +kernel

end BuildQuery.Command
