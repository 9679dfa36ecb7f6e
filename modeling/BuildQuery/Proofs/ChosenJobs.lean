import BuildQuery.Proofs.BuildsOutput
import BuildQuery.Proofs.JobAddresses

/-!
# BuildQuery — where the builds of a chosen job are listed

A job is chosen when its name is not blank, but its address is made of the folders in the name. The two
agree on every name except those of one or more slashes and nothing else (`OnlySlashes`): such a name is
not blank, so it is taken, and it has no folder, so the address is that of the host. A run that is given
such a name asks the host itself for builds, and where the document of the host lists none, the run
succeeds and shows none.

Main results:

* `folders_eq_nil_iff` — the names without a folder.
* `hasJobPart_listing_iff` — the address of a listing has a part for a folder just when the job has one.
* `hasAsked_of_leaves` — what the runs have asked for that have a job and a host.
* `listing_of_chosen_job` — when a run asks the host in place of a job, and when that is a success.
-/

namespace BuildQuery

open Text Remote

-- ---------------------------------------------------------------------------
-- Names without a folder
-- ---------------------------------------------------------------------------

namespace Text

/-- The pieces hold all characters but the marks. -/
theorem flatten_pieces (mark : Char) (cs : List Char) :
    (pieces mark cs).flatten = cs.filter (· ≠ mark) := by
  -- on the cutting: a mark begins a new piece, and any other character goes into the piece that is open
  fun_induction pieces mark cs with
  | case1 => rfl
  | case2 cs ih =>
    rw [List.flatten_cons, ih, List.filter_cons_of_neg (by simp)]
    rfl
  | case3 c cs hc hPieces ih =>
    rw [hPieces] at ih
    rw [List.filter_cons_of_pos (by simpa using hc), ← ih]
    rfl
  | case4 c cs hc piece rest hPieces ih =>
    rw [hPieces, List.flatten_cons] at ih
    rw [List.filter_cons_of_pos (by simpa using hc), ← ih]
    rfl

end Text

namespace Remote

/-- A name of one or more slashes and nothing else. -/
def OnlySlashes (job : String) : Prop :=
  ∃ k, job = slashes (k + 1)

/-- **The names without a folder.** -/
theorem folders_eq_nil_iff (job : String) : folders job = [] ↔ ∃ k, job = slashes k := by
  have hPieces : folders job = [] ↔ (pieces '/' job.toList).flatten = [] := by
    simp [folders, pieces_eq_splitOn]
  rw [hPieces, flatten_pieces, List.filter_eq_nil_iff]
  constructor
  · intro hAll
    refine ⟨job.toList.length, ?_⟩
    rw [← String.toList_inj, slashes, String.toList_ofList]
    exact List.eq_replicate_of_mem fun c hc => by simpa using hAll c hc
  · rintro ⟨k, rfl⟩ c hc
    rw [slashes, String.toList_ofList] at hc
    simp [List.eq_of_mem_replicate hc]

-- ---------------------------------------------------------------------------
-- Parts of an address
-- ---------------------------------------------------------------------------

/-- Where a host is asked about itself. -/
def rootAddress (host : String) : String :=
  hostAddress host ++ "api/json"

/-- Behind the address of the host, and perhaps of other parts, an address has a part for a folder. -/
def HasJobPart (host address : String) : Prop :=
  ∃ (parts : List String) (folder after : String), folder ≠ "" ∧ '/' ∉ folder.toList ∧
    address = hostAddress host ++
      (String.join (parts.map (· ++ "/")) ++ "job/" ++ folder ++ "/" ++ after)

/-- The characters of the address: those of the host, a part for each folder, and the end. -/
theorem toList_listingAddress (host job : String) : (listingAddress host job).toList =
    (hostAddress host).toList ++ path (folders job) ++ "api/json".toList := by
  rw [listingAddress, String.toList_append, toList_jobAddress]

/-- A job without a folder is listed where the host is asked about itself. -/
theorem listingAddress_of_no_folder {job : String} (h : folders job = []) (host : String) :
    listingAddress host job = rootAddress host := by
  rw [listingAddress, rootAddress, String.append_left_inj, ← String.toList_inj, toList_jobAddress, h]
  exact List.append_nil _

/-- The address of the host itself has no part for a folder. -/
theorem not_hasJobPart_root (host : String) : ¬ HasJobPart host (rootAddress host) := by
  rintro ⟨parts, folder, after, -, -, hAddress⟩
  rw [rootAddress, String.append_right_inj, ← String.toList_inj] at hAddress
  -- the word would stand somewhere in what follows the host
  have hWord : "job/".toList <:+: "api/json".toList := by
    refine ⟨(String.join (parts.map (· ++ "/"))).toList, folder.toList ++ ('/' :: after.toList), ?_⟩
    rw [hAddress]
    simp
  exact absurd hWord (by decide)

/-- **The address of a listing has a part for a folder** just when the job has one. -/
theorem hasJobPart_listing_iff (host job : String) :
    HasJobPart host (listingAddress host job) ↔ folders job ≠ [] := by
  constructor
  · intro hPart hNone
    rw [listingAddress_of_no_folder hNone] at hPart
    exact not_hasJobPart_root host hPart
  · intro hSome
    obtain ⟨folder, rest, hFolders⟩ := List.exists_cons_of_ne_nil hSome
    have hMem : folder ∈ folders job := hFolders ▸ List.mem_cons_self
    have hNonempty : folder ≠ [] := by simpa using (List.mem_filter.mp hMem).2
    refine ⟨[], String.ofList folder, String.ofList (path rest) ++ "api/json", ?_, ?_, ?_⟩
    · rwa [ne_eq, ← String.toList_eq_nil_iff, String.toList_ofList]
    · rw [String.toList_ofList]
      exact slash_not_mem_folder hMem
    · rw [← String.toList_inj, toList_listingAddress, hFolders]
      simp [path]

/-- Only a job without a folder is listed where the host is asked about itself. -/
theorem listingAddress_eq_root_iff (host job : String) :
    listingAddress host job = rootAddress host ↔ folders job = [] := by
  constructor
  · intro hRoot
    by_contra hSome
    refine not_hasJobPart_root host ?_
    rw [← hRoot]
    exact (hasJobPart_listing_iff host job).mpr hSome
  · exact fun hNone => listingAddress_of_no_folder hNone host

end Remote

-- ---------------------------------------------------------------------------
-- Jobs that are chosen
-- ---------------------------------------------------------------------------

namespace Settings

variable {s : Settings} {named : Option String} {job : String}

theorem job_ok_iff :
    s.job named = .ok job ↔ named.or s.defaultJob = some job ∧ isBlankText job = false := by
  have hFilter : s.job named = .ok job ↔
      (named.or s.defaultJob).filter (fun name => !isBlankText name) = some job := by
    rw [Settings.job]
    split
    case h_1 chosen hChosen => rw [hChosen, Except.ok.injEq, Option.some.injEq]
    case h_2 hNone => simp [hNone]
  rw [hFilter, Option.filter_eq_some_iff, Bool.not_eq_true']

/-- Slashes are no blanks, so a name of slashes is blank only when there is none. -/
theorem isBlankText_slashes (k : Nat) : isBlankText (slashes k) = true ↔ k = 0 := by
  have hSlash : isBlank '/' = false := by decide
  cases k with
  | zero => simp [isBlankText, slashes]
  | succ k => simp [isBlankText, slashes, List.replicate_succ, hSlash]

/-- A name of slashes is taken for a job, whatever the settings. -/
theorem job_slashes (s : Settings) (k : Nat) :
    s.job (some (slashes (k + 1))) = .ok (slashes (k + 1)) := by
  refine job_ok_iff.mpr ⟨rfl, Bool.eq_false_iff.mpr ?_⟩
  rw [ne_eq, isBlankText_slashes]
  exact Nat.succ_ne_zero k

/-- A job that is chosen has a folder unless its name has slashes only. -/
theorem folders_eq_nil_iff_of_chosen (hJob : s.job named = .ok job) :
    folders job = [] ↔ OnlySlashes job := by
  rw [folders_eq_nil_iff]
  constructor
  · rintro ⟨k, rfl⟩
    cases k with
    | zero =>
      have hNotBlank := (job_ok_iff.mp hJob).2
      rw [(isBlankText_slashes 0).mpr rfl] at hNotBlank
      cases hNotBlank
    | succ k => exact ⟨k, rfl⟩
  · rintro ⟨k, rfl⟩
    exact ⟨k + 1, rfl⟩

end Settings

namespace Command

-- ---------------------------------------------------------------------------
-- What a run has asked for
-- ---------------------------------------------------------------------------

/-- What a run needs to ask for builds when it has a job and a host. -/
structure CanAsk (w : World) (c : BuildsCommand) (s : Settings) (credentials : Credentials) : Prop where
  reads_filter    : ∃ filter, Filter.parse c.filter = .ok filter
  has_credentials : (w.asked s).result = .ok credentials

/-- A run has one pair of credentials to ask with. -/
theorem CanAsk.unique {w : World} {c : BuildsCommand} {s : Settings} {a b : Credentials}
    (ha : CanAsk w c s a) (hb : CanAsk w c s b) : a = b :=
  Except.ok.inj (ha.has_credentials.symm.trans hb.has_credentials)

/-- What a run leaves that has a job and a host, by what it has asked for: for nothing, for the list of
builds in vain, or for each build in the list as well. A run that finds an empty list is a success. -/
inductive HasAsked (w : World) (c : BuildsCommand) (s : Settings) (job host : String) (done : Done) : Prop
  | nothing (hCannot : ∀ credentials, ¬ CanAsk w c s credentials) (hRequests : done.requests = []) :
      HasAsked w c s job host done
  | unlisted {credentials : Credentials} {e : Error} (hCan : CanAsk w c s credentials)
      (hList : (clientOf c s host credentials).list w.transport job = .error e)
      (hRequests : done.requests = [⟨listingAddress host job, credentials.authorization⟩])
      (hCode : done.code = 1) : HasAsked w c s job host done
  | listed {credentials : Credentials} {locators : List String} {more : List Request}
      (hCan : CanAsk w c s credentials)
      (hList : (clientOf c s host credentials).list w.transport job = .ok locators)
      (hRequests : done.requests = ⟨listingAddress host job, credentials.authorization⟩ :: more)
      (hMore : more.Perm (locators.map (clientOf c s host credentials).request))
      (hNone : locators = [] → done.code = 0 ∧ done.out = unlines (headerLines c.format)) :
      HasAsked w c s job host done

variable {w : World} {c : BuildsCommand} {s : Settings} {job host : String} {done : Done}

/-- What has been requested is what the query has requested, whatever is shown. -/
theorem requests_listing (w : World) (format : Report.Format) (shown : String) (answered : Answered) :
    (w.listing format shown answered).requests = answered.requests := by
  rw [World.listing]
  split <;> rfl

/-- Without a filter or without credentials a run is not ready to ask. -/
theorem unready_of_cannot (hLoads : Settings.load w.files w.env = .ok s)
    (hCannot : ∀ credentials, ¬ CanAsk w c s credentials) :
    ∃ e shown, prepare w c = (.error e, shown) := by
  rcases hReady : prepare w c with ⟨result, shown⟩
  cases result with
  | error e => exact ⟨e, shown, rfl⟩
  | ok ready =>
    obtain ⟨t, -, -, filter, credentials, hAlso, -, hFilter, hCredentials, -⟩ := exists_of_prepare hReady
    obtain rfl : s = t := Except.ok.inj (hLoads.symm.trans hAlso)
    exact absurd ⟨⟨filter, hFilter⟩, hCredentials⟩ (hCannot credentials)

/-- **What a run has asked for** that has a job and a host. -/
theorem hasAsked_of_leaves (hLoads : Settings.load w.files w.env = .ok s) (hJob : s.job c.job = .ok job)
    (hHost : s.host = .ok host) (hLeaves : Leaves w c done) : HasAsked w c s job host done := by
  -- a run that can ask is ready for its query, and any other stops before it
  by_cases hCan : ∃ credentials, CanAsk w c s credentials
  · obtain ⟨credentials, hCan⟩ := hCan
    obtain ⟨filter, hFilter⟩ := hCan.reads_filter
    have hReady := prepare_of_ok hLoads hJob hFilter hCan.has_credentials hHost
    obtain ⟨answered, rfl, hGives⟩ := gives_of_ready hReady hLeaves
    rcases hGives.of_parse hFilter with
      ⟨e, hList, rfl⟩ | ⟨locators, more, hList, hEntries, hRequests, hMore⟩
    · exact .unlisted hCan hList rfl rfl
    · refine .listed hCan hList ((requests_listing ..).trans hRequests) hMore ?_
      rintro rfl
      obtain ⟨hOut, -, hCode⟩ := listed_of_ready hReady hList hLeaves
      exact ⟨hCode, by simpa using hOut⟩
  · obtain ⟨e, shown, hUnready⟩ := unready_of_cannot hLoads (not_exists.mp hCan)
    cases hLeaves with
    | unready _ => exact .nothing (not_exists.mp hCan) rfl
    | asked hReady _ =>
      rw [hUnready] at hReady
      cases hReady

-- ---------------------------------------------------------------------------
-- Asking the host in place of a job
-- ---------------------------------------------------------------------------

/-- A run that asks a host for its builds where it should ask for those of a job. -/
def AsksRoot (host : String) (done : Done) : Prop :=
  ∃ root more, done.requests = root :: more ∧ root.url = rootAddress host

/-- A run that succeeds and shows no builds, having asked for nothing but those of the host. -/
structure ShowsEmptyRoot (host : String) (format : Report.Format) (done : Done) : Prop where
  asks_root_only : ∃ root, done.requests = [root] ∧ root.url = rootAddress host
  succeeds : done.code = 0
  shows_none : done.out = unlines (headerLines format)

/-- The host answers a request with a document that lists no builds. -/
def ListsNone (t : Transport) (r : Request) : Prop :=
  ∃ body, t r = .ok body ∧ Listing.ofBytes body = .ok []

theorem listsNone_iff (client : Client) (t : Transport) (job : String) :
    ListsNone t (client.request (listingAddress client.host job)) ↔ client.list t job = .ok [] := by
  rw [list_eq, ListsNone]
  cases t (client.request (listingAddress client.host job)) with
  | error e => simp [locatorsOf]
  | ok body =>
    cases hBody : Listing.ofBytes body <;> simp [locatorsOf, hBody]

/-- The first request tells where the builds were asked for. -/
theorem asksRoot_iff_of_requests {listing : Request} {more : List Request}
    (h : done.requests = listing :: more) : AsksRoot host done ↔ listing.url = rootAddress host := by
  rw [AsksRoot, h]
  constructor
  · rintro ⟨root, rest, hSame, hRoot⟩
    cases hSame
    exact hRoot
  · exact fun hRoot => ⟨listing, more, rfl, hRoot⟩

/-- A run asks the host in place of a job just when the job has no folder and the run can ask. -/
theorem asksRoot_iff (h : HasAsked w c s job host done) :
    AsksRoot host done ↔ folders job = [] ∧ ∃ credentials, CanAsk w c s credentials := by
  cases h with
  | nothing hCannot hRequests =>
    rw [AsksRoot, hRequests]
    simp [hCannot]
  | unlisted hCan _ hRequests _ | listed hCan _ hRequests _ _ =>
    rw [asksRoot_iff_of_requests hRequests, listingAddress_eq_root_iff, and_iff_left ⟨_, hCan⟩]

/-- Such a run shows no builds, and succeeds, just when the document of the host lists none. -/
theorem showsEmptyRoot_iff (h : HasAsked w c s job host done) :
    ShowsEmptyRoot host c.format done ↔ folders job = [] ∧ ∃ credentials,
      CanAsk w c s credentials ∧ ListsNone w.transport ⟨rootAddress host, credentials.authorization⟩ := by
  constructor
  · rintro ⟨⟨root, hOnly, hRoot⟩, hCode, -⟩
    have hNoFolder := ((asksRoot_iff h).mp ⟨root, [], hOnly, hRoot⟩).1
    refine ⟨hNoFolder, ?_⟩
    cases h with
    | nothing hCannot hRequests =>
      rw [hOnly] at hRequests
      cases hRequests
    | unlisted hCan hList hRequests hFails =>
      rw [hCode] at hFails
      cases hFails
    | @listed credentials locators more hCan hList hRequests hMore hNone =>
      rw [hOnly] at hRequests
      cases hRequests
      -- there was one request, so the list had no builds to ask for
      obtain rfl := List.map_eq_nil_iff.mp hMore.nil_eq.symm
      refine ⟨credentials, hCan, ?_⟩
      rw [← listingAddress_of_no_folder hNoFolder]
      exact (listsNone_iff (clientOf c s host credentials) w.transport job).mpr hList
  · rintro ⟨hNoFolder, credentials, hCan, hListsNone⟩
    rw [← listingAddress_of_no_folder hNoFolder] at hListsNone
    have hEmpty := (listsNone_iff (clientOf c s host credentials) w.transport job).mp hListsNone
    cases h with
    | nothing hCannot hRequests => exact absurd hCan (hCannot credentials)
    | unlisted hAlso hList hRequests hCode =>
      obtain rfl := hCan.unique hAlso
      rw [hEmpty] at hList
      cases hList
    | listed hAlso hList hRequests hMore hNone =>
      obtain rfl := hCan.unique hAlso
      rw [hEmpty] at hList
      cases hList
      obtain ⟨hCode, hOut⟩ := hNone rfl
      rw [hMore.eq_nil] at hRequests
      exact ⟨⟨_, hRequests, listingAddress_of_no_folder hNoFolder host⟩, hCode, hOut⟩

/-- **Where the builds of a chosen job are listed.** The address has a part for a folder behind the host,
unless the name of the job has slashes only. Such a name is taken whenever it is given, and the address is
that of the host itself. So a run that lists builds asks the host in place of a job just when the name has
slashes only, provided that it can ask at all, and it is a success that shows no builds just when, besides,
the document of the host lists none. -/
theorem listing_of_chosen_job {env : Environment} {s : Settings} {named : Option String} {job : String}
    (hJob : (s.overridden env).job named = .ok job) :
    (∀ host, (HasJobPart host (listingAddress host job) ↔ ¬ OnlySlashes job) ∧
      (listingAddress host job = rootAddress host ↔ OnlySlashes job)) ∧
    (∀ k, (s.overridden env).job (some (slashes (k + 1))) = .ok (slashes (k + 1))) ∧
    ∀ (w : World) (c : BuildsCommand) (host : String), w.env = env → c.job = named →
      Settings.stored w.files env = .ok s → (s.overridden env).host = .ok host →
      (∀ args, ofArguments args = .ok (.builds c) → Leaves w c (runArguments w args)) ∧
      ∀ done, Leaves w c done →
        (AsksRoot host done ↔
          OnlySlashes job ∧ ∃ credentials, CanAsk w c (s.overridden env) credentials) ∧
        (ShowsEmptyRoot host c.format done ↔
          OnlySlashes job ∧ ∃ credentials, CanAsk w c (s.overridden env) credentials ∧
            ListsNone w.transport ⟨rootAddress host, credentials.authorization⟩) := by
  have hFolders := Settings.folders_eq_nil_iff_of_chosen hJob
  refine ⟨fun host => ?_, Settings.job_slashes _, ?_⟩
  · rw [hasJobPart_listing_iff, listingAddress_eq_root_iff, ne_eq, hFolders]
    exact ⟨Iff.rfl, Iff.rfl⟩
  · rintro w c host rfl rfl hStored hHost
    have hLoads : Settings.load w.files w.env = .ok (s.overridden w.env) := by
      rw [Settings.load, hStored]
      rfl
    refine ⟨fun args hArgs => leaves_runArguments w hArgs, fun done hLeaves => ?_⟩
    have hAsked := hasAsked_of_leaves hLoads hJob hHost hLeaves
    rw [asksRoot_iff hAsked, showsEmptyRoot_iff hAsked, hFolders]
    exact ⟨Iff.rfl, Iff.rfl⟩

/-- **A slash for a job.** It is taken, and the run asks the host itself and reports as a success that there
are no builds. -/
theorem host_listed_for_slash :
    let respond : Transport := fun r =>
      if r.url = "h/api/json" then .ok (bytes "\x7b\"mode\":\"NORMAL\"\x7d")
      else .error (.badStatus r.url 404)
    let env : Environment := .ofVariables
      [("JENQ_ROOT", "/r"), ("JENKINS_HOST_URL", "h"), ("JENKINS_API_TOKEN", "t")]
    let done := runArguments ⟨⟨[]⟩, env, none, respond, default⟩ ["builds", "/"]
    ((Settings.initial env "/r").overridden env).job (some "/") = .ok "/" ∧
      ¬ HasJobPart "h" (listingAddress "h" "/") ∧
      done.requests.map (·.url) = ["h/api/json"] ∧ done.code = 0 ∧ done.out = "" ∧ done.err = "" := by
  intro respond env done
  have hNoFolder : folders "/" = [] := by decide +kernel
  refine ⟨by decide +kernel, ?_, by decide +kernel, by decide +kernel, by decide +kernel,
    by decide +kernel⟩
  rw [listingAddress_of_no_folder hNoFolder]
  exact not_hasJobPart_root "h"

/-- A job of two slashes in the environment, and one in a folder that is named instead. -/
theorem listing_of_chosen_job_two_names :
    let respond : Transport := fun r =>
      if r.url = "h/api/json" then .ok (bytes "\x7b\"mode\":\"NORMAL\"\x7d")
      else .error (.badStatus r.url 404)
    let env : Environment := .ofVariables
      [("JENQ_ROOT", "/r"), ("JENKINS_HOST_URL", "h"), ("JENKINS_API_TOKEN", "t"),
        ("JENKINS_DEFAULT_JOB", "//")]
    let w : World := ⟨⟨[]⟩, env, none, respond, default⟩
    ((Settings.initial env "/r").overridden env).job none = .ok "//" ∧
      ShowsEmptyRoot "h/" .table (runArguments w ["builds", "-F", "table"]) ∧
      HasJobPart "h/" (listingAddress "h/" "a//b") ∧
      ¬ AsksRoot "h/" (runArguments w ["builds", "a//b"]) := by
  intro respond env w
  let s : Settings := Settings.initial env "/r"
  have hStored : Settings.stored w.files env = .ok s := by decide +kernel
  have hHost : (s.overridden env).host = .ok "h/" := by decide +kernel
  have hAsked : (w.asked (s.overridden env)).result = .ok ⟨"unknown", "t"⟩ := by decide +kernel
  have hFilter : ∃ filter, Filter.parse "" = .ok filter := ⟨.all, by decide +kernel⟩
  have hNone : ListsNone w.transport ⟨rootAddress "h/", Credentials.authorization ⟨"unknown", "t"⟩⟩ :=
    ⟨bytes "\x7b\"mode\":\"NORMAL\"\x7d", by decide +kernel, by decide +kernel⟩
  have hSlashes : (s.overridden env).job none = .ok "//" := by decide +kernel
  have hFolders : (s.overridden env).job (some "a//b") = .ok "a//b" := by decide +kernel
  have hNotSlashes : ¬ OnlySlashes "a//b" := by
    rw [← Settings.folders_eq_nil_iff_of_chosen hFolders]
    decide +kernel
  obtain ⟨-, -, hRuns⟩ := listing_of_chosen_job hSlashes
  obtain ⟨hRun, hLeft⟩ := hRuns w ⟨none, "", .table, none⟩ "h/" rfl rfl hStored hHost
  obtain ⟨-, hEmpty⟩ := hLeft _ (hRun ["builds", "-F", "table"] (by decide +kernel))
  obtain ⟨hParts, -, hRuns'⟩ := listing_of_chosen_job hFolders
  obtain ⟨hRun', hLeft'⟩ := hRuns' w ⟨some "a//b", "", .compact, none⟩ "h/" rfl rfl hStored hHost
  obtain ⟨hRoot, -⟩ := hLeft' _ (hRun' ["builds", "a//b"] (by decide +kernel))
  refine ⟨hSlashes, ?_, (hParts "h/").1.mpr hNotSlashes, ?_⟩
  · exact hEmpty.mpr ⟨⟨1, by decide +kernel⟩, ⟨"unknown", "t"⟩, ⟨hFilter, hAsked⟩, hNone⟩
  · exact fun hAsks => hNotSlashes (hRoot.mp hAsks).1

end Command

end BuildQuery
