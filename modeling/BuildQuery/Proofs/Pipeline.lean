import BuildQuery.Proofs.PoolRuns
import BuildQuery.Remote.Client

/-!
# BuildQuery — asking side by side is asking in turn

A query reads a filter, asks for the list of builds and lets a pool of workers ask for each of them.
The plain way to the same answer is to ask for one build after the other (`queryInTurn`), which knows
of no workers and no channel. `Client.Gives` collects the answers that a query can give, whatever the
order in which the parties of its pool move.

Main results:

* `gives_queryText` — the answer of `queryText` is one of them.
* `gives_in_turn` — all of them are the plain answer, up to the order of the requests.
-/

namespace BuildQuery.Remote

open Fetch

-- ---------------------------------------------------------------------------
-- The plain answer
-- ---------------------------------------------------------------------------

/-- The locators that the response to the request for the list of builds gives. -/
def locatorsOf (url : String) : Except Error (List UInt8) → Except Error (List String)
  | .error e => .error e
  | .ok body =>
    match Listing.ofBytes body with
    | .error fault => .error (.notDecoded url .listing body fault)
    | .ok addresses => .ok (addresses.map buildLocator)

/-- What becomes of a build, given the response to the request for it. -/
def View.entryOf (v : View) (locator : String) : Except Error (List UInt8) → Entry
  | .error e => .failed e
  | .ok body =>
    match Build.ofBytes body with
    | .error fault => .failed (.notDecoded locator .build body fault)
    | .ok build =>
      if v.filter.selects build.field then .shown (Report.line v.format v.ink build) else .skipped

/-- What becomes of the builds in the order of the list, and the addresses that were asked for. -/
structure Plain where
  entries : Except Error (List Entry)
  urls : List String
deriving DecidableEq

/-- Asks a host for the builds of a job, one after the other; `ask` gives the response for an
address. -/
def queryInTurn (ask : String → Except Error (List UInt8)) (host job filter : String)
    (format : Report.Format) (ink : Report.Ink) : Plain :=
  match Filter.parse filter with
  | .error e => ⟨.error (.query e), []⟩
  | .ok filter =>
    let listing := listingAddress host job
    match locatorsOf listing (ask listing) with
    | .error e => ⟨.error e, [listing]⟩
    | .ok locators =>
      ⟨.ok (locators.map fun l => View.entryOf ⟨filter, format, ink⟩ l (ask l)), listing :: locators⟩

-- ---------------------------------------------------------------------------
-- The answers of a query
-- ---------------------------------------------------------------------------

/-- The answers that a query can give. Its pool makes any moves that leave it without another one. -/
inductive Client.Gives (c : Client) (t : Transport) (job filter : String) (format : Report.Format)
    (ink : Report.Ink) : Answered → Prop
  | refused {e : Filter.QueryError} (hFilter : Filter.parse filter = .error e) :
    Gives c t job filter format ink ⟨.error (.query e), []⟩
  | unlisted {f : Filter} {e : Error} (hFilter : Filter.parse filter = .ok f)
      (hList : c.list t job = .error e) :
    Gives c t job filter format ink ⟨.error e, [c.request (listingAddress c.host job)]⟩
  | fetched {f : Filter} {locators : List String} {ms : List Move}
      {pool : Pool (Except Error Build)} (hFilter : Filter.parse filter = .ok f)
      (hList : c.list t job = .ok locators) (hRun : Pool.Undisturbed (c.plan t locators) ms pool)
      (hStuck : ∀ m, m.keepsInterest = true → pool.step (c.plan t locators) m = none) :
    Gives c t job filter format ink
      (View.answered ⟨f, format, ink⟩ (c.request (listingAddress c.host job))
        (c.ofPool locators pool))

/-- The run that `queryText` makes is one that a query can make. -/
theorem gives_queryText (c : Client) (t : Transport) (job filter : String) (format : Report.Format)
    (ink : Report.Ink) :
    c.Gives t job filter format ink (c.queryText t job filter format ink) := by
  rw [Client.queryText]
  split
  case h_1 e hFilter => exact .refused hFilter
  case h_2 f hFilter =>
    rw [Client.query]
    split
    case h_1 e hList => exact .unlisted hFilter hList
    case h_2 locators hList =>
      obtain ⟨ms, hRun, hEnded⟩ := Pool.undisturbed_complete (c.plan t locators)
      obtain ⟨gone, hSound⟩ := hRun.sound
      exact .fetched hFilter hList hRun ((Pool.ended_iff_stuck hRun.wanted hSound).mp hEnded)

-- ---------------------------------------------------------------------------
-- One step of the query at a time
-- ---------------------------------------------------------------------------

/-- The locators of the builds come from the response to the one request for them. -/
theorem list_eq (c : Client) (t : Transport) (job : String) :
    c.list t job = locatorsOf (listingAddress c.host job)
      (t (c.request (listingAddress c.host job))) := by
  rw [Client.list, Client.get]
  cases t (c.request (listingAddress c.host job)) with
  | error e => rfl
  | ok body =>
    rw [locatorsOf]
    cases hBody : Listing.ofBytes body with
    | error fault => simp [bind, Except.bind, Except.mapError, hBody]
    | ok addresses => simp [bind, Except.bind, Except.mapError, hBody, pure, Except.pure]

/-- What becomes of a build comes from the response to the request for it. -/
theorem entry_describe (c : Client) (t : Transport) (v : View) (locator : String) :
    v.entry (c.describe t locator) = v.entryOf locator (t (c.request locator)) := by
  rw [Client.describe, Client.get]
  cases t (c.request locator) with
  | error e => rfl
  | ok body =>
    rw [View.entryOf]
    cases hBody : Build.ofBytes body <;> simp [bind, Except.bind, Except.mapError, hBody, View.entry]

/-- The entries of a list, found by their indices. -/
theorem filterMap_range_getElem? {α β : Type} (l : List α) (f : α → β) :
    (List.range l.length).filterMap (fun i => l[i]?.map f) = l.map f := by
  induction l with
  | nil => rfl
  | cons x l ih =>
    rw [List.length_cons, List.range_succ_eq_map, List.filterMap_cons, List.filterMap_map,
      List.map_cons, ← ih]
    rfl

/-- The results are shown in the order of the list, each with its index. -/
theorem filterMap_place (v : View) (locators : List String)
    (fetch : String → Except Error Build) :
    ((Pool.resultsOf locators fetch).map Answer.result ++ [Answer.finished]).filterMap v.place =
      (locators.map fun l => v.entry (fetch l)).mapIdx fun i entry => .ok (i, entry) := by
  calc ((Pool.resultsOf locators fetch).map Answer.result ++ [Answer.finished]).filterMap v.place
      = (Pool.resultsOf locators fetch).filterMap
          (some ∘ fun a => .ok (a.index, v.entry a.outcome)) := by
        rw [List.filterMap_append, List.filterMap_map]
        exact List.append_nil _
    _ = (Pool.resultsOf locators fetch).map fun a => .ok (a.index, v.entry a.outcome) := by
        rw [List.filterMap_eq_map]
    _ = (locators.map fun l => v.entry (fetch l)).mapIdx fun i entry => .ok (i, entry) := by
        refine (List.mapIdx_eq_iff.mpr fun i => ?_).symm
        simp [Pool.resultsOf, Function.comp_def]

/-- What is shown and requested at the end of a run of the pool. -/
theorem answered_of_run {c : Client} {t : Transport} {v : View} {locators : List String}
    {listing : Request} {ms : List Move} {pool : Pool (Except Error Build)}
    (hRun : Pool.Undisturbed (c.plan t locators) ms pool) (hEnded : pool.ended = true) :
    (v.answered listing (c.ofPool locators pool)).entries =
        .ok ((locators.map fun l => v.entryOf l (t (c.request l))).mapIdx
          fun i entry => .ok (i, entry)) ∧
      (v.answered listing (c.ofPool locators pool)).requests.Perm
        (listing :: locators.map c.request) := by
  obtain ⟨hBegun, hSequenced⟩ := hRun.sequenced_of_ended hEnded
  constructor
  · -- the results come in the order of the list, so each place shows its own entry
    rw [View.answered, Client.ofPool, hSequenced, filterMap_place]
    simp only [entry_describe]
  · -- each index was begun once, so the requests are those of the list in some order
    rw [View.answered, Client.ofPool, ← filterMap_range_getElem?]
    exact (hBegun.filterMap _).cons listing

/-- The answers of a query whose filter can be read: the error of the list, or what becomes of all
builds, with the requests for them behind the one for the list. -/
theorem Client.Gives.of_parse {c : Client} {t : Transport} {job filter : String}
    {format : Report.Format} {ink : Report.Ink} {answered : Answered} {f : Filter}
    (hFilter : Filter.parse filter = .ok f) (h : c.Gives t job filter format ink answered) :
    let listing := c.request (listingAddress c.host job)
    (∃ e, c.list t job = .error e ∧ answered = ⟨.error e, [listing]⟩) ∨
      ∃ locators more, c.list t job = .ok locators ∧
        answered.entries = .ok ((locators.map fun l =>
          View.entryOf ⟨f, format, ink⟩ l (t (c.request l))).mapIdx fun i entry => .ok (i, entry)) ∧
        answered.requests = listing :: more ∧ more.Perm (locators.map c.request) := by
  intro listing
  cases h with
  | refused hNot =>
    rw [hFilter] at hNot
    cases hNot
  | unlisted _ hList => exact .inl ⟨_, hList, rfl⟩
  | @fetched _ locators _ pool hAlso hList hRun hStuck =>
    rw [hFilter] at hAlso
    cases hAlso
    obtain ⟨gone, hSound⟩ := hRun.sound
    have hEnded := (Pool.ended_iff_stuck hRun.wanted hSound).mpr hStuck
    obtain ⟨hEntries, hRequests⟩ := @answered_of_run c t ⟨f, format, ink⟩ locators listing _ _ hRun hEnded
    exact .inr ⟨locators, _, hList, hEntries, rfl, hRequests.cons_inv⟩

-- ---------------------------------------------------------------------------
-- All answers
-- ---------------------------------------------------------------------------

/--
**Refinement.** A query gives an answer, and every answer that it can give is that of asking in turn:
the same entries, in the order of the list and with the indices from 0 on, and the same requests, each
as often, in some order. The number of workers, the channel and the order of the moves leave no trace.
-/
theorem gives_in_turn (c : Client) (t : Transport) (job filter : String) (format : Report.Format)
    (ink : Report.Ink) :
    c.Gives t job filter format ink (c.queryText t job filter format ink) ∧
      ∀ answered, c.Gives t job filter format ink answered →
        let plain := queryInTurn (fun url => t (c.request url)) c.host job filter format ink
        answered.entries =
            plain.entries.map (fun entries => entries.mapIdx fun i entry => .ok (i, entry)) ∧
          answered.requests.Perm (plain.urls.map c.request) := by
  refine ⟨gives_queryText c t job filter format ink, ?_⟩
  intro answered hGives
  rw [queryInTurn]
  -- the filter is refused, or the list, or all builds are asked for
  cases hGives with
  | refused hFilter =>
    rw [hFilter]
    exact ⟨rfl, List.Perm.refl _⟩
  | unlisted hFilter hList =>
    rw [list_eq] at hList
    rw [hFilter]
    simp only [hList]
    exact ⟨rfl, List.Perm.refl _⟩
  | fetched hFilter hList hRun hStuck =>
    obtain ⟨gone, hSound⟩ := hRun.sound
    have hEnded := (Pool.ended_iff_stuck hRun.wanted hSound).mpr hStuck
    rw [list_eq] at hList
    rw [hFilter]
    simp only [hList]
    exact answered_of_run hRun hEnded

/-- Two builds, the first of which the host does not find. -/
theorem gives_in_turn_two_builds :
    let client : Client := ⟨"h", ⟨"user", "secret"⟩, 2, 0⟩
    let respond : Transport := fun r =>
      if r.url = "h/job/j/api/json" then
        .ok (Text.bytes "\x7b\"builds\":[\x7b\"url\":\"h/2/\"\x7d,\x7b\"url\":\"h/1\"\x7d]\x7d")
      else if r.url = "h/1/api/json" then .ok (Text.bytes "\x7b\"result\":\"SUCCESS\"\x7d")
      else .error (.badStatus r.url 404)
    ∃ answered, client.Gives respond "j" "status=SUCCESS" .compact .none answered ∧
      answered.entries =
        .ok [.ok (0, .failed (.badStatus "h/2/api/json" 404)), .ok (1, .shown "SUCCESS ")] ∧
      answered.requests.Perm
        (["h/job/j/api/json", "h/2/api/json", "h/1/api/json"].map client.request) := by
  intro client respond
  have hPlain : queryInTurn (fun url => respond (client.request url)) client.host "j"
      "status=SUCCESS" .compact .none =
        ⟨.ok [.failed (.badStatus "h/2/api/json" 404), .shown "SUCCESS "],
          ["h/job/j/api/json", "h/2/api/json", "h/1/api/json"]⟩ := by decide +kernel
  obtain ⟨hGives, hAll⟩ :=
    gives_in_turn client respond "j" "status=SUCCESS" .compact .none
  obtain ⟨hEntries, hRequests⟩ := hAll _ hGives
  rw [hPlain] at hEntries hRequests
  exact ⟨_, hGives, hEntries, hRequests⟩

end BuildQuery.Remote
