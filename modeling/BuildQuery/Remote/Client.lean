import BuildQuery.Build.Fields
import BuildQuery.Build.Reader
import BuildQuery.Error
import BuildQuery.Fetch.Pool
import BuildQuery.Filter.Grammar
import BuildQuery.Filter.Meaning
import BuildQuery.Report.Line

/-!
# BuildQuery — asking a host for builds

A client asks a host for the builds of a job: first for the list of their addresses, then for each
build, several at a time. The results are put back into the order of the list, and each of them stands
for itself: a build that cannot be had leaves the others as they are.

* `Client.list` gives the locators of the builds, `Client.describe` one build.
* `Client.fetch` gives the results for all locators, and what was requested for them.
* `Client.query` does all of it and shows each build that a filter selects, and `Client.queryText`
  reads the filter first.
-/

namespace BuildQuery.Remote

/-- A request for a document. -/
structure Request where
  url : String
  authorization : String
deriving DecidableEq

/-- What answers requests, with the bytes of the document or an error. -/
abbrev Transport := Request → Except Error (List UInt8)

/-- A client of a host. -/
structure Client where
  host : String
  credentials : Credentials
  workers : Nat
  capacity : Nat

namespace Client

/-- The request for an address. -/
def request (c : Client) (url : String) : Request :=
  ⟨url, c.credentials.authorization⟩

/-- The value that is found at an address. -/
def get {α : Type} (c : Client) (t : Transport) (wanted : Document)
    (read : List UInt8 → Except Json.Fault α) (url : String) : Except Error α := do
  let body ← t (c.request url)
  (read body).mapError (.notDecoded url wanted body)

/-- The locators of the builds of a job, in the order of the host. -/
def list (c : Client) (t : Transport) (job : String) : Except Error (List String) := do
  let addresses ← c.get t .listing Listing.ofBytes (listingAddress c.host job)
  return addresses.map buildLocator

/-- The build at a locator. -/
def describe (c : Client) (t : Transport) (locator : String) : Except Error Build :=
  c.get t .build Build.ofBytes locator

-- ---------------------------------------------------------------------------
-- Fetching all builds
-- ---------------------------------------------------------------------------

/-- What the pool of a client is asked to do. -/
def plan (c : Client) (t : Transport) (locators : List String) :
    Fetch.Plan (Except Error Build) :=
  .ofLocators locators (fun locator => some (c.describe t locator)) c.workers c.capacity

/-- The results of a pool that has done its work, and what was requested for them. -/
structure Fetched where
  answers : List (Fetch.Answer (Except Error Build))
  requests : List Request

/-- The results of a pool in the order of the list. -/
def ofPool (c : Client) (locators : List String) (pool : Fetch.Pool (Except Error Build)) :
    Fetched where
  answers := Fetch.sequenced (some locators.length) pool.received
  requests := pool.begun.filterMap fun i => locators[i]?.map c.request

/-- The results for all locators. -/
def fetch (c : Client) (t : Transport) (locators : List String) : Fetched :=
  c.ofPool locators (Fetch.Pool.complete (c.plan t locators))

end Client

-- ---------------------------------------------------------------------------
-- Showing the builds that a filter selects
-- ---------------------------------------------------------------------------

/-- How builds are shown. -/
structure View where
  filter : Filter
  format : Report.Format
  ink : Report.Ink

/-- What becomes of the result for a build. -/
inductive Entry where
  /-- The build is shown. -/
  | shown (line : String)
  /-- The filter does not select the build. -/
  | skipped
  | failed (error : Error)
deriving DecidableEq

/-- What becomes of a result. -/
def View.entry (v : View) : Except Error Build → Entry
  | .ok build =>
    if v.filter.selects build.field then .shown (Report.line v.format v.ink build) else .skipped
  | .error e => .failed e

/-- The entry of a result, with its index. -/
def View.place (v : View) : Fetch.Answer (Except Error Build) →
    Option (Except Fetch.Violation (Nat × Entry))
  | .result arrival => some (.ok (arrival.index, v.entry arrival.outcome))
  | .violation violation => some (.error violation)
  | .finished => none

/-- What a query answers. -/
structure Answered where
  entries : Except Error (List (Except Fetch.Violation (Nat × Entry)))
  requests : List Request

/-- The answer that shows some results, after the request for the list of them. -/
def View.answered (v : View) (listing : Request) (fetched : Client.Fetched) : Answered :=
  ⟨.ok (fetched.answers.filterMap v.place), listing :: fetched.requests⟩

/-- Asks for the builds of a job and shows those that a filter selects. -/
def Client.query (c : Client) (t : Transport) (job : String) (v : View) : Answered :=
  let listing := c.request (listingAddress c.host job)
  match c.list t job with
  | .error e => ⟨.error e, [listing]⟩
  | .ok locators => v.answered listing (c.fetch t locators)

/-- Asks with a filter that is written as a text. If the text is no filter, nothing is requested. -/
def Client.queryText (c : Client) (t : Transport) (job filter : String) (format : Report.Format)
    (ink : Report.Ink) : Answered :=
  match Filter.parse filter with
  | .error e => ⟨.error (.query e), []⟩
  | .ok filter => c.query t job ⟨filter, format, ink⟩

end BuildQuery.Remote
