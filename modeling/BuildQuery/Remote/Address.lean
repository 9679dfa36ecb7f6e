import BuildQuery.Text.Blank
import BuildQuery.Text.Search

/-!
# BuildQuery — addresses on a host

A host is addressed with one slash at the end. The name of a job is a path of folders: each of its
segments adds `job/segment/` to the address, and slashes that stand at the ends or side by side make
no segment. What the server knows about a job or a build is at `api/json` below its address.
-/

namespace BuildQuery.Remote

open Text

/-- The text without the slashes at its end. -/
def trimSlashes (s : String) : String :=
  String.ofList (trimEndWhile (· == '/') s.toList)

/-- The address of a host. -/
def hostAddress (host : String) : String :=
  trimSlashes host ++ "/"

/-- The address of a job. -/
def jobAddress (host job : String) : String :=
  hostAddress host ++ String.join ((segments '/' job).map fun segment => "job/" ++ segment ++ "/")

/-- Where the builds of a job are listed. -/
def listingAddress (host job : String) : String :=
  jobAddress host job ++ "api/json"

/-- Where a build is described, given its address. -/
def buildLocator (address : String) : String :=
  trimSlashes address ++ "/api/json"

end BuildQuery.Remote
