import BuildQuery.Proofs.Addresses
import BuildQuery.Settings.Basic

/-!
# BuildQuery — addresses of jobs

The address of a job is the address of its host and a path with two segments for each folder, the word `job`
and the name of the folder. No name of a folder has a slash, so the path falls apart at the slashes into
the words and the names, and the names are every other segment of it, also where a folder is called `job`.
So jobs have the same address just when they are in the same folders, which are the parts of their names
between slashes that are not empty (`folders`). The address of a host is that of each text that differs
from it in the slashes at the end only.

Main results:

* `path_injective` — a path tells its folders.
* `jobAddress_eq_iff` — which jobs have the same address.
* `hostAddress_eq_iff` — which texts have the same address of a host.
* `address_of_folders` — what the address of a job depends on.
-/

namespace BuildQuery.Remote

open Text

-- ---------------------------------------------------------------------------
-- Folders
-- ---------------------------------------------------------------------------

/-- The folders of a job: the parts of its name between slashes that are not empty. -/
def folders (job : String) : List (List Char) :=
  (job.toList.splitOn '/').filter fun part => part ≠ []

/-- The path of folders. -/
def path (fs : List (List Char)) : List Char :=
  fs.flatMap fun folder => "job/".toList ++ folder ++ ['/']

/-- The segments of the name of a job are its folders. -/
theorem segments_eq_folders (job : String) : segments '/' job = (folders job).map String.ofList := by
  have hEmpty : (fun part : List Char => !part.isEmpty) = fun part => decide (part ≠ []) := by
    funext part
    cases part <;> rfl
  rw [segments, folders, pieces_eq_splitOn, hEmpty]

/-- No folder has a slash in its name. -/
theorem slash_not_mem_folder {job : String} {folder : List Char} (h : folder ∈ folders job) :
    '/' ∉ folder := by
  have hPart := (List.mem_filter.mp h).1
  rw [← pieces_eq_splitOn] at hPart
  exact mark_not_mem_piece hPart

/-- The address of a job is that of its host and the path of its folders. -/
theorem toList_jobAddress (host job : String) :
    (jobAddress host job).toList = (hostAddress host).toList ++ path (folders job) := by
  rw [jobAddress, String.toList_append, segments_eq_folders, List.map_map]
  congr 1
  induction folders job with
  | nil => rfl
  | cons folder fs ih =>
    rw [List.map_cons, String.join_cons, String.toList_append, ih]
    simp [path]

-- ---------------------------------------------------------------------------
-- Paths
-- ---------------------------------------------------------------------------

/-- At its slashes a path falls apart into the word and the name of each folder. -/
theorem pieces_path {fs : List (List Char)} (h : ∀ folder ∈ fs, '/' ∉ folder) :
    pieces '/' (path fs) = (fs.flatMap fun folder => ["job".toList, folder]) ++ [[]] := by
  have hWord : '/' ∉ "job".toList := by decide
  induction fs with
  | nil => rfl
  | cons folder fs ih =>
    obtain ⟨hFolder, hRest⟩ := List.forall_mem_cons.mp h
    have hChars : path (folder :: fs) = "job".toList ++ '/' :: (folder ++ '/' :: path fs) := by
      simp [path]
    rw [hChars, pieces_append_mark hWord, pieces_append_mark hFolder, ih hRest]
    rfl

/-- **A path tells its folders.** -/
theorem path_injective {fs gs : List (List Char)} (hfs : ∀ folder ∈ fs, '/' ∉ folder)
    (hgs : ∀ folder ∈ gs, '/' ∉ folder) (h : path fs = path gs) : fs = gs := by
  -- the paths are not compared by their ends, since a folder may be called like the word in front of it
  have hPieces := congrArg (pieces '/') h
  rw [pieces_path hfs, pieces_path hgs, List.append_left_inj] at hPieces
  clear hfs hgs h
  induction fs generalizing gs with
  | nil =>
    cases gs with
    | nil => rfl
    | cons other gs => cases hPieces
  | cons folder fs ih =>
    cases gs with
    | nil => cases hPieces
    | cons other gs =>
      simp only [List.flatMap_cons, List.cons_append, List.nil_append, List.cons.injEq, true_and]
        at hPieces
      obtain ⟨rfl, hRest⟩ := hPieces
      rw [ih hRest]

/-- **Which jobs have the same address.** -/
theorem jobAddress_eq_iff (host a b : String) :
    jobAddress host a = jobAddress host b ↔ folders a = folders b := by
  rw [← String.toList_inj, toList_jobAddress, toList_jobAddress, List.append_right_inj]
  constructor
  · exact path_injective (fun _ => slash_not_mem_folder) fun _ => slash_not_mem_folder
  · intro h
    rw [h]

-- ---------------------------------------------------------------------------
-- Hosts
-- ---------------------------------------------------------------------------

/-- So many slashes. -/
def slashes (n : Nat) : String :=
  String.ofList (List.replicate n '/')

/-- Only the slashes at the end are cut off. -/
theorem toList_trimSlashes (host : String) :
    (trimSlashes host).toList = host.toList.rdropWhile (· == '/') := by
  rw [trimSlashes, String.toList_ofList, trimEndWhile_eq_rdropWhile]

/-- It does not matter how many slashes stand at the end. -/
theorem trimSlashes_append (base : String) (n : Nat) :
    trimSlashes (base ++ slashes n) = trimSlashes base := by
  rw [← String.toList_inj, toList_trimSlashes, toList_trimSlashes, String.toList_append, slashes,
    String.toList_ofList]
  induction n with
  | zero => rw [List.replicate_zero, List.append_nil]
  | succ n ih =>
    rw [List.replicate_succ', ← List.append_assoc, List.rdropWhile_concat_pos _ _ _ (by rfl), ih]

/-- What is cut off are slashes. -/
theorem exists_slashes (host : String) : ∃ n, host = trimSlashes host ++ slashes n := by
  have hSlashes : host.toList.rtakeWhile (· == '/') =
      List.replicate (host.toList.rtakeWhile (· == '/')).length '/' :=
    List.eq_replicate_of_mem fun c hc => beq_iff_eq.mp (List.mem_rtakeWhile_imp (p := (· == '/')) hc)
  refine ⟨(host.toList.rtakeWhile (· == '/')).length, ?_⟩
  rw [← String.toList_inj, String.toList_append, toList_trimSlashes, slashes, String.toList_ofList,
    ← hSlashes, List.rdropWhile_append_rtakeWhile]

/-- **Which texts have the same address of a host:** those that differ in the slashes at their ends. -/
theorem hostAddress_eq_iff (host other : String) : hostAddress host = hostAddress other ↔
    ∃ base n m, host = base ++ slashes n ∧ other = base ++ slashes m := by
  rw [hostAddress, hostAddress, String.append_left_inj]
  constructor
  · intro h
    -- each text is what is left of it and some slashes
    obtain ⟨n, hHost⟩ := exists_slashes host
    obtain ⟨m, hOther⟩ := exists_slashes other
    exact ⟨trimSlashes host, n, m, hHost, by rw [h]; exact hOther⟩
  · rintro ⟨base, n, m, rfl, rfl⟩
    rw [trimSlashes_append, trimSlashes_append]

/-- The address of the host in the settings is an address already. -/
theorem map_hostAddress_host (s : Settings) : s.host.map hostAddress = s.host := by
  unfold Settings.host
  -- there may be no host, or a blank one, and then there is no address to make again
  split
  · split
    · rfl
    · exact congrArg Except.ok (hostAddress_hostAddress _)
  · rfl

/-- **What the address of a job depends on.** On the folders of the job, and no two lists of folders share
an address; on the text of the host, but for the slashes at its end. The address of a host is not changed
by being made again, and so neither is the address that the settings give. -/
theorem address_of_folders (host a b : String) :
    (jobAddress host a = jobAddress host b ↔ folders a = folders b) ∧
      (∀ other, jobAddress host a = jobAddress other a ↔
        ∃ base n m, host = base ++ slashes n ∧ other = base ++ slashes m) ∧
      hostAddress (hostAddress host) = hostAddress host ∧
      ∀ s : Settings, s.host.map hostAddress = s.host := by
  refine ⟨jobAddress_eq_iff host a b, fun other => ?_, hostAddress_hostAddress host,
    map_hostAddress_host⟩
  rw [← hostAddress_eq_iff, jobAddress, jobAddress, String.append_left_inj]

/-- A folder that is called `job`, and slashes that make no folder. -/
example : jobAddress "http://ci//" "/job//x/" = "http://ci/job/job/job/x/" := by
  decide +kernel

end BuildQuery.Remote
