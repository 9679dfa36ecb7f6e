import BuildQuery.Proofs.Tokens
import BuildQuery.Files.Basic
import Mathlib.Data.List.Infix

/-!
# BuildQuery — what changes of files keep

A path that leads to a place still leads there when there are more directories than before, so a file
that was written is found where it was written. Making directories changes no file: a new directory
stands at a place where nothing was, in a directory, and so behind no file (`Keeps`).

Main results:

* `read_write` — a file that was written is there, and its content is what was written.
* `makeDirectories_keeps`, `Keeps.read` — making directories, also when it fails, leaves every file
  as it was, and every path that leads to one.
* `put_put`, `makeDirectories_again` — writing a file once more replaces it where it stands, and making
  directories once more changes nothing.
-/

namespace BuildQuery.Files

-- ---------------------------------------------------------------------------
-- Directories
-- ---------------------------------------------------------------------------

/-- The places that are listed. -/
def places (files : Files) : List Place :=
  files.nodes.map Prod.fst

/-- A directory is the ground, a place listed as one, or a place in front of a listed one. -/
theorem isDirectory_iff {files : Files} {place : Place} :
    files.isDirectory place = true ↔ Place.isGround place = true ∨
      files.node? place = some .directory ∨ ∃ other ∈ files.places, place <+: other ∧ place ≠ other := by
  simp [isDirectory, places, or_assoc]

/-- A place where something stands is listed. -/
theorem mem_places_of_node? {files : Files} {place : Place} {node : Node}
    (h : files.node? place = some node) : place ∈ files.places := by
  obtain ⟨front, back, hNodes, -⟩ := List.lookup_eq_some_iff.mp h
  rw [places, hNodes]
  simp

/-- What stands in front of a directory is a directory. -/
theorem isDirectory_of_prefix {files : Files} {place other : Place} (h : place <+: other)
    (hOther : files.isDirectory other = true) : files.isDirectory place = true := by
  by_cases hSame : place = other
  · rw [hSame]
    exact hOther
  rw [isDirectory_iff] at hOther ⊢
  -- the ground has only ground in front of it, and a listed place has it in front of all that is listed
  -- behind
  rcases hOther with hGround | hNode | ⟨listed, hListed, hPrefix, hProper⟩
  · left
    rw [Place.isGround, List.all_eq_true] at hGround ⊢
    exact fun name hName => hGround name (h.mem hName)
  · exact .inr (.inr ⟨other, mem_places_of_node? hNode, h, hSame⟩)
  · refine .inr (.inr ⟨listed, hListed, h.trans hPrefix, ?_⟩)
    rintro rfl
    exact hSame (h.eq_of_length_le hPrefix.length_le)

/-- The directory where a path starts is one. -/
theorem isDirectory_start (files : Files) (path : Path) :
    files.isDirectory (Place.start path) = true := by
  refine isDirectory_iff.mpr (.inl ?_)
  unfold Place.start
  split <;> rfl

/-- The directory above a directory is one, also above the ground. -/
theorem isDirectory_up {files : Files} {place : Place} (h : files.isDirectory place = true) :
    files.isDirectory (Place.up place) = true := by
  unfold Place.up
  split
  · exact isDirectory_iff.mpr (.inl rfl)
  · split
    · next hGround =>
      refine isDirectory_iff.mpr (.inl ?_)
      rw [Place.isGround, List.all_append]
      exact (Bool.and_true _).trans hGround
    · exact isDirectory_of_prefix (List.dropLast_prefix place) h

-- ---------------------------------------------------------------------------
-- Where paths lead
-- ---------------------------------------------------------------------------

/-- Only directories are entered. -/
theorem enter_ok_iff {files : Files} {place found : Place} :
    files.enter place = .ok found ↔ files.isDirectory place = true ∧ place = found := by
  unfold enter
  split
  · next h => exact ⟨fun hFound => ⟨h, Except.ok.inj hFound⟩, fun hFound => congrArg _ hFound.2⟩
  · next h =>
    split <;> exact ⟨nofun, fun hFound => absurd hFound.1 h⟩

/-- A path of several names leads through a directory for each name but the last. -/
theorem follow_cons_ok_iff {files : Files} {place found : Place} {name next : String}
    {rest : List String} : files.follow place (name :: next :: rest) = .ok found ↔
      ∃ entered, child place name = .ok entered ∧ files.isDirectory entered = true ∧
        files.follow entered (next :: rest) = .ok found := by
  show (child place name >>= fun a => files.enter a >>= fun b => files.follow b (next :: rest)) = _ ↔ _
  simp only [bind_eq_ok, enter_ok_iff]
  constructor
  · rintro ⟨entered, hChild, _, ⟨hDirectory, rfl⟩, hFound⟩
    exact ⟨entered, hChild, hDirectory, hFound⟩
  · rintro ⟨entered, hChild, hDirectory, hFound⟩
    exact ⟨entered, hChild, entered, ⟨hDirectory, rfl⟩, hFound⟩

/-- A path leads to a place if it is not too long and its names do, and if it ends at a dot the place is a
directory. -/
theorem locate_ok_iff {files : Files} {path : Path} {place : Place} :
    files.locate path = .ok place ↔ path.size ≤ pathLimit ∧
      files.follow (Place.start path) path.names = .ok place ∧
      (path.endsAtDot = true → files.isDirectory place = true) := by
  unfold locate
  split
  · next hLong => exact ⟨nofun, fun h => absurd h.1 (Nat.not_le.mpr hLong)⟩
  · next hShort =>
    rw [bind_eq_ok]
    constructor
    · rintro ⟨found, hFollow, hDot⟩
      -- at the end only a dot asks for a directory
      split at hDot
      · obtain ⟨hDirectory, rfl⟩ := enter_ok_iff.mp hDot
        exact ⟨Nat.not_lt.mp hShort, hFollow, fun _ => hDirectory⟩
      · next hName =>
        cases hDot
        exact ⟨Nat.not_lt.mp hShort, hFollow, fun hDot => absurd hDot hName⟩
    · rintro ⟨-, hFollow, hDot⟩
      refine ⟨place, hFollow, ?_⟩
      split
      · next hEnds => exact enter_ok_iff.mpr ⟨hDot hEnds, rfl⟩
      · rfl

/-- All directories of some files are directories of others. -/
def Reaches (files later : Files) : Prop :=
  ∀ place, files.isDirectory place = true → later.isDirectory place = true

/-- Names still lead to the same place: only the directories on the way matter. -/
theorem Reaches.follow {files later : Files} (h : files.Reaches later) {place found : Place}
    {names : List String} (hFollow : files.follow place names = .ok found) :
    later.follow place names = .ok found := by
  induction names generalizing place with
  | nil => exact hFollow
  | cons name rest ih =>
    cases rest with
    | nil => exact hFollow
    | cons next rest =>
      obtain ⟨entered, hChild, hDirectory, hRest⟩ := follow_cons_ok_iff.mp hFollow
      exact follow_cons_ok_iff.mpr ⟨entered, hChild, h entered hDirectory, ih hRest⟩

/-- A path still leads to the same place. -/
theorem Reaches.locate {files later : Files} (h : files.Reaches later) {path : Path} {place : Place}
    (hPlace : files.locate path = .ok place) : later.locate path = .ok place := by
  obtain ⟨hSize, hFollow, hDot⟩ := locate_ok_iff.mp hPlace
  exact locate_ok_iff.mpr ⟨hSize, h.follow hFollow, fun hEnds => h place (hDot hEnds)⟩

/-- All places on the way to where names lead are directories. -/
theorem follow_above {files : Files} {place found : Place} {names : List String}
    (hPlace : files.isDirectory place = true) (hFollow : files.follow place names = .ok found)
    {above : Place} (hAbove : above <+: found) (hProper : above ≠ found) :
    files.isDirectory above = true := by
  induction names generalizing place with
  | nil =>
    cases hFollow
    exact isDirectory_of_prefix hAbove hPlace
  | cons name rest ih =>
    cases rest with
    | nil =>
      change child place name = .ok found at hFollow
      -- the last name goes up or leads to a child; what stands in front of either stands in front of a
      -- directory
      unfold child at hFollow
      split at hFollow
      · cases hFollow
        exact isDirectory_of_prefix hAbove (isDirectory_up hPlace)
      · split at hFollow
        · cases hFollow
        · cases hFollow
          rcases List.prefix_concat_iff.mp hAbove with hSame | hPrefix
          · exact absurd hSame hProper
          · exact isDirectory_of_prefix hPrefix hPlace
    | cons next rest =>
      obtain ⟨entered, -, hDirectory, hRest⟩ := follow_cons_ok_iff.mp hFollow
      exact ih hDirectory hRest

/-- All places on the way to the place of a path are directories. -/
theorem locate_above {files : Files} {path : Path} {place above : Place}
    (hPlace : files.locate path = .ok place) (hAbove : above <+: place) (hProper : above ≠ place) :
    files.isDirectory above = true := by
  obtain ⟨-, hFollow, -⟩ := locate_ok_iff.mp hPlace
  exact follow_above (files.isDirectory_start path) hFollow hAbove hProper

/-- A file is read where its path leads, unless that is a directory. -/
theorem read_ok_iff {files : Files} {path : Path} {content : List UInt8} :
    files.read path = .ok content ↔ ∃ place, files.locate path = .ok place ∧
      files.isDirectory place = false ∧ files.content? place = some content := by
  unfold read
  rw [bind_eq_ok]
  refine exists_congr fun place => and_congr_right fun _ => ?_
  split
  · next h => simp [h]
  · next h => cases files.content? place <;> simp [h]

-- ---------------------------------------------------------------------------
-- Writing a file
-- ---------------------------------------------------------------------------

/-- A file that is put stands at its place. -/
theorem lookup_put_self (place : Place) (content : List UInt8) (nodes : List (Place × Node)) :
    (put place content nodes).lookup place = some (.file content) := by
  induction nodes with
  | nil => simp [put]
  | cons entry nodes ih =>
    obtain ⟨other, node⟩ := entry
    rw [put]
    split
    · simp
    · next h => rw [List.lookup_cons, beq_false_of_ne (Ne.symm h), ih]

/-- A file that is put changes no other place. -/
theorem lookup_put_of_ne {place other : Place} (h : other ≠ place) (content : List UInt8)
    (nodes : List (Place × Node)) : (put place content nodes).lookup other = nodes.lookup other := by
  induction nodes with
  | nil => simp [put, h]
  | cons entry nodes ih =>
    obtain ⟨found, node⟩ := entry
    rw [put]
    split
    · next hFound =>
      rw [hFound, List.lookup_cons, List.lookup_cons, beq_false_of_ne h]
    · rw [List.lookup_cons, List.lookup_cons, ih]

/-- Putting a file lists its place and keeps the others listed. -/
theorem mem_put_iff {place other : Place} {content : List UInt8} {nodes : List (Place × Node)} :
    other ∈ (put place content nodes).map Prod.fst ↔ other = place ∨ other ∈ nodes.map Prod.fst := by
  induction nodes with
  | nil => simp [put]
  | cons entry nodes ih =>
    obtain ⟨found, node⟩ := entry
    rw [put]
    split
    · next hFound => simp [hFound]
    · rw [List.map_cons, List.mem_cons, ih, List.map_cons, List.mem_cons]
      exact or_left_comm

/-- The file that is written last is the one that stands there, in the place of the first in the list. -/
theorem put_put (place : Place) (content later : List UInt8) (nodes : List (Place × Node)) :
    put place later (put place content nodes) = put place later nodes := by
  induction nodes with
  | nil => simp [put]
  | cons entry nodes ih =>
    obtain ⟨other, node⟩ := entry
    by_cases h : other = place
    · simp [put, h]
    · simp only [put, if_neg h, ih]

/-- A file is written where its path leads, unless that is a directory. -/
theorem write_ok_iff {files later : Files} {path : Path} {content : List UInt8} :
    files.write path content = .ok later ↔ ∃ place, files.locate path = .ok place ∧
      files.isDirectory place = false ∧ later = ⟨put place content files.nodes⟩ := by
  unfold write
  rw [bind_eq_ok]
  refine exists_congr fun place => and_congr_right fun _ => ?_
  split
  · next h => simp [h]
  · next h => simp [h, eq_comm]

/-- Whether a file can be written does not depend on its content. -/
theorem write_content {files later : Files} {path : Path} {content : List UInt8}
    (h : files.write path content = .ok later) (other : List UInt8) :
    ∃ later, files.write path other = .ok later := by
  obtain ⟨place, hPlace, hFree, -⟩ := write_ok_iff.mp h
  exact ⟨_, write_ok_iff.mpr ⟨place, hPlace, hFree, rfl⟩⟩

/-- Writing a file takes no directory away. -/
theorem reaches_put {files : Files} {place : Place} (hFree : files.isDirectory place = false)
    (content : List UInt8) : files.Reaches ⟨put place content files.nodes⟩ := by
  intro other hOther
  have hApart : other ≠ place := by
    rintro rfl
    exact Bool.false_ne_true (hFree.symm.trans hOther)
  rw [isDirectory_iff] at hOther ⊢
  -- a directory is one for the same reason as before: the place that was written is none
  rcases hOther with hGround | hNode | ⟨listed, hListed, hPrefix⟩
  · exact .inl hGround
  · exact .inr (.inl ((lookup_put_of_ne hApart content files.nodes).trans hNode))
  · exact .inr (.inr ⟨listed, mem_put_iff.mpr (.inr hListed), hPrefix⟩)

/-- A written file does not make its own place a directory. -/
theorem isDirectory_put {files : Files} {place : Place} (hFree : files.isDirectory place = false)
    (content : List UInt8) : isDirectory ⟨put place content files.nodes⟩ place = false := by
  rw [← Bool.not_eq_true, isDirectory_iff] at hFree ⊢
  -- what stands there is a file, and a place listed behind it was listed before
  rintro (hGround | hNode | ⟨listed, hListed, hPrefix, hProper⟩)
  · exact hFree (.inl hGround)
  · rw [node?, lookup_put_self] at hNode
    cases hNode
  · rcases mem_put_iff.mp hListed with hSelf | hOld
    · exact hProper hSelf.symm
    · exact hFree (.inr (.inr ⟨listed, hOld, hPrefix, hProper⟩))

/-- **A file that was written is there, and its content is what was written.** -/
theorem read_write {files later : Files} {path : Path} {content : List UInt8}
    (h : files.write path content = .ok later) :
    later.has path = true ∧ later.read path = .ok content := by
  obtain ⟨place, hPlace, hFree, rfl⟩ := write_ok_iff.mp h
  have hLocate := (reaches_put hFree content).locate hPlace
  have hContent : content? ⟨put place content files.nodes⟩ place = some content := by
    rw [content?, node?, lookup_put_self]
  constructor
  · unfold has
    rw [hLocate]
    simp only [isTaken, hContent, Option.isSome_some, Bool.true_or]
  · exact read_ok_iff.mpr ⟨place, hLocate, isDirectory_put hFree content, hContent⟩

-- ---------------------------------------------------------------------------
-- Making directories
-- ---------------------------------------------------------------------------

/-- The later files have the same files as the earlier ones, at the same places, and at least the
directories. -/
structure Keeps (files later : Files) : Prop where
  reaches : files.Reaches later
  content : ∀ place, later.content? place = files.content? place
  file : ∀ place, (files.content? place).isSome = true → files.isDirectory place = false →
    later.isDirectory place = false

/-- Unchanged files are kept. -/
theorem Keeps.refl (files : Files) : files.Keeps files :=
  ⟨fun _ h => h, fun _ => rfl, fun _ _ h => h⟩

/-- Files that are kept twice are kept. -/
theorem Keeps.trans {files later last : Files} (h : files.Keeps later) (hLast : later.Keeps last) :
    files.Keeps last := by
  refine ⟨fun place hPlace => hLast.reaches place (h.reaches place hPlace), ?_, ?_⟩
  · intro place
    rw [hLast.content, h.content]
  · intro place hFile hFree
    refine hLast.file place ?_ (h.file place hFile hFree)
    rw [h.content]
    exact hFile

/-- A file that can be read is read the same. -/
theorem Keeps.read {files later : Files} (h : files.Keeps later) {path : Path} {content : List UInt8}
    (hRead : files.read path = .ok content) : later.read path = .ok content := by
  obtain ⟨place, hPlace, hFree, hContent⟩ := read_ok_iff.mp hRead
  -- the path leads to the same place, which is still no directory and has the same content
  refine read_ok_iff.mpr ⟨place, h.reaches.locate hPlace, ?_, ?_⟩
  · exact h.file place (hContent ▸ rfl) hFree
  · rw [h.content]
    exact hContent

/-- A directory that is made stands at its own place only, and only if nothing stands there. -/
theorem node?_concat (files : Files) (place other : Place) :
    node? ⟨files.nodes ++ [(place, .directory)]⟩ other =
      (files.node? other).or (if other = place then some .directory else none) := by
  rw [node?, node?, List.lookup_append, List.lookup_cons]
  by_cases h : other = place
  · rw [if_pos h, h, BEq.rfl]
  · rw [if_neg h, beq_false_of_ne h]
    rfl

/-- Where neither a directory nor a file is, there is nothing. -/
theorem node?_eq_none {files : Files} {place : Place} (hFree : files.isDirectory place = false)
    (hEmpty : files.content? place = none) : files.node? place = none := by
  cases hNode : files.node? place with
  | none => rfl
  | some node =>
    cases node with
    | file content => simp [content?, hNode] at hEmpty
    | directory =>
      have hDirectory : files.isDirectory place = true := isDirectory_iff.mpr (.inr (.inl hNode))
      exact absurd (hFree.symm.trans hDirectory) Bool.false_ne_true

/-- A directory is made where nothing was, and in a directory. -/
theorem keeps_concat {files : Files} {path : Path} {place : Place}
    (hPlace : files.locate path = .ok place) (hFree : files.isDirectory place = false)
    (hEmpty : files.content? place = none) :
    files.Keeps ⟨files.nodes ++ [(place, .directory)]⟩ := by
  have hNone : files.node? place = none := node?_eq_none hFree hEmpty
  have hPlaces (other : Place) :
      other ∈ places ⟨files.nodes ++ [(place, .directory)]⟩ ↔ other ∈ files.places ∨ other = place := by
    simp [places]
  have hNode (other : Place) (hOther : other ≠ place) :
      node? ⟨files.nodes ++ [(place, .directory)]⟩ other = files.node? other := by
    rw [node?_concat, if_neg hOther, Option.or_none]
  -- the directories stay, then the contents, and last no file becomes a directory
  refine ⟨?_, ?_, ?_⟩
  · intro other hOther
    rw [isDirectory_iff] at hOther ⊢
    rcases hOther with hGround | hDirectory | ⟨listed, hListed, hPrefix⟩
    · exact .inl hGround
    · rw [node?_concat, hDirectory]
      exact .inr (.inl rfl)
    · exact .inr (.inr ⟨listed, (hPlaces listed).mpr (.inl hListed), hPrefix⟩)
  · intro other
    by_cases hOther : other = place
    · rw [hOther, content?, node?_concat, hNone, if_pos rfl, hEmpty]
      rfl
    · rw [content?, hNode other hOther, content?]
  · intro other hFile hNot
    have hApart : other ≠ place := by
      rintro rfl
      simp [hEmpty] at hFile
    rw [← Bool.not_eq_true] at hNot ⊢
    intro hOther
    rcases isDirectory_iff.mp hOther with hGround | hDirectory | ⟨listed, hListed, hPrefix, hProper⟩
    · exact hNot (isDirectory_iff.mpr (.inl hGround))
    · rw [hNode other hApart] at hDirectory
      exact hNot (isDirectory_iff.mpr (.inr (.inl hDirectory)))
    · rcases (hPlaces listed).mp hListed with hOld | rfl
      · exact hNot (isDirectory_iff.mpr (.inr (.inr ⟨listed, hOld, hPrefix, hProper⟩)))
      · -- the new directory stands behind `other`, which therefore was a directory before
        exact hNot (locate_above hPlace hPrefix hProper)

/-- Making one directory leaves every file as it was. -/
theorem makeDirectory_keeps {files later : Files} {path : Path}
    (h : files.makeDirectory path = .ok later) : files.Keeps later := by
  obtain ⟨place, hPlace, hMade⟩ := bind_eq_ok.mp h
  split at hMade
  · cases hMade
    exact Keeps.refl files
  · next hFree =>
    split at hMade
    · cases hMade
    · next hEmpty =>
      cases hMade
      exact keeps_concat hPlace (Bool.eq_false_iff.mpr hFree) (Option.not_isSome_iff_eq_none.mp hEmpty)

/-- Making the first of some directories that can be made leaves every file as it was. -/
theorem makeFirst_keeps (files : Files) (paths : List Path) :
    files.Keeps (files.makeFirst paths).files := by
  induction paths with
  | nil => exact Keeps.refl files
  | cons path above ih =>
    -- the first path is made at once, or after the ones above it, or not at all
    unfold makeFirst
    split
    · next later hMade => exact makeDirectory_keeps hMade
    · dsimp only
      split
      · exact ih
      · split
        · next later hMade => exact ih.trans (makeDirectory_keeps hMade)
        · exact ih
    · exact Keeps.refl files

/-- **Making directories, also when it fails, leaves every file as it was.** -/
theorem makeDirectories_keeps (files : Files) (path : Path) :
    files.Keeps (files.makeDirectories path).files :=
  makeFirst_keeps files path.lineage

/-- A directory that is there is not made again. -/
theorem makeDirectory_of_directory {files : Files} {path : Path} {place : Place}
    (hPlace : files.locate path = .ok place) (hDirectory : files.isDirectory place = true) :
    files.makeDirectory path = .ok files :=
  bind_eq_ok.mpr ⟨place, hPlace, if_pos hDirectory⟩

/-- A path leads to the directory that was made for it. -/
theorem directory_of_makeDirectory {files later : Files} {path : Path}
    (h : files.makeDirectory path = .ok later) :
    ∃ place, later.locate path = .ok place ∧ later.isDirectory place = true := by
  have hKeeps := makeDirectory_keeps h
  obtain ⟨place, hPlace, hMade⟩ := bind_eq_ok.mp h
  refine ⟨place, hKeeps.reaches.locate hPlace, ?_⟩
  split at hMade
  · next hDirectory => exact hKeeps.reaches place hDirectory
  · next hFree =>
    split at hMade
    · cases hMade
    · next hEmpty =>
      cases hMade
      have hNone := node?_eq_none (Bool.eq_false_iff.mpr hFree)
        (Option.not_isSome_iff_eq_none.mp hEmpty)
      refine isDirectory_iff.mpr (.inr (.inl ?_))
      rw [node?_concat, hNone, if_pos rfl, Option.none_or]

/-- The first of some directories is there when they were made. -/
theorem directory_of_makeFirst {files : Files} {path : Path} {above : List Path}
    (h : (files.makeFirst (path :: above)).failure = none) :
    ∃ place, (files.makeFirst (path :: above)).files.locate path = .ok place ∧
      (files.makeFirst (path :: above)).files.isDirectory place = true := by
  unfold makeFirst at h ⊢
  -- the first directory is made at once or once the ones above it are there; otherwise the failure is
  -- reported
  split at h
  · next hMade => exact directory_of_makeDirectory hMade
  · dsimp only at h ⊢
    split at h
    · cases h
    · split at h
      · next hMade => exact directory_of_makeDirectory hMade
      · cases h
  · cases h

/-- **Directories that were made once are made again without a change**, as long as they are there. -/
theorem makeDirectories_again {files later : Files} {path : Path}
    (h : (files.makeDirectories path).failure = none)
    (hLater : (files.makeDirectories path).files.Reaches later) :
    later.makeDirectories path = ⟨later, none⟩ := by
  unfold makeDirectories at h hLater ⊢
  cases hLineage : path.lineage with
  | nil => rfl
  | cons first above =>
    rw [hLineage] at h hLater
    obtain ⟨place, hPlace, hDirectory⟩ := directory_of_makeFirst h
    rw [makeFirst, makeDirectory_of_directory (hLater.locate hPlace) (hLater place hDirectory)]

end BuildQuery.Files
