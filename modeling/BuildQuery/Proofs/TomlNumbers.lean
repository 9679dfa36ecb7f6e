import BuildQuery.Proofs.StoredSettings

/-!
# BuildQuery — numbers that are read from a settings file

An integer of a settings file has 64 bits, so it can be written again. Lines that come later only add
keys to the table of the file, or put tables in the place of tables; no number of the table is ever
changed.

Main results:

* `fits_of_read` — all numbers of the table of a file fit.
* `inRange_of_storedIn` — settings that were loaded can be saved.
-/

namespace BuildQuery.Toml

-- ---------------------------------------------------------------------------
-- Values
-- ---------------------------------------------------------------------------

/-- A number that a settings file can hold, or something that is no number. -/
def Item.Fits : Item → Prop
  | .integer n => n ≤ Int64.maxValue.toInt
  | _ => True

/-- A number is made of a value only if 64 bits hold it. -/
theorem fits_of_word? {value : Int} {item : Item} (h : word? value = some item) : item.Fits := by
  unfold word? at h
  split at h
  · next hRange =>
    cases h
    exact hRange.2
  · cases h

/-- An integer fits in each of its bases. -/
theorem fits_of_integer? {cs : List Char} {item : Item} (h : integer? cs = some item) :
    item.Fits := by
  unfold integer? at h
  split at h <;>
    · obtain ⟨_, -, hWord⟩ := Option.bind_eq_some_iff.mp h
      exact fits_of_word? hWord

/-- A fraction is no integer. -/
theorem fits_of_decimalFraction? {cs : List Char} {item : Item}
    (h : decimalFraction? cs = some item) : item.Fits := by
  simp only [decimalFraction?, Option.bind_eq_bind, Option.bind_eq_some_iff] at h
  obtain ⟨_, -, hPart⟩ := h
  -- the part behind the point and the exponent may each be missing
  split at hPart
  all_goals
    obtain ⟨_, -, hPower⟩ := Option.bind_eq_some_iff.mp hPart
    split at hPower
    all_goals
      obtain ⟨_, -, hSpelling⟩ := Option.bind_eq_some_iff.mp hPower
      split_ifs at hSpelling
      cases hSpelling
      trivial

/-- A fraction is kept as it is written. -/
theorem fits_of_fraction? {cs : List Char} {item : Item} (h : fraction? cs = some item) :
    item.Fits := by
  simp only [fraction?] at h
  split at h
  · cases h
    trivial
  · exact fits_of_decimalFraction? h

/-- A bare value is a word, a moment, a fraction, or an integer that fits. -/
theorem fits_of_bare? {cs : List Char} {item : Item} (h : bare? cs = some item) : item.Fits := by
  unfold bare? at h
  -- the two truth values and the moments come first, then integers, then fractions
  split at h
  · cases h
    trivial
  · split at h
    · cases h
      trivial
    · split at h
      · cases h
        trivial
      · rcases Option.or_eq_some_iff.mp h with hInteger | ⟨-, hFraction⟩
        · exact fits_of_integer? hInteger
        · exact fits_of_fraction? hFraction

/-- A value that is read is a text, a list, a table between braces, or a bare value. -/
theorem fits_of_value? {fuel levels : Nat} {cs rest : List Char} {item : Item}
    (h : value? fuel levels cs = some (item, rest)) : item.Fits := by
  cases fuel with
  | zero =>
    rw [value?] at h
    cases h
  | succ fuel =>
    unfold value? at h
    -- on the character that opens the value; only the last branch can give a number
    split at h
    · obtain ⟨_, -, hItem⟩ := Option.map_eq_some_iff.mp h
      cases hItem
      trivial
    · obtain ⟨_, -, hItem⟩ := Option.map_eq_some_iff.mp h
      cases hItem
      trivial
    · obtain ⟨_, -, hItem⟩ := Option.map_eq_some_iff.mp h
      cases hItem
      trivial
    · split at h
      · cases h
        trivial
      · obtain ⟨_, -, hItem⟩ := Option.map_eq_some_iff.mp h
        cases hItem
        trivial
    · obtain ⟨found, hBare, hItem⟩ := Option.map_eq_some_iff.mp h
      cases hItem
      exact fits_of_bare? hBare

-- ---------------------------------------------------------------------------
-- Tables
-- ---------------------------------------------------------------------------

/-- All numbers that keys of the table itself stand for fit. -/
def Table.Fits (t : Table) : Prop :=
  ∀ entry ∈ t, entry.2.Fits

namespace Table

/-- A table without keys has no numbers. -/
theorem fits_nil : Fits [] := nofun

/-- A key may be added if what it stands for fits. -/
theorem Fits.concat {t : Table} (h : t.Fits) {key : String} {item : Item} (hItem : item.Fits) :
    Fits (t ++ [(key, item)]) :=
  List.forall_mem_append.mpr ⟨h, List.forall_mem_singleton.mpr hItem⟩

/-- A value may be put in the place of another if it fits. -/
theorem Fits.replace {t : Table} (h : t.Fits) {key : String} {item : Item} (hItem : item.Fits) :
    (t.replace key item).Fits := by
  induction t with
  | nil => exact fits_nil
  | cons entry t ih =>
    obtain ⟨hEntry, hRest⟩ := List.forall_mem_cons.mp h
    rw [Table.replace]
    -- the key of the first entry is the one that is looked for, or it stands further on
    split
    · exact List.forall_mem_cons.mpr ⟨hItem, hRest⟩
    · exact List.forall_mem_cons.mpr ⟨hEntry, ih hRest⟩

/-- A change behind a name puts a table in the place of a table, and leaves the other keys. -/
theorem Fits.changeAt {made : TableKind} {entered : TableKind → Bool}
    {change : TableKind → Table → Option Table} {path : List String} {kind : TableKind}
    {t changed : Table} (h : t.Fits)
    (hChange : ∀ kind later, change kind t = some later → later.Fits)
    (hChanged : changeAt made entered change path kind t = some changed) : changed.Fits := by
  cases path with
  | nil =>
    -- only here does the table itself get another value
    exact hChange kind changed hChanged
  | cons key path =>
    -- the change happens behind the first name: in a new table, in one that is there, or in the last of a
    -- list
    unfold Table.changeAt at hChanged
    split at hChanged
    · obtain ⟨_, -, hMade⟩ := Option.bind_eq_some_iff.mp hChanged
      cases hMade
      exact h.concat trivial
    · split at hChanged
      · obtain ⟨_, -, hMade⟩ := Option.bind_eq_some_iff.mp hChanged
        cases hMade
        exact h.replace trivial
      · cases hChanged
    · simp only [Option.bind_eq_bind, Option.bind_eq_some_iff] at hChanged
      obtain ⟨_, -, _, -, hMade⟩ := hChanged
      cases hMade
      exact h.replace trivial
    · cases hChanged

/-- A key with dots that is given a value keeps all numbers fitting if the value fits. -/
theorem Fits.assignDotted {t changed : Table} (h : t.Fits) {names : List String} {key : String}
    {item : Item} (hItem : item.Fits) (hChanged : assignDotted names key item t = some changed) :
    changed.Fits := by
  refine h.changeAt ?_ hChanged
  intro kind later hPut
  split at hPut
  · cases hPut
    exact h.concat hItem
  · cases hPut

/-- A line with a key keeps all numbers fitting if its value fits. -/
theorem Fits.assign {t changed : Table} (h : t.Fits) {path names : List String} {key : String}
    {item : Item} (hItem : item.Fits) (hChanged : assign path names key item t = some changed) :
    changed.Fits :=
  h.changeAt (fun _ _ hPut => h.assignDotted hItem hPut) hChanged

/-- A header in brackets opens a table and puts no number anywhere. -/
theorem Fits.declare {t changed : Table} (h : t.Fits) {path : List String} {key : String}
    (hChanged : declare path key t = some changed) : changed.Fits := by
  refine h.changeAt ?_ hChanged
  intro kind later hOpened
  dsimp only at hOpened
  split at hOpened
  · cases hOpened
    exact h.concat trivial
  · cases hOpened
    exact h.replace trivial
  · cases hOpened

/-- A header in double brackets adds a table to a list and puts no number anywhere. -/
theorem Fits.extend {t changed : Table} (h : t.Fits) {path : List String} {key : String}
    (hChanged : extend path key t = some changed) : changed.Fits := by
  refine h.changeAt ?_ hChanged
  intro kind later hExtended
  dsimp only at hExtended
  split at hExtended
  · cases hExtended
    exact h.concat trivial
  · cases hExtended
    exact h.replace trivial
  · cases hExtended

end Table

-- ---------------------------------------------------------------------------
-- Files
-- ---------------------------------------------------------------------------

/-- After a line with a key all numbers fit. -/
theorem fits_of_keyLine? {fuel : Nat} {p later : Progress} {cs rest : List Char} (h : p.root.Fits)
    (hLine : keyLine? fuel p cs = some (later, rest)) : later.root.Fits := by
  simp only [keyLine?, Option.bind_eq_bind, Option.bind_eq_some_iff] at hLine
  obtain ⟨_, -, _, -, ⟨item, _⟩, hValue, root, hAssign, _, -, hLater⟩ := hLine
  cases hLater
  exact h.assign (fits_of_value? hValue) hAssign

/-- After a header all numbers fit. -/
theorem fits_of_headerLine? {p later : Progress} {cs rest : List Char} (h : p.root.Fits)
    (hLine : headerLine? p cs = some (later, rest)) : later.root.Fits := by
  simp only [headerLine?, Option.bind_eq_bind, Option.bind_eq_some_iff] at hLine
  obtain ⟨_, -, root, hDeclare, _, -, _, -, hLater⟩ := hLine
  cases hLater
  exact h.declare hDeclare

/-- After a header of a list all numbers fit. -/
theorem fits_of_listHeaderLine? {p later : Progress} {cs rest : List Char} (h : p.root.Fits)
    (hLine : listHeaderLine? p cs = some (later, rest)) : later.root.Fits := by
  simp only [listHeaderLine?, Option.bind_eq_bind, Option.bind_eq_some_iff] at hLine
  obtain ⟨_, -, root, hExtend, _, -, _, -, _, -, hLater⟩ := hLine
  cases hLater
  exact h.extend hExtend

/-- One line, of whatever kind, keeps all numbers fitting. -/
theorem fits_of_line? {fuel : Nat} {p later : Progress} {cs rest : List Char} (h : p.root.Fits)
    (hLine : line? fuel p cs = some (later, rest)) : later.root.Fits := by
  unfold line? at hLine
  split at hLine
  · exact fits_of_listHeaderLine? h hLine
  · exact fits_of_headerLine? h hLine
  · split at hLine
    · cases hLine
      exact h
    · exact fits_of_keyLine? h hLine

/-- All lines of a file keep all numbers fitting. -/
theorem fits_of_lines? {fuel : Nat} {p : Progress} {cs : List Char} {t : Table} (h : p.root.Fits)
    (hLines : lines? fuel p cs = some t) : t.Fits := by
  -- on the lines that may still be read, for any progress: the invariant is that all numbers of the table
  -- fit
  induction fuel generalizing p cs with
  | zero =>
    rw [lines?] at hLines
    cases hLines
  | succ fuel ih =>
    unfold lines? at hLines
    split at hLines
    · cases hLines
      exact h
    · obtain ⟨_, hLine, hRest⟩ := Option.bind_eq_some_iff.mp hLines
      exact ih (fits_of_line? h hLine) hRest

/-- **All numbers of the table of a file fit.** -/
theorem fits_of_read {s : String} {t : Table} (h : read s = some t) : t.Fits :=
  fits_of_lines? Table.fits_nil h

end BuildQuery.Toml

namespace BuildQuery.Settings

-- ---------------------------------------------------------------------------
-- Loaded settings
-- ---------------------------------------------------------------------------

/-- A number of the settings fits, whether it is found in the table or stands for a missing one. -/
theorem le_of_numberAt? {t : Toml.Table} (h : t.Fits) {key : String} {found : Option Nat}
    (hFound : numberAt? t key = some found) {n : Nat} (hn : (n : Int) ≤ Int64.maxValue.toInt) :
    (found.getD n : Int) ≤ Int64.maxValue.toInt := by
  unfold numberAt? at hFound
  split at hFound
  · cases hFound
    exact hn
  · next value hLookup =>
    -- what is found under the key is an entry of the table
    have hFits : value ≤ Int64.maxValue.toInt := by
      obtain ⟨front, back, hTable, -⟩ := List.lookup_eq_some_iff.mp hLookup
      exact h (key, .integer value) (hTable ▸ by simp)
    split at hFound
    · next hNatural =>
      cases hFound
      exact (Int.toNat_of_nonneg hNatural).trans_le hFits
    · cases hFound
  · cases hFound

/-- The numbers of settings without a file can be saved. -/
theorem inRange_initial (env : Environment) (root : String) : (initial env root).InRange :=
  ⟨(by decide : (8 : Int) ≤ _), (by decide : (32 : Int) ≤ _), (by decide : (30 : Int) ≤ _)⟩

/-- **Settings that were loaded can be saved**, and belong to the root directory they were loaded from. -/
theorem inRange_of_storedIn {files : Files} {env : Environment} {root : String} {s : Settings}
    (h : storedIn files env root = .ok s) : s.InRange ∧ s.root = root := by
  -- a file is there or not; without one the initial settings are loaded
  unfold storedIn at h
  split at h
  · simp only [bind_eq_ok] at h
    obtain ⟨content, -, text, -, hText⟩ := h
    cases hSettings : ofText? env root text with
    | none =>
      rw [hSettings] at hText
      cases hText
    | some found =>
      rw [hSettings] at hText
      cases hText
      simp only [ofText?, ofTable?, Option.bind_eq_bind, Option.bind_eq_some_iff] at hSettings
      obtain ⟨t, hRead, _, -, _, -, _, -, _, hWorkers, _, hCapacity, _, hTimeout, hFields⟩ := hSettings
      cases hFields
      -- all three numbers come from the table, where they fit, or stand for missing ones
      have hFits := Toml.fits_of_read hRead
      obtain ⟨hFirstWorkers, hFirstCapacity, hFirstTimeout⟩ := inRange_initial env root
      exact ⟨⟨le_of_numberAt? hFits hWorkers hFirstWorkers,
        le_of_numberAt? hFits hCapacity hFirstCapacity,
        le_of_numberAt? hFits hTimeout hFirstTimeout⟩, rfl⟩
  · cases h
    exact ⟨inRange_initial env root, rfl⟩

end BuildQuery.Settings
