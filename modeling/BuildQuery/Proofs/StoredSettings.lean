import BuildQuery.Proofs.Encoding
import BuildQuery.Proofs.FileChanges
import BuildQuery.Proofs.TomlLines
import BuildQuery.Settings.Store
import Mathlib.Algebra.Group.Nat.Defs

/-!
# BuildQuery — settings that were saved

The settings file has a line for each setting that is there, and the lines say the same settings again:
every text has a spelling, a number that fits is its digits, and a setting that is left out is one that
may be missing. Saving writes these lines where loading looks for them.

Numbers past the largest one have no line. Settings with such a number are refused after the directories
of the root were made, and no file has changed.

Main results:

* `ofText?_content` — the content of the settings file says the settings.
* `storedIn_save` — saved settings are loaded again, or refused without a change of any file.
-/

namespace BuildQuery.Settings

open Text

/-- All numbers are at most the largest signed one of 64 bits. -/
def InRange (s : Settings) : Prop :=
  (s.workers : Int) ≤ Int64.maxValue.toInt ∧ (s.channelCapacity : Int) ≤ Int64.maxValue.toInt ∧
    (s.timeoutSecs : Int) ≤ Int64.maxValue.toInt

instance (s : Settings) : Decidable s.InRange :=
  inferInstanceAs (Decidable (_ ∧ _ ∧ _))

-- ---------------------------------------------------------------------------
-- The lines of the settings file
-- ---------------------------------------------------------------------------

/-- The line of a text. -/
def textLine (key text : String) : Toml.Line :=
  ⟨key.toList, Toml.literalChars text.toList, .text text⟩

/-- The line of a number. -/
def numberLine (key : String) (n : Nat) : Toml.Line :=
  ⟨key.toList, Decimal.chars n, .integer n⟩

/-- The lines of the settings file. -/
def fileLines (s : Settings) : List Toml.Line :=
  (s.hostUrl.map (textLine "host_url")).toList ++ (s.defaultJob.map (textLine "default_job")).toList ++
    [textLine "username" s.username, numberLine "workers" s.workers,
      numberLine "channel_capacity" s.channelCapacity, numberLine "timeout_secs" s.timeoutSecs]

/-- The check before saving is the one for numbers of 64 bits with a sign. -/
theorem fits_iff {s : Settings} : s.fits = true ↔ s.InRange := by
  have hMax : (0 : Int) ≤ Int64.maxValue.toInt := by decide
  simp only [fits, largestNumber, InRange, Bool.and_eq_true, decide_eq_true_eq, Int.le_toNat hMax,
    and_assoc]

/-- The line of a text can be read, whatever the text is. -/
theorem sound_textLine {key : String} (hSome : key.toList ≠ [])
    (hName : key.toList.all Toml.isNameChar = true) (text : String) :
    (textLine key text).Sound := by
  have hSpells := Toml.spells_literal text.toList
  rw [String.ofList_toList] at hSpells
  exact ⟨hSome, List.all_eq_true.mp hName, hSpells⟩

/-- The line of a number that fits can be read. -/
theorem sound_numberLine {key : String} (hSome : key.toList ≠ [])
    (hName : key.toList.all Toml.isNameChar = true) {n : Nat}
    (hRange : (n : Int) ≤ Int64.maxValue.toInt) : (numberLine key n).Sound :=
  ⟨hSome, List.all_eq_true.mp hName, Toml.spells_number hRange⟩

/-- All lines of settings that fit can be read. -/
theorem sound_fileLines {s : Settings} (h : s.InRange) : ∀ l ∈ s.fileLines, l.Sound := by
  obtain ⟨hWorkers, hCapacity, hTimeout⟩ := h
  intro l hl
  simp only [fileLines, List.mem_append, Option.mem_toList, Option.map_eq_some_iff, List.mem_cons,
    List.not_mem_nil, or_false, or_assoc] at hl
  -- two lines that may be missing, one text and three numbers
  rcases hl with ⟨host, -, rfl⟩ | ⟨job, -, rfl⟩ | rfl | rfl | rfl | rfl
  · exact sound_textLine (by decide) (by decide) host
  · exact sound_textLine (by decide) (by decide) job
  · exact sound_textLine (by decide) (by decide) s.username
  · exact sound_numberLine (by decide) (by decide) hWorkers
  · exact sound_numberLine (by decide) (by decide) hCapacity
  · exact sound_numberLine (by decide) (by decide) hTimeout

/-- The characters of a line with a key and a value. -/
theorem toList_fileLine (key value : String) :
    (fileLine key value).toList = key.toList ++ ' ' :: '=' :: ' ' :: (value.toList ++ ['\n']) := by
  simp [fileLine]

/-- A setting that is not there has no line. -/
theorem toList_optionalLine (key : String) (found : Option String) :
    (optionalLine key found).toList = (found.map (textLine key)).toList.flatMap Toml.Line.chars := by
  cases found with
  | none => rfl
  | some text =>
    rw [optionalLine, toList_fileLine, Toml.literal, String.toList_ofList]
    simp [Toml.Line.chars, textLine]

/-- **The content of the settings file** is its lines, one after the other. -/
theorem toList_content (s : Settings) : s.content.toList = s.fileLines.flatMap Toml.Line.chars := by
  simp only [content, String.toList_append, toList_optionalLine, toList_fileLine, Toml.literal,
    Decimal.text, String.toList_ofList, fileLines, List.flatMap_append, List.flatMap_cons,
    List.flatMap_nil, Toml.Line.chars, textLine, numberLine, List.append_assoc, List.append_nil]

/-- The line of a text says the text. -/
theorem entry_textLine (key text : String) : (textLine key text).entry = (key, .text text) := by
  rw [Toml.Line.entry, textLine, String.ofList_toList]

/-- The line of a number says the number. -/
theorem entry_numberLine (key : String) (n : Nat) : (numberLine key n).entry = (key, .integer n) := by
  rw [Toml.Line.entry, numberLine, String.ofList_toList]

/-- The table of the settings file. -/
theorem map_entry_fileLines (s : Settings) : s.fileLines.map Toml.Line.entry =
    (s.hostUrl.map fun host => ("host_url", .text host)).toList ++
      (s.defaultJob.map fun job => ("default_job", .text job)).toList ++
      [("username", .text s.username), ("workers", .integer s.workers),
        ("channel_capacity", .integer s.channelCapacity), ("timeout_secs", .integer s.timeoutSecs)] := by
  unfold fileLines
  cases s.hostUrl <;> cases s.defaultJob <;> simp [entry_textLine, entry_numberLine]

/-- The table of the settings file is read as the settings, and the environment is not asked. -/
theorem ofTable?_fileLines (env : Environment) (s : Settings) :
    ofTable? env s.root (s.fileLines.map Toml.Line.entry) = some s := by
  rw [map_entry_fileLines]
  obtain ⟨root, hostUrl, defaultJob, username, workers, channelCapacity, timeoutSecs⟩ := s
  cases hostUrl <;> cases defaultJob <;>
    simp [ofTable?, textAt?, numberAt?, List.lookup_cons]

/-- **The content of the settings file says the settings**, in every environment. -/
theorem ofText?_content {s : Settings} (h : s.InRange) (env : Environment) :
    ofText? env s.root s.content = some s := by
  -- the six keys are all different, with or without the two that may be missing
  have hKeys : ((s.fileLines.map Toml.Line.entry).map Prod.fst).Nodup := by
    rw [map_entry_fileLines]
    cases s.hostUrl <;> cases s.defaultJob <;> simp
  rw [ofText?, Toml.read_lines (sound_fileLines h) hKeys s.toList_content]
  exact ofTable?_fileLines env s

-- ---------------------------------------------------------------------------
-- Saving and loading
-- ---------------------------------------------------------------------------

/-- The root directory can be made where it is missing, and a file can be written in it. -/
def CanSave (files : Files) (root : String) : Prop :=
  (files.makeDirectories (Path.ofText root)).failure = none ∧
    ∃ content later, (files.makeDirectories (Path.ofText root)).files.write (filePath root) content =
      .ok later

/-- Settings that fit are saved, and their file has their content. -/
theorem save_of_inRange {s : Settings} {files : Files} (hRoot : CanSave files s.root)
    (h : s.InRange) : (s.save files).failure = none ∧
      (s.save files).files.has (filePath s.root) = true ∧
      (s.save files).files.read (filePath s.root) = .ok (bytes s.content) := by
  obtain ⟨hMade, content, later, hWritten⟩ := hRoot
  obtain ⟨saved, hSaved⟩ := Files.write_content hWritten (bytes s.content)
  -- the directories are made, the numbers fit, and a file may be written in the root
  have hSave : s.save files = ⟨saved, none⟩ := by
    simp only [save, hMade, write, fits_iff.mpr h, if_pos, hSaved]
    rfl
  rw [hSave]
  exact ⟨rfl, Files.read_write hSaved⟩

/-- What was saved is loaded. -/
theorem storedIn_of_read {s : Settings} {files : Files} (h : s.InRange)
    (hHas : files.has (filePath s.root) = true)
    (hRead : files.read (filePath s.root) = .ok (bytes s.content)) (env : Environment) :
    storedIn files env s.root = .ok s := by
  have hText : ofBytes? (bytes s.content) = some s.content := ofBytes?_bytes s.content
  rw [storedIn, if_pos hHas, hRead]
  show ((ofBytes? (bytes s.content)).elim (Except.error _) Except.ok >>= fun text =>
    (ofText? env s.root text).elim (Except.error _) Except.ok) = _
  -- the bytes of the file are the text that was written
  rw [hText]
  show (ofText? env s.root s.content).elim _ _ = _
  rw [ofText?_content h]
  rfl

/-- Settings that do not fit are refused before their file is touched. -/
theorem save_of_not_inRange {s : Settings} (files : Files) (h : ¬ s.InRange) :
    files.Keeps (s.save files).files ∧
      ((files.makeDirectories (Path.ofText s.root)).failure = none →
        (s.save files).failure = some (.settings .notWritable)) := by
  have hKeeps := files.makeDirectories_keeps (Path.ofText s.root)
  -- the refusal comes after the directories, and before the file is opened
  have hRefused (later : Files) : s.write later = .error (.settings .notWritable) :=
    if_neg (mt fits_iff.mp h)
  unfold save
  dsimp only
  split
  · next hFailed => exact ⟨hKeeps, fun hMade => by rw [hMade] at hFailed; cases hFailed⟩
  · rw [hRefused]
    exact ⟨hKeeps, fun _ => rfl⟩

/-- **Saved settings are loaded again**, whatever the environment, if the root directory can be made and
written and the numbers fit. Settings with a number that does not fit are refused, and every file has
the content that it had, wherever it is and by whatever path it is read. -/
theorem storedIn_save (s : Settings) {files : Files} (hRoot : CanSave files s.root) :
    (s.InRange → (s.save files).failure = none ∧
      ∀ env, storedIn (s.save files).files env s.root = .ok s) ∧
    (¬ s.InRange → (s.save files).failure = some (.settings .notWritable) ∧
      (∀ place, (s.save files).files.content? place = files.content? place) ∧
      ∀ path content, files.read path = .ok content →
        (s.save files).files.read path = .ok content) := by
  constructor
  · intro h
    obtain ⟨hSaved, hHas, hRead⟩ := save_of_inRange hRoot h
    exact ⟨hSaved, storedIn_of_read h hHas hRead⟩
  · intro h
    obtain ⟨hKeeps, hRefused⟩ := save_of_not_inRange files h
    exact ⟨hRefused hRoot.1, hKeeps.content, fun _ _ => hKeeps.read⟩

/-- A host that no spelling can hold without an escape, in a root directory with an older file, and one
second more than fits. -/
theorem storedIn_save_quotes :
    let files : Files := ⟨[(["r", "config.toml"], .file [0x61])]⟩
    let s : Settings := ⟨"/r", some "\"\"\"'''\\\r\n", none, "", 8, 0, 2 ^ 63 - 1⟩
    let t : Settings := { s with timeoutSecs := 2 ^ 63 }
    s.InRange ∧ (s.save files).failure = none ∧
      (∀ env, storedIn (s.save files).files env s.root = .ok s) ∧
      ¬ t.InRange ∧ (t.save files).failure = some (.settings .notWritable) ∧
      (t.save files).files.read (filePath "/r") = .ok [0x61] := by
  intro files s t
  have hRoot : CanSave files "/r" :=
    ⟨by decide +kernel, [], ⟨[(["r", "config.toml"], .file [])]⟩, by decide +kernel⟩
  have hFits : s.InRange := by decide
  have hLarge : ¬ t.InRange := by decide
  obtain ⟨hSaved, hLoaded⟩ := (storedIn_save s hRoot).1 hFits
  obtain ⟨hRefused, -, hKept⟩ := (storedIn_save t hRoot).2 hLarge
  exact ⟨hFits, hSaved, hLoaded, hLarge, hRefused, hKept _ _ (by decide +kernel)⟩

end BuildQuery.Settings
