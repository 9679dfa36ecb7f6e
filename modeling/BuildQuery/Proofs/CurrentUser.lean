import BuildQuery.Proofs.ChangedFiles

/-!
# BuildQuery — the user in the settings file

A run that stores a setting writes all settings again, and the user among them. A settings file that
names the user settles who it is. Where it does not, or where there is no file, the user of the
environment is loaded with the stored settings, and so is written down by the run. This is the one way
on which the environment gets into the settings file, apart from the root directory: two runs that agree
on the root leave the same, or they leave settings that differ in the user.

Main results:

* `storedIn_named`, `storedIn_unnamed` — what the environment has to do with the settings that are
  loaded.
* `change_in_other_env` — what a run that stores a setting does in another environment.
-/

namespace BuildQuery

open Text

/-- What cannot be written cannot be written with another content. -/
theorem Files.write_error {files : Files} {path : Path} {content : List UInt8} {e : FileError}
    (h : files.write path content = .error e) (other : List UInt8) :
    files.write path other = .error e := by
  unfold Files.write at h ⊢
  rcases bind_eq_error.mp h with hPlace | ⟨place, hPlace, hTaken⟩
  · rw [hPlace]
    rfl
  · rw [hPlace]
    show (if files.isDirectory place then _ else _) = _
    split at hTaken
    · next hDirectory => rw [if_pos hDirectory, hTaken]
    · cases hTaken

namespace Settings

-- ---------------------------------------------------------------------------
-- The user that is loaded
-- ---------------------------------------------------------------------------

/-- The settings for another user. -/
def withUser (s : Settings) (user : String) : Settings :=
  { s with username := user }

/-- There is a settings file, and it names the user. -/
def NamesUser (files : Files) (root : String) : Prop :=
  ∃ text t, tableIn files root = .ok (some (text, t)) ∧ t.lookup "username" ≠ none

/-- A name in the file is taken whatever the environment says, also when it is no text. -/
theorem ofTable?_named {t : Toml.Table} (h : t.lookup "username" ≠ none) (env other : Environment)
    (root : String) : ofTable? other root t = ofTable? env root t := by
  obtain ⟨item, hItem⟩ := Option.ne_none_iff_exists'.mp h
  unfold ofTable?
  simp only [textAt?, hItem]
  cases item <;> rfl

/-- Without a name in the file, the user of the environment is put in its place. -/
theorem ofTable?_unnamed {t : Toml.Table} (h : t.lookup "username" = none) (env other : Environment)
    (root : String) :
    ofTable? other root t = (ofTable? env root t).map (·.withUser (currentUser other)) := by
  have hFree : textAt? t "username" = some none := by
    rw [textAt?, h]
  unfold ofTable?
  rw [hFree]
  cases textAt? t "host_url" <;> cases textAt? t "default_job" <;> cases numberAt? t "workers" <;>
    cases numberAt? t "channel_capacity" <;> cases numberAt? t "timeout_secs" <;> rfl

/-- **A file that names the user** is loaded alike in all environments. -/
theorem storedIn_named {files : Files} {root : String} (h : NamesUser files root)
    (env other : Environment) : storedIn files other root = storedIn files env root := by
  obtain ⟨text, t, hTable, hNamed⟩ := h
  rw [storedIn_eq, storedIn_eq, hTable]
  show (ofTable? other root t).elim _ _ = (ofTable? env root t).elim _ _
  rw [ofTable?_named hNamed env other]

/-- **Without a file that names the user**, only the user depends on the environment. -/
theorem storedIn_unnamed {files : Files} {root : String} (h : ¬ NamesUser files root)
    (env other : Environment) : storedIn files other root =
      (storedIn files env root).map (·.withUser (currentUser other)) := by
  rw [storedIn_eq, storedIn_eq]
  cases hTable : tableIn files root with
  | error e => rfl
  | ok found =>
    cases found with
    | none => rfl
    | some found =>
      obtain ⟨text, t⟩ := found
      have hFree : t.lookup "username" = none := by
        by_contra hNamed
        exact h ⟨text, t, hTable, hNamed⟩
      show ofFound other root (some (text, t)) = (ofFound env root (some (text, t))).map _
      rw [ofFound, ofFound, ofTable?_unnamed hFree env other]
      cases ofTable? env root t <;> rfl

section SameRoot

variable {files : Files} {env other : Environment} {root : String}
  (hRoot : rootOf env = .ok root) (hSame : rootOf other = .ok root)

include hRoot

/-- The settings are stored in the root directory of the environment. -/
theorem stored_eq_storedIn : stored files env = storedIn files env root := by
  rw [stored, hRoot]
  rfl

include hSame

/-- The same stored settings for another user. -/
theorem stored_unnamed (h : ¬ NamesUser files root) :
    stored files other = (stored files env).map (·.withUser (currentUser other)) := by
  rw [stored_eq_storedIn hRoot, stored_eq_storedIn hSame]
  exact storedIn_unnamed h env other

omit hSame in
/-- Without a name in the file, the user of the environment is loaded. -/
theorem username_of_stored {s : Settings} (h : ¬ NamesUser files root)
    (hStored : stored files env = .ok s) : s.username = currentUser env := by
  have hAgain := stored_unnamed hRoot hRoot h
  rw [hStored] at hAgain
  have hUser : s = s.withUser (currentUser env) := Except.ok.inj hAgain
  rw [hUser]
  rfl

/-- The same settings are loaded where the file or the environments say who the user is. -/
theorem stored_of_same_user (h : NamesUser files root ∨ currentUser other = currentUser env) :
    stored files other = stored files env := by
  by_cases hNamed : NamesUser files root
  · rw [stored_eq_storedIn hRoot, stored_eq_storedIn hSame]
    exact storedIn_named hNamed env other
  · -- the user that is loaded is the one that takes his place
    have hUser : currentUser other = currentUser env := h.resolve_left hNamed
    rw [stored_unnamed hRoot hSame hNamed, hUser]
    cases hStored : stored files env with
    | error e => rfl
    | ok s =>
      rw [← username_of_stored hRoot hNamed hStored]
      rfl

end SameRoot

-- ---------------------------------------------------------------------------
-- The user that is saved
-- ---------------------------------------------------------------------------

/-- What is written fails for its size or for its place, and neither depends on the user. -/
theorem write_withUser {s : Settings} {files : Files} {e : Error} (h : s.write files = .error e)
    (user : String) : (s.withUser user).write files = .error e := by
  unfold write at h ⊢
  split at h
  · next hFits =>
    have hStill : (s.withUser user).fits = true := hFits
    rw [if_pos hStill]
    cases hWritten : files.write (filePath s.root) (bytes s.content) with
    | ok later =>
      rw [hWritten] at h
      cases h
    | error found =>
      have hAlso : files.write (filePath (s.withUser user).root) (bytes (s.withUser user).content) =
          .error found := Files.write_error hWritten _
      rw [hWritten] at h
      rw [hAlso, ← h]
  · next hFits =>
    have hStill : ¬ (s.withUser user).fits = true := hFits
    rw [if_neg hStill, h]

/-- Settings that cannot be saved cannot be saved for another user. -/
theorem save_withUser {s : Settings} {files : Files} {e : Error}
    (h : (s.save files).failure = some e) (user : String) :
    (s.withUser user).save files = s.save files := by
  -- the directories are the same, and what is written afterwards fails whatever its content
  have hRoot : (s.withUser user).root = s.root := rfl
  unfold save at h ⊢
  rw [hRoot]
  dsimp only at h ⊢
  cases hMade : (files.makeDirectories (Path.ofText s.root)).failure with
  | some found => rfl
  | none =>
    rw [hMade] at h
    dsimp only at h ⊢
    cases hWritten : s.write (files.makeDirectories (Path.ofText s.root)).files with
    | ok later =>
      rw [hWritten] at h
      cases h
    | error found => rw [write_withUser hWritten]

/-- The content of the settings file tells settings apart. -/
theorem eq_of_content {s t : Settings} (h : bytes s.content = bytes t.content)
    (hRoot : s.root = t.root) (hs : s.InRange) (ht : t.InRange) : s = t := by
  have hText : some s.content = some t.content := by
    rw [← ofBytes?_bytes s.content, ← ofBytes?_bytes t.content, h]
  have hSays := ofText?_content hs ⟨fun _ => none, none⟩
  rw [Option.some.inj hText, hRoot, ofText?_content ht] at hSays
  exact (Option.some.inj hSays).symm

end Settings

namespace Command

open Settings

-- ---------------------------------------------------------------------------
-- One command line in two environments
-- ---------------------------------------------------------------------------

/-- A change leaves the user alone, so it does not matter who it is. -/
theorem Change.apply_withUser (c : Change) (s : Settings) (user : String) :
    c.apply (s.withUser user) = (c.apply s).withUser user := by
  cases c <;> rfl

/-- No change is one of the user. -/
theorem Change.username_apply (c : Change) (s : Settings) : (c.apply s).username = s.username := by
  cases c <;> rfl

/-- The environment comes into a run that stores a setting with the stored settings, and in no other
way. -/
theorem run_of_same_stored {w : World} {env : Environment} {c : Change}
    (h : stored w.files env = stored w.files w.env) :
    run { w with env := env } c.command = run w c.command := by
  cases hText : isBlankText c.text with
  | true =>
    rw [c.run_of_blank hText, c.run_of_blank hText]
    rfl
  | false =>
    rw [c.run_of_text hText, c.run_of_text hText, runChange, runChange, h]
    rfl

section OtherUser

variable {w : World} {env : Environment} {c : Change} {user : String}
  (hOther : stored w.files env = (stored w.files w.env).map (·.withUser user))

include hOther

/-- A run that fails would fail for another user. -/
theorem run_withUser_of_failed (hFailed : (run w c.command).code ≠ 0) :
    run { w with env := env } c.command = run w c.command := by
  have hChanges := changes_run w c
  generalize run w c.command = done at hFailed hChanges ⊢
  -- by the step at which the run fails, which the other run gets to in the same way
  cases hChanges with
  | refused hBlank =>
    rw [c.run_of_blank hBlank]
    rfl
  | notLoaded hText hLoaded =>
    rw [hLoaded] at hOther
    rw [c.run_of_text hText, runChange, hOther]
    rfl
  | notSaved hText hLoaded hNotSaved =>
    rw [hLoaded] at hOther
    have hSave := save_withUser hNotSaved user
    rw [c.run_of_text hText, runChange, hOther]
    simp only [Except.map, c.apply_withUser, hSave, hNotSaved]
    rfl
  | saved hText hLoaded hSaved => exact absurd rfl hFailed

/-- A run that succeeds would write the settings for another user. -/
theorem run_withUser_of_saved (hDone : (run w c.command).code = 0) :
    ∃ s made place, stored w.files w.env = .ok s ∧ SavedAt w.files s.root made place ∧
      run w c.command =
        ⟨0, unlines [c.line], "", ⟨Files.put place (bytes (c.apply s).content) made.nodes⟩, []⟩ ∧
      run { w with env := env } c.command = ⟨0, unlines [c.line], "",
        ⟨Files.put place (bytes ((c.apply s).withUser user).content) made.nodes⟩, []⟩ := by
  have hChanges := changes_run w c
  generalize run w c.command = done at hDone hChanges ⊢
  cases hChanges with
  | refused hBlank => cases hDone
  | notLoaded hText hLoaded => cases hDone
  | notSaved hText hLoaded hNotSaved => cases hDone
  | @saved s made place hText hLoaded hSaved =>
    rw [hLoaded] at hOther
    refine ⟨s, made, place, hLoaded, hSaved, rfl, ?_⟩
    rw [← c.apply_withUser]
    exact Change.run_change (w := { w with env := env }) hOther hSaved hText

end OtherUser

/-- **What a run that stores a setting does in another environment** with the same root directory. It
does the same if it fails, if there is a settings file that names the user, or if the user is the same in
both environments, whatever else is different. Otherwise it shows the same and writes another settings
file, which differs in the user. -/
theorem change_in_other_env {w : World} {env : Environment} {root : String}
    (hRoot : rootOf w.env = .ok root) (hSame : rootOf env = .ok root) {args : List String} {c : Change}
    (hArgs : ofArguments args = .ok c.command) :
    let done := runArguments w args
    let other := runArguments { w with env := env } args
    (done.code ≠ 0 ∨ NamesUser w.files root ∨ currentUser env = currentUser w.env → other = done) ∧
    (done.code = 0 → ¬ NamesUser w.files root → currentUser env ≠ currentUser w.env →
      other = { done with files := other.files } ∧
      other.files.read (filePath root) ≠ done.files.read (filePath root) ∧
      ∃ saved : Settings, saved.username = currentUser w.env ∧
        (∀ e, storedIn done.files e root = .ok saved) ∧
        ∀ e, storedIn other.files e root = .ok (saved.withUser (currentUser env))) := by
  intro done other
  have hDone : done = run w c.command := runArguments_of_ok hArgs w
  have hOther : other = run { w with env := env } c.command := runArguments_of_ok hArgs _
  rw [hDone, hOther]
  -- where the user is settled the same settings are loaded, and everything behind that is the same
  by_cases hSettled : NamesUser w.files root ∨ currentUser env = currentUser w.env
  · have hRun := run_of_same_stored (c := c) (stored_of_same_user hRoot hSame hSettled)
    refine ⟨fun _ => hRun, ?_⟩
    intro _ hFree hDiffer
    exact absurd hSettled (not_or.mpr ⟨hFree, hDiffer⟩)
  · have hFree : ¬ NamesUser w.files root := (not_or.mp hSettled).1
    have hDiffer : currentUser env ≠ currentUser w.env := (not_or.mp hSettled).2
    have hLoads := stored_unnamed hRoot hSame hFree
    refine ⟨fun hCase => run_withUser_of_failed hLoads (hCase.resolve_right hSettled), ?_⟩
    intro hSaved _ _
    obtain ⟨s, made, place, hStored, hPlace, hRun, hRunOther⟩ := run_withUser_of_saved hLoads hSaved
    obtain ⟨hFound, hLoaded⟩ := stored_ok_iff.mp hStored
    obtain rfl : s.root = root := Except.ok.inj (hFound.symm.trans hRoot)
    have hUser : (c.apply s).username = currentUser w.env :=
      (c.username_apply s).trans (username_of_stored hRoot hFree hStored)
    have hRange : (c.apply s).InRange := c.inRange_apply (inRange_of_storedIn hLoaded).1
    have hStill : ((c.apply s).withUser (currentUser env)).InRange := hRange
    rw [hRun, hRunOther]
    refine ⟨rfl, ?_, c.apply s, hUser, hPlace.storedIn_put (c.root_apply s) hRange,
      hPlace.storedIn_put (c.root_apply s) hStill⟩
    -- the content says all settings, so one content would have one user
    rw [(Files.read_write (hPlace.write _)).2, (Files.read_write (hPlace.write _)).2]
    intro hContent
    have hBytes : bytes ((c.apply s).withUser (currentUser env)).content = bytes (c.apply s).content :=
      Except.ok.inj hContent
    have hNames : currentUser env = (c.apply s).username :=
      congrArg Settings.username (eq_of_content hBytes rfl hStill hRange)
    exact hDiffer (hNames.trans hUser)

/-- A host that is set by two users, without a settings file and with one that names a third user. -/
theorem change_in_other_env_two_users :
    let alice : Environment := .ofVariables [("JENQ_ROOT", "/r"), ("USER", "alice")]
    let bob : Environment := .ofVariables
      [("JENQ_ROOT", "/r"), ("USERNAME", "bob"), ("JENKINS_USER", "root")]
    let w : World := ⟨⟨[]⟩, alice, none, fun r => .error (.badStatus r.url 404), default⟩
    let named : World := { w with files := ⟨[(["r", "config.toml"], .file (bytes "username = 'carol'"))]⟩ }
    let args := ["config", "set-host", "http://h"]
    runArguments { named with env := bob } args = runArguments named args ∧
      (runArguments { w with env := bob } args).files.read (filePath "/r") ≠
        (runArguments w args).files.read (filePath "/r") := by
  intro alice bob w named args
  have hArgs : ofArguments args = .ok (Change.host "http://h").command := by
    decide +kernel
  have hNamed : NamesUser named.files "/r" := by
    have hRead : named.files.read (filePath "/r") = .ok (bytes "username = 'carol'") := by
      decide +kernel
    have hUser : ((Toml.read "username = 'carol'").map fun t => (t.lookup "username").isSome) =
        some true := by
      decide +kernel
    obtain ⟨t, hTable, hSome⟩ := Option.map_eq_some_iff.mp hUser
    refine ⟨"username = 'carol'", t, ?_, Option.isSome_iff_ne_none.mp hSome⟩
    rw [tableIn_of_read hRead, tableOf_ok_iff.mpr ⟨ofBytes?_bytes _, hTable⟩]
    rfl
  have hFree : ¬ NamesUser w.files "/r" := by
    rintro ⟨text, t, hTable, -⟩
    cases hTable
  have hDone : (runArguments w args).code = 0 := by
    decide +kernel
  have hDiffer : currentUser bob ≠ currentUser w.env := by
    decide
  have hRoot : rootOf alice = .ok "/r" := rfl
  have hRootBob : rootOf bob = .ok "/r" := rfl
  obtain ⟨hSame, -⟩ := change_in_other_env (w := named) hRoot hRootBob hArgs
  obtain ⟨-, hOther⟩ := change_in_other_env (w := w) hRoot hRootBob hArgs
  exact ⟨hSame (.inr (.inl hNamed)), (hOther hDone hFree hDiffer).2.1⟩

/-- Environments that agree on the root directory do not always leave the same settings file. -/
theorem settings_file_of_two_users :
    ¬ ∀ (w : World) (env : Environment) (root : String) (args : List String) (c : Change),
      w.env rootVariable = some root → env rootVariable = some root →
      ofArguments args = .ok c.command →
      (runArguments { w with env := env } args).files.read (filePath root) =
        (runArguments w args).files.read (filePath root) := by
  intro h
  let alice : Environment := .ofVariables [("JENQ_ROOT", "/r"), ("USER", "alice")]
  let bob : Environment := .ofVariables [("JENQ_ROOT", "/r"), ("USER", "bob")]
  let w : World := ⟨⟨[]⟩, alice, none, fun r => .error (.badStatus r.url 404), default⟩
  have hSame := h w bob "/r" ["config", "set-host", "http://h"] (.host "http://h") rfl rfl
    (by decide +kernel)
  revert hSame
  decide +kernel

end Command

end BuildQuery
