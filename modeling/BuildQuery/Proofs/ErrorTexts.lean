import BuildQuery.Error
import Mathlib.Data.List.Forall2

/-!
# BuildQuery — the texts of errors

What is read when a run fails. `ReadsAs` puts down the text of every error word by word, kind by kind, as
a reader of the output sees it. What is not put down here is what an error is about: addresses, numbers,
the texts of tokens, what a transport says, and what a library says of a document, of a settings file
or of a number.

Main results:

* `Error.readsAs_iff` — the text that is shown of an error is the one that is put down for it.
-/

namespace BuildQuery

-- ---------------------------------------------------------------------------
-- Errors by their parts
-- ---------------------------------------------------------------------------

/-- What an error of files reads as. -/
inductive FileError.ReadsAs : FileError → String → Prop
  | notText : ReadsAs .notText "stream did not contain valid UTF-8"
  | directory : ReadsAs .directory "Is a directory (os error 21)"
  | taken : ReadsAs .taken "File exists (os error 17)"
  | obstructed : ReadsAs .obstructed "Not a directory (os error 20)"
  | missing : ReadsAs .missing "No such file or directory (os error 2)"
  | tooLong : ReadsAs .tooLong "File name too long (os error 36)"

/-- What an error of settings reads as. -/
inductive SettingsError.ReadsAs (wording : Wording) : SettingsError → String → Prop
  | noHost : ReadsAs wording .noHost "JENKINS_HOST_URL is empty"
  | noJob : ReadsAs wording .noJob
      "Job not specified. Pass a job name or set JENKINS_DEFAULT_JOB"
  | blankHost : ReadsAs wording .blankHost "Host URL cannot be empty"
  | blankJob : ReadsAs wording .blankJob "Job name cannot be empty"
  | notUnderstood (text : String) : ReadsAs wording (.notUnderstood text)
      ("Failed to parse config: " ++ wording.unread text)
  | notWritable : ReadsAs wording .notWritable
      ("Failed to serialize config: " ++ wording.unwritten)
  | noHome : ReadsAs wording .noHome "Could not determine home directory"

/-- What a refusal of a provider reads as. -/
inductive Remote.Refusal.ReadsAs : Refusal → String → Prop
  | noSecret : ReadsAs .noSecret
      "Credentials error: neither JENKINS_API_TOKEN nor JENKINS_PASSWORD is set"
  | noTerminal : ReadsAs .noTerminal
      "Credentials error: cannot prompt for a password: stdin is not a terminal"
  | notText : ReadsAs .notText "IO error: stream did not contain valid UTF-8"
  | emptyPassword : ReadsAs .emptyPassword "Credentials error: empty password"
  | other (reason : String) : ReadsAs (.other reason) ("Credentials error: " ++ reason)

/-- What the refusals of all providers read as. -/
inductive Remote.RefusalsReadAs : List Refusal → String → Prop
  | unasked : RefusalsReadAs [] "no credential providers configured"
  | refused {refusals : List Refusal} {texts : List String} (hSome : refusals ≠ [])
      (hTexts : List.Forall₂ Refusal.ReadsAs refusals texts) :
      RefusalsReadAs refusals ("; ".intercalate texts)

/-- What an error of a filter reads as. -/
inductive Filter.QueryError.ReadsAs : QueryError → String → Prop
  | strayCharacter (offset : Nat) : ReadsAs (.strayCharacter offset)
      ("Syntax error at " ++ toString offset)
  | incomplete (tokens : List Token) : ReadsAs (.incomplete tokens)
      ("Invalid expression: [" ++ " ".intercalate (tokens.map Token.text) ++ "]")
  | invalidComparison (tokens : List Token) : ReadsAs (.invalidComparison tokens)
      ("Invalid comparison expression: [" ++ " ".intercalate (tokens.map Token.text) ++ "]")
  | invalidConjunction (token : Token) : ReadsAs (.invalidConjunction token)
      ("Invalid conjugation operator: " ++ token.text)

/-- What a fault in the arrivals reads as. -/
inductive Fetch.Violation.ReadsAs : Violation → String → Prop
  | repeated (index : Nat) : ReadsAs (.repeated index)
      ("result for index " ++ toString index ++ " delivered more than once")
  | outOfRange (index count : Nat) : ReadsAs (.outOfRange index count)
      ("result index " ++ toString index ++ " is out of range for " ++ toString count ++ " locators")
  | stranded (awaited : Nat) (held : List Nat) : ReadsAs (.stranded awaited held)
      ("stream ended while waiting for index " ++ toString awaited ++ "; stranded results: ["
        ++ ", ".intercalate (held.map toString) ++ "]")
  | short (emitted count : Nat) : ReadsAs (.short emitted count)
      ("stream ended after " ++ toString emitted ++ " of " ++ toString count ++ " results")

-- ---------------------------------------------------------------------------
-- All errors
-- ---------------------------------------------------------------------------

/-- What an error reads as. -/
inductive Error.ReadsAs (wording : Wording) : Error → String → Prop
  | files {error : FileError} {text : String} (h : error.ReadsAs text) :
      ReadsAs wording (.files error) ("IO error: " ++ text)
  | unreachable (url message : String) : ReadsAs wording (.unreachable url message)
      ("HTTP error for GET '" ++ url ++ "': " ++ message)
  | brokenOff (message : String) : ReadsAs wording (.brokenOff message) ("IO error: " ++ message)
  | badStatus (url : String) (code : Nat) : ReadsAs wording (.badStatus url code)
      ("Bad status code for GET '" ++ url ++ "': wanted 200, got " ++ toString code)
  | notDecoded (url : String) (wanted : Document) (body : List UInt8) (fault : Json.Fault) :
      ReadsAs wording (.notDecoded url wanted body fault)
        ("Failed to decode response from '" ++ url ++ "': " ++ wording.undecoded wanted body)
  | settings {error : SettingsError} {text : String} (h : error.ReadsAs wording text) :
      ReadsAs wording (.settings error) ("Configuration error: " ++ text)
  | noCredentials {refusals : List Remote.Refusal} {text : String}
      (h : Remote.RefusalsReadAs refusals text) :
      ReadsAs wording (.noCredentials refusals) ("Credentials error: " ++ text)
  | query {error : Filter.QueryError} {text : String} (h : error.ReadsAs text) :
      ReadsAs wording (.query error) ("Query error: " ++ text)
  | disorder {violation : Fetch.Violation} {text : String} (h : violation.ReadsAs text) :
      ReadsAs wording (.disorder violation) ("Internal invariant violated: " ++ text)

-- ---------------------------------------------------------------------------
-- What is shown
-- ---------------------------------------------------------------------------

/-- What is so of something, and of nothing but one thing, is so of just this one. -/
theorem iff_eq_of_only {α : Type} {P : α → Prop} {one : α} (hOnly : ∀ a, P a → a = one)
    (hSome : ∃ a, P a) (a : α) : P a ↔ a = one := by
  obtain ⟨some, hHolds⟩ := hSome
  constructor
  · exact hOnly a
  · rintro rfl
    exact hOnly some hHolds ▸ hHolds

/-- A relation that gives each member of a list one partner is that of the list and its image. -/
theorem forall₂_iff_eq_map {α β : Type} {R : α → β → Prop} {f : α → β} (h : ∀ a b, R a b ↔ b = f a)
    (l : List α) (images : List β) : List.Forall₂ R l images ↔ images = l.map f := by
  have hGraph : R = fun a b => f a = b := by
    funext a b
    exact propext ((h a b).trans eq_comm)
  rw [hGraph, ← List.forall₂_map_left_iff, List.forall₂_eq_eq_eq, eq_comm]

/-- What is shown of an error of files is what it reads as. -/
theorem FileError.readsAs_iff (e : FileError) (text : String) : e.ReadsAs text ↔ text = e.message := by
  refine iff_eq_of_only ?_ ?_ text
  · rintro _ (_ | _) <;> rfl
  · cases e <;> exact ⟨_, by constructor⟩

/-- What is shown of an error of settings is what it reads as. -/
theorem SettingsError.readsAs_iff (wording : Wording) (e : SettingsError) (text : String) :
    e.ReadsAs wording text ↔ text = e.message wording := by
  refine iff_eq_of_only ?_ ?_ text
  · rintro _ (_ | _) <;> rfl
  · cases e <;> exact ⟨_, by constructor⟩

/-- What is shown of a refusal is what it reads as. -/
theorem Remote.Refusal.readsAs_iff (r : Refusal) (text : String) : r.ReadsAs text ↔ text = r.message := by
  refine iff_eq_of_only ?_ ?_ text
  · rintro _ (_ | _) <;> rfl
  · cases r <;> exact ⟨_, by constructor⟩

/-- What is shown of all refusals is what they read as. -/
theorem Remote.refusalsReadAs_iff (refusals : List Refusal) (text : String) :
    RefusalsReadAs refusals text ↔ text = Error.refusalsMessage refusals := by
  refine iff_eq_of_only ?_ ?_ text
  · rintro _ (_ | ⟨hSome, hTexts⟩)
    · rfl
    · obtain rfl := (forall₂_iff_eq_map Refusal.readsAs_iff refusals _).mp hTexts
      rw [Error.refusalsMessage, if_neg (by simpa using hSome)]
  · cases refusals with
    | nil => exact ⟨_, .unasked⟩
    | cons r refusals =>
      have hTexts := (forall₂_iff_eq_map Refusal.readsAs_iff (r :: refusals) _).mpr rfl
      exact ⟨_, .refused (List.cons_ne_nil r refusals) hTexts⟩

/-- What is shown of an error of a filter is what it reads as. -/
theorem Filter.QueryError.readsAs_iff (e : QueryError) (text : String) :
    e.ReadsAs text ↔ text = e.message := by
  -- the brackets are put around the tokens in one step, and read as two parts of the text
  have hListing (front : String) (tokens : List Token) :
      front ++ "[" ++ " ".intercalate (tokens.map Token.text) ++ "]" = front ++ listing tokens := by
    rw [listing, String.append_assoc, String.append_assoc, String.append_assoc]
  refine iff_eq_of_only ?_ ?_ text
  · intro text h
    cases h with
    | strayCharacter offset | invalidConjunction token => rfl
    | incomplete tokens => exact hListing "Invalid expression: " tokens
    | invalidComparison tokens => exact hListing "Invalid comparison expression: " tokens
  · cases e <;> exact ⟨_, by constructor⟩

/-- What is shown of a fault in the arrivals is what it reads as. -/
theorem Fetch.Violation.readsAs_iff (v : Violation) (text : String) :
    v.ReadsAs text ↔ text = v.message := by
  have hNumbers : (toString : Nat → String) = Decimal.text :=
    funext fun n => (Decimal.text_eq_toString n).symm
  refine iff_eq_of_only ?_ ?_ text
  · intro text h
    cases h <;> rw [hNumbers] <;> rfl
  · cases v <;> exact ⟨_, by constructor⟩

/-- **The text of an error.** What is shown of an error is what it reads as, and nothing else. -/
theorem Error.readsAs_iff (wording : Wording) (e : Error) (text : String) :
    e.ReadsAs wording text ↔ text = e.message wording := by
  refine iff_eq_of_only ?_ ?_ text
  · intro text h
    cases h with
    | unreachable url message | brokenOff message | notDecoded url wanted body fault => rfl
    | badStatus url code =>
      rw [← Decimal.text_eq_toString]
      rfl
    | files h =>
      rw [(FileError.readsAs_iff _ _).mp h]
      rfl
    | settings h =>
      rw [(SettingsError.readsAs_iff wording _ _).mp h]
      rfl
    | noCredentials h =>
      rw [(Remote.refusalsReadAs_iff _ _).mp h]
      rfl
    | query h =>
      rw [(Filter.QueryError.readsAs_iff _ _).mp h]
      rfl
    | disorder h =>
      rw [(Fetch.Violation.readsAs_iff _ _).mp h]
      rfl
  · cases e with
    | unreachable url message => exact ⟨_, .unreachable url message⟩
    | brokenOff message => exact ⟨_, .brokenOff message⟩
    | badStatus url code => exact ⟨_, .badStatus url code⟩
    | notDecoded url wanted body fault => exact ⟨_, .notDecoded url wanted body fault⟩
    | files e => exact ⟨_, .files ((FileError.readsAs_iff e _).mpr rfl)⟩
    | settings e => exact ⟨_, .settings ((SettingsError.readsAs_iff wording e _).mpr rfl)⟩
    | noCredentials refusals =>
      exact ⟨_, .noCredentials ((Remote.refusalsReadAs_iff refusals _).mpr rfl)⟩
    | query e => exact ⟨_, .query ((Filter.QueryError.readsAs_iff e _).mpr rfl)⟩
    | disorder v => exact ⟨_, .disorder ((Fetch.Violation.readsAs_iff v _).mpr rfl)⟩

end BuildQuery
