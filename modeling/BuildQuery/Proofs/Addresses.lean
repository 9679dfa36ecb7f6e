import BuildQuery.Remote.Address
import Mathlib.Data.List.DropRight

/-!
# BuildQuery — trimmed texts and addresses of hosts

A text is trimmed when no blank stands at either end. Trimming gives such a text and leaves one as it
is. The address of a host ends with a slash, so the address of a trimmed text is trimmed too, and the
address of an address is the same again: what is stored for a host is what is shown for it later.

Main results:

* `trim_eq_self`, `trimmed_trim` — trimming is done once.
* `trimmed_hostAddress`, `hostAddress_hostAddress` — an address is not changed by being made again.
-/

namespace BuildQuery.Text

-- ---------------------------------------------------------------------------
-- Trimmed texts
-- ---------------------------------------------------------------------------

/-- No blank stands at the start or at the end. -/
structure Trimmed (s : String) : Prop where
  start : ∀ c ∈ s.toList.head?, isBlank c = false
  finish : ∀ c ∈ s.toList.getLast?, isBlank c = false

/-- What is cut off at the end is what the library drops from the right. -/
theorem trimEndWhile_eq_rdropWhile (drop : Char → Bool) (cs : List Char) :
    trimEndWhile drop cs = cs.rdropWhile drop :=
  rfl

/-- A trimmed text has nothing to trim. -/
theorem trim_eq_self {s : String} (h : Trimmed s) : trim s = s := by
  have hStart : trimStart s.toList = s.toList := by
    cases hChars : s.toList with
    | nil => rfl
    | cons c cs =>
      have hc := h.start c (by rw [hChars]; rfl)
      exact List.dropWhile_cons_of_neg (Bool.not_eq_true _ ▸ hc)
  have hEnd : trimEndWhile isBlank s.toList = s.toList := by
    refine List.rdropWhile_eq_self_iff.mpr ?_
    intro hSome
    rw [Bool.not_eq_true]
    exact h.finish _ (List.getLast?_eq_some_getLast hSome)
  rw [trim, hStart, hEnd, String.ofList_toList]

/-- What is cut off at the end does not change the start. -/
theorem mem_head?_of_rdropWhile {drop : Char → Bool} {cs : List Char} {c : Char}
    (h : c ∈ (cs.rdropWhile drop).head?) : c ∈ cs.head? := by
  obtain ⟨cut, hCut⟩ := List.rdropWhile_prefix drop cs
  rw [← hCut, List.head?_append, Option.mem_def.mp h]
  rfl

/-- Trimming gives a trimmed text. -/
theorem trimmed_trim (s : String) : Trimmed (trim s) := by
  have hChars : (trim s).toList = (trimStart s.toList).rdropWhile isBlank := String.toList_ofList
  constructor
  · intro c hc
    rw [hChars] at hc
    -- if anything is left at the end, the first character is the one that the cut at the start left
    have hFirst : (s.toList.dropWhile isBlank).head? = some c := mem_head?_of_rdropWhile hc
    have hNot := List.head?_dropWhile_not isBlank s.toList
    rw [hFirst] at hNot
    exact hNot
  · intro c hc
    rw [hChars] at hc
    obtain ⟨hSome, rfl⟩ := List.mem_getLast?_eq_getLast hc
    exact Bool.eq_false_iff.mpr (List.rdropWhile_last_not isBlank _ hSome)

/-- Nothing is left of a blank text. -/
theorem isEmpty_trim (s : String) : (trim s).isEmpty = isBlankText s := by
  rw [Bool.eq_iff_iff, String.isEmpty_iff, ← String.toList_eq_nil_iff, trim, String.toList_ofList,
    trimEndWhile_eq_rdropWhile, List.rdropWhile_eq_nil_iff, isBlankText, List.all_eq_true]
  constructor
  · intro hRest c hc
    rw [← List.takeWhile_append_dropWhile (p := isBlank) (l := s.toList), List.mem_append] at hc
    rcases hc with hStart | hEnd
    · exact List.mem_takeWhile_imp hStart
    · exact hRest c hEnd
  · intro hAll c hc
    exact hAll c ((List.dropWhile_sublist isBlank).subset hc)

end BuildQuery.Text

namespace BuildQuery.Remote

open Text

-- ---------------------------------------------------------------------------
-- Addresses of hosts
-- ---------------------------------------------------------------------------

/-- An address is the text without the slashes at its end, and one slash. -/
theorem toList_hostAddress (host : String) :
    (hostAddress host).toList = host.toList.rdropWhile (· == '/') ++ ['/'] := by
  rw [hostAddress, String.toList_append, trimSlashes, String.toList_ofList]
  rfl

/-- The address of a trimmed text is trimmed: it ends with a slash. -/
theorem trimmed_hostAddress {host : String} (h : Trimmed host) : Trimmed (hostAddress host) := by
  have hSlash : isBlank '/' = false := by decide
  constructor
  · intro c hc
    rw [toList_hostAddress, List.head?_append, Option.mem_def, Option.or_eq_some_iff] at hc
    -- the first character is that of the text, or the slash if nothing is left of it
    rcases hc with hFirst | ⟨-, hSlashOnly⟩
    · exact h.start c (mem_head?_of_rdropWhile hFirst)
    · cases hSlashOnly
      exact hSlash
  · intro c hc
    rw [toList_hostAddress, List.getLast?_concat] at hc
    cases hc
    exact hSlash

/-- An address is its own address. -/
theorem hostAddress_hostAddress (host : String) :
    hostAddress (hostAddress host) = hostAddress host := by
  rw [← String.toList_inj, toList_hostAddress, toList_hostAddress,
    List.rdropWhile_concat_pos _ _ _ (by rfl), List.rdropWhile_idempotent]

/-- No address is empty. -/
theorem isEmpty_hostAddress (host : String) : (hostAddress host).isEmpty = false := by
  rw [Bool.eq_false_iff, ne_eq, String.isEmpty_iff, ← String.toList_eq_nil_iff, toList_hostAddress]
  exact List.concat_ne_nil _ _

end BuildQuery.Remote
