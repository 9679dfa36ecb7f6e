import BuildQuery.Fetch.Sequencer
import Mathlib.Data.Fintype.EquivFin
import Mathlib.Data.Nat.Find

/-!
# BuildQuery — what a list of arrivals is worth

Two numbers decide what can be handed on from a list of arrivals, whatever is done with it later:

* `soundCount` — how many arrivals come before the first one that breaks a rule, because its index
  has arrived before or is not below the known number of results;
* `readyCount` — the least index that is missing among these.

Both are least numbers with a property, and `soundCount_eq` and `leastMissing_eq` recognise them. A
`Delivery` says what is handed on from arrivals, and what is found to be at fault with them.
-/

namespace BuildQuery.Fetch

variable {α : Type}

-- ---------------------------------------------------------------------------
-- The least number that is missing
-- ---------------------------------------------------------------------------

/-- Some number is not in a list. -/
theorem exists_missing (indices : List Nat) : ∃ i, i ∉ indices := by
  obtain ⟨i, hi⟩ := Infinite.exists_notMem_finset indices.toFinset
  exact ⟨i, fun h => hi (List.mem_toFinset.mpr h)⟩

/-- The least number that is not in a list. -/
def leastMissing (indices : List Nat) : Nat :=
  Nat.find (exists_missing indices)

/-- The least missing number is missing. -/
theorem leastMissing_notMem (indices : List Nat) : leastMissing indices ∉ indices :=
  Nat.find_spec (exists_missing indices)

/-- A number is the least missing one if it is missing and all below it are there. -/
theorem leastMissing_eq {indices : List Nat} {m : Nat} (hMissing : m ∉ indices)
    (hBelow : ∀ i < m, i ∈ indices) : leastMissing indices = m := by
  rw [leastMissing, Nat.find_eq_iff]
  exact ⟨hMissing, fun i hi => not_not.mpr (hBelow i hi)⟩

/-- Of the numbers up to a count, each listed once, the count is the first that is missing. -/
theorem leastMissing_of_perm {indices : List Nat} {n : Nat} (h : indices.Perm (List.range n)) :
    leastMissing indices = n := by
  apply leastMissing_eq
  · rw [h.mem_iff, List.mem_range]
    exact lt_irrefl n
  · intro i hi
    rw [h.mem_iff, List.mem_range]
    exact hi

-- ---------------------------------------------------------------------------
-- The first arrival that breaks a rule
-- ---------------------------------------------------------------------------

/-- An arrival breaks a rule when its index has arrived before, or when it is not below the known
number of results. -/
def Arrival.Breaks (count? : Option Nat) (before : List (Arrival α)) (a : Arrival α) : Prop :=
  a.index ∈ before.map Arrival.index ∨ ∃ count ∈ count?, count ≤ a.index

instance (count? : Option Nat) (before : List (Arrival α)) (a : Arrival α) :
    Decidable (a.Breaks count? before) :=
  inferInstanceAs (Decidable (_ ∨ _))

/-- Some count will do: behind all arrivals there is none left to keep the rules. -/
theorem exists_unsound (count? : Option Nat) (arrivals : List (Arrival α)) :
    ∃ k : Nat, ∀ a ∈ arrivals[k]?, Arrival.Breaks count? (arrivals.take k) a :=
  ⟨arrivals.length, by simp⟩

/-- How many arrivals come before the first one that breaks a rule; all of them if none does. -/
def soundCount (count? : Option Nat) (arrivals : List (Arrival α)) : Nat :=
  Nat.find (exists_unsound count? arrivals)

/-- Arrivals that keep the rules: no index twice, and all below the known number of results. -/
structure Orderly (count? : Option Nat) (arrivals : List (Arrival α)) : Prop where
  nodup    : (arrivals.map Arrival.index).Nodup
  in_range : ∀ count ∈ count?, ∀ a ∈ arrivals, a.index < count

/-- No arrivals keep the rules. -/
theorem orderly_nil (count? : Option Nat) : Orderly count? ([] : List (Arrival α)) :=
  ⟨List.nodup_nil, by simp⟩

/-- One more arrival keeps the rules just when it breaks none. -/
theorem Orderly.concat {count? : Option Nat} {arrivals : List (Arrival α)}
    (h : Orderly count? arrivals) {a : Arrival α} (ha : ¬ a.Breaks count? arrivals) :
    Orderly count? (arrivals ++ [a]) := by
  rw [Arrival.Breaks, not_or] at ha
  obtain ⟨hNew, hRange⟩ := ha
  push Not at hRange
  constructor
  · rw [List.map_append, List.map_singleton]
    exact List.nodup_append.mpr ⟨h.nodup, List.nodup_singleton _, by
      intro i hi j hj
      rw [List.mem_singleton] at hj
      subst hj
      exact fun hij => hNew (hij ▸ hi)⟩
  · intro count hCount b hb
    rcases List.mem_append.mp hb with hb | hb
    · exact h.in_range count hCount b hb
    · rw [List.mem_singleton] at hb
      rw [hb]
      exact hRange count hCount

/-- No arrival of a list that keeps the rules breaks one. -/
theorem Orderly.not_breaks {count? : Option Nat} {front rest : List (Arrival α)} {a : Arrival α}
    (h : Orderly count? (front ++ a :: rest)) : ¬ a.Breaks count? front := by
  rintro (hRepeated | ⟨count, hCount, hLe⟩)
  · have hNodup := h.nodup
    rw [List.map_append, List.nodup_append] at hNodup
    exact hNodup.2.2 _ hRepeated _ (by simp) rfl
  · have := h.in_range count hCount a (by simp)
    omega

/-- The arrivals up to the first one that breaks a rule are counted by `soundCount`. -/
theorem soundCount_eq {count? : Option Nat} {front rest : List (Arrival α)}
    (hFront : Orderly count? front) (hRest : ∀ a ∈ rest.head?, a.Breaks count? front) :
    soundCount count? (front ++ rest) = front.length := by
  rw [soundCount, Nat.find_eq_iff]
  constructor
  · -- the arrival behind the front breaks a rule, and no arrival inside the front does
    intro a ha
    rw [List.getElem?_append_right (le_refl _), Nat.sub_self, ← List.head?_eq_getElem?] at ha
    rw [List.take_left]
    exact hRest a ha
  · intro j hj hBreaks
    have hSplit : front = front.take j ++ front[j] :: front.drop (j + 1) := by
      rw [List.getElem_cons_drop, List.take_append_drop]
    have hAt := hBreaks front[j] (by
      rw [List.getElem?_append_left hj, List.getElem?_eq_getElem hj]
      rfl)
    rw [List.take_append_of_le_length (le_of_lt hj)] at hAt
    rw [hSplit] at hFront
    exact hFront.not_breaks hAt

/-- At most all arrivals come before the first that breaks a rule. -/
theorem soundCount_le (count? : Option Nat) (arrivals : List (Arrival α)) :
    soundCount count? arrivals ≤ arrivals.length :=
  Nat.find_min' _ (by simp)

/-- The arrivals before the first one that breaks a rule keep the rules. -/
theorem orderly_take {count? : Option Nat} {arrivals : List (Arrival α)} {j : Nat}
    (hj : j ≤ soundCount count? arrivals) : Orderly count? (arrivals.take j) := by
  -- on the number of arrivals: each of them breaks no rule, given those before it
  induction j with
  | zero => exact orderly_nil count?
  | succ j ih =>
    have hKeeps := Nat.find_min (exists_unsound count? arrivals) hj
    push Not at hKeeps
    obtain ⟨a, ha, hNot⟩ := hKeeps
    rw [List.take_add_one, Option.mem_def.mp ha]
    exact (ih (by omega)).concat hNot

/-- How many results can be handed on: all those before the first one that is missing, as long as no
rule is broken. -/
def readyCount (count? : Option Nat) (arrivals : List (Arrival α)) : Nat :=
  leastMissing ((arrivals.take (soundCount count? arrivals)).map Arrival.index)

section Complete

variable {count? : Option Nat} {arrivals : List (Arrival α)} {n : Nat}

/-- Arrivals that are complete keep the rules. -/
theorem orderly_of_perm (hPerm : (arrivals.map Arrival.index).Perm (List.range n))
    (hCount : ∀ count ∈ count?, count = n) : Orderly count? arrivals where
  nodup := hPerm.nodup_iff.mpr List.nodup_range
  in_range := by
    intro count hMem a ha
    rw [hCount count hMem, ← List.mem_range, ← hPerm.mem_iff]
    exact List.mem_map_of_mem ha

/-- No arrival breaks a rule if the arrivals are complete. -/
theorem soundCount_of_perm (hPerm : (arrivals.map Arrival.index).Perm (List.range n))
    (hCount : ∀ count ∈ count?, count = n) : soundCount count? arrivals = arrivals.length := by
  have hSound : soundCount count? (arrivals ++ []) = arrivals.length :=
    soundCount_eq (orderly_of_perm hPerm hCount) (by simp)
  rwa [List.append_nil] at hSound

/-- All results can be handed on if the arrivals are complete. -/
theorem readyCount_of_perm (hPerm : (arrivals.map Arrival.index).Perm (List.range n))
    (hCount : ∀ count ∈ count?, count = n) : readyCount count? arrivals = n := by
  rw [readyCount, soundCount_of_perm hPerm hCount, List.take_length, leastMissing_of_perm hPerm]

end Complete

-- ---------------------------------------------------------------------------
-- Deliveries
-- ---------------------------------------------------------------------------

/-- The results that are handed on from a list of arrivals, and the faults that are reported. -/
structure Delivery (count? : Option Nat) (arrivals items : List (Arrival α))
    (faults : List Violation) : Prop where
  /-- The results are handed on by their indices, up to the first one that is missing. -/
  indices     : items.map Arrival.index = List.range (readyCount count? arrivals)
  /-- Each of them is an arrival, as it came. -/
  arrived     : ∀ a ∈ items, a ∈ arrivals.take (soundCount count? arrivals)
  at_most_one : faults.length ≤ 1
  /-- A fault is an arrival that breaks a rule, a gap, or a wrong number of results. -/
  faulty_iff  : faults ≠ [] ↔ soundCount count? arrivals < arrivals.length ∨
    (∃ a ∈ arrivals, readyCount count? arrivals < a.index) ∨
    ∃ count ∈ count?, count ≠ readyCount count? arrivals
  /-- A gap is reported with all results behind it. -/
  stranded    : soundCount count? arrivals = arrivals.length →
    (∃ a ∈ arrivals, readyCount count? arrivals < a.index) →
    ∃ held, faults = [.stranded (readyCount count? arrivals) held] ∧ held.Pairwise (· < ·) ∧
      ∀ i, i ∈ held ↔ i ∈ arrivals.map Arrival.index ∧ i ∉ items.map Arrival.index

namespace Delivery

variable {count? : Option Nat} {arrivals items : List (Arrival α)} {faults : List Violation}

/-- No more is handed on than has arrived. -/
theorem length_items_le (h : Delivery count? arrivals items faults) :
    items.length ≤ arrivals.length := by
  have hNodup : items.Nodup := by
    apply List.Nodup.of_map Arrival.index
    rw [h.indices]
    exact List.nodup_range
  have hSubset : items ⊆ arrivals := fun a ha => List.mem_of_mem_take (h.arrived a ha)
  exact (List.subperm_of_subset hNodup hSubset).length_le

/-- When all arrivals keep the rules and none is behind the first index that is missing, their indices
are the numbers below it. -/
theorem perm_range (h : Delivery count? arrivals items faults)
    (hSound : soundCount count? arrivals = arrivals.length)
    (hNone : ∀ a ∈ arrivals, a.index ≤ readyCount count? arrivals) :
    (arrivals.map Arrival.index).Perm (List.range (readyCount count? arrivals)) := by
  have hAll : arrivals.take (soundCount count? arrivals) = arrivals := by
    rw [hSound, List.take_length]
  have hMissing := leastMissing_notMem (arrivals.map Arrival.index)
  rw [← hAll, ← readyCount, hAll] at hMissing
  have hOrderly : Orderly count? arrivals := hAll ▸ orderly_take (le_refl _)
  -- no index is there twice, so the two lists are compared by their members
  refine (List.perm_ext_iff_of_nodup hOrderly.nodup List.nodup_range).mpr fun i => ?_
  rw [List.mem_range]
  constructor
  · intro hi
    obtain ⟨a, ha, rfl⟩ := List.mem_map.mp hi
    have hNe : a.index ≠ readyCount count? arrivals := fun hEq => hMissing (hEq ▸ hi)
    have := hNone a ha
    omega
  · intro hi
    rw [← List.mem_range, ← h.indices] at hi
    obtain ⟨a, ha, rfl⟩ := List.mem_map.mp hi
    exact List.mem_map_of_mem (List.mem_of_mem_take (h.arrived a ha))

/-- **Flawless deliveries.** There is no fault just when the arrivals are all results, each once. -/
theorem flawless_iff (h : Delivery count? arrivals items faults) :
    faults = [] ↔ (arrivals.map Arrival.index).Perm (List.range arrivals.length) ∧
      ∀ count ∈ count?, count = arrivals.length := by
  rw [← not_not (a := faults = []), ← ne_eq, h.faulty_iff]
  push Not
  constructor
  · -- without a fault there is no broken rule, no gap and no wrong number
    rintro ⟨hSound, hNone, hCount⟩
    have hPerm := h.perm_range (le_antisymm (soundCount_le _ _) hSound) hNone
    have hLength := hPerm.length_eq
    rw [List.length_map, List.length_range] at hLength
    rw [hLength]
    exact ⟨hPerm, hCount⟩
  · rintro ⟨hPerm, hCount⟩
    rw [soundCount_of_perm hPerm hCount, readyCount_of_perm hPerm hCount]
    refine ⟨le_refl _, fun a ha => ?_, hCount⟩
    have hOrderly : Orderly (some arrivals.length) arrivals := orderly_of_perm hPerm (by simp)
    exact le_of_lt (hOrderly.in_range _ rfl a ha)

end Delivery

end BuildQuery.Fetch
