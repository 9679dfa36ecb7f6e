import BuildQuery.Proofs.Arrivals

/-!
# BuildQuery — what a sequencer hands on

A sequencer that has not ended keeps account of all arrivals that it has taken: it has handed on those
with the indices below `next`, and holds back the others in ascending order (`Sequencer.Sound`). A
poll does one of three things, and `Answers` says which: it hands on the result whose turn it is,
it meets an arrival that breaks a rule, or it comes to the end of the arrivals.

Main results:

* `polls_of_sound` — from any sound state, the answers to all further polls.
* `sequenced_arrivals` — the complete output for any arrivals, in any order, with gaps, repetitions
  and indices out of range.
* `sequenced_of_perm` — the output for arrivals that are complete.
-/

namespace BuildQuery.Fetch

variable {α : Type}

namespace Sequencer

-- ---------------------------------------------------------------------------
-- Results that are held back
-- ---------------------------------------------------------------------------

/-- Holding back a result puts it among the others. -/
theorem hold_perm (a : Arrival α) (held : List (Arrival α)) : (hold a held).Perm (a :: held) := by
  induction held with
  | nil => exact List.Perm.refl _
  | cons b held ih =>
    rw [hold]
    split
    · exact List.Perm.refl _
    · exact (ih.cons b).trans (List.Perm.swap a b held)

/-- Holding back a result with a new index keeps the indices in ascending order. -/
theorem hold_sorted {a : Arrival α} {held : List (Arrival α)}
    (hSorted : (held.map Arrival.index).Pairwise (· < ·))
    (hNew : a.index ∉ held.map Arrival.index) :
    ((hold a held).map Arrival.index).Pairwise (· < ·) := by
  induction held with
  | nil => exact List.pairwise_singleton _ _
  | cons b held ih =>
    rw [List.map_cons, List.pairwise_cons] at hSorted
    rw [List.map_cons, List.mem_cons, not_or] at hNew
    obtain ⟨hAhead, hRest⟩ := hSorted
    -- the result stands in front of the first one with a greater index
    rw [hold]
    split
    case isTrue hLt =>
      rw [List.map_cons, List.map_cons, List.pairwise_cons, List.pairwise_cons]
      refine ⟨?_, hAhead, hRest⟩
      intro i hi
      rcases List.mem_cons.mp hi with rfl | hi
      · exact hLt
      · exact lt_trans hLt (hAhead i hi)
    case isFalse hNotLt =>
      rw [List.map_cons, List.pairwise_cons]
      refine ⟨?_, ih hRest hNew.2⟩
      intro i hi
      rw [((hold_perm a held).map Arrival.index).mem_iff, List.map_cons, List.mem_cons] at hi
      rcases hi with rfl | hi
      · have := hNew.1
        omega
      · exact hAhead i hi

-- ---------------------------------------------------------------------------
-- The account of a sequencer
-- ---------------------------------------------------------------------------

/-- A sequencer that has not ended, after it has taken some arrivals and handed on some of them: the
arrivals keep the rules, those that were handed on are the first ones by their indices, and the
others are held back in ascending order. -/
structure Sound (s : Sequencer α) (taken emitted : List (Arrival α)) : Prop where
  live            : s.ended = false
  orderly         : Orderly s.count? taken
  emitted_indices : emitted.map Arrival.index = List.range s.next
  account         : taken.Perm (emitted ++ s.held)
  sorted          : (s.held.map Arrival.index).Pairwise (· < ·)

/-- At the start nothing has been taken. -/
theorem sound_start (count? : Option Nat) : (start count? : Sequencer α).Sound [] [] :=
  ⟨rfl, orderly_nil count?, rfl, List.Perm.refl _, List.Pairwise.nil⟩

namespace Sound

variable {s : Sequencer α} {taken emitted : List (Arrival α)}

/-- An index has arrived when it was handed on or is held back. -/
theorem mem_taken (h : s.Sound taken emitted) (i : Nat) :
    i ∈ taken.map Arrival.index ↔ i < s.next ∨ i ∈ s.held.map Arrival.index := by
  rw [(h.account.map Arrival.index).mem_iff, List.map_append, List.mem_append, h.emitted_indices,
    List.mem_range]

/-- What is held back is not overdue. -/
theorem next_le_of_held (h : s.Sound taken emitted) {i : Nat}
    (hi : i ∈ s.held.map Arrival.index) : s.next ≤ i := by
  have hNodup := (h.account.map Arrival.index).nodup_iff.mp h.orderly.nodup
  rw [List.map_append, List.nodup_append, h.emitted_indices] at hNodup
  by_contra hLt
  exact hNodup.2.2 i (List.mem_range.mpr (by omega)) i hi rfl

/-- The result whose turn it is is the first of those that are held back, or none of them. -/
theorem next_notMem_of_head (h : s.Sound taken emitted) {a : Arrival α} {held : List (Arrival α)}
    (hHeld : s.held = a :: held) (hTurn : a.index ≠ s.next) :
    s.next ∉ s.held.map Arrival.index := by
  intro hMem
  have hLe : s.next ≤ a.index := h.next_le_of_held (by simp [hHeld])
  have hSorted := h.sorted
  rw [hHeld, List.map_cons] at hMem hSorted
  rcases List.mem_cons.mp hMem with hEq | hMem
  · exact hTurn hEq.symm
  · have hLt := (List.pairwise_cons.mp hSorted).1 _ hMem
    omega

/-- The sequencer finds fault with just those arrivals that break a rule. -/
theorem faultOf_eq_none_iff (h : s.Sound taken emitted) (a : Arrival α) :
    s.faultOf a.index = none ↔ ¬ a.Breaks s.count? taken := by
  -- an index below next was handed on, so both ways to repeat one are seen
  rw [Arrival.Breaks, h.mem_taken, faultOf]
  split
  case isTrue hRepeated => exact iff_of_false (by simp) (not_not.mpr (Or.inl hRepeated))
  case isFalse hNew =>
    rw [or_iff_right hNew]
    cases s.count? with
    | none => simp
    | some count => simp

/-- One more arrival is one more of those that are held back. -/
theorem account_concat (h : s.Sound taken emitted) (a : Arrival α) :
    (taken ++ [a]).Perm (emitted ++ a :: s.held) := calc
  (taken ++ [a]).Perm ((emitted ++ s.held) ++ [a]) := h.account.append_right [a]
  _ = emitted ++ (s.held ++ [a]) := List.append_assoc ..
  List.Perm _ (emitted ++ a :: s.held) := (List.perm_append_singleton a s.held).append_left _

/-- An arrival that is ahead of its turn is held back. -/
theorem hold (h : s.Sound taken emitted) {a : Arrival α} (ha : ¬ a.Breaks s.count? taken) :
    Sound { s with held := Sequencer.hold a s.held } (taken ++ [a]) emitted where
  live := h.live
  orderly := h.orderly.concat ha
  emitted_indices := h.emitted_indices
  account := (h.account_concat a).trans ((hold_perm a s.held).symm.append_left _)
  sorted := by
    refine hold_sorted h.sorted fun hMem => ha (Or.inl ?_)
    exact (h.mem_taken a.index).mpr (Or.inr hMem)

/-- An arrival whose turn it is is handed on. -/
theorem emit (h : s.Sound taken emitted) {a : Arrival α} (ha : ¬ a.Breaks s.count? taken)
    (hTurn : a.index = s.next) :
    Sound { s with next := s.next + 1 } (taken ++ [a]) (emitted ++ [a]) where
  live := h.live
  orderly := h.orderly.concat ha
  emitted_indices := by
    rw [List.map_append, h.emitted_indices, List.map_singleton, hTurn, List.range_succ]
  account := by
    rw [← List.append_cons]
    exact h.account_concat a
  sorted := h.sorted

/-- A held result whose turn has come is handed on. -/
theorem release (h : s.Sound taken emitted) {a : Arrival α} {held : List (Arrival α)}
    (hHeld : s.held = a :: held) (hTurn : a.index = s.next) :
    Sound { s with held, next := s.next + 1 } taken (emitted ++ [a]) where
  live := h.live
  orderly := h.orderly
  emitted_indices := by
    rw [List.map_append, h.emitted_indices, List.map_singleton, hTurn, List.range_succ]
  account := by
    rw [List.append_assoc, List.singleton_append, ← hHeld]
    exact h.account
  sorted := by
    have hSorted := h.sorted
    rw [hHeld, List.map_cons, List.pairwise_cons] at hSorted
    exact hSorted.2

end Sound

-- ---------------------------------------------------------------------------
-- One poll
-- ---------------------------------------------------------------------------

/-- What a poll of a sound sequencer does. -/
inductive Answers (s : Sequencer α) (taken emitted queue : List (Arrival α)) : Polled α → Prop where
  /-- The arrivals `front` are taken, and the result whose turn it is is handed on. -/
  | handedOn (front rest : List (Arrival α)) (a : Arrival α) (s' : Sequencer α)
      (hQueue : queue = front ++ rest) (hSound : s'.Sound (taken ++ front) (emitted ++ [a]))
      (hCount : s'.count? = s.count?)
      (hFewer : s'.held.length + rest.length < s.held.length + queue.length) :
      Answers s taken emitted queue ⟨.result a, s', rest⟩
  /-- The arrivals `front` are held back, and the next one breaks a rule. -/
  | broken (front rest : List (Arrival α)) (a : Arrival α) (mid : Sequencer α) (v : Violation)
      (hQueue : queue = front ++ a :: rest) (hSound : mid.Sound (taken ++ front) emitted)
      (hCount : mid.count? = s.count?) (hAwaited : mid.next ∉ mid.held.map Arrival.index)
      (hFault : mid.faultOf a.index = some v) :
      Answers s taken emitted queue (mid.abandon v rest)
  /-- All arrivals are held back. -/
  | atEnd (mid : Sequencer α) (hSound : mid.Sound (taken ++ queue) emitted)
      (hCount : mid.count? = s.count?) (hAwaited : mid.next ∉ mid.held.map Arrival.index) :
      Answers s taken emitted queue mid.finish

/-- Holding back one more arrival puts it in front of those that are taken after it. -/
theorem Answers.of_hold {s : Sequencer α} {taken emitted queue : List (Arrival α)} {a : Arrival α}
    {p : Polled α}
    (h : Answers { s with held := hold a s.held } (taken ++ [a]) emitted queue p) :
    Answers s taken emitted (a :: queue) p := by
  cases h with
  | handedOn front rest b s' hQueue hSound hCount hFewer =>
    rw [List.append_assoc] at hSound
    refine .handedOn (a :: front) rest b s' (congrArg (a :: ·) hQueue) hSound hCount ?_
    have hHeld := (hold_perm a s.held).length_eq
    simp only [List.length_cons] at hFewer hHeld ⊢
    omega
  | broken front rest b mid v hQueue hSound hCount hAwaited hFault =>
    rw [List.append_assoc] at hSound
    exact .broken (a :: front) rest b mid v (congrArg (a :: ·) hQueue) hSound hCount hAwaited hFault
  | atEnd mid hSound hCount hAwaited =>
    rw [List.append_assoc] at hSound
    exact .atEnd mid hSound hCount hAwaited

/-- Taking from a queue holds back what is ahead of its turn, up to a decision. -/
theorem answers_take {s : Sequencer α} {taken emitted : List (Arrival α)}
    (h : s.Sound taken emitted) (hAwaited : s.next ∉ s.held.map Arrival.index)
    (queue : List (Arrival α)) : Answers s taken emitted queue (s.take queue) := by
  -- on the queue; the invariant is that the awaited result is not held back
  induction queue generalizing s taken with
  | nil =>
    rw [← List.append_nil taken] at h
    rw [Sequencer.take.eq_def]
    exact .atEnd s h rfl hAwaited
  | cons a queue ih =>
    rw [Sequencer.take.eq_def]
    dsimp only
    cases hFault : s.faultOf a.index with
    | some v =>
      rw [← List.append_nil taken] at h
      exact .broken [] queue a s v rfl h rfl hAwaited hFault
    | none =>
      have ha := (h.faultOf_eq_none_iff a).mp hFault
      dsimp only
      split
      case isTrue hTurn =>
        refine .handedOn [a] queue a _ rfl (h.emit ha hTurn) rfl ?_
        simp
      case isFalse hTurn =>
        -- a result ahead of its turn joins those held back, and is not the awaited one
        refine .of_hold (ih (h.hold ha) ?_)
        rw [((hold_perm a s.held).map Arrival.index).mem_iff, List.map_cons, List.mem_cons, not_or]
        exact ⟨fun hEq => hTurn hEq.symm, hAwaited⟩

/-- **One poll.** Every poll of a sound sequencer is of one of the three kinds. -/
theorem answers_poll {s : Sequencer α} {taken emitted : List (Arrival α)}
    (h : s.Sound taken emitted) (queue : List (Arrival α)) :
    Answers s taken emitted queue (s.poll queue) := by
  rw [poll, if_neg (by simp [h.live])]
  -- a result that is held back is handed on before anything is taken, if its turn has come
  cases hHeld : s.held with
  | nil => exact answers_take h (by simp [hHeld]) queue
  | cons a held =>
    dsimp only
    split
    case isTrue hTurn =>
      have hSound := h.release hHeld hTurn
      rw [← List.append_nil taken] at hSound
      refine .handedOn [] queue a _ rfl hSound rfl ?_
      simp [hHeld]
    case isFalse hTurn =>
      exact answers_take h (h.next_notMem_of_head hHeld hTurn) queue

-- ---------------------------------------------------------------------------
-- The decision
-- ---------------------------------------------------------------------------

section Decision

variable {mid : Sequencer α} {taken emitted rest : List (Arrival α)}

/-- No arrival that was taken breaks a rule, so the first that does is the next one. -/
theorem soundCount_of_sound (h : mid.Sound taken emitted)
    (hRest : ∀ a ∈ rest.head?, a.Breaks mid.count? taken) :
    soundCount mid.count? (taken ++ rest) = taken.length :=
  soundCount_eq h.orderly hRest

/-- When no more can be taken, the result whose turn it is is the first that is missing. -/
theorem readyCount_of_sound (h : mid.Sound taken emitted)
    (hAwaited : mid.next ∉ mid.held.map Arrival.index)
    (hRest : ∀ a ∈ rest.head?, a.Breaks mid.count? taken) :
    readyCount mid.count? (taken ++ rest) = mid.next := by
  rw [readyCount, soundCount_of_sound h hRest, List.take_left]
  apply leastMissing_eq
  · rw [h.mem_taken, not_or]
    exact ⟨lt_irrefl _, hAwaited⟩
  · intro i hi
    exact (h.mem_taken i).mpr (Or.inl hi)

/-- What was handed on had arrived, before any rule was broken. -/
theorem arrived_of_sound (h : mid.Sound taken emitted)
    (hRest : ∀ a ∈ rest.head?, a.Breaks mid.count? taken) :
    ∀ a ∈ emitted, a ∈ (taken ++ rest).take (soundCount mid.count? (taken ++ rest)) := by
  intro a ha
  rw [soundCount_of_sound h hRest, List.take_left, h.account.mem_iff, List.mem_append]
  exact Or.inl ha

/-- An arrival that breaks a rule is the only fault. -/
theorem delivery_broken {a : Arrival α} {v : Violation} (h : mid.Sound taken emitted)
    (hAwaited : mid.next ∉ mid.held.map Arrival.index) (hFault : mid.faultOf a.index = some v) :
    Delivery mid.count? (taken ++ a :: rest) emitted [v] := by
  -- a fault is found with those arrivals only that break a rule
  have hBreaks : a.Breaks mid.count? taken := by
    by_contra hKeeps
    rw [(h.faultOf_eq_none_iff a).mpr hKeeps] at hFault
    cases hFault
  have hRest : ∀ b ∈ (a :: rest).head?, b.Breaks mid.count? taken := by
    intro b hb
    rw [List.head?_cons, Option.mem_some_iff] at hb
    exact hb ▸ hBreaks
  have hSound := soundCount_of_sound h hRest
  have hLength : (taken ++ a :: rest).length = taken.length + (rest.length + 1) := by simp
  constructor
  case indices => rw [readyCount_of_sound h hAwaited hRest, h.emitted_indices]
  case arrived => exact arrived_of_sound h hRest
  case at_most_one => exact le_refl 1
  case faulty_iff =>
    refine iff_of_true (List.cons_ne_nil _ _) (Or.inl ?_)
    omega
  case stranded =>
    intro hAll
    omega

/-- At the end of the arrivals, what is held back is what has an index above the missing one. -/
theorem mem_held_iff (h : mid.Sound taken emitted) (i : Nat) :
    i ∈ mid.held.map Arrival.index ↔
      i ∈ taken.map Arrival.index ∧ i ∉ emitted.map Arrival.index := by
  rw [h.mem_taken, h.emitted_indices, List.mem_range]
  constructor
  · intro hi
    exact ⟨Or.inr hi, not_lt.mpr (h.next_le_of_held hi)⟩
  · rintro ⟨hLt | hi, hNotLt⟩
    · exact absurd hLt hNotLt
    · exact hi

/-- Something has arrived from behind the missing index just when something is held back. -/
theorem exists_above_iff (h : mid.Sound taken emitted)
    (hAwaited : mid.next ∉ mid.held.map Arrival.index) :
    (∃ a ∈ taken, mid.next < a.index) ↔ mid.held ≠ [] := by
  constructor
  · rintro ⟨a, ha, hLt⟩ hEmpty
    have hMem := (h.mem_taken a.index).mp (List.mem_map_of_mem ha)
    rw [hEmpty, List.map_nil] at hMem
    rcases hMem with hMem | hMem
    · omega
    · exact absurd hMem (List.not_mem_nil)
  · intro hHeld
    obtain ⟨a, ha⟩ := List.exists_mem_of_ne_nil _ hHeld
    have hIndex : a.index ∈ mid.held.map Arrival.index := List.mem_map_of_mem ha
    refine ⟨a, h.account.mem_iff.mpr (List.mem_append_right _ ha), ?_⟩
    have hLe := h.next_le_of_held hIndex
    have hNe : mid.next ≠ a.index := fun hEq => hAwaited (hEq ▸ hIndex)
    omega

/-- The end of the arrivals decides by what is held back and by the known number of results. -/
theorem delivery_atEnd (h : mid.Sound taken emitted)
    (hAwaited : mid.next ∉ mid.held.map Arrival.index) :
    Delivery mid.count? taken emitted mid.faultAtEnd.toList := by
  have hRest : ∀ a ∈ ([] : List (Arrival α)).head?, a.Breaks mid.count? taken := by simp
  have hSound := soundCount_of_sound h hRest
  have hReady := readyCount_of_sound h hAwaited hRest
  have hArrived := arrived_of_sound h hRest
  rw [List.append_nil] at hSound hReady hArrived
  have hAbove := exists_above_iff h hAwaited
  constructor
  case indices => rw [hReady, h.emitted_indices]
  case arrived => exact hArrived
  case at_most_one => exact Option.length_toList_le
  case faulty_iff =>
    rw [hSound, hReady, hAbove, or_iff_right (lt_irrefl _), faultAtEnd]
    -- results held back mean a gap; without any, only their number can be wrong
    cases hHeld : mid.held with
    | cons a held => simp
    | nil =>
      cases mid.count? with
      | none => simp
      | some count =>
        by_cases hEq : mid.next = count
        · simp [hEq]
        · simp [hEq, Ne.symm hEq]
  case stranded =>
    intro _ hExists
    rw [hReady, hAbove] at hExists
    refine ⟨mid.held.map Arrival.index, ?_, h.sorted, mem_held_iff h⟩
    rw [faultAtEnd, if_neg (by simp [hExists]), hReady]
    rfl

end Decision

-- ---------------------------------------------------------------------------
-- All polls
-- ---------------------------------------------------------------------------

/-- The answers to so many polls, one after the other. -/
def polls : Nat → Sequencer α → List (Arrival α) → List (Answer α)
  | 0, _, _ => []
  | n + 1, s, queue =>
    let polled := s.poll queue
    polled.answer :: polls n polled.sequencer polled.queue

/-- A sequencer that has ended stays so. -/
theorem polls_of_ended {s : Sequencer α} (h : s.ended = true) (n : Nat)
    (queue : List (Arrival α)) : s.polls n queue = List.replicate n .finished := by
  induction n with
  | zero => rfl
  | succ n ih =>
    rw [polls, poll, if_pos h, List.replicate_succ]
    exact congrArg _ ih

/-- At the end of the arrivals a fault is reported once, if there is one, and then the end. -/
theorem polls_of_finish {s mid : Sequencer α} {queue : List (Arrival α)}
    (hPoll : s.poll queue = mid.finish) (n : Nat) :
    s.polls (mid.faultAtEnd.toList.length + n) queue =
      mid.faultAtEnd.toList.map .violation ++ List.replicate n .finished := by
  rw [finish] at hPoll
  cases hFault : mid.faultAtEnd with
  | some v =>
    rw [hFault] at hPoll
    rw [Option.toList_some, List.length_singleton, Nat.add_comm, polls, hPoll]
    exact congrArg _ (polls_of_ended rfl n [])
  | none =>
    rw [hFault] at hPoll
    rw [Option.toList_none, List.length_nil, Nat.zero_add]
    cases n with
    | zero => rfl
    | succ n =>
      rw [polls, hPoll]
      exact congrArg _ (polls_of_ended rfl n [])

/-- **All polls.** A sound sequencer delivers what it has and what is still to come: first the
results, then a fault if there is one, and the end from then on. -/
theorem polls_of_sound {s : Sequencer α} {taken emitted : List (Arrival α)}
    (h : s.Sound taken emitted) (queue : List (Arrival α)) :
    ∃ items faults, Delivery s.count? (taken ++ queue) (emitted ++ items) faults ∧
      ∀ n, s.polls (items.length + faults.length + n) queue =
        items.map .result ++ faults.map .violation ++ List.replicate n .finished := by
  -- every result that is handed on leaves one arrival fewer, held back or in the queue
  induction hSize : s.held.length + queue.length using Nat.strong_induction_on
    generalizing s taken emitted queue with
  | _ size ih =>
    have hAnswers := answers_poll h queue
    generalize hPoll : s.poll queue = polled at hAnswers
    cases hAnswers with
    | handedOn front rest a s' hQueue hSound hCount hFewer =>
      rw [hSize] at hFewer
      obtain ⟨items, faults, hDelivery, hPolls⟩ := ih _ hFewer hSound rest rfl
      refine ⟨a :: items, faults, ?_, ?_⟩
      · rw [hCount, List.append_assoc, List.append_assoc, ← hQueue] at hDelivery
        exact hDelivery
      · intro n
        have hSucc : (a :: items).length + faults.length + n =
            items.length + faults.length + n + 1 := by
          rw [List.length_cons]
          omega
        rw [hSucc, polls, hPoll]
        exact congrArg _ (hPolls n)
    | broken front rest a mid v hQueue hSound hCount hAwaited hFault =>
      refine ⟨[], [v], ?_, ?_⟩
      · have hDelivery : Delivery mid.count? (taken ++ front ++ a :: rest) emitted [v] :=
          delivery_broken hSound hAwaited hFault
        rw [hCount, List.append_assoc, ← hQueue] at hDelivery
        rw [List.append_nil]
        exact hDelivery
      · intro n
        rw [show [].length + [v].length + n = n + 1 from by simp; omega, polls, hPoll]
        exact congrArg _ (polls_of_ended rfl n rest)
    | atEnd mid hSound hCount hAwaited =>
      refine ⟨[], mid.faultAtEnd.toList, ?_, ?_⟩
      · have hDelivery := delivery_atEnd hSound hAwaited
        rw [hCount] at hDelivery
        rw [List.append_nil]
        exact hDelivery
      · intro n
        rw [List.length_nil, Nat.zero_add]
        exact polls_of_finish hPoll n

/-- Polling up to the end gives the answers to so many polls, if the last of them is the first end. -/
theorem drainUpTo_of_polls {s : Sequencer α} {queue : List (Arrival α)} {outputs : List (Answer α)}
    {fuel : Nat} (hFuel : outputs.length < fuel) (hEnd : ∀ o ∈ outputs, o ≠ .finished)
    (hPolls : s.polls (outputs.length + 1) queue = outputs ++ [.finished]) :
    (drainUpTo fuel s queue).map Polled.answer = outputs ++ [.finished] := by
  -- on the answers before the end; each takes one poll of the fuel
  induction outputs generalizing s queue fuel with
  | nil =>
    obtain ⟨fuel, rfl⟩ : ∃ n, fuel = n + 1 := ⟨fuel - 1, by rw [List.length_nil] at hFuel; omega⟩
    have hAnswer : (s.poll queue).answer = .finished := (List.cons.inj hPolls).1
    rw [drainUpTo]
    split
    · rw [List.map_singleton, hAnswer]
      rfl
    · contradiction
  | cons o outputs ih =>
    obtain ⟨fuel, rfl⟩ : ∃ n, fuel = n + 1 := ⟨fuel - 1, by rw [List.length_cons] at hFuel; omega⟩
    obtain ⟨hAnswer, hRest⟩ := List.cons.inj hPolls
    rw [drainUpTo]
    split
    · rename_i hFinished
      exact absurd (hAnswer.symm.trans hFinished) (hEnd o (List.mem_cons_self ..))
    · rw [List.map_cons, hAnswer, ih (Nat.lt_of_succ_lt_succ hFuel)
        (fun p hp => hEnd p (List.mem_cons_of_mem _ hp)) hRest]
      rfl

end Sequencer

-- ---------------------------------------------------------------------------
-- The output
-- ---------------------------------------------------------------------------

open Sequencer in
/-- A sequencer that is polled up to the end and beyond makes a delivery of all arrivals. -/
theorem exists_delivery (count? : Option Nat) (arrivals : List (Arrival α)) :
    ∃ items faults, Delivery count? arrivals items faults ∧
      sequenced count? arrivals = items.map .result ++ faults.map .violation ++ [.finished] ∧
      ∀ n, (start count?).polls (items.length + faults.length + n) arrivals =
        items.map .result ++ faults.map .violation ++ List.replicate n .finished := by
  obtain ⟨items, faults, hDelivery, hPolls⟩ := polls_of_sound (sound_start count?) arrivals
  rw [List.nil_append, List.nil_append] at hDelivery
  refine ⟨items, faults, hDelivery, ?_, hPolls⟩
  have hItems := hDelivery.length_items_le
  have hFaults := hDelivery.at_most_one
  rw [sequenced, drain]
  apply drainUpTo_of_polls
  · rw [List.length_append, List.length_map, List.length_map, start, List.length_nil]
    omega
  · intro o ho
    rcases List.mem_append.mp ho with ho | ho
    · obtain ⟨a, -, rfl⟩ := List.mem_map.mp ho
      exact nofun
    · obtain ⟨v, -, rfl⟩ := List.mem_map.mp ho
      exact nofun
  · rw [List.length_append, List.length_map, List.length_map]
    exact hPolls 1

/-- **The complete output.** Whatever arrives, a sequencer hands on the results before the first index
that is missing, each as it came; then it reports a fault, if there is one; and then it has ended for
good. It reports none just when all results have arrived, each once. -/
theorem sequenced_arrivals (count? : Option Nat) (arrivals : List (Arrival α)) :
    ∃ items faults, Delivery count? arrivals items faults ∧
      sequenced count? arrivals = items.map .result ++ faults.map .violation ++ [.finished] ∧
      (∀ n, (Sequencer.start count?).polls (items.length + faults.length + n) arrivals =
        items.map .result ++ faults.map .violation ++ List.replicate n .finished) ∧
      (faults = [] ↔ (arrivals.map Arrival.index).Perm (List.range arrivals.length) ∧
        ∀ count ∈ count?, count = arrivals.length) ∧
      ∀ awaited held, (Violation.stranded awaited held).message =
        "stream ended while waiting for index " ++ Decimal.text awaited ++ "; stranded results: ["
          ++ ", ".intercalate (held.map Decimal.text) ++ "]" := by
  obtain ⟨items, faults, hDelivery, hSequenced, hPolls⟩ := exists_delivery count? arrivals
  exact ⟨items, faults, hDelivery, hSequenced, hPolls, hDelivery.flawless_iff, fun _ _ => rfl⟩

/-- Arrivals that are complete are handed on by their indices, without a fault. -/
theorem sequenced_of_perm {arrivals : List (Arrival α)} {n : Nat}
    (h : (arrivals.map Arrival.index).Perm (List.range n)) :
    ∃ items : List (Arrival α), items.map Arrival.index = List.range n ∧
      (∀ a ∈ items, a ∈ arrivals) ∧
      sequenced (some n) arrivals = items.map .result ++ [.finished] := by
  obtain ⟨items, faults, hDelivery, hSequenced, -⟩ := exists_delivery (some n) arrivals
  have hCount : ∀ count ∈ some n, count = n := fun count hMem => (Option.mem_some_iff.mp hMem).symm
  have hLength := h.length_eq
  rw [List.length_map, List.length_range] at hLength
  -- complete arrivals have no fault, by the law on deliveries
  have hFlawless : faults = [] := by
    rw [hDelivery.flawless_iff, hLength]
    exact ⟨h, hCount⟩
  subst hFlawless
  refine ⟨items, ?_, fun a ha => List.mem_of_mem_take (hDelivery.arrived a ha), ?_⟩
  · rw [hDelivery.indices, readyCount_of_perm h hCount]
  · rw [hSequenced, List.map_nil, List.append_nil]

end BuildQuery.Fetch
