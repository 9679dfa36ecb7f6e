import BuildQuery.Proofs.Sequencing

/-!
# BuildQuery — a sequencer that is polled while results arrive

Results arrive at a queue, and the sequencer takes them from it when it is polled, at any pace. A
`Session` is the sequencer with its queue and the answers so far, and an `Event` is an arrival or a
poll. As long as every answer is a result the session is `Open`: it keeps account of all that has been
taken from the queue. The first other answer leaves it `Closed`, with nothing held back, and there it
stays, whatever arrives.

Main results:

* `poll_result` — what a poll takes from the queue when it answers a result.
* `open_or_closed` — every session is open or closed, by its answers.
* `session_of_events` — what an open session has taken, handed on and held back, what its next result
  takes, and what a closed session does from then on.
-/

namespace BuildQuery.Fetch

variable {α : Type}

-- ---------------------------------------------------------------------------
-- Sessions
-- ---------------------------------------------------------------------------

/-- What can happen to a sequencer and its queue. -/
inductive Event (α : Type) where
  | arrive (a : Arrival α)
  | poll

/-- The results that arrive, in order. -/
def Event.arrivals (events : List (Event α)) : List (Arrival α) :=
  events.filterMap fun
    | .arrive a => some a
    | .poll => none

/-- How many polls there are. -/
def Event.polls (events : List (Event α)) : Nat :=
  events.countP fun
    | .arrive _ => false
    | .poll => true

/-- A sequencer, the results that it has not taken, and what it has answered. -/
structure Session (α : Type) where
  sequencer : Sequencer α
  queue : List (Arrival α)
  answers : List (Answer α)

namespace Session

/-- Nothing has happened. -/
def start (count? : Option Nat) : Session α :=
  ⟨.start count?, [], []⟩

/-- A result goes to the end of the queue; a poll is answered from its front. -/
def step (s : Session α) : Event α → Session α
  | .arrive a => { s with queue := s.queue ++ [a] }
  | .poll =>
    let polled := s.sequencer.poll s.queue
    ⟨polled.sequencer, polled.queue, s.answers ++ [polled.answer]⟩

/-- The session after some events. -/
def after (s : Session α) (events : List (Event α)) : Session α :=
  events.foldl step s

/-- No poll has been answered by a violation or by the end. -/
def Live (s : Session α) : Prop :=
  ∀ o ∈ s.answers, ∃ a, o = .result a

end Session

-- ---------------------------------------------------------------------------
-- One poll
-- ---------------------------------------------------------------------------

namespace Sequencer

/-- Taking up to a result takes all arrivals before the first one whose turn it is. -/
theorem take_result {s later : Sequencer α} {queue rest : List (Arrival α)} {a : Arrival α}
    (h : s.take queue = ⟨.result a, later, rest⟩) :
    a.index = s.next ∧
      ∃ front, queue = front ++ a :: rest ∧ s.next ∉ front.map Arrival.index := by
  -- on the queue: what stands before the result whose turn it is is held back
  induction queue generalizing s with
  | nil =>
    rw [take, finish] at h
    split at h <;> cases h
  | cons b queue ih =>
    rw [take] at h
    split at h
    · cases h
    · split at h
      case isTrue hTurn =>
        cases h
        exact ⟨hTurn, [], rfl, List.not_mem_nil⟩
      case isFalse hTurn =>
        obtain ⟨hIndex, front, rfl, hFront⟩ := ih h
        refine ⟨hIndex, b :: front, rfl, ?_⟩
        rw [List.map_cons, List.mem_cons, not_or]
        exact ⟨Ne.symm hTurn, hFront⟩

/-- **What a result takes from the queue.** A poll hands on the result whose turn it is. It takes
nothing when that result is held back, and otherwise all up to the first arrival that is it. -/
theorem poll_result {s later : Sequencer α} {taken emitted queue rest : List (Arrival α)}
    {a : Arrival α} (hSound : s.Sound taken emitted) (h : s.poll queue = ⟨.result a, later, rest⟩) :
    a.index = s.next ∧
      if s.next ∈ s.held.map Arrival.index then rest = queue
      else ∃ front, queue = front ++ a :: rest ∧ s.next ∉ front.map Arrival.index := by
  rw [poll, if_neg (by simp [hSound.live])] at h
  split at h
  case h_1 b held hHeld =>
    split at h
    case isTrue hTurn =>
      cases h
      -- the awaited result is held back, so the poll takes nothing
      have hMem : s.next ∈ s.held.map Arrival.index := by
        rw [hHeld, ← hTurn]
        exact List.mem_cons_self
      rw [if_pos hMem]
      exact ⟨hTurn, rfl⟩
    case isFalse hTurn =>
      rw [if_neg (hSound.next_notMem_of_head hHeld hTurn)]
      exact take_result h
  case h_2 hHeld =>
    rw [if_neg (by simp [hHeld])]
    exact take_result h

end Sequencer

-- ---------------------------------------------------------------------------
-- Open and closed sessions
-- ---------------------------------------------------------------------------

namespace Session

/-- The sequencer keeps account of what it has taken from the queue, and has handed on its answers. -/
def Open (s : Session α) (count? : Option Nat) (arrived : List (Arrival α)) : Prop :=
  ∃ taken emitted, s.sequencer.Sound taken emitted ∧ s.sequencer.count? = count? ∧
    arrived = taken ++ s.queue ∧ s.answers = emitted.map .result

/-- The sequencer has ended, and an answer says so. -/
structure Closed (s : Session α) : Prop where
  ended : s.sequencer.ended = true
  empty : s.sequencer.held = []
  told  : ¬ s.Live

/-- An open session has answered by results only. -/
theorem live_of_open {s : Session α} {count? : Option Nat} {arrived : List (Arrival α)}
    (h : s.Open count? arrived) : s.Live := by
  obtain ⟨taken, emitted, -, -, -, hAnswers⟩ := h
  intro o ho
  rw [hAnswers] at ho
  obtain ⟨a, -, rfl⟩ := List.mem_map.mp ho
  exact ⟨a, rfl⟩

/-- An answer that is no result ends a session. -/
theorem not_live_concat {answers : List (Answer α)} {o : Answer α} (ho : ∀ a, o ≠ .result a)
    (sequencer : Sequencer α) (queue : List (Arrival α)) :
    ¬ Live ⟨sequencer, queue, answers ++ [o]⟩ := by
  intro hLive
  obtain ⟨a, ha⟩ := hLive o (by simp)
  exact ho a ha

/-- A sequencer that has come to the end of its arrivals holds nothing back. -/
theorem closed_of_finish (mid : Sequencer α) (answers : List (Answer α)) :
    Closed ⟨mid.finish.sequencer, mid.finish.queue, answers ++ [mid.finish.answer]⟩ := by
  unfold Sequencer.finish
  split
  · exact ⟨rfl, rfl, not_live_concat (by nofun) _ _⟩
  · next hNone =>
    -- no fault was found at the end, so nothing was held back
    have hEmpty : mid.held = [] := by
      unfold Sequencer.faultAtEnd at hNone
      split at hNone
      · next hEmpty => exact List.isEmpty_iff.mp hEmpty
      · cases hNone
    exact ⟨rfl, hEmpty, not_live_concat (by nofun) _ _⟩

/-- **One event.** An open session stays open, or is closed by the answer to a poll. -/
theorem step_of_open {s : Session α} {count? : Option Nat} {arrived : List (Arrival α)}
    (h : s.Open count? arrived) (event : Event α) :
    (s.step event).Open count? (arrived ++ Event.arrivals [event]) ∨ (s.step event).Closed := by
  obtain ⟨taken, emitted, hSound, hCount, hArrived, hAnswers⟩ := h
  cases event with
  | arrive a =>
    left
    refine ⟨taken, emitted, hSound, hCount, ?_, hAnswers⟩
    rw [hArrived, List.append_assoc]
    rfl
  | poll =>
    -- a poll hands a result on, or meets a fault, or comes to the end; the last two close the session
    have hPolled := Sequencer.answers_poll hSound s.queue
    show Open ⟨_, _, _⟩ _ _ ∨ Closed ⟨_, _, _⟩
    generalize s.sequencer.poll s.queue = polled at hPolled
    cases hPolled with
    | handedOn front rest a later hQueue hLater hSame hFewer =>
      left
      refine ⟨taken ++ front, emitted ++ [a], hLater, hSame.trans hCount, ?_, ?_⟩
      · have hTaken : arrived = (taken ++ front) ++ rest := by
          rw [hArrived, hQueue, List.append_assoc]
        exact (List.append_nil arrived).trans hTaken
      · rw [hAnswers, List.map_append]
        rfl
    | broken front rest a mid v hQueue hMid hSame hAwaited hFault =>
      right
      exact ⟨rfl, rfl, not_live_concat (by nofun) _ _⟩
    | atEnd mid hMid hSame hAwaited =>
      right
      exact closed_of_finish mid s.answers

/-- **All events.** A closed session answers every poll by the end, and leaves all that arrives in the
queue. -/
theorem after_of_closed {s : Session α} (h : s.Closed) (events : List (Event α)) :
    s.after events = ⟨s.sequencer, s.queue ++ Event.arrivals events,
      s.answers ++ List.replicate (Event.polls events) .finished⟩ := by
  induction events generalizing s with
  | nil => simp [after, Event.arrivals, Event.polls]
  | cons event events ih =>
    have hAfter : s.after (event :: events) = (s.step event).after events := rfl
    rw [hAfter]
    cases event with
    | arrive a =>
      -- what arrives stays in the queue
      have hStill : (s.step (.arrive a)).Closed := ⟨h.ended, h.empty, h.told⟩
      rw [ih hStill]
      simp [step, Event.arrivals, Event.polls]
    | poll =>
      have hStep : s.step .poll = ⟨s.sequencer, s.queue, s.answers ++ [.finished]⟩ := by
        rw [step, Sequencer.poll, if_pos h.ended]
      have hStill : (s.step .poll).Closed := by
        rw [hStep]
        refine ⟨h.ended, h.empty, not_live_concat ?_ _ _⟩
        intro a ha
        cases ha
      rw [ih hStill, hStep]
      simp [Event.arrivals, Event.polls, List.replicate_succ]

/-- An open session stays open until it is closed for good. -/
theorem after_of_open {s : Session α} {count? : Option Nat} {arrived : List (Arrival α)}
    (h : s.Open count? arrived) (events : List (Event α)) :
    (s.after events).Open count? (arrived ++ Event.arrivals events) ∨ (s.after events).Closed := by
  induction events generalizing s arrived with
  | nil =>
    left
    rw [Event.arrivals, List.filterMap_nil, List.append_nil]
    exact h
  | cons event events ih =>
    rcases step_of_open h event with hOpen | hClosed
    · have hAll := ih hOpen
      rw [List.append_assoc, Event.arrivals, Event.arrivals, ← List.filterMap_append] at hAll
      exact hAll
    · right
      show ((s.step event).after events).Closed
      -- an answer that has been given is never taken back
      have hTold : ¬ ((s.step event).after events).Live := by
        intro hLive
        refine hClosed.told fun o ho => hLive o ?_
        rw [after_of_closed hClosed]
        exact List.mem_append_left _ ho
      rw [after_of_closed hClosed] at hTold ⊢
      exact ⟨hClosed.ended, hClosed.empty, hTold⟩

/-- Every session is open or closed, and its answers say which. -/
theorem open_or_closed (count? : Option Nat) (events : List (Event α)) :
    ((start count?).after events).Open count? (Event.arrivals events) ∨
      ((start count?).after events).Closed := by
  have hStart : (start count? : Session α).Open count? [] :=
    ⟨[], [], Sequencer.sound_start count?, rfl, rfl, rfl⟩
  exact after_of_open hStart events

end Session

-- ---------------------------------------------------------------------------
-- All sessions
-- ---------------------------------------------------------------------------

/-- One more than the largest index that has arrived, and 0 before the first arrival. -/
def reach (arrivals : List (Arrival α)) : Nat :=
  arrivals.foldr (fun a n => max (a.index + 1) n) 0

/-- Every index that has arrived is below the reach. -/
theorem lt_reach_of_mem {arrivals : List (Arrival α)} {a : Arrival α} (h : a ∈ arrivals) :
    a.index < reach arrivals := by
  induction arrivals with
  | nil => cases h
  | cons b arrivals ih =>
    have hReach : reach (b :: arrivals) = max (b.index + 1) (reach arrivals) := rfl
    rcases List.mem_cons.mp h with rfl | h
    · omega
    · have := ih h
      omega

/-- What a sequencer has taken is what it has handed on, which are the first results by their indices,
and what it holds back, which are some of the next ones. -/
structure Tallied (s : Sequencer α) (count? : Option Nat) (taken emitted : List (Arrival α)) :
    Prop where
  account         : taken.Perm (emitted ++ s.held)
  emitted_indices : emitted.map Arrival.index = List.range s.next
  distinct        : (s.held.map Arrival.index).Nodup
  ahead           : ∀ a ∈ s.held, s.next ≤ a.index
  in_range        : ∀ count ∈ count?, ∀ a ∈ s.held, a.index < count
  bounded         : s.held.length ≤ reach taken - s.next

/-- Distinct numbers between two bounds are no more than the bounds are apart. -/
theorem length_le_of_between {indices : List Nat} {low high : Nat} (hNodup : indices.Nodup)
    (hLow : ∀ i ∈ indices, low ≤ i) (hHigh : ∀ i ∈ indices, i < high) :
    indices.length ≤ high - low := by
  have hSubset : indices ⊆ List.range' low (high - low) := by
    intro i hi
    have hAbove := hLow i hi
    have hBelow := hHigh i hi
    rw [List.mem_range'_1]
    omega
  have hLength := (List.subperm_of_subset hNodup hSubset).length_le
  rw [List.length_range'] at hLength
  exact hLength

/-- The account of a sequencer, as it is seen from outside. -/
theorem Sequencer.Sound.tallied {s : Sequencer α} {taken emitted : List (Arrival α)}
    (h : s.Sound taken emitted) : Tallied s s.count? taken emitted := by
  have hTaken : ∀ a ∈ s.held, a ∈ taken := fun a ha =>
    h.account.mem_iff.mpr (List.mem_append_right _ ha)
  have hDistinct : (s.held.map Arrival.index).Nodup := h.sorted.imp Nat.ne_of_lt
  have hAhead : ∀ i ∈ s.held.map Arrival.index, s.next ≤ i := fun i hi => h.next_le_of_held hi
  have hReach : ∀ i ∈ s.held.map Arrival.index, i < reach taken := by
    intro i hi
    obtain ⟨a, ha, rfl⟩ := List.mem_map.mp hi
    exact lt_reach_of_mem (hTaken a ha)
  have hBounded := length_le_of_between hDistinct hAhead hReach
  rw [List.length_map] at hBounded
  exact {
    account := h.account
    emitted_indices := h.emitted_indices
    distinct := hDistinct
    ahead := fun a ha => hAhead _ (List.mem_map_of_mem ha)
    in_range := fun count hCount a ha => h.orderly.in_range count hCount a (hTaken a ha)
    bounded := hBounded }

/-- **Arrivals and polls in any order.** As long as all answers are results, what has been taken from
the queue is what was answered and what is held back, and the next result takes only what stands in the
queue up to it. After any other answer every poll is answered by the end, and nothing is taken, handed
on or held back. -/
theorem session_of_events (count? : Option Nat) (events : List (Event α)) :
    let s := (Session.start count?).after events
    (s.Live → ∃ taken emitted, Event.arrivals events = taken ++ s.queue ∧
      s.answers = emitted.map .result ∧ Tallied s.sequencer count? taken emitted ∧
      ∀ a later rest, s.sequencer.poll s.queue = ⟨.result a, later, rest⟩ →
        a.index = s.sequencer.next ∧
        if s.sequencer.next ∈ s.sequencer.held.map Arrival.index then rest = s.queue
        else ∃ front, s.queue = front ++ a :: rest ∧
          s.sequencer.next ∉ front.map Arrival.index) ∧
    (¬ s.Live → s.sequencer.held = [] ∧ ∀ more,
      s.after more = ⟨s.sequencer, s.queue ++ Event.arrivals more,
        s.answers ++ List.replicate (Event.polls more) .finished⟩) := by
  intro s
  -- the answers say whether the session is open, so each half of the claim is about one of the two
  rcases Session.open_or_closed count? events with hOpen | hClosed
  · refine ⟨fun _ => ?_, fun hTold => absurd (Session.live_of_open hOpen) hTold⟩
    obtain ⟨taken, emitted, hSound, hCount, hArrived, hAnswers⟩ := hOpen
    have hTallied := hSound.tallied
    rw [hCount] at hTallied
    exact ⟨taken, emitted, hArrived, hAnswers, hTallied, fun a later rest hPoll =>
      Sequencer.poll_result hSound hPoll⟩
  · refine ⟨fun hLive => absurd hLive hClosed.told, fun _ => ?_⟩
    exact ⟨hClosed.empty, fun more => Session.after_of_closed hClosed more⟩

end BuildQuery.Fetch
