import BuildQuery.Proofs.PoolAccount
import BuildQuery.Proofs.Sequencing
import Mathlib.Algebra.GroupWithZero.Nat

/-!
# BuildQuery — the runs of a pool

As long as the consumer keeps its interest, a pool comes to its end by itself, whatever the order in
which its parties move: until the consumer has seen the end somebody can move
(`exists_move`), and every move uses up some of the effort that is left (`effort_lt_of_moves`). At the
end every index has been fetched once and every result has been received once
(`received_of_ended`), so that a sequencer hands all of them on in the order of the list.

Main results:

* `undisturbed_runs` — progress, termination and outcome of all runs in which nobody loses interest.
* `undisturbed_complete` — `complete` is one of them.
-/

namespace BuildQuery.Fetch

variable {α : Type}

namespace Pool

section

variable {plan : Plan α} {s s' : Pool α} {m : Move} {gone : List Nat}

-- ---------------------------------------------------------------------------
-- Interest
-- ---------------------------------------------------------------------------

/-- The consumer has not lost its interest. -/
structure Wanted (s : Pool α) : Prop where
  cancelled : s.cancelled = false
  hungUp    : s.hungUp = false

/-- At the start the consumer has its interest. -/
theorem wanted_start (plan : Plan α) : (start plan).Wanted :=
  ⟨rfl, rfl⟩

/-- Only two moves take the interest away. -/
theorem wanted_of_moves (h : s.Wanted) (hMoves : Moves plan s m s')
    (hInterest : m.keepsInterest = true) : s'.Wanted := by
  cases hMoves with
  | cancel => cases hInterest
  | hangUp => cases hInterest
  | _ => exact ⟨h.cancelled, h.hungUp⟩

/-- A consumer that has its interest waits for results until it has seen the end. -/
theorem Wanted.awaiting (h : s.Wanted) (hEnded : s.ended = false) : s.awaiting = true := by
  rw [Pool.awaiting, h.cancelled, h.hungUp, hEnded]
  rfl

/-- A run without these moves keeps the interest. -/
theorem wanted_of_follow {ms : List Move} (h : s.Wanted) (hRun : s.follow plan ms = some s')
    (hInterest : ∀ m ∈ ms, m.keepsInterest = true) : s'.Wanted := by
  induction ms generalizing s with
  | nil =>
    cases hRun
    exact h
  | cons m ms ih =>
    obtain ⟨mid, hStep, hRest⟩ := Option.bind_eq_some_iff.mp hRun
    have hMid := wanted_of_moves h (moves_of_step hStep) (hInterest m (List.mem_cons_self ..))
    exact ih hMid hRest fun m' hm' => hInterest m' (List.mem_cons_of_mem _ hm')

-- ---------------------------------------------------------------------------
-- Progress
-- ---------------------------------------------------------------------------

/-- A worker that is not done can move, if the channel is empty. -/
theorem exists_move_of_busy (h : s.Wanted) (hEnded : s.ended = false) (hChannel : s.channel = [])
    {w : Nat} {x : Worker α} (hWorker : s.workers[w]? = some x) (hBusy : x.isDone = false) :
    ∃ m s', m.keepsInterest = true ∧ Moves plan s m s' := by
  cases x with
  | idle => exact ⟨_, _, rfl, .goOn w hWorker h.cancelled⟩
  | willing =>
    rcases Nat.lt_or_ge s.cursor plan.count with hLeft | hLeft
    · exact ⟨_, _, rfl, .claim w hWorker hLeft⟩
    · exact ⟨_, _, rfl, .runOut w hWorker hLeft⟩
  | claimed i => exact ⟨_, _, rfl, .begin w i hWorker⟩
  | fetching i =>
    cases hFetch : plan.fetch i with
    | some outcome => exact ⟨_, _, rfl, .comeBack w i outcome hWorker hFetch⟩
    | none => exact ⟨_, _, rfl, .die w i hWorker hFetch⟩
  | sending a =>
    -- an empty channel has room, unless it never has any; then the consumer is there to take over
    rcases Nat.eq_zero_or_pos plan.capacity with hCapacity | hCapacity
    · exact ⟨_, _, rfl, .handOver w a hWorker (h.awaiting hEnded) hCapacity⟩
    · refine ⟨_, _, rfl, .send w a hWorker h.hungUp ?_⟩
      rw [hChannel]
      exact hCapacity
  | stopped => cases hBusy
  | lost => cases hBusy

/-- **Progress.** Until the consumer has seen the end, somebody can move. -/
theorem exists_move (h : s.Wanted) (hEnded : s.ended = false) :
    ∃ m s', m.keepsInterest = true ∧ Moves plan s m s' := by
  cases hChannel : s.channel with
  | cons a channel => exact ⟨_, _, rfl, .receive a channel hChannel (h.awaiting hEnded)⟩
  | nil =>
    -- with an empty channel it is a worker's turn, or the channel's once all workers are done
    by_cases hDone : s.workers.all Worker.isDone = true
    · cases hClosed : s.closed with
      | false => exact ⟨_, _, rfl, .close hClosed hDone⟩
      | true => exact ⟨_, _, rfl, .conclude (h.awaiting hEnded) hChannel hClosed⟩
    · rw [List.all_eq_true] at hDone
      push Not at hDone
      obtain ⟨x, hx, hBusy⟩ := hDone
      obtain ⟨w, hWorker⟩ := List.mem_iff_getElem?.mp hx
      exact exists_move_of_busy h hEnded hChannel hWorker (Bool.not_eq_true _ ▸ hBusy)

/-- Either the consumer has seen the end, or somebody can move. -/
theorem ended_or_exists_move (plan : Plan α) (h : s.Wanted) :
    s.ended = true ∨ ∃ m s', m.keepsInterest = true ∧ Moves plan s m s' := by
  cases hEnded : s.ended with
  | true => exact Or.inl rfl
  | false => exact Or.inr (exists_move h hEnded)

/-- When the consumer has seen the end, nobody can move. -/
theorem not_moves_of_ended (h : s.Sound plan gone) (hEnded : s.ended = true)
    (hInterest : m.keepsInterest = true) : ¬ Moves plan s m s' := by
  -- the channel is closed, so all workers are done, and it is empty
  obtain ⟨hClosed, hChannel⟩ := h.ended hEnded
  intro hMoves
  cases hMoves with
  | goOn w hWorker | obey w hWorker | claim w hWorker | runOut w hWorker | begin w i hWorker
  | comeBack w i outcome hWorker | die w i hWorker | send w a hWorker | handOver w a hWorker
  | giveUp w a hWorker => exact Bool.noConfusion (hClosed.symm.trans (h.closed_of_busy hWorker rfl))
  | close hOpen => exact Bool.noConfusion (hClosed.symm.trans hOpen)
  | receive a channel hMore =>
    rw [hChannel] at hMore
    cases hMore
  | conclude hAwaiting =>
    rw [Pool.awaiting, hEnded, Bool.not_true, Bool.and_false] at hAwaiting
    cases hAwaiting
  | cancel | hangUp => cases hInterest

/-- The runs that cannot go on are those in which the consumer has seen the end. -/
theorem ended_iff_stuck (hWanted : s.Wanted) (hSound : s.Sound plan gone) :
    s.ended = true ↔ ∀ m, m.keepsInterest = true → s.step plan m = none := by
  constructor
  · intro hEnded m hInterest
    rw [Option.eq_none_iff_forall_ne_some]
    exact fun s' hStep => not_moves_of_ended hSound hEnded hInterest (moves_of_step hStep)
  · -- before the end there would be a move, by progress
    intro hStuck
    rcases ended_or_exists_move plan hWanted with hEnded | ⟨m, s', hInterest, hMoves⟩
    · exact hEnded
    · have hStep := step_of_moves hMoves
      rw [hStuck m hInterest] at hStep
      cases hStep

end

end Pool

-- ---------------------------------------------------------------------------
-- Termination
-- ---------------------------------------------------------------------------

/-- The moves that a worker makes before it stops, if it claims nothing more; the last of them for a
result is made by the consumer. -/
def Worker.effort : Worker α → Nat
  | .idle => 2
  | .willing => 1
  | .claimed _ => 6
  | .fetching _ => 5
  | .sending _ => 4
  | .stopped => 0
  | .lost => 0

/-- What all entries sum up to changes with one entry by what that one counts. -/
theorem sum_map_set {β : Type} {l : List β} {w : Nat} {x : β} (h : l[w]? = some x) (y : β)
    (f : β → Nat) : ((l.set w y).map f).sum + f x = (l.map f).sum + f y := by
  induction l generalizing w with
  | nil => simp at h
  | cons z l ih =>
    -- the entry is the first one or further on
    cases w with
    | zero =>
      rw [List.getElem?_cons_zero, Option.some.injEq] at h
      rw [List.set_cons_zero, List.map_cons, List.map_cons, List.sum_cons, List.sum_cons, h]
      omega
    | succ w =>
      rw [List.getElem?_cons_succ] at h
      rw [List.set_cons_succ, List.map_cons, List.map_cons, List.sum_cons, List.sum_cons]
      have := ih h
      omega

namespace Pool

/-- What is left to do in a pool whose consumer keeps its interest. An index that has not been claimed
costs six moves: the worker that claims it goes from one move before its end to six. -/
def effort (plan : Plan α) (s : Pool α) : Nat :=
  6 * (plan.count - s.cursor) + (s.workers.map Worker.effort).sum + s.channel.length
    + (!s.closed).toNat + (!s.ended).toNat

/-- What is left at the start is the limit on the moves. -/
theorem effort_start (plan : Plan α) : effort plan (start plan) = moveLimit plan := by
  have hWorkers : ((start plan).workers.map Worker.effort).sum = plan.started * 2 := by
    rw [start, List.map_replicate, List.sum_replicate_nat]
    rfl
  rw [effort, hWorkers, moveLimit, Nat.mul_comm 2]
  rfl

section

variable {plan : Plan α} {s s' : Pool α} {m : Move} {gone : List Nat}

/-- A worker that moves changes what is left by what it needs itself. -/
theorem effort_moveTo {w : Nat} {x : Worker α} (hWorker : s.workers[w]? = some x) (y : Worker α) :
    (s.moveTo w y).effort plan + x.effort = s.effort plan + y.effort := by
  have hSum := sum_map_set hWorker y Worker.effort
  simp only [effort, moveTo]
  omega

/-- **Termination.** Every move of a pool whose consumer keeps its interest leaves less to do. -/
theorem effort_lt_of_moves (h : Moves plan s m s') (hInterest : m.keepsInterest = true) :
    s'.effort plan < s.effort plan := by
  -- a worker pays for its own move; a claim costs one index of six and gives the worker five more to do
  cases h with
  | goOn w hWorker hCancelled =>
    have hMoved : (s.moveTo w .willing).effort plan + 2 = s.effort plan + 1 :=
      effort_moveTo hWorker .willing
    omega
  | obey w hWorker hCancelled =>
    have hMoved : (s.moveTo w .stopped).effort plan + 2 = s.effort plan + 0 :=
      effort_moveTo hWorker .stopped
    omega
  | claim w hWorker hLeft =>
    have hMoved : (s.moveTo w (.claimed s.cursor)).effort plan + 1 = s.effort plan + 6 :=
      effort_moveTo hWorker (.claimed s.cursor)
    simp only [effort, moveTo] at hMoved ⊢
    omega
  | runOut w hWorker hLeft =>
    have hMoved : (s.moveTo w .stopped).effort plan + 1 = s.effort plan + 0 :=
      effort_moveTo hWorker .stopped
    simp only [effort, moveTo] at hMoved ⊢
    omega
  | begin w i hWorker =>
    have hMoved : (s.moveTo w (.fetching i)).effort plan + 6 = s.effort plan + 5 :=
      effort_moveTo hWorker (.fetching i)
    simp only [effort, moveTo] at hMoved ⊢
    omega
  | comeBack w i outcome hWorker hFetch =>
    have hMoved : (s.moveTo w (.sending ⟨i, outcome⟩)).effort plan + 5 = s.effort plan + 4 :=
      effort_moveTo hWorker (.sending ⟨i, outcome⟩)
    omega
  | die w i hWorker hFetch =>
    have hMoved : (s.moveTo w .lost).effort plan + 5 = s.effort plan + 0 :=
      effort_moveTo hWorker .lost
    omega
  | send w a hWorker hOpen hRoom =>
    have hMoved : (s.moveTo w .idle).effort plan + 4 = s.effort plan + 2 :=
      effort_moveTo hWorker .idle
    simp only [effort, moveTo, List.length_append, List.length_singleton] at hMoved ⊢
    omega
  | handOver w a hWorker hAwaiting hCapacity =>
    have hMoved : (s.moveTo w .idle).effort plan + 4 = s.effort plan + 2 :=
      effort_moveTo hWorker .idle
    simp only [effort, moveTo] at hMoved ⊢
    omega
  | giveUp w a hWorker hHungUp =>
    have hMoved : (s.moveTo w .stopped).effort plan + 4 = s.effort plan + 0 :=
      effort_moveTo hWorker .stopped
    omega
  | close hOpen hDone =>
    simp only [effort, hOpen, Bool.not_false, Bool.not_true, Bool.toNat_true, Bool.toNat_false]
    omega
  | receive a channel hChannel hAwaiting =>
    simp only [effort, hChannel, List.length_cons]
    omega
  | conclude hAwaiting hEmpty hClosed =>
    -- the consumer was waiting, so it had not seen the end before
    have hEnded : s.ended = false := by
      rw [Pool.awaiting, Bool.and_eq_true, Bool.not_eq_true'] at hAwaiting
      exact hAwaiting.2
    simp only [effort, hEnded, Bool.not_false, Bool.not_true, Bool.toNat_true, Bool.toNat_false]
    omega
  | cancel | hangUp => cases hInterest

/-- A run makes no more moves than there is effort left. -/
theorem length_of_follow {ms : List Move} (hRun : s.follow plan ms = some s')
    (hInterest : ∀ m ∈ ms, m.keepsInterest = true) :
    ms.length + s'.effort plan ≤ s.effort plan := by
  induction ms generalizing s with
  | nil =>
    cases hRun
    simp
  | cons m ms ih =>
    obtain ⟨mid, hStep, hRest⟩ := Option.bind_eq_some_iff.mp hRun
    -- the first move uses some of the effort up, the others have what it leaves
    have hLess := effort_lt_of_moves (moves_of_step hStep) (hInterest m (List.mem_cons_self ..))
    have hMore := ih hRest fun m' hm' => hInterest m' (List.mem_cons_of_mem _ hm')
    rw [List.length_cons]
    omega

-- ---------------------------------------------------------------------------
-- The end
-- ---------------------------------------------------------------------------

/-- Nothing is read off workers that are done. -/
theorem flatMap_of_done {γ : Type} {f : Worker α → List γ}
    (hDone : s.workers.all Worker.isDone = true) (hStopped : f .stopped = []) (hLost : f .lost = []) :
    s.workers.flatMap f = [] := by
  rw [List.flatMap_eq_nil_iff]
  intro x hx
  have hx := List.all_eq_true.mp hDone x hx
  cases x with
  | stopped => exact hStopped
  | lost => exact hLost
  | _ => cases hx

/-- At the end, what has been claimed has been fetched, and is with the consumer or gone. -/
theorem account_of_ended (h : s.Sound plan gone) (hEnded : s.ended = true) :
    s.begun.Perm (List.range (min s.cursor plan.count)) ∧
      (s.received.map Arrival.index ++ gone).Perm (List.range (min s.cursor plan.count)) := by
  obtain ⟨hClosed, hChannel⟩ := h.ended hEnded
  have hDone := h.closed hClosed
  have hFetches := h.fetches
  have hAccount := h.account
  rw [unbegun, flatMap_of_done hDone rfl rfl, List.append_nil] at hFetches
  -- no index is in hand and none in the channel, so all are with the consumer or gone
  rw [whereabouts, flatMap_of_done hDone rfl rfl, hChannel, List.map_nil, List.append_nil,
    List.append_nil] at hAccount
  exact ⟨hFetches, hAccount⟩

/-- If no fetch dies and nobody cancels, the workers stop only when all is claimed. -/
theorem count_le_cursor (h : s.Sound plan gone) (hWanted : s.Wanted)
    (hDone : s.workers.all Worker.isDone = true) (hLive : ∀ i < plan.count, plan.fetch i ≠ none) :
    plan.count ≤ s.cursor := by
  have hSome : s.workers ≠ [] := by
    intro hEmpty
    have hSize := h.size
    rw [hEmpty, List.length_nil, Plan.started] at hSize
    omega
  obtain ⟨x, hx⟩ := List.exists_mem_of_ne_nil _ hSome
  have hReason := h.workers x hx
  have hStop := List.all_eq_true.mp hDone x hx
  -- some worker has stopped, as none can be lost, and it had a reason to stop
  cases x with
  | stopped => exact hReason hWanted.cancelled
  | lost =>
    obtain ⟨i, hi, hDied⟩ := hReason
    exact absurd hDied (hLive i hi)
  | _ => cases hStop

/-- **All results.** If no fetch dies, each index has been fetched once and received once when the
consumer sees the end. -/
theorem received_of_ended (h : s.Sound plan gone) (hWanted : s.Wanted) (hEnded : s.ended = true)
    (hLive : ∀ i < plan.count, plan.fetch i ≠ none) :
    s.begun.Perm (List.range plan.count) ∧
      (s.received.map Arrival.index).Perm (List.range plan.count) := by
  have hCursor := count_le_cursor h hWanted (h.closed (h.ended hEnded).1) hLive
  obtain ⟨hBegun, hReceived⟩ := account_of_ended h hEnded
  rw [Nat.min_eq_right hCursor] at hBegun hReceived
  -- what is gone has died, and nothing dies
  have hNone : gone = [] := by
    rw [List.eq_nil_iff_forall_not_mem]
    intro i hi
    have hRange := hReceived.mem_iff.mp (List.mem_append_right _ hi)
    exact hLive i (List.mem_range.mp hRange) (h.died hWanted.hungUp i hi)
  rw [hNone, List.append_nil] at hReceived
  exact ⟨hBegun, hReceived⟩

end

-- ---------------------------------------------------------------------------
-- Undisturbed runs
-- ---------------------------------------------------------------------------

/-- The results for some locators, in the order of the list. -/
def resultsOf (locators : List String) (fetch : String → α) : List (Arrival α) :=
  locators.mapIdx fun i locator => ⟨i, fetch locator⟩

/-- Results with the indices of a list, each of them what the fetch of its locator gives. -/
theorem eq_resultsOf {locators : List String} {fetch : String → α} {items : List (Arrival α)}
    (hIndices : items.map Arrival.index = List.range locators.length)
    (hResults : ∀ a ∈ items, locators[a.index]?.bind (fun l => some (fetch l)) = some a.outcome) :
    items = resultsOf locators fetch := by
  have hLength := congrArg List.length hIndices
  rw [List.length_map, List.length_range] at hLength
  refine List.ext_getElem (by rw [resultsOf, List.length_mapIdx, hLength]) fun i hi hi' => ?_
  -- the indices are those of the list in order, so each result stands at its own index
  have hIndex : items[i].index = i := by
    have hAt := congrArg (·[i]?) hIndices
    rw [List.getElem?_map, List.getElem?_eq_getElem hi, List.getElem?_range (hLength ▸ hi)] at hAt
    exact Option.some.inj hAt
  have hOutcome := hResults items[i] (List.getElem_mem hi)
  rw [hIndex, List.getElem?_eq_getElem (hLength ▸ hi), Option.bind_some, Option.some.injEq] at hOutcome
  simp only [resultsOf, List.getElem_mapIdx, hOutcome]
  exact congrArg (Arrival.mk · items[i].outcome) hIndex

/-- A run from the start in which the consumer keeps its interest. -/
structure Undisturbed (plan : Plan α) (ms : List Move) (s : Pool α) : Prop where
  run      : (start plan).follow plan ms = some s
  interest : ∀ m ∈ ms, m.keepsInterest = true

namespace Undisturbed

variable {plan : Plan α} {ms : List Move} {s : Pool α}

/-- In an undisturbed run the consumer keeps its interest. -/
theorem wanted (h : Undisturbed plan ms s) : s.Wanted :=
  wanted_of_follow (wanted_start plan) h.run h.interest

/-- An undisturbed run keeps the account. -/
theorem sound (h : Undisturbed plan ms s) : ∃ gone, s.Sound plan gone :=
  sound_of_follow (sound_start plan) h.run

/-- An undisturbed run makes no more moves than there is to do at its start. -/
theorem length_le (h : Undisturbed plan ms s) : ms.length ≤ moveLimit plan := by
  have hLength := length_of_follow h.run h.interest
  rw [effort_start] at hLength
  exact Nat.le_trans (Nat.le_add_right _ _) hLength

/-- An undisturbed run can go on until the consumer has seen the end. -/
theorem exists_step (h : Undisturbed plan ms s) (hEnded : s.ended = false) :
    ∃ m s', m.keepsInterest = true ∧ s.step plan m = some s' := by
  obtain ⟨m, s', hInterest, hMoves⟩ := exists_move h.wanted hEnded
  exact ⟨m, s', hInterest, step_of_moves hMoves⟩

/-- At its end a run over locators has fetched each of them once, and the results are handed on in the
order of the list. -/
theorem sequenced_of_ended {locators : List String} {fetch : String → α} {workers capacity : Nat}
    (h : Undisturbed (.ofLocators locators (fun l => some (fetch l)) workers capacity) ms s)
    (hEnded : s.ended = true) :
    s.begun.Perm (List.range locators.length) ∧
      sequenced (some locators.length) s.received =
        (resultsOf locators fetch).map .result ++ [.finished] := by
  obtain ⟨gone, hSound⟩ := h.sound
  have hLive : ∀ i < locators.length, locators[i]?.bind (fun l => some (fetch l)) ≠ none := by
    intro i hi
    rw [List.getElem?_eq_getElem hi]
    exact Option.some_ne_none _
  obtain ⟨hBegun, hReceived⟩ := received_of_ended hSound h.wanted hEnded hLive
  obtain ⟨items, hIndices, hArrived, hSequenced⟩ := sequenced_of_perm hReceived
  have hItems : items = resultsOf locators fetch :=
    eq_resultsOf hIndices fun a ha => hSound.results a (List.mem_append_left _ (hArrived a ha))
  rw [← hItems]
  exact ⟨hBegun, hSequenced⟩

end Undisturbed

-- ---------------------------------------------------------------------------
-- The run that is made
-- ---------------------------------------------------------------------------

section

variable {plan : Plan α} {s s' : Pool α} {m : Move} {gone : List Nat}

/-- No move that is tried takes the interest away. -/
theorem keepsInterest_of_mem_moves (hm : m ∈ moves plan) : m.keepsInterest = true := by
  rw [moves, List.cons_append, List.mem_cons, List.mem_append, List.mem_flatMap] at hm
  rcases hm with rfl | ⟨w, -, hm⟩ | hm
  · rfl
  · simp only [workerMoves, List.mem_cons, List.not_mem_nil, or_false] at hm
    rcases hm with rfl | rfl | rfl | rfl | rfl | rfl <;> rfl
  · simp only [List.mem_cons, List.not_mem_nil, or_false] at hm
    rcases hm with rfl | rfl <;> rfl

/-- All moves of all workers are tried. -/
theorem mem_moves_of_worker {w : Nat} {x : Worker α} (h : s.Sound plan gone)
    (hWorker : s.workers[w]? = some x) (hm : m ∈ workerMoves w) : m ∈ moves plan := by
  have hLt := (List.getElem?_eq_some_iff.mp hWorker).1
  rw [h.size] at hLt
  exact List.mem_cons_of_mem _ (List.mem_append_left _
    (List.mem_flatMap.mpr ⟨w, List.mem_range.mpr hLt, hm⟩))

/-- The moves that are tried are all that can be made. -/
theorem mem_moves_of_moves (h : s.Sound plan gone) (hWanted : s.Wanted) (hMoves : Moves plan s m s')
    (hInterest : m.keepsInterest = true) : m ∈ moves plan := by
  cases hMoves with
  | goOn w hWorker | obey w hWorker | claim w hWorker | runOut w hWorker | begin w i hWorker
  | comeBack w i outcome hWorker | die w i hWorker | send w a hWorker | handOver w a hWorker =>
    exact mem_moves_of_worker h hWorker (by simp [workerMoves])
  | giveUp w a hWorker hHungUp => exact Bool.noConfusion (hWanted.hungUp.symm.trans hHungUp)
  | close | receive | conclude => simp [moves]
  | cancel | hangUp => cases hInterest

/-- The move that is found can be made. -/
theorem moves_of_next {s' : Pool α} (hNext : s.next? plan = some s') :
    ∃ m, m.keepsInterest = true ∧ Moves plan s m s' := by
  obtain ⟨m, hm, hStep⟩ := List.exists_of_findSome?_eq_some hNext
  exact ⟨m, keepsInterest_of_mem_moves hm, moves_of_step hStep⟩

/-- If no move is found the consumer has seen the end. -/
theorem ended_of_next (h : s.Sound plan gone) (hWanted : s.Wanted) (hNext : s.next? plan = none) :
    s.ended = true := by
  rcases ended_or_exists_move plan hWanted with hEnded | ⟨m, s', hInterest, hMoves⟩
  · exact hEnded
  · have hStep := step_of_moves hMoves
    have hTried := mem_moves_of_moves h hWanted hMoves hInterest
    rw [List.findSome?_eq_none_iff.mp hNext m hTried] at hStep
    cases hStep

/-- With as many moves as there is effort left, a run comes to its end. -/
theorem exists_follow_run {n : Nat} (h : s.Sound plan gone) (hWanted : s.Wanted)
    (hEffort : s.effort plan ≤ n) :
    ∃ ms, s.follow plan ms = some (run plan n s) ∧ (∀ m ∈ ms, m.keepsInterest = true) ∧
      (run plan n s).ended = true := by
  -- on the moves that may still be made; there are enough of them for the effort that is left
  induction n generalizing s gone with
  | zero =>
    refine ⟨[], rfl, by simp, ?_⟩
    rw [run]
    rcases ended_or_exists_move plan hWanted with hEnded | ⟨m, s', hInterest, hMoves⟩
    · exact hEnded
    · have := effort_lt_of_moves hMoves hInterest
      omega
  | succ n ih =>
    rw [run]
    cases hNext : s.next? plan with
    | none => exact ⟨[], rfl, by simp, ended_of_next h hWanted hNext⟩
    | some s' =>
      obtain ⟨m, hInterest, hMoves⟩ := moves_of_next hNext
      obtain ⟨gone', hSound⟩ := sound_of_moves h hMoves
      have hLess := effort_lt_of_moves hMoves hInterest
      obtain ⟨ms, hRun, hKeeps, hEnded⟩ :=
        ih hSound (wanted_of_moves hWanted hMoves hInterest) (by omega)
      refine ⟨m :: ms, ?_, ?_, hEnded⟩
      · rw [follow, step_of_moves hMoves]
        exact hRun
      · intro m' hm'
        rcases List.mem_cons.mp hm' with rfl | hm'
        · exact hInterest
        · exact hKeeps m' hm'

end

/-- `complete` is an undisturbed run to its end. -/
theorem undisturbed_complete (plan : Plan α) :
    ∃ ms, Undisturbed plan ms (complete plan) ∧ (complete plan).ended = true := by
  obtain ⟨ms, hRun, hKeeps, hEnded⟩ :=
    exists_follow_run (sound_start plan) (wanted_start plan) (Nat.le_of_eq (effort_start plan))
  exact ⟨ms, ⟨hRun, hKeeps⟩, hEnded⟩

-- ---------------------------------------------------------------------------
-- All runs
-- ---------------------------------------------------------------------------

/-- **Undisturbed runs.** A pool over any locators, with any number of workers and any channel, in
whatever order its parties move: it can move until the consumer has seen the end, it comes to that
end, and then every locator has been fetched once and the results are handed on in the order of the
list, each of them what its fetch gives. -/
theorem undisturbed_runs {locators : List String} {fetch : String → α} {workers capacity : Nat}
    {ms : List Move} {s : Pool α}
    (h : Undisturbed (.ofLocators locators (fun l => some (fetch l)) workers capacity) ms s) :
    let plan : Plan α := .ofLocators locators (fun l => some (fetch l)) workers capacity
    ms.length ≤ moveLimit plan ∧
      (s.ended = false → ∃ m s', m.keepsInterest = true ∧ s.step plan m = some s') ∧
      ((∀ m, m.keepsInterest = true → s.step plan m = none) →
        s.ended = true ∧ s.begun.Perm (List.range locators.length) ∧
        sequenced (some locators.length) s.received =
          (resultsOf locators fetch).map .result ++ [.finished]) := by
  intro plan
  obtain ⟨gone, hSound⟩ := h.sound
  refine ⟨h.length_le, h.exists_step, ?_⟩
  intro hStuck
  have hEnded := (ended_iff_stuck h.wanted hSound).mpr hStuck
  exact ⟨hEnded, h.sequenced_of_ended hEnded⟩

/-- Two workers, a channel that holds nothing: the second locator fails and is handed over first. -/
theorem undisturbed_runs_two_locators :
    ∃ ms s, Undisturbed (.ofLocators ["a", "b"]
        (fun l => some (if l = "b" then Except.error "down" else .ok l)) 2 0) ms s ∧
      s.begun.Perm [0, 1] ∧
      sequenced (some 2) s.received =
        [.result ⟨0, .ok "a"⟩, .result ⟨1, .error "down"⟩, .finished] := by
  have h : Undisturbed (.ofLocators ["a", "b"]
      (fun l => some (if l = "b" then Except.error "down" else .ok l)) 2 0)
      [.check 0, .check 1, .claim 0, .claim 1, .begin 1, .finish 1, .handOver 1, .begin 0, .finish 0,
        .handOver 0, .check 1, .claim 1, .check 0, .claim 0, .close, .conclude]
      ⟨4, [.stopped, .stopped], [], false, false, true, true, [1, 0],
        [⟨1, .error "down"⟩, ⟨0, .ok "a"⟩]⟩ := ⟨rfl, by decide⟩
  obtain ⟨gone, hSound⟩ := h.sound
  obtain ⟨-, -, hEnd⟩ := undisturbed_runs h
  obtain ⟨-, hBegun, hSequenced⟩ := hEnd ((ended_iff_stuck h.wanted hSound).mp rfl)
  exact ⟨_, _, h, hBegun, hSequenced⟩

end Pool

end BuildQuery.Fetch
