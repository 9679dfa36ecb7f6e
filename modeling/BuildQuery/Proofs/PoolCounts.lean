import BuildQuery.Proofs.PoolRuns
import Mathlib.Algebra.Order.BigOperators.Group.List
import Mathlib.Algebra.Order.Group.Nat

/-!
# BuildQuery — how many results a pool has

An index that has been claimed is with the consumer, in the channel, with a worker, or lost on the way.
`Pool.Counted` counts them from below and from above. A worker has at most one of them at a time, and one
that was lost has taken exactly one along; one that has stopped may have been left with one, if the
consumer had hung up by then. What stood in the channel when the consumer hung up is not known any more,
but it was no more than the channel holds.

* `counted_of_moves` — a move keeps both counts, whether or not the consumer keeps its interest.
* `counted_of_follow` — so does a run.
-/

namespace BuildQuery.Fetch

variable {α : Type}

namespace Worker

/-- A worker has claimed at least so many indices that it has not passed on. -/
def least : Worker α → Nat
  | .claimed _ => 1
  | .fetching _ => 1
  | .sending _ => 1
  | .lost => 1
  | _ => 0

/-- A worker has claimed at most so many indices that it has not passed on. -/
def most : Worker α → Nat
  | .idle => 0
  | .willing => 0
  | _ => 1

/-- A worker has at most one index in hand. -/
theorem most_le_one (x : Worker α) : x.most ≤ 1 := by
  cases x <;> simp [most]

end Worker

namespace Pool

-- ---------------------------------------------------------------------------
-- What all workers have together
-- ---------------------------------------------------------------------------

/-- What all workers together have of something. -/
def total (f : Worker α → Nat) (s : Pool α) : Nat :=
  (s.workers.map f).sum

section

variable {plan : Plan α} {s s' : Pool α} {m : Move}

/-- A worker that moves changes the total by what it has itself. -/
theorem total_moveTo {w : Nat} {x : Worker α} (hWorker : s.workers[w]? = some x) (y : Worker α)
    (f : Worker α → Nat) : (s.moveTo w y).total f + f x = s.total f + f y :=
  sum_map_set hWorker y f

/-- At the start all workers are idle. -/
theorem total_start (plan : Plan α) (f : Worker α → Nat) :
    (start plan).total f = plan.started * f .idle := by
  rw [total, start, List.map_replicate, List.sum_replicate_nat]

/-- The total of workers that all have the same. -/
theorem total_of_all {f : Worker α → Nat} {n : Nat} (h : ∀ x ∈ s.workers, f x = n) :
    s.total f = s.workers.length * n := by
  rw [total, List.map_congr_left h, List.map_const', List.sum_replicate_nat]

/-- All workers together have at most one index each. -/
theorem total_most_le (s : Pool α) : s.total Worker.most ≤ s.workers.length := by
  have hSum := List.sum_le_card_nsmul (s.workers.map Worker.most) 1 fun n hn => by
    obtain ⟨x, -, rfl⟩ := List.mem_map.mp hn
    exact x.most_le_one
  rw [List.length_map] at hSum
  exact hSum.trans (Nat.le_of_eq (Nat.mul_one _))

-- ---------------------------------------------------------------------------
-- The counts
-- ---------------------------------------------------------------------------

/-- The results in the channel, or as many as may have stood there when the consumer hung up. -/
def stored (plan : Plan α) (s : Pool α) : Nat :=
  if s.hungUp then plan.capacity else s.channel.length

/-- As long as the consumer has not hung up, the channel says what is stored. -/
theorem stored_of_open (h : s.hungUp = false) : s.stored plan = s.channel.length := by
  rw [stored, h, if_neg Bool.false_ne_true]

/-- The indices that have been claimed, counted by where they are. -/
structure Counted (plan : Plan α) (s : Pool α) : Prop where
  room  : s.channel.length ≤ plan.capacity
  least : s.received.length + s.channel.length + s.total Worker.least ≤ min s.cursor plan.count
  most  : min s.cursor plan.count ≤ s.received.length + s.stored plan + s.total Worker.most

/-- At the start there is nothing to count. -/
theorem counted_start (plan : Plan α) : (start plan).Counted plan := by
  refine ⟨Nat.zero_le _, ?_, ?_⟩
  · rw [total_start]
    exact Nat.zero_le _
  · rw [start, Nat.zero_min]
    exact Nat.zero_le _

/-- A worker that goes on with what it has, or stops without anything, leaves the counts as they are. -/
theorem counted_of_keep (h : s.Counted plan) {w : Nat} {x y : Worker α}
    (hWorker : s.workers[w]? = some x) (hLeast : y.least = x.least) (hMost : x.most ≤ y.most) :
    (s.moveTo w y).Counted plan := by
  have hBelow := total_moveTo hWorker y Worker.least
  have hAbove := total_moveTo hWorker y Worker.most
  obtain ⟨hRoom, hFew, hMany⟩ := h
  -- the lower count is the same, and the upper one may only grow
  refine ⟨hRoom, ?_, ?_⟩
  · show s.received.length + s.channel.length + _ ≤ min s.cursor plan.count
    omega
  · show min s.cursor plan.count ≤ s.received.length + s.stored plan + _
    omega

/-- A result that a worker passes on is counted at its new place. -/
theorem counted_of_passOn (h : s.Counted plan) (hOpen : s.hungUp = false) {w : Nat} {a : Arrival α}
    (hWorker : s.workers[w]? = some (.sending a)) {channel received : List (Arrival α)}
    (hRoom : channel.length ≤ plan.capacity)
    (hPlaces : received.length + channel.length = s.received.length + s.channel.length + 1) :
    Counted plan { s.moveTo w .idle with channel, received } := by
  have hBelow : (s.moveTo w .idle).total Worker.least + 1 = s.total Worker.least + 0 :=
    total_moveTo hWorker .idle Worker.least
  have hAbove : (s.moveTo w .idle).total Worker.most + 1 = s.total Worker.most + 0 :=
    total_moveTo hWorker .idle Worker.most
  obtain ⟨-, hFew, hMany⟩ := h
  rw [stored_of_open hOpen] at hMany
  refine ⟨hRoom, ?_, ?_⟩
  · show received.length + channel.length + (s.moveTo w .idle).total Worker.least ≤
      min s.cursor plan.count
    omega
  · rw [stored_of_open (s := { s.moveTo w .idle with channel, received }) hOpen]
    show min s.cursor plan.count ≤
      received.length + channel.length + (s.moveTo w .idle).total Worker.most
    omega

/-- A consumer that waits for results has not hung up. -/
theorem hungUp_of_awaiting (h : s.awaiting = true) : s.hungUp = false := by
  rw [awaiting, Bool.and_eq_true, Bool.and_eq_true, Bool.not_eq_true', Bool.not_eq_true'] at h
  exact h.1.2

/-- **The counts are kept.** Whatever moves, an index that has been claimed is counted once. -/
theorem counted_of_moves (h : s.Counted plan) (hMoves : Moves plan s m s') : s'.Counted plan := by
  cases hMoves with
  | goOn w hWorker hCancelled => exact counted_of_keep h hWorker rfl (le_refl _)
  | obey w hWorker hCancelled => exact counted_of_keep h hWorker rfl (Nat.zero_le _)
  | claim w hWorker hLeft =>
    have hBelow : (s.moveTo w (.claimed s.cursor)).total Worker.least + 0 = _ + 1 :=
      total_moveTo hWorker (.claimed s.cursor) Worker.least
    have hAbove : (s.moveTo w (.claimed s.cursor)).total Worker.most + 0 = _ + 1 :=
      total_moveTo hWorker (.claimed s.cursor) Worker.most
    obtain ⟨hRoom, hFew, hMany⟩ := h
    refine ⟨hRoom, ?_, ?_⟩
    · show s.received.length + s.channel.length + (s.moveTo w (.claimed s.cursor)).total Worker.least ≤
        min (s.cursor + 1) plan.count
      omega
    · show min (s.cursor + 1) plan.count ≤ s.received.length + s.stored plan +
        (s.moveTo w (.claimed s.cursor)).total Worker.most
      omega
  | runOut w hWorker hLeft =>
    have hKept : (s.moveTo w .stopped).Counted plan :=
      counted_of_keep h hWorker rfl (Nat.zero_le _)
    -- the cursor goes beyond the count, which the counts do not see
    have hEnd : min (s.cursor + 1) plan.count = min s.cursor plan.count := by omega
    exact ⟨hKept.room, hKept.least.trans (le_of_eq hEnd.symm), (le_of_eq hEnd).trans hKept.most⟩
  | begin w i hWorker =>
    have hKept : (s.moveTo w (.fetching i)).Counted plan :=
      counted_of_keep h hWorker rfl (le_refl _)
    exact ⟨hKept.room, hKept.least, hKept.most⟩
  | comeBack w i outcome hWorker hFetch => exact counted_of_keep h hWorker rfl (le_refl _)
  | die w i hWorker hFetch => exact counted_of_keep h hWorker rfl (le_refl _)
  | send w a hWorker hOpen hRoom =>
    refine counted_of_passOn h hOpen hWorker ?_ ?_
    · rw [List.length_append, List.length_singleton]
      exact hRoom
    · rw [List.length_append, List.length_singleton]
      rfl
  | handOver w a hWorker hAwaiting hCapacity =>
    refine counted_of_passOn h (hungUp_of_awaiting hAwaiting) hWorker h.room ?_
    rw [List.length_append, List.length_singleton]
    exact Nat.succ_add ..
  | giveUp w a hWorker hHungUp =>
    -- the worker keeps what it has for the upper count only
    have hBelow : (s.moveTo w .stopped).total Worker.least + 1 = _ + 0 :=
      total_moveTo hWorker .stopped Worker.least
    have hAbove : (s.moveTo w .stopped).total Worker.most + 1 = _ + 1 :=
      total_moveTo hWorker .stopped Worker.most
    obtain ⟨hRoom, hFew, hMany⟩ := h
    refine ⟨hRoom, ?_, ?_⟩
    · show s.received.length + s.channel.length + (s.moveTo w .stopped).total Worker.least ≤
        min s.cursor plan.count
      omega
    · show min s.cursor plan.count ≤ s.received.length + s.stored plan +
        (s.moveTo w .stopped).total Worker.most
      omega
  | receive a channel hChannel hAwaiting =>
    have hOpen := hungUp_of_awaiting hAwaiting
    obtain ⟨hRoom, hFew, hMany⟩ := h
    rw [stored_of_open hOpen] at hMany
    -- one result goes from the channel to the consumer
    rw [hChannel, List.length_cons] at hRoom hFew hMany
    refine ⟨Nat.le_of_succ_le hRoom, ?_, ?_⟩
    · rw [List.length_append, List.length_singleton]
      show s.received.length + 1 + channel.length + s.total Worker.least ≤ min s.cursor plan.count
      omega
    · rw [stored_of_open (s := { s with channel, received := s.received ++ [a] }) hOpen,
        List.length_append, List.length_singleton]
      show min s.cursor plan.count ≤ s.received.length + 1 + channel.length + s.total Worker.most
      omega
  | hangUp hCancelled hHungUp =>
    obtain ⟨hRoom, hFew, hMany⟩ := h
    -- the upper count keeps the results that are thrown away, as no more than the channel holds
    rw [stored_of_open hHungUp] at hMany
    refine ⟨Nat.zero_le _, ?_, ?_⟩
    · show s.received.length + 0 + s.total Worker.least ≤ min s.cursor plan.count
      omega
    · show min s.cursor plan.count ≤ s.received.length + plan.capacity + s.total Worker.most
      omega
  | close | conclude | cancel => exact ⟨h.room, h.least, h.most⟩

/-- **The counts are kept** by a run. -/
theorem counted_of_follow {ms : List Move} (hRun : (start plan).follow plan ms = some s) :
    s.Counted plan :=
  kept_of_follow counted_of_moves (counted_start plan) hRun

end

end Pool

end BuildQuery.Fetch
