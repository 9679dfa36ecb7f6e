import BuildQuery.Proofs.PoolCounts

/-!
# BuildQuery — a consumer that loses its interest

A pool never runs far ahead of its consumer: what has been claimed is with the consumer, in the channel,
or with a worker, and the last two are limited. A consumer may cancel the pool and hang up at any moment.
A worker looks whether the pool has been cancelled before it claims an index, so that it may still be
about to fetch one when that happens, and no more than one. A result that nobody takes any more is given
up, and so all workers come to their end.

Main results:

* `claimed_le` — what has been claimed is bounded by what has been received.
* `begins_of_follow` — what a cancelled pool still begins.
* `spare_lt_of_moves` — every move, also one of a consumer that loses its interest, leaves less to do.
* `runs_under_cancellation` — all of this about every run.
-/

namespace BuildQuery.Fetch

variable {α : Type}

/-- How many fetches a worker begins before it looks again whether the pool has been cancelled. -/
def Worker.begins : Worker α → Nat
  | .willing => 1
  | .claimed _ => 1
  | _ => 0

namespace Pool

section

variable {plan : Plan α} {s s' : Pool α} {m : Move} {gone : List Nat}

-- ---------------------------------------------------------------------------
-- How far a pool runs ahead
-- ---------------------------------------------------------------------------

/-- **A pool does not run ahead.** No more has been claimed than what the consumer has received, what the
channel can hold, and one index for each worker. -/
theorem claimed_le (h : s.Sound plan gone) (hCounted : s.Counted plan) :
    min s.cursor plan.count ≤ s.received.length + plan.capacity + plan.started := by
  have hMost := hCounted.most
  have hWorkers := total_most_le s
  rw [h.size] at hWorkers
  -- the channel is counted as full once the consumer has hung up
  unfold stored at hMost
  split at hMost
  case isTrue => omega
  case isFalse =>
    have hRoom := hCounted.room
    omega

/-- Only what has been claimed is begun. -/
theorem length_begun_le (h : s.Sound plan gone) : s.begun.length ≤ min s.cursor plan.count := by
  have hLength := h.fetches.length_eq
  rw [List.length_append, List.length_range] at hLength
  omega

/-- No index is begun twice. -/
theorem begun_nodup (h : s.Sound plan gone) : s.begun.Nodup :=
  (List.nodup_append.mp (h.fetches.nodup_iff.mpr List.nodup_range)).1

-- ---------------------------------------------------------------------------
-- What is still begun
-- ---------------------------------------------------------------------------

/-- How many fetches one worker begins before it looks again whether the pool has been cancelled. -/
def beginsOf (s : Pool α) (w : Nat) : Nat :=
  (s.workers[w]?.map Worker.begins).getD 0

/-- A worker begins at most one fetch before it looks again. -/
theorem beginsOf_le_one (s : Pool α) (w : Nat) : s.beginsOf w ≤ 1 := by
  unfold beginsOf
  cases s.workers[w]? with
  | none => exact Nat.zero_le 1
  | some x => cases x <;> simp [Worker.begins]

/-- What a worker still begins is told from where it stands. -/
theorem beginsOf_eq {w : Nat} {x : Worker α} (hWorker : s.workers[w]? = some x) :
    s.beginsOf w = x.begins := by
  rw [beginsOf, hWorker]
  rfl

/-- A worker that has moved begins what its new place says. -/
theorem beginsOf_moveTo_self {w : Nat} {x : Worker α} (hWorker : s.workers[w]? = some x)
    (y : Worker α) : (s.moveTo w y).beginsOf w = y.begins :=
  beginsOf_eq (List.getElem?_set_self (List.getElem?_eq_some_iff.mp hWorker).1)

/-- The other workers begin what they would have begun. -/
theorem beginsOf_moveTo_of_ne {v w : Nat} (hApart : v ≠ w) (y : Worker α) :
    (s.moveTo v y).beginsOf w = s.beginsOf w := by
  rw [beginsOf, moveTo, List.getElem?_set_ne hApart, beginsOf]

/-- A worker that does not get nearer to a fetch begins no more than before. -/
theorem beginsOf_moveTo_le {v : Nat} {x y : Worker α} (hWorker : s.workers[v]? = some x)
    (hLess : y.begins ≤ x.begins) (w : Nat) : (s.moveTo v y).beginsOf w ≤ s.beginsOf w := by
  by_cases hSame : v = w
  · subst hSame
    rw [beginsOf_moveTo_self hWorker, beginsOf_eq hWorker]
    exact hLess
  · exact le_of_eq (beginsOf_moveTo_of_ne hSame y)

/-- A cancelled pool stays so. -/
theorem cancelled_of_moves (h : s.cancelled = true) (hMoves : Moves plan s m s') :
    s'.cancelled = true := by
  cases hMoves with
  | cancel => rfl
  | _ => exact h

/-- A move of a cancelled pool that begins a fetch uses up what its worker may still begin. -/
theorem begins_of_moves (hCancelled : s.cancelled = true) (hMoves : Moves plan s m s') (w : Nat) :
    [m].count (.begin w) + s'.beginsOf w ≤ s.beginsOf w := by
  cases hMoves with
  | begin v i hWorker =>
    by_cases hSame : v = w
    · subst hSame
      -- before the move the worker was to begin one fetch, and behind it none
      have hNone : (s.moveTo v (.fetching i)).beginsOf v = 0 := beginsOf_moveTo_self hWorker _
      have hOne : s.beginsOf v = 1 := beginsOf_eq hWorker
      rw [List.count_singleton_self, hOne]
      exact Nat.le_of_eq (congrArg (1 + ·) hNone)
    · rw [List.count_singleton, beq_false_of_ne fun hEq => hSame (Move.begin.inj hEq)]
      refine (Nat.zero_add _).trans_le (le_of_eq ?_)
      exact beginsOf_moveTo_of_ne hSame (.fetching i)
  | goOn v hWorker hOn => exact Bool.noConfusion (hCancelled.symm.trans hOn)
  -- no other move brings a worker nearer to a fetch: one that claims an index had looked before
  | obey v hWorker | claim v hWorker | runOut v hWorker | comeBack v i outcome hWorker
  | die v i hWorker | send v a hWorker | handOver v a hWorker | giveUp v a hWorker =>
    rw [List.count_singleton, beq_false_of_ne Move.noConfusion, if_neg Bool.false_ne_true, Nat.zero_add]
    exact beginsOf_moveTo_le hWorker (by simp [Worker.begins]) w
  | close | receive | conclude | cancel | hangUp =>
    rw [List.count_singleton, beq_false_of_ne Move.noConfusion, if_neg Bool.false_ne_true, Nat.zero_add]
    exact le_refl _

/-- **What is still begun.** In a run of a cancelled pool each worker begins what it was about to fetch,
if anything. -/
theorem begins_of_follow (hCancelled : s.cancelled = true) {ms : List Move}
    (hRun : s.follow plan ms = some s') (w : Nat) :
    ms.count (.begin w) + s'.beginsOf w ≤ s.beginsOf w := by
  -- on the moves: each begins what it uses up of the count
  induction ms generalizing s with
  | nil =>
    cases hRun
    exact le_of_eq (Nat.zero_add _)
  | cons m ms ih =>
    obtain ⟨mid, hStep, hRest⟩ := Option.bind_eq_some_iff.mp hRun
    have hMoves := moves_of_step hStep
    have hFirst := begins_of_moves hCancelled hMoves w
    have hLater := ih (cancelled_of_moves hCancelled hMoves) hRest
    rw [List.count_cons]
    rw [List.count_singleton] at hFirst
    omega

-- ---------------------------------------------------------------------------
-- The end of a cancelled pool
-- ---------------------------------------------------------------------------

/-- What is left to do, with what a consumer does that loses its interest. -/
def spare (plan : Plan α) (s : Pool α) : Nat :=
  s.effort plan + (!s.cancelled).toNat + (!s.hungUp).toNat

/-- At the start the consumer may still cancel and hang up. -/
theorem spare_start (plan : Plan α) : (start plan).spare plan = moveLimit plan + 2 := by
  rw [spare, effort_start]
  rfl

/-- The moves of workers and of a consumer that wants results do not cancel anything. -/
theorem interest_of_moves (hMoves : Moves plan s m s') (hInterest : m.keepsInterest = true) :
    s'.cancelled = s.cancelled ∧ s'.hungUp = s.hungUp := by
  cases hMoves with
  | cancel | hangUp => cases hInterest
  | _ => exact ⟨rfl, rfl⟩

/-- **Termination.** Every move of a pool leaves less to do, whether or not its consumer keeps its
interest. -/
theorem spare_lt_of_moves (hMoves : Moves plan s m s') : s'.spare plan < s.spare plan := by
  unfold spare
  -- a move that keeps the interest leaves less effort, and the other two can be made once only
  by_cases hInterest : m.keepsInterest = true
  · obtain ⟨hCancelled, hHungUp⟩ := interest_of_moves hMoves hInterest
    have hLess := effort_lt_of_moves hMoves hInterest
    rw [hCancelled, hHungUp]
    omega
  · cases hMoves with
    | cancel hCancelled hHungUp =>
      rw [hCancelled, hHungUp]
      show s.effort plan + 0 + 1 < s.effort plan + 1 + 1
      omega
    | hangUp hCancelled hHungUp =>
      simp only [effort, hHungUp, List.length_nil, Bool.not_false, Bool.not_true, Bool.toNat_true,
        Bool.toNat_false]
      omega
    | _ => exact absurd rfl hInterest

/-- A run makes no more moves than there is left to do. -/
theorem length_add_spare_le {ms : List Move} (hRun : s.follow plan ms = some s') :
    ms.length + s'.spare plan ≤ s.spare plan := by
  induction ms generalizing s with
  | nil =>
    cases hRun
    exact le_of_eq (Nat.zero_add _)
  | cons m ms ih =>
    obtain ⟨mid, hStep, hRest⟩ := Option.bind_eq_some_iff.mp hRun
    have hLess := spare_lt_of_moves (moves_of_step hStep)
    have hMore := ih hRest
    rw [List.length_cons]
    omega

/-- When the consumer has hung up, a worker that is not done can move. -/
theorem exists_move_of_hungUp (plan : Plan α) (hCancelled : s.cancelled = true)
    (hHungUp : s.hungUp = true) {w : Nat} {x : Worker α} (hWorker : s.workers[w]? = some x)
    (hBusy : x.isDone = false) : ∃ m s', Moves plan s m s' := by
  cases x with
  | idle => exact ⟨_, _, .obey w hWorker hCancelled⟩
  | willing =>
    rcases Nat.lt_or_ge s.cursor plan.count with hLeft | hLeft
    · exact ⟨_, _, .claim w hWorker hLeft⟩
    · exact ⟨_, _, .runOut w hWorker hLeft⟩
  | claimed i => exact ⟨_, _, .begin w i hWorker⟩
  | fetching i =>
    cases hFetch : plan.fetch i with
    | some outcome => exact ⟨_, _, .comeBack w i outcome hWorker hFetch⟩
    | none => exact ⟨_, _, .die w i hWorker hFetch⟩
  | sending a => exact ⟨_, _, .giveUp w a hWorker hHungUp⟩
  | stopped => cases hBusy
  | lost => cases hBusy

/-- A cancelled pool that cannot move has no worker that is not done. -/
theorem done_of_stuck (hCancelled : s.cancelled = true) (hStuck : ∀ m, s.step plan m = none) :
    s.workers.all Worker.isDone = true := by
  have hNone {m : Move} {s' : Pool α} : ¬ Moves plan s m s' := by
    intro hMoves
    have hStep := step_of_moves hMoves
    rw [hStuck m] at hStep
    cases hStep
  -- a consumer that has cancelled could still hang up
  have hHungUp : s.hungUp = true := by
    by_contra hOpen
    exact hNone (.hangUp hCancelled (Bool.not_eq_true _ ▸ hOpen))
  rw [List.all_eq_true]
  intro x hx
  by_contra hBusy
  obtain ⟨w, hWorker⟩ := List.mem_iff_getElem?.mp hx
  obtain ⟨m, s', hMoves⟩ :=
    exists_move_of_hungUp plan hCancelled hHungUp hWorker (Bool.not_eq_true _ ▸ hBusy)
  exact hNone hMoves

end

-- ---------------------------------------------------------------------------
-- All runs
-- ---------------------------------------------------------------------------

/-- **Runs under cancellation.** In every run of a pool, with any number of workers, any channel, fetches
that may die, and a consumer that may cancel and hang up at any moment: the fetches that have begun are
no more than the results received, the room of the channel and the workers together; no index is fetched
twice; and the run is finite. Once the pool is cancelled, no worker begins more than one fetch, and when
nothing can move any more all workers have stopped. -/
theorem runs_under_cancellation {plan : Plan α} {ms : List Move} {s : Pool α}
    (h : (start plan).follow plan ms = some s) :
    s.begun.length ≤ s.received.length + plan.capacity + plan.started ∧
      s.begun.Nodup ∧
      ms.length ≤ moveLimit plan + 2 ∧
      (s.cancelled = true →
        (∀ {later s'}, s.follow plan later = some s' → ∀ w, later.count (.begin w) ≤ 1) ∧
        ((∀ m, s.step plan m = none) → s.workers.all Worker.isDone = true)) := by
  obtain ⟨gone, hSound⟩ := sound_of_follow (sound_start plan) h
  refine ⟨?_, begun_nodup hSound, ?_, fun hCancelled => ⟨?_, done_of_stuck hCancelled⟩⟩
  · exact (length_begun_le hSound).trans (claimed_le hSound (counted_of_follow h))
  · have hLength := length_add_spare_le h
    rw [spare_start] at hLength
    exact Nat.le_trans (Nat.le_add_right _ _) hLength
  · intro later s' hRun w
    have hBegins := begins_of_follow hCancelled hRun w
    have hOne := s.beginsOf_le_one w
    omega

/-- A worker that has looked before the pool is cancelled fetches once more, and its result is given
up. -/
theorem runs_under_cancellation_one_worker :
    let plan : Plan Nat := ⟨3, 1, 1, some⟩
    let later : List Move := [.claim 0, .begin 0, .hangUp, .finish 0, .giveUp 0, .close]
    ∃ s s', (start plan).follow plan [.check 0, .cancel] = some s ∧ s.cancelled = true ∧
      s.follow plan later = some s' ∧ later.count (.begin 0) ≤ 1 ∧
      (∀ m, s'.step plan m = none) ∧ s'.workers.all Worker.isDone = true ∧
      s'.begun.length ≤ s'.received.length + 1 + 1 := by
  intro plan later
  have h : (start plan).follow plan [.check 0, .cancel] =
      some ⟨0, [.willing], [], true, false, false, false, [], []⟩ := rfl
  have hLater : (start plan).follow plan ([.check 0, .cancel] ++ later) =
      some ⟨1, [.stopped], [], true, true, true, false, [0], []⟩ := rfl
  have hStuck (m : Move) : step plan
      ⟨1, [.stopped], [], true, true, true, false, [0], []⟩ m = none := by
    cases m with
    | check w | claim w | begin w | finish w | send w | handOver w | giveUp w => cases w <;> rfl
    | close | receive | conclude | cancel | hangUp => rfl
  obtain ⟨-, -, -, hCancelled⟩ := runs_under_cancellation h
  obtain ⟨hBegun, -, -, hEnd⟩ := runs_under_cancellation hLater
  exact ⟨_, _, h, rfl, rfl, (hCancelled rfl).1 rfl 0, hStuck, (hEnd rfl).2 hStuck, hBegun⟩

end Pool

end BuildQuery.Fetch
