import BuildQuery.Fetch.Pool
import Mathlib.Data.List.Basic

/-!
# BuildQuery — the account of a pool

Every index that a pool has claimed is somewhere: in the hands of a worker, in the channel, with the
consumer, or gone. `Pool.Sound` keeps this account for any order in which the parties move, whether or
not the consumer loses interest; each index is in one place only, because all of them together are the
numbers below the cursor.

* `moves_iff_step` — what a move does, one case for each decision that a party can take.
* `sound_of_moves` — a move keeps the account.
* `sound_of_follow` — a run keeps the account.
-/

namespace BuildQuery.Fetch

variable {α : Type}

namespace Pool

-- ---------------------------------------------------------------------------
-- Moves
-- ---------------------------------------------------------------------------

/-- The moves of a pool, with what each of them needs and what it does. -/
inductive Moves (plan : Plan α) (s : Pool α) : Move → Pool α → Prop where
  /-- A worker goes on, as the pool has not been cancelled. -/
  | goOn (w : Nat) (hWorker : s.workers[w]? = some .idle) (hCancelled : s.cancelled = false) :
      Moves plan s (.check w) (s.moveTo w .willing)
  /-- A worker stops, as the pool has been cancelled. -/
  | obey (w : Nat) (hWorker : s.workers[w]? = some .idle) (hCancelled : s.cancelled = true) :
      Moves plan s (.check w) (s.moveTo w .stopped)
  /-- A worker claims the next index. -/
  | claim (w : Nat) (hWorker : s.workers[w]? = some .willing) (hLeft : s.cursor < plan.count) :
      Moves plan s (.claim w) { s.moveTo w (.claimed s.cursor) with cursor := s.cursor + 1 }
  /-- A worker stops, as there is nothing left to claim. -/
  | runOut (w : Nat) (hWorker : s.workers[w]? = some .willing) (hLeft : plan.count ≤ s.cursor) :
      Moves plan s (.claim w) { s.moveTo w .stopped with cursor := s.cursor + 1 }
  /-- A worker begins to fetch. -/
  | begin (w i : Nat) (hWorker : s.workers[w]? = some (.claimed i)) :
      Moves plan s (.begin w) { s.moveTo w (.fetching i) with begun := s.begun ++ [i] }
  /-- A fetch comes back. -/
  | comeBack (w i : Nat) (outcome : α) (hWorker : s.workers[w]? = some (.fetching i))
      (hFetch : plan.fetch i = some outcome) :
      Moves plan s (.finish w) (s.moveTo w (.sending ⟨i, outcome⟩))
  /-- A fetch dies. -/
  | die (w i : Nat) (hWorker : s.workers[w]? = some (.fetching i)) (hFetch : plan.fetch i = none) :
      Moves plan s (.finish w) (s.moveTo w .lost)
  /-- A worker puts a result into the channel. -/
  | send (w : Nat) (a : Arrival α) (hWorker : s.workers[w]? = some (.sending a))
      (hOpen : s.hungUp = false) (hRoom : s.channel.length < plan.capacity) :
      Moves plan s (.send w) { s.moveTo w .idle with channel := s.channel ++ [a] }
  /-- A worker hands a result over. -/
  | handOver (w : Nat) (a : Arrival α) (hWorker : s.workers[w]? = some (.sending a))
      (hAwaiting : s.awaiting = true) (hCapacity : plan.capacity = 0) :
      Moves plan s (.handOver w) { s.moveTo w .idle with received := s.received ++ [a] }
  /-- A worker finds that the consumer has hung up. -/
  | giveUp (w : Nat) (a : Arrival α) (hWorker : s.workers[w]? = some (.sending a))
      (hHungUp : s.hungUp = true) : Moves plan s (.giveUp w) (s.moveTo w .stopped)
  /-- The channel is closed after all workers. -/
  | close (hOpen : s.closed = false) (hDone : s.workers.all Worker.isDone = true) :
      Moves plan s .close { s with closed := true }
  /-- The consumer takes a result out of the channel. -/
  | receive (a : Arrival α) (channel : List (Arrival α)) (hChannel : s.channel = a :: channel)
      (hAwaiting : s.awaiting = true) :
      Moves plan s .receive { s with channel, received := s.received ++ [a] }
  /-- The consumer sees the end. -/
  | conclude (hAwaiting : s.awaiting = true) (hEmpty : s.channel = []) (hClosed : s.closed = true) :
      Moves plan s .conclude { s with ended := true }
  /-- The consumer cancels the pool. -/
  | cancel (hCancelled : s.cancelled = false) (hHungUp : s.hungUp = false) :
      Moves plan s .cancel { s with cancelled := true }
  /-- The consumer hangs up, and the results in the channel are gone. -/
  | hangUp (hCancelled : s.cancelled = true) (hHungUp : s.hungUp = false) :
      Moves plan s .hangUp { s with hungUp := true, channel := [] }

section

variable {plan : Plan α} {s s' : Pool α} {m : Move}

/-- Each decision is a step. -/
theorem step_of_moves (h : Moves plan s m s') : s.step plan m = some s' := by
  cases h with
  | goOn w hWorker hCancelled => simp [step, hWorker, Pool.check, hCancelled]
  | obey w hWorker hCancelled => simp [step, hWorker, Pool.check, hCancelled]
  | claim w hWorker hLeft => simp [step, hWorker, Pool.claim, hLeft]
  | runOut w hWorker hLeft => simp [step, hWorker, Pool.claim, Nat.not_lt.mpr hLeft]
  | begin w i hWorker => simp [step, hWorker]
  | comeBack w i outcome hWorker hFetch => simp [step, hWorker, Pool.comeBack, hFetch]
  | die w i hWorker hFetch => simp [step, hWorker, Pool.comeBack, hFetch]
  | send w a hWorker hOpen hRoom => simp [step, hWorker, hOpen, hRoom]
  | handOver w a hWorker hAwaiting hCapacity => simp [step, hWorker, hAwaiting, hCapacity]
  | giveUp w a hWorker hHungUp => simp [step, hWorker, hHungUp]
  | close hOpen hDone => simp only [step, hOpen, hDone]; rfl
  | receive a channel hChannel hAwaiting => simp [step, hChannel, hAwaiting]
  | conclude hAwaiting hEmpty hClosed => simp [step, hAwaiting, hEmpty, hClosed]
  | cancel hCancelled hHungUp => simp [step, hCancelled, hHungUp]
  | hangUp hCancelled hHungUp => simp [step, hCancelled, hHungUp]

/-- **What a step can be**: each step is one of the decisions. -/
theorem moves_of_step (h : s.step plan m = some s') : Moves plan s m s' := by
  -- a move is possible only where its party stands at the right place; the others are no steps
  cases m with
  | check w =>
    simp only [step] at h
    split at h
    · rename_i hWorker
      cases h
      rw [Pool.check]
      split
      case isTrue hCancelled => exact .obey w hWorker hCancelled
      case isFalse hCancelled => exact .goOn w hWorker (Bool.not_eq_true _ ▸ hCancelled)
    · cases h
  | claim w =>
    simp only [step] at h
    split at h
    · rename_i hWorker
      cases h
      rw [Pool.claim]
      split
      case isTrue hLeft => exact .claim w hWorker hLeft
      case isFalse hLeft => exact .runOut w hWorker (Nat.not_lt.mp hLeft)
    · cases h
  | begin w =>
    simp only [step] at h
    split at h
    · rename_i i hWorker
      cases h
      exact .begin w i hWorker
    · cases h
  | finish w =>
    simp only [step] at h
    split at h
    · rename_i i hWorker
      cases h
      rw [Pool.comeBack]
      split
      case h_1 outcome hFetch => exact .comeBack w i outcome hWorker hFetch
      case h_2 hFetch => exact .die w i hWorker hFetch
    · cases h
  | send w =>
    simp only [step] at h
    split at h
    · rename_i a hWorker
      split at h
      case isTrue hRoom =>
        cases h
        exact .send w a hWorker (by simpa using hRoom.1) hRoom.2
      case isFalse => cases h
    · cases h
  | handOver w =>
    simp only [step] at h
    split at h
    · rename_i a hWorker
      split at h
      case isTrue hReady =>
        cases h
        exact .handOver w a hWorker hReady.1 hReady.2
      case isFalse => cases h
    · cases h
  | giveUp w =>
    simp only [step] at h
    split at h
    · rename_i a hWorker
      split at h
      case isTrue hHungUp =>
        cases h
        exact .giveUp w a hWorker hHungUp
      case isFalse => cases h
    · cases h
  | close =>
    simp only [step] at h
    split at h
    case isTrue hReady =>
      cases h
      exact .close (by simpa using hReady.1) hReady.2
    case isFalse => cases h
  | receive =>
    simp only [step] at h
    split at h
    · rename_i a channel hChannel
      split at h
      case isTrue hAwaiting =>
        cases h
        exact .receive a channel hChannel hAwaiting
      case isFalse => cases h
    · cases h
  | conclude =>
    simp only [step] at h
    split at h
    case isTrue hReady =>
      cases h
      exact .conclude hReady.1 (List.isEmpty_iff.mp hReady.2.1) hReady.2.2
    case isFalse => cases h
  | cancel =>
    simp only [step] at h
    split at h
    case isTrue hReady =>
      cases h
      exact .cancel (by simpa using hReady.1) (by simpa using hReady.2)
    case isFalse => cases h
  | hangUp =>
    simp only [step] at h
    split at h
    case isTrue hReady =>
      cases h
      exact .hangUp hReady.1 (by simpa using hReady.2)
    case isFalse => cases h

/-- The decisions are all the steps there are. -/
theorem moves_iff_step : Moves plan s m s' ↔ s.step plan m = some s' :=
  ⟨step_of_moves, moves_of_step⟩

end

end Pool

-- ---------------------------------------------------------------------------
-- Where the indices are
-- ---------------------------------------------------------------------------

namespace Worker

/-- The index that a worker has claimed and not passed on. -/
def inHand : Worker α → List Nat
  | .claimed i => [i]
  | .fetching i => [i]
  | .sending a => [a.index]
  | _ => []

/-- The index that a worker has claimed and not begun to fetch. -/
def unbegun : Worker α → List Nat
  | .claimed i => [i]
  | _ => []

end Worker

/-- What is read off all workers changes with one worker by what is read off that one. -/
theorem flatMap_set_perm {β γ : Type} {l : List β} {w : Nat} {x : β} (h : l[w]? = some x) (y : β)
    (f : β → List γ) : (f x ++ (l.set w y).flatMap f).Perm (f y ++ l.flatMap f) := by
  induction l generalizing w with
  | nil => simp at h
  | cons z l ih =>
    cases w with
    | zero =>
      rw [List.getElem?_cons_zero, Option.some.injEq] at h
      rw [List.set_cons_zero, List.flatMap_cons, List.flatMap_cons, h, ← List.append_assoc,
        ← List.append_assoc]
      exact List.perm_append_comm.append_right _
    | succ w =>
      rw [List.getElem?_cons_succ] at h
      rw [List.set_cons_succ, List.flatMap_cons, List.flatMap_cons]
      -- what the earlier entries give is taken past twice
      calc (f x ++ (f z ++ (l.set w y).flatMap f)).Perm (f z ++ (f x ++ (l.set w y).flatMap f)) :=
            List.perm_append_comm_assoc ..
        List.Perm _ (f z ++ (f y ++ l.flatMap f)) := (ih h).append_left _
        List.Perm _ (f y ++ (f z ++ l.flatMap f)) := List.perm_append_comm_assoc ..

namespace Pool

/-- The indices that are somewhere on their way to the consumer, or there. -/
def whereabouts (s : Pool α) : List Nat :=
  s.received.map Arrival.index ++ s.channel.map Arrival.index ++ s.workers.flatMap Worker.inHand

/-- The indices that have been claimed and not begun to be fetched. -/
def unbegun (s : Pool α) : List Nat :=
  s.workers.flatMap Worker.unbegun

section

variable {s : Pool α} {w : Nat} {x : Worker α}

/-- A worker that moves gives up what it had in hand for what it has then. -/
theorem whereabouts_moveTo (h : s.workers[w]? = some x) (y : Worker α) :
    (x.inHand ++ (s.moveTo w y).whereabouts).Perm (y.inHand ++ s.whereabouts) := by
  rw [whereabouts, whereabouts, moveTo]
  calc (x.inHand ++ ((s.received.map Arrival.index ++ s.channel.map Arrival.index) ++
          (s.workers.set w y).flatMap Worker.inHand)).Perm
        ((s.received.map Arrival.index ++ s.channel.map Arrival.index) ++
          (x.inHand ++ (s.workers.set w y).flatMap Worker.inHand)) :=
        List.perm_append_comm_assoc ..
    List.Perm _ ((s.received.map Arrival.index ++ s.channel.map Arrival.index) ++
          (y.inHand ++ s.workers.flatMap Worker.inHand)) :=
        (flatMap_set_perm h y Worker.inHand).append_left _
    List.Perm _ (y.inHand ++ _) := List.perm_append_comm_assoc ..

/-- A worker that moves gives up the index it has not begun for the one it has not begun then. -/
theorem unbegun_moveTo (h : s.workers[w]? = some x) (y : Worker α) :
    (x.unbegun ++ (s.moveTo w y).unbegun).Perm (y.unbegun ++ s.unbegun) :=
  flatMap_set_perm h y Worker.unbegun

/-- A result that a worker has passed on is somewhere else. -/
theorem passOn_perm {s' : Pool α} {i : Nat} (h : s.workers[w]? = some x) (hHand : x.inHand = [i])
    (y : Worker α) (hDone : y.inHand = [])
    (hPlaces : s'.whereabouts.Perm (i :: (s.moveTo w y).whereabouts)) :
    s'.whereabouts.Perm s.whereabouts := by
  have hMoved := whereabouts_moveTo h y
  rw [hHand, hDone] at hMoved
  exact hPlaces.trans hMoved

end

-- ---------------------------------------------------------------------------
-- What a move does to the account
-- ---------------------------------------------------------------------------

/-- What a move does to the account: it claims the indices `fresh`, and the indices `dropped` will not
reach the consumer any more. -/
structure Effect (plan : Plan α) (s s' : Pool α) (fresh dropped : List Nat) : Prop where
  claimed : List.range (min s'.cursor plan.count) = List.range (min s.cursor plan.count) ++ fresh
  places  : (s'.whereabouts ++ dropped).Perm (s.whereabouts ++ fresh)
  fetches : (s'.begun ++ s'.unbegun).Perm (s.begun ++ s.unbegun ++ fresh)
  died    : s'.hungUp = false → ∀ i ∈ dropped, plan.fetch i = none

variable {plan : Plan α} {s s' : Pool α} {m : Move}

/-- A move of a worker that keeps its index has no effect on the account. -/
theorem effect_of_keep {w : Nat} {x y : Worker α} (hWorker : s.workers[w]? = some x)
    (hHand : x.inHand = y.inHand) (hBegun : x.unbegun = y.unbegun) :
    Effect plan s (s.moveTo w y) [] [] where
  claimed := (List.append_nil _).symm
  places := by
    have hMoved := whereabouts_moveTo hWorker y
    rw [hHand, List.perm_append_left_iff] at hMoved
    rw [List.append_nil, List.append_nil]
    exact hMoved
  fetches := by
    have hMoved := unbegun_moveTo hWorker y
    rw [hBegun, List.perm_append_left_iff] at hMoved
    rw [List.append_nil]
    exact hMoved.append_left s.begun
  died := by simp

/-- A worker that has begun to fetch leaves the account of the fetches as it is. -/
theorem fetches_moveTo {w : Nat} {x y : Worker α} (hWorker : s.workers[w]? = some x)
    (hFrom : x.unbegun = []) (hTo : y.unbegun = []) :
    (s.begun ++ (s.moveTo w y).unbegun).Perm (s.begun ++ s.unbegun ++ []) := by
  have hMoved := unbegun_moveTo hWorker y
  rw [hFrom, hTo] at hMoved
  rw [List.append_nil]
  exact hMoved.append_left s.begun

/-- **The effect of a move**: only claiming brings in an index, and only dying, giving up and hanging up
drop one. -/
theorem effect_of_moves (h : Moves plan s m s') :
    ∃ fresh dropped, Effect plan s s' fresh dropped := by
  cases h with
  | goOn w hWorker hCancelled => exact ⟨[], [], effect_of_keep hWorker rfl rfl⟩
  | obey w hWorker hCancelled => exact ⟨[], [], effect_of_keep hWorker rfl rfl⟩
  | claim w hWorker hLeft =>
    refine ⟨[s.cursor], [], ?_, ?_, ?_, by simp⟩
    · -- the cursor was below the count, so one more index lies below it now
      rw [Nat.min_eq_left (Nat.succ_le_of_lt hLeft), Nat.min_eq_left (Nat.le_of_lt hLeft)]
      exact List.range_succ
    · rw [List.append_nil]
      exact (whereabouts_moveTo hWorker (.claimed s.cursor)).trans List.perm_append_comm
    · rw [List.append_assoc]
      exact ((unbegun_moveTo hWorker (.claimed s.cursor)).trans List.perm_append_comm).append_left _
  | runOut w hWorker hLeft =>
    have hKeep : Effect plan s (s.moveTo w .stopped) [] [] := effect_of_keep hWorker rfl rfl
    refine ⟨[], [], ?_, hKeep.places, hKeep.fetches, hKeep.died⟩
    -- the cursor goes up although nothing is left, and no index lies below it that did not before
    rw [Nat.min_eq_right hLeft, Nat.min_eq_right (Nat.le_succ_of_le hLeft), List.append_nil]
  | begin w i hWorker =>
    refine ⟨[], [], (List.append_nil _).symm, ?_, ?_, by simp⟩
    · rw [List.append_nil, List.append_nil]
      exact (List.perm_append_left_iff [i]).mp (whereabouts_moveTo hWorker (.fetching i))
    · rw [List.append_nil, List.append_assoc]
      exact (unbegun_moveTo hWorker (.fetching i)).append_left s.begun
  | comeBack w i outcome hWorker hFetch => exact ⟨[], [], effect_of_keep hWorker rfl rfl⟩
  | die w i hWorker hFetch =>
    refine ⟨[], [i], (List.append_nil _).symm, ?_, fetches_moveTo hWorker rfl rfl, ?_⟩
    · rw [List.append_nil]
      exact List.perm_append_comm.trans (whereabouts_moveTo hWorker .lost)
    · intro _ j hj
      rw [List.mem_singleton] at hj
      exact hj ▸ hFetch
  | send w a hWorker hOpen hRoom =>
    refine ⟨[], [], (List.append_nil _).symm, ?_, fetches_moveTo hWorker rfl rfl, by simp⟩
    rw [List.append_nil, List.append_nil]
    refine passOn_perm hWorker rfl .idle rfl ?_
    -- the index stands between the channel and the workers; it is taken past both lists before it
    simp only [whereabouts, List.map_append, List.map_cons, List.map_nil, List.append_assoc,
      List.singleton_append]
    exact (List.perm_middle.append_left _).trans List.perm_middle
  | handOver w a hWorker hAwaiting hCapacity =>
    refine ⟨[], [], (List.append_nil _).symm, ?_, fetches_moveTo hWorker rfl rfl, by simp⟩
    rw [List.append_nil, List.append_nil]
    refine passOn_perm hWorker rfl .idle rfl ?_
    simp only [whereabouts, List.map_append, List.map_cons, List.map_nil, List.append_assoc,
      List.singleton_append]
    exact List.perm_middle
  | giveUp w a hWorker hHungUp =>
    refine ⟨[], [a.index], (List.append_nil _).symm, ?_, fetches_moveTo hWorker rfl rfl, ?_⟩
    · rw [List.append_nil]
      exact List.perm_append_comm.trans (whereabouts_moveTo hWorker .stopped)
    · -- the worker saw that the consumer had hung up, so what is dropped need not have died
      intro hOpen
      rw [moveTo, hHungUp] at hOpen
      cases hOpen
  | close hOpen hDone => exact ⟨[], [], by simp, by simp [whereabouts], by simp [unbegun], by simp⟩
  | receive a channel hChannel hAwaiting =>
    refine ⟨[], [], by simp, ?_, by simp [unbegun], by simp⟩
    simp [whereabouts, hChannel]
  | conclude hAwaiting hEmpty hClosed =>
    exact ⟨[], [], by simp, by simp [whereabouts], by simp [unbegun], by simp⟩
  | cancel hCancelled hHungUp =>
    exact ⟨[], [], by simp, by simp [whereabouts], by simp [unbegun], by simp⟩
  | hangUp hCancelled hHungUp =>
    refine ⟨[], s.channel.map Arrival.index, by simp, ?_, by simp [unbegun], by simp⟩
    -- all that stood in the channel is dropped at once
    simp only [whereabouts, List.map_nil, List.append_nil, List.append_assoc]
    exact List.perm_append_comm.append_left _

-- ---------------------------------------------------------------------------
-- The account
-- ---------------------------------------------------------------------------

/-- What has to be the case for a worker to stand where it does. -/
def Justifies (plan : Plan α) (s : Pool α) : Worker α → Prop
  | .claimed i => i < plan.count
  | .fetching i => i < plan.count
  | .sending a => plan.fetch a.index = some a.outcome
  | .stopped => s.cancelled = false → plan.count ≤ s.cursor
  | .lost => ∃ i < plan.count, plan.fetch i = none
  | _ => True

/-- The account of a pool. Of the indices that have been claimed, those in `gone` will not reach the
consumer. -/
structure Sound (plan : Plan α) (s : Pool α) (gone : List Nat) : Prop where
  size     : s.workers.length = plan.started
  /-- Each index below the cursor is in one place. -/
  account  : (s.whereabouts ++ gone).Perm (List.range (min s.cursor plan.count))
  /-- Each index below the cursor is fetched once, or about to be. -/
  fetches  : (s.begun ++ s.unbegun).Perm (List.range (min s.cursor plan.count))
  /-- A result is what the fetch of its index gives. -/
  results  : ∀ a ∈ s.received ++ s.channel, plan.fetch a.index = some a.outcome
  workers  : ∀ x ∈ s.workers, s.Justifies plan x
  /-- As long as the consumer does not hang up, only what dies is gone. -/
  died     : s.hungUp = false → ∀ i ∈ gone, plan.fetch i = none
  hungUp   : s.hungUp = true → s.cancelled = true
  closed   : s.closed = true → s.workers.all Worker.isDone = true
  ended    : s.ended = true → s.closed = true ∧ s.channel = []

/-- At the start nothing is read off the workers. -/
theorem flatMap_start (plan : Plan α) {γ : Type} (f : Worker α → List γ) (hf : f .idle = []) :
    (start plan).workers.flatMap f = [] := by
  rw [List.flatMap_eq_nil_iff]
  intro x hx
  rw [List.eq_of_mem_replicate hx, hf]

/-- At the start nothing has been claimed. -/
theorem sound_start (plan : Plan α) : Sound plan (start plan) [] where
  size := List.length_replicate
  account := by
    rw [whereabouts, flatMap_start plan Worker.inHand rfl]
    simp [start]
  fetches := by
    rw [unbegun, flatMap_start plan Worker.unbegun rfl]
    simp [start]
  results := by simp [start]
  workers := by
    intro x hx
    rw [List.eq_of_mem_replicate hx]
    exact trivial
  died := by simp
  hungUp := by simp [start]
  closed := by simp [start]
  ended := by simp [start]

/-- No worker comes or goes. -/
theorem size_of_moves (h : Moves plan s m s') : s'.workers.length = s.workers.length := by
  cases h <;> simp [moveTo]

/-- The cursor only goes up, and a pool that has been cancelled stays so. -/
theorem progress_of_moves (h : Moves plan s m s') :
    s.cursor ≤ s'.cursor ∧ (s'.cancelled = false → s.cancelled = false) := by
  cases h <;> simp_all [moveTo]

/-- What justifies the place of a worker stays, as the cursor only goes up and nobody takes a cancellation
back. -/
theorem Justifies.mono {x : Worker α} (h : s.Justifies plan x) (hCursor : s.cursor ≤ s'.cursor)
    (hCancelled : s'.cancelled = false → s.cancelled = false) : s'.Justifies plan x := by
  cases x with
  | stopped => exact fun hOn => Nat.le_trans (h (hCancelled hOn)) hCursor
  | idle => exact trivial
  | willing => exact trivial
  | claimed i => exact h
  | fetching i => exact h
  | sending a => exact h
  | lost => exact h

/-- Only the worker that moved needs a new reason. -/
theorem justifies_of_mem_set {w : Nat} {x y : Worker α} (hx : x ∈ s.workers.set w y)
    (hy : s'.Justifies plan y) : x ∈ s.workers ∨ s'.Justifies plan x := by
  rcases List.mem_or_eq_of_mem_set hx with hx | rfl
  · exact Or.inl hx
  · exact Or.inr hy

/-- A worker stands where one stood before, or has a reason to stand elsewhere. -/
theorem worker_of_moves (hWorkers : ∀ x ∈ s.workers, s.Justifies plan x)
    (hHungUp : s.hungUp = true → s.cancelled = true) (h : Moves plan s m s') {x : Worker α}
    (hx : x ∈ s'.workers) : x ∈ s.workers ∨ s'.Justifies plan x := by
  cases h with
  | goOn w hWorker hCancelled => exact justifies_of_mem_set hx trivial
  | obey w hWorker hCancelled =>
    exact justifies_of_mem_set hx fun hOn => Bool.noConfusion (hCancelled.symm.trans hOn)
  | claim w hWorker hLeft => exact justifies_of_mem_set hx hLeft
  | runOut w hWorker hLeft => exact justifies_of_mem_set hx fun _ => Nat.le_succ_of_le hLeft
  | begin w i hWorker =>
    have hClaimed : i < plan.count := hWorkers _ (List.mem_of_getElem? hWorker)
    exact justifies_of_mem_set hx hClaimed
  | comeBack w i outcome hWorker hFetch => exact justifies_of_mem_set hx hFetch
  | die w i hWorker hFetch =>
    have hFetching : i < plan.count := hWorkers _ (List.mem_of_getElem? hWorker)
    exact justifies_of_mem_set hx ⟨i, hFetching, hFetch⟩
  | send w a hWorker hOpen hRoom => exact justifies_of_mem_set hx trivial
  | handOver w a hWorker hAwaiting hCapacity => exact justifies_of_mem_set hx trivial
  | giveUp w a hWorker hGone =>
    exact justifies_of_mem_set hx fun hOn => Bool.noConfusion ((hHungUp hGone).symm.trans hOn)
  | close | receive | conclude | cancel | hangUp => exact Or.inl hx

/-- A result is passed on as it came back. -/
theorem results_of_moves
    (hResults : ∀ a ∈ s.received ++ s.channel, plan.fetch a.index = some a.outcome)
    (hWorkers : ∀ x ∈ s.workers, s.Justifies plan x) (h : Moves plan s m s') :
    ∀ a ∈ s'.received ++ s'.channel, plan.fetch a.index = some a.outcome := by
  intro a ha
  cases h with
  | send w b hWorker hOpen hRoom =>
    -- the account of the worker that sends it says what the result is
    have hSent : plan.fetch b.index = some b.outcome := hWorkers _ (List.mem_of_getElem? hWorker)
    rw [← List.append_assoc, List.mem_append, List.mem_singleton] at ha
    rcases ha with ha | rfl
    · exact hResults a ha
    · exact hSent
  | handOver w b hWorker hAwaiting hCapacity =>
    have hSent : plan.fetch b.index = some b.outcome := hWorkers _ (List.mem_of_getElem? hWorker)
    rw [List.append_assoc, List.singleton_append, List.perm_middle.mem_iff, List.mem_cons] at ha
    rcases ha with rfl | ha
    · exact hSent
    · exact hResults a ha
  | receive b channel hChannel hAwaiting =>
    rw [List.append_assoc, List.singleton_append, ← hChannel] at ha
    exact hResults a ha
  | hangUp hCancelled hHungUp =>
    rw [List.append_nil] at ha
    exact hResults a (List.mem_append_left _ ha)
  | _ => exact hResults a ha

namespace Sound

variable {gone : List Nat}

/-- The channel is not closed while a worker is at work. -/
theorem closed_of_busy (h : s.Sound plan gone) {w : Nat} {x : Worker α}
    (hWorker : s.workers[w]? = some x) (hBusy : x.isDone = false) : s.closed = false := by
  by_contra hClosed
  rw [Bool.not_eq_false] at hClosed
  have hDone := List.all_eq_true.mp (h.closed hClosed) x (List.mem_of_getElem? hWorker)
  rw [hBusy] at hDone
  cases hDone

/-- The consumer does not see the end of a channel that is open. -/
theorem ended_of_open (h : s.Sound plan gone) (hOpen : s.closed = false) : s.ended = false := by
  by_contra hEnded
  rw [Bool.not_eq_false] at hEnded
  rw [(h.ended hEnded).1] at hOpen
  cases hOpen

/-- A worker that moves leaves a channel that is not closed and a consumer that has not seen the
end. -/
theorem closing_of_moves (h : s.Sound plan gone) (hMoves : Moves plan s m s') :
    (s'.closed = true → s'.workers.all Worker.isDone = true) ∧
      (s'.ended = true → s'.closed = true ∧ s'.channel = []) := by
  cases hMoves with
  | goOn w hWorker | obey w hWorker | claim w hWorker | runOut w hWorker | begin w i hWorker
  | comeBack w i outcome hWorker | die w i hWorker | send w a hWorker | handOver w a hWorker
  | giveUp w a hWorker =>
    -- a worker that moves was not done, so the channel was open and nobody had seen its end
    have hOpen := h.closed_of_busy hWorker rfl
    have hRunning := h.ended_of_open hOpen
    exact ⟨fun hClosed => Bool.noConfusion (hOpen.symm.trans hClosed),
      fun hEnded => Bool.noConfusion (hRunning.symm.trans hEnded)⟩
  | close hOpen hDone => exact ⟨fun _ => hDone, fun hEnded => ⟨rfl, (h.ended hEnded).2⟩⟩
  | receive a channel hChannel hAwaiting =>
    refine ⟨h.closed, fun hEnded => ?_⟩
    rw [(h.ended hEnded).2] at hChannel
    cases hChannel
  | conclude hAwaiting hEmpty hClosed => exact ⟨h.closed, fun _ => ⟨hClosed, hEmpty⟩⟩
  | cancel => exact ⟨h.closed, h.ended⟩
  | hangUp => exact ⟨h.closed, fun hEnded => ⟨(h.ended hEnded).1, rfl⟩⟩

/-- A consumer that has hung up stays so, and has cancelled before. -/
theorem hungUp_of_moves (h : s.Sound plan gone) (hMoves : Moves plan s m s') :
    (s.hungUp = true → s'.hungUp = true) ∧ (s'.hungUp = true → s'.cancelled = true) := by
  cases hMoves with
  | cancel => exact ⟨id, fun _ => rfl⟩
  | hangUp hCancelled => exact ⟨fun _ => rfl, fun _ => hCancelled⟩
  | _ => exact ⟨id, h.hungUp⟩

end Sound

/-- **The account is kept.** Whatever moves, each index that has been claimed stays in one place. -/
theorem sound_of_moves {gone : List Nat} (h : s.Sound plan gone) (hMoves : Moves plan s m s') :
    ∃ gone', s'.Sound plan gone' := by
  obtain ⟨fresh, dropped, hEffect⟩ := effect_of_moves hMoves
  obtain ⟨hCursor, hCancelled⟩ := progress_of_moves hMoves
  obtain ⟨hStays, hHungUp⟩ := h.hungUp_of_moves hMoves
  obtain ⟨hClosed, hEnded⟩ := h.closing_of_moves hMoves
  -- what the move drops joins what is gone
  refine ⟨dropped ++ gone, ?_⟩
  constructor
  case size => rw [size_of_moves hMoves, h.size]
  case account =>
    rw [hEffect.claimed]
    calc (s'.whereabouts ++ (dropped ++ gone)).Perm ((s'.whereabouts ++ dropped) ++ gone) := by
          rw [List.append_assoc]
      List.Perm _ ((s.whereabouts ++ fresh) ++ gone) := hEffect.places.append_right _
      List.Perm _ ((s.whereabouts ++ gone) ++ fresh) := by
          rw [List.append_assoc, List.append_assoc]
          exact List.perm_append_comm.append_left _
      List.Perm _ (List.range (min s.cursor plan.count) ++ fresh) := h.account.append_right _
  case fetches =>
    rw [hEffect.claimed]
    exact hEffect.fetches.trans (h.fetches.append_right _)
  case results => exact results_of_moves h.results h.workers hMoves
  case workers =>
    intro x hx
    rcases worker_of_moves h.workers h.hungUp hMoves hx with hx | hx
    · exact (h.workers x hx).mono hCursor hCancelled
    · exact hx
  case died =>
    intro hOn i hi
    rcases List.mem_append.mp hi with hi | hi
    · exact hEffect.died hOn i hi
    · -- what was gone before had died, if the consumer had not hung up by then either
      refine h.died ?_ i hi
      by_contra hOff
      rw [hStays (Bool.not_eq_false _ ▸ hOff)] at hOn
      cases hOn
  case hungUp => exact hHungUp
  case closed => exact hClosed
  case ended => exact hEnded

/-- What every move keeps is kept by a run. -/
theorem kept_of_follow {P : Pool α → Prop}
    (hKeeps : ∀ {s m s'}, P s → Moves plan s m s' → P s') (h : P s) {ms : List Move}
    (hRun : s.follow plan ms = some s') : P s' := by
  -- on the moves, for any state that has the property
  induction ms generalizing s with
  | nil =>
    cases hRun
    exact h
  | cons m ms ih =>
    obtain ⟨mid, hStep, hRest⟩ := Option.bind_eq_some_iff.mp hRun
    exact ih (hKeeps h (moves_of_step hStep)) hRest

/-- **A run keeps the account.** -/
theorem sound_of_follow {gone : List Nat} (h : s.Sound plan gone) {ms : List Move}
    (hRun : s.follow plan ms = some s') : ∃ gone', s'.Sound plan gone' := by
  refine kept_of_follow (P := fun s => ∃ gone, s.Sound plan gone) ?_ ⟨gone, h⟩ hRun
  rintro s m s' ⟨gone, hSound⟩ hMoves
  exact sound_of_moves hSound hMoves

end Pool

end BuildQuery.Fetch
