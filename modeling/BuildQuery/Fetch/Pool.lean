import BuildQuery.Fetch.Sequencer

/-!
# BuildQuery — fetching side by side

A pool of workers fetches the entries of a list. Each worker goes round: it looks whether the pool
has been cancelled, claims the next index from a common cursor, fetches it and sends the result into
a channel that holds a limited number of results; a channel that holds none hands a result over from
a worker to the consumer. A worker whose fetch dies is lost, and so is that result. When all workers
have stopped the channel is closed, and the consumer sees the end once the channel is empty. A
consumer that loses interest first cancels the pool and then hangs up.

`step` gives the effect of one move of one party, if the party can make it, and a run is any sequence
of such moves, which `follow` makes. `complete` is one run to its end, in which the consumer receives
whenever it can.
-/

namespace BuildQuery.Fetch

-- ---------------------------------------------------------------------------
-- The pool
-- ---------------------------------------------------------------------------

/-- What a pool is asked to do. -/
structure Plan (α : Type) where
  /-- The number of entries in the list. -/
  count : Nat
  /-- The number of workers that is asked for. -/
  workers : Nat
  /-- How many results the channel holds. -/
  capacity : Nat
  /-- The result for each index; there is none when the fetch dies. -/
  fetch : Nat → Option α

/-- The number of workers that are started: at least one, and no more than there are entries. -/
def Plan.started {α : Type} (plan : Plan α) : Nat :=
  min (max plan.workers 1) (max plan.count 1)

/-- The plan to fetch each of some locators; there is no result when the fetch of a locator dies. -/
def Plan.ofLocators {α : Type} (locators : List String) (fetch : String → Option α)
    (workers capacity : Nat) : Plan α where
  count := locators.length
  workers := workers
  capacity := capacity
  fetch := fun i => locators[i]?.bind fetch

/-- Where a worker stands. -/
inductive Worker (α : Type) where
  /-- About to look whether the pool has been cancelled. -/
  | idle
  /-- About to claim an index. -/
  | willing
  /-- About to fetch. -/
  | claimed (index : Nat)
  /-- In the middle of a fetch. -/
  | fetching (index : Nat)
  /-- About to send a result. -/
  | sending (arrival : Arrival α)
  /-- Stopped in good order. -/
  | stopped
  /-- Stopped by a fetch that died. -/
  | lost
deriving DecidableEq

/-- The state of a pool. -/
structure Pool (α : Type) where
  /-- The next index to claim. -/
  cursor : Nat
  workers : List (Worker α)
  /-- The results in the channel, the oldest first. -/
  channel : List (Arrival α)
  cancelled : Bool
  /-- The consumer has hung up. -/
  hungUp : Bool
  /-- The channel has been closed. -/
  closed : Bool
  /-- The consumer has seen the end. -/
  ended : Bool
  /-- The indices whose fetch has begun, in order. -/
  begun : List Nat
  /-- The results that the consumer has received, in order. -/
  received : List (Arrival α)

/-- The moves of the parties; a worker is given by its number. -/
inductive Move where
  /-- A worker looks whether the pool has been cancelled. -/
  | check (worker : Nat)
  /-- A worker claims the next index, or stops when there is none. -/
  | claim (worker : Nat)
  /-- A worker begins to fetch. -/
  | begin (worker : Nat)
  /-- A fetch comes back, or dies. -/
  | finish (worker : Nat)
  /-- A worker puts a result into the channel. -/
  | send (worker : Nat)
  /-- A worker hands a result over to the consumer. -/
  | handOver (worker : Nat)
  /-- A worker finds that the consumer has hung up. -/
  | giveUp (worker : Nat)
  /-- The channel is closed after all workers. -/
  | close
  /-- The consumer takes a result out of the channel. -/
  | receive
  /-- The consumer sees the end. -/
  | conclude
  /-- The consumer cancels the pool. -/
  | cancel
  /-- The consumer hangs up. -/
  | hangUp
deriving DecidableEq

/-- The moves that are made as long as the consumer keeps its interest. -/
def Move.keepsInterest : Move → Bool
  | .cancel => false
  | .hangUp => false
  | _ => true

namespace Worker

variable {α : Type}

/-- A worker that makes no further move. -/
def isDone : Worker α → Bool
  | .stopped => true
  | .lost => true
  | _ => false

end Worker

namespace Pool

variable {α : Type}

/-- The pool with all its workers at the start. -/
def start (plan : Plan α) : Pool α where
  cursor := 0
  workers := List.replicate plan.started .idle
  channel := []
  cancelled := false
  hungUp := false
  closed := false
  ended := false
  begun := []
  received := []

/-- The pool with one worker elsewhere. -/
def moveTo (s : Pool α) (w : Nat) (there : Worker α) : Pool α :=
  { s with workers := s.workers.set w there }

/-- The consumer waits for results. -/
def awaiting (s : Pool α) : Bool :=
  !s.cancelled && !s.hungUp && !s.ended

/-- The pool after a worker has looked whether it has been cancelled. -/
def check (s : Pool α) (w : Nat) : Pool α :=
  if s.cancelled then s.moveTo w .stopped else s.moveTo w .willing

/-- The pool after a worker has claimed an index. -/
def claim (plan : Plan α) (s : Pool α) (w : Nat) : Pool α :=
  let s' := if s.cursor < plan.count then s.moveTo w (.claimed s.cursor) else s.moveTo w .stopped
  { s' with cursor := s.cursor + 1 }

/-- The pool after the fetch of an index has come back. -/
def comeBack (plan : Plan α) (s : Pool α) (w index : Nat) : Pool α :=
  match plan.fetch index with
  | some outcome => s.moveTo w (.sending ⟨index, outcome⟩)
  | none => s.moveTo w .lost

/-- The pool after a move, if the move can be made. -/
def step (plan : Plan α) (s : Pool α) : Move → Option (Pool α)
  | .check w =>
    match s.workers[w]? with
    | some .idle => some (s.check w)
    | _ => none
  | .claim w =>
    match s.workers[w]? with
    | some .willing => some (s.claim plan w)
    | _ => none
  | .begin w =>
    match s.workers[w]? with
    | some (.claimed index) => some { s.moveTo w (.fetching index) with begun := s.begun ++ [index] }
    | _ => none
  | .finish w =>
    match s.workers[w]? with
    | some (.fetching index) => some (s.comeBack plan w index)
    | _ => none
  | .send w =>
    match s.workers[w]? with
    | some (.sending a) =>
      if !s.hungUp ∧ s.channel.length < plan.capacity
      then some { s.moveTo w .idle with channel := s.channel ++ [a] }
      else none
    | _ => none
  | .handOver w =>
    match s.workers[w]? with
    | some (.sending a) =>
      if s.awaiting ∧ plan.capacity = 0
      then some { s.moveTo w .idle with received := s.received ++ [a] }
      else none
    | _ => none
  | .giveUp w =>
    match s.workers[w]? with
    | some (.sending _) => if s.hungUp then some (s.moveTo w .stopped) else none
    | _ => none
  | .close =>
    if !s.closed ∧ s.workers.all Worker.isDone then some { s with closed := true } else none
  | .receive =>
    match s.channel with
    | a :: channel =>
      if s.awaiting then some { s with channel, received := s.received ++ [a] } else none
    | [] => none
  | .conclude =>
    if s.awaiting ∧ s.channel.isEmpty ∧ s.closed then some { s with ended := true } else none
  | .cancel =>
    if !s.cancelled ∧ !s.hungUp then some { s with cancelled := true } else none
  | .hangUp =>
    if s.cancelled ∧ !s.hungUp then some { s with hungUp := true, channel := [] } else none

/-- The pool after some moves, one after the other, if all of them can be made. -/
def follow (plan : Plan α) (s : Pool α) : List Move → Option (Pool α)
  | [] => some s
  | m :: ms => (s.step plan m).bind fun s' => follow plan s' ms

-- ---------------------------------------------------------------------------
-- One run
-- ---------------------------------------------------------------------------

/-- The moves that a worker can make. -/
def workerMoves (w : Nat) : List Move :=
  [.handOver w, .send w, .finish w, .begin w, .claim w, .check w]

/-- All moves of a pool whose consumer keeps its interest, in the order in which they are tried. -/
def moves (plan : Plan α) : List Move :=
  .receive :: (List.range plan.started).flatMap workerMoves ++ [.close, .conclude]

/-- The pool after the first move that can be made. -/
def next? (plan : Plan α) (s : Pool α) : Option (Pool α) :=
  (moves plan).findSome? (s.step plan)

/-- The pool after at most so many moves. -/
def run (plan : Plan α) : Nat → Pool α → Pool α
  | 0, s => s
  | moves + 1, s =>
    match s.next? plan with
    | some s' => run plan moves s'
    | none => s

/-- The moves that a run can have: six for each result, two for each worker that finds nothing left to
claim, and the two at the end. -/
def moveLimit (plan : Plan α) : Nat :=
  6 * plan.count + 2 * plan.started + 2

/-- The pool at the end of a run. -/
def complete (plan : Plan α) : Pool α :=
  run plan (moveLimit plan) (start plan)

end Pool

end BuildQuery.Fetch
