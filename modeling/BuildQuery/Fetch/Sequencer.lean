import BuildQuery.Decimal.Digits

/-!
# BuildQuery — restoring an order

Results that were fetched side by side arrive in any order. A `Sequencer` hands them on by their index,
0 first, and holds back a result that is ahead of its turn. `poll` asks for the next result; it takes
arrivals from a queue until the result whose turn it is has come.

* A result may arrive once, and when the number of results is known its index has to be below it.
* The arrivals have to end with nothing held back and with the known number of results.

What breaks one of these rules is a `Violation`. It is reported once, and the sequencer ends with it.
-/

namespace BuildQuery.Fetch

/-- A result with its position in the list that was asked for. -/
structure Arrival (α : Type) where
  index : Nat
  outcome : α
deriving DecidableEq

/-- What is wrong with the arrivals. -/
inductive Violation where
  /-- The result with this index has arrived before. -/
  | repeated (index : Nat)
  /-- The index is not below the known number of results. -/
  | outOfRange (index count : Nat)
  /-- The arrivals ended before the result with this index, and later ones were held back. -/
  | stranded (awaited : Nat) (held : List Nat)
  /-- The arrivals ended too early. -/
  | short (emitted count : Nat)
deriving DecidableEq

/-- The text shown for a violation. -/
def Violation.message : Violation → String
  | .repeated index => "result for index " ++ Decimal.text index ++ " delivered more than once"
  | .outOfRange index count =>
    "result index " ++ Decimal.text index ++ " is out of range for " ++ Decimal.text count
      ++ " locators"
  | .stranded awaited held =>
    "stream ended while waiting for index " ++ Decimal.text awaited ++ "; stranded results: ["
      ++ ", ".intercalate (held.map Decimal.text) ++ "]"
  | .short emitted count =>
    "stream ended after " ++ Decimal.text emitted ++ " of " ++ Decimal.text count ++ " results"

/-- The state of a sequencer. -/
structure Sequencer (α : Type) where
  /-- The index whose turn it is; as many results have been handed on. -/
  next : Nat
  /-- The number of results, if it is known. -/
  count? : Option Nat
  /-- The arrivals that are ahead of their turn, by ascending index. -/
  held : List (Arrival α)
  /-- Nothing is handed on any more. -/
  ended : Bool

/-- The answer to a poll. -/
inductive Answer (α : Type) where
  | result (arrival : Arrival α)
  | violation (violation : Violation)
  | finished

/-- What a poll leaves behind. -/
structure Polled (α : Type) where
  answer : Answer α
  sequencer : Sequencer α
  /-- The arrivals that were not taken. -/
  queue : List (Arrival α)

namespace Sequencer

variable {α : Type}

/-- Nothing has arrived. -/
def start (count? : Option Nat) : Sequencer α := ⟨0, count?, [], false⟩

/-- The rule that an arrival breaks, if it breaks one. -/
def faultOf (s : Sequencer α) (index : Nat) : Option Violation :=
  if index < s.next ∨ index ∈ s.held.map Arrival.index then some (.repeated index)
  else match s.count? with
    | some count => if count ≤ index then some (.outOfRange index count) else none
    | none => none

/-- The rule that the end of the arrivals breaks, if it breaks one. -/
def faultAtEnd (s : Sequencer α) : Option Violation :=
  if s.held.isEmpty then
    match s.count? with
    | some count => if s.next = count then none else some (.short s.next count)
    | none => none
  else some (.stranded s.next (s.held.map Arrival.index))

/-- An arrival put among others by its index. -/
def hold (a : Arrival α) : List (Arrival α) → List (Arrival α)
  | [] => [a]
  | b :: held => if a.index < b.index then a :: b :: held else b :: hold a held

/-- Hands a result on. -/
def emit (s : Sequencer α) (a : Arrival α) (queue : List (Arrival α)) : Polled α :=
  ⟨.result a, { s with next := s.next + 1 }, queue⟩

/-- Reports a violation and ends. -/
def abandon (s : Sequencer α) (v : Violation) (queue : List (Arrival α)) : Polled α :=
  ⟨.violation v, { s with held := [], ended := true }, queue⟩

/-- The end of the arrivals. -/
def finish (s : Sequencer α) : Polled α :=
  match s.faultAtEnd with
  | some v => s.abandon v []
  | none => ⟨.finished, { s with ended := true }, []⟩

/-- Takes arrivals until the result whose turn it is has come. -/
def take (s : Sequencer α) : List (Arrival α) → Polled α
  | [] => s.finish
  | a :: queue =>
    match s.faultOf a.index with
    | some v => s.abandon v queue
    | none =>
      if a.index = s.next then s.emit a queue
      else take { s with held := hold a s.held } queue

/-- Asks for the next result. -/
def poll (s : Sequencer α) (queue : List (Arrival α)) : Polled α :=
  if s.ended then ⟨.finished, s, queue⟩
  else match s.held with
    | a :: held => if a.index = s.next then { s with held }.emit a queue else s.take queue
    | [] => s.take queue

/-- Polls at most so many times, up to the end. -/
def drainUpTo : Nat → Sequencer α → List (Arrival α) → List (Polled α)
  | 0, _, _ => []
  | fuel + 1, s, queue =>
    let polled := s.poll queue
    match polled.answer with
    | .finished => [polled]
    | _ => polled :: drainUpTo fuel polled.sequencer polled.queue

/-- Polls up to the end: each arrival is handed on at most once, and a violation and the end are
answered once each. -/
def drain (s : Sequencer α) (queue : List (Arrival α)) : List (Polled α) :=
  drainUpTo (s.held.length + queue.length + 2) s queue

end Sequencer

/-- The answers of a sequencer that is polled up to the end. -/
def sequenced {α : Type} (count? : Option Nat) (arrivals : List (Arrival α)) : List (Answer α) :=
  ((Sequencer.start count?).drain arrivals).map Polled.answer

end BuildQuery.Fetch
