import BuildQuery.Proofs.PoolCounts

/-!
# BuildQuery — results that are lost

A fetch that dies takes its worker with it, and its result is lost. Whatever the order in which the
parties move, what a consumer sees of it in the order of the list depends on the list alone: all results
before the first index whose fetch dies, and then one violation. Indices are claimed one after the other,
so that nothing before a loss is left unclaimed, even when no worker survives.

Every worker that is lost has taken an index with it. As long as fewer fetches can die than there are
workers, some worker goes on to the end, and only what dies is missing.

Main results:

* `received_of_losses` — what has been received at the end is what has been claimed and did not die.
* `firstLoss_le_claimed` — everything before the first loss has been claimed.
* `runs_with_losses` — the outcome of all runs, whichever fetches die.
-/

namespace BuildQuery.Fetch

variable {α : Type}

-- ---------------------------------------------------------------------------
-- The indices whose fetch dies
-- ---------------------------------------------------------------------------

namespace Plan

/-- The indices whose fetch dies. -/
def dying (plan : Plan α) : List Nat :=
  (List.range plan.count).filter fun i => (plan.fetch i).isNone

/-- The least index whose fetch dies, or the number of entries if there is none. -/
def firstLoss (plan : Plan α) : Nat :=
  plan.dying.min?.getD plan.count

variable {plan : Plan α}

/-- The indices whose fetch dies are indices of the list. -/
theorem mem_dying_iff {i : Nat} : i ∈ plan.dying ↔ i < plan.count ∧ plan.fetch i = none := by
  rw [dying, List.mem_filter, List.mem_range, Option.isNone_iff_eq_none]

/-- At least one worker is started, whatever was asked for. -/
theorem started_pos (plan : Plan α) : 0 < plan.started := by
  unfold started
  omega

/-- If nothing dies, the first loss lies behind the list. -/
theorem firstLoss_of_safe (h : plan.dying = []) : plan.firstLoss = plan.count := by
  rw [firstLoss, h]
  rfl

/-- If something dies, the first loss is the least of it. -/
theorem firstLoss_of_dying (h : plan.dying ≠ []) :
    plan.firstLoss ∈ plan.dying ∧ ∀ i ∈ plan.dying, plan.firstLoss ≤ i := by
  cases hMin : plan.dying.min? with
  | none => exact absurd (List.min?_eq_none_iff.mp hMin) h
  | some m =>
    rw [firstLoss, hMin, Option.getD_some]
    exact List.min?_eq_some_iff.mp hMin

/-- The first loss does not lie further than just behind the list. -/
theorem firstLoss_le (plan : Plan α) : plan.firstLoss ≤ plan.count := by
  by_cases h : plan.dying = []
  · exact Nat.le_of_eq (firstLoss_of_safe h)
  · exact Nat.le_of_lt (mem_dying_iff.mp (firstLoss_of_dying h).1).1

/-- The first loss is at the end just when there is none. -/
theorem firstLoss_eq_count_iff : plan.firstLoss = plan.count ↔ plan.dying = [] := by
  constructor
  · intro hEnd
    by_contra h
    have hLoss := (mem_dying_iff.mp (firstLoss_of_dying h).1).1
    omega
  · exact firstLoss_of_safe

/-- What stands before the first loss comes back. -/
theorem fetch_of_lt_firstLoss {i : Nat} (hi : i < plan.firstLoss) :
    (plan.fetch i).isSome = true := by
  by_contra hDies
  rw [Option.not_isSome_iff_eq_none] at hDies
  have hDying := mem_dying_iff.mpr ⟨Nat.lt_of_lt_of_le hi plan.firstLoss_le, hDies⟩
  have hLeast := (firstLoss_of_dying (List.ne_nil_of_mem hDying)).2 i hDying
  omega

/-- A first loss in the list is one. -/
theorem fetch_firstLoss (h : plan.firstLoss < plan.count) : plan.fetch plan.firstLoss = none := by
  have hSome : plan.dying ≠ [] := fun hNone => Nat.ne_of_lt h (firstLoss_of_safe hNone)
  exact (mem_dying_iff.mp (firstLoss_of_dying hSome).1).2

end Plan

namespace Pool

section

variable {plan : Plan α} {s : Pool α} {gone : List Nat}

-- ---------------------------------------------------------------------------
-- What has been claimed at the end
-- ---------------------------------------------------------------------------

/-- What is gone has died. -/
theorem dying_of_gone (h : s.Sound plan gone) (hWanted : s.Wanted) (hEnded : s.ended = true) :
    ∀ i ∈ gone, i < min s.cursor plan.count ∧ i ∈ plan.dying := by
  intro i hi
  have hClaimed := (account_of_ended h hEnded).2.mem_iff.mp (List.mem_append_right _ hi)
  rw [List.mem_range] at hClaimed
  exact ⟨hClaimed, Plan.mem_dying_iff.mpr ⟨by omega, h.died hWanted.hungUp i hi⟩⟩

/-- No more is gone than dies. -/
theorem length_gone_le (h : s.Sound plan gone) (hWanted : s.Wanted) (hEnded : s.ended = true) :
    gone.length ≤ plan.dying.length := by
  have hNodup := (account_of_ended h hEnded).2.nodup_iff.mpr List.nodup_range
  rw [List.nodup_append] at hNodup
  exact (List.subperm_of_subset hNodup.2.1 fun i hi =>
    (dying_of_gone h hWanted hEnded i hi).2).length_le

/-- At the end everything has been claimed, or no worker is left and each of them has lost an index. -/
theorem all_claimed_or_lost (h : s.Sound plan gone) (hCounted : s.Counted plan) (hWanted : s.Wanted)
    (hEnded : s.ended = true) : plan.count ≤ s.cursor ∨ plan.started ≤ gone.length := by
  -- a worker stops only when all is claimed; if none has, each was lost with an index in its hands
  by_cases hStopped : Worker.stopped ∈ s.workers
  · exact Or.inl (h.workers _ hStopped hWanted.cancelled)
  · right
    have hDone := h.closed (h.ended hEnded).1
    have hLost : ∀ x ∈ s.workers, x.least = 1 := by
      intro x hx
      have hx' := List.all_eq_true.mp hDone x hx
      cases x with
      | lost => rfl
      | stopped => exact absurd hx hStopped
      | _ => cases hx'
    have hTotal := total_of_all hLost
    have hLeast := hCounted.least
    have hPlaces := (account_of_ended h hEnded).2.length_eq
    rw [h.size] at hTotal
    rw [List.length_append, List.length_map, List.length_range] at hPlaces
    omega

/-- **Nothing before a loss is left out.** At the end, all indices up to the first loss have been
claimed. -/
theorem firstLoss_le_claimed (h : s.Sound plan gone) (hCounted : s.Counted plan)
    (hWanted : s.Wanted) (hEnded : s.ended = true) :
    plan.firstLoss ≤ min s.cursor plan.count := by
  rcases all_claimed_or_lost h hCounted hWanted hEnded with hAll | hLost
  · have hLoss := plan.firstLoss_le
    omega
  · -- at least one worker was started, so something is gone and had been claimed, and the first loss lies
    -- no further
    have hSome : gone ≠ [] := by
      intro hNone
      have hStarted := plan.started_pos
      rw [hNone, List.length_nil] at hLost
      omega
    obtain ⟨i, hi⟩ := List.exists_mem_of_ne_nil _ hSome
    obtain ⟨hClaimed, hDies⟩ := dying_of_gone h hWanted hEnded i hi
    have hLeast := (Plan.firstLoss_of_dying (List.ne_nil_of_mem hDies)).2 i hDies
    omega

/-- With fewer deaths than workers, everything that can be had has been claimed. -/
theorem claimed_of_few_losses (h : s.Sound plan gone) (hCounted : s.Counted plan)
    (hWanted : s.Wanted) (hEnded : s.ended = true) (hFew : plan.dying.length < plan.workers) {i : Nat}
    (hi : i < plan.count) (hLives : i ∉ plan.dying) : i < s.cursor := by
  rcases all_claimed_or_lost h hCounted hWanted hEnded with hAll | hLost
  · omega
  · -- not every entry dies, so the limit of one worker for each entry does not matter
    exfalso
    have hGone := length_gone_le h hWanted hEnded
    have hDying : plan.dying.length < (List.range plan.count).length := by
      refine List.length_filter_lt_length_iff_exists.mpr ⟨i, List.mem_range.mpr hi, ?_⟩
      exact fun hNone => hLives (List.mem_filter.mpr ⟨List.mem_range.mpr hi, hNone⟩)
    rw [List.length_range] at hDying
    unfold Plan.started at hLost
    omega

-- ---------------------------------------------------------------------------
-- What has been received at the end
-- ---------------------------------------------------------------------------

/-- **What is missing has died.** At the end, the results that have been received are those of the
claimed indices whose fetch came back, each once. -/
theorem received_of_losses (h : s.Sound plan gone) (hWanted : s.Wanted) (hEnded : s.ended = true) :
    (s.received.map Arrival.index).Perm
      ((List.range (min s.cursor plan.count)).filter fun i => (plan.fetch i).isSome) := by
  obtain ⟨-, hAccount⟩ := account_of_ended h hEnded
  have hNodup := hAccount.nodup_iff.mpr List.nodup_range
  rw [List.nodup_append] at hNodup
  -- no index is received twice, so the two lists are compared by their members
  refine (List.perm_ext_iff_of_nodup hNodup.1 (List.nodup_range.filter _)).mpr fun i => ?_
  rw [List.mem_filter]
  constructor
  · intro hi
    refine ⟨hAccount.mem_iff.mp (List.mem_append_left _ hi), ?_⟩
    obtain ⟨a, ha, rfl⟩ := List.mem_map.mp hi
    rw [h.results a (List.mem_append_left _ ha)]
    rfl
  · rintro ⟨hClaimed, hSome⟩
    -- a claimed index is with the consumer or gone, and what is gone did not come back
    rcases List.mem_append.mp (hAccount.mem_iff.mpr hClaimed) with hi | hi
    · exact hi
    · rw [h.died hWanted.hungUp i hi] at hSome
      cases hSome

/-- With fewer deaths than workers, all that does not die has been received, each once. -/
theorem received_of_few_losses (h : s.Sound plan gone) (hCounted : s.Counted plan)
    (hWanted : s.Wanted) (hEnded : s.ended = true) (hFew : plan.dying.length < plan.workers) :
    (s.received.map Arrival.index).Perm
      ((List.range plan.count).filter fun i => i ∉ plan.dying) := by
  have hReceived := received_of_losses h hWanted hEnded
  have hNodup := hReceived.nodup_iff.mpr (List.nodup_range.filter _)
  refine (List.perm_ext_iff_of_nodup hNodup (List.nodup_range.filter _)).mpr fun i => ?_
  rw [hReceived.mem_iff, List.mem_filter, List.mem_filter, List.mem_range, List.mem_range,
    decide_eq_true_iff, Option.isSome_iff_ne_none]
  constructor
  · rintro ⟨hClaimed, hSome⟩
    exact ⟨by omega, fun hDies => hSome (Plan.mem_dying_iff.mp hDies).2⟩
  · rintro ⟨hi, hLives⟩
    have hClaimed := claimed_of_few_losses h hCounted hWanted hEnded hFew hi hLives
    exact ⟨by omega, fun hNone => hLives (Plan.mem_dying_iff.mpr ⟨hi, hNone⟩)⟩

-- ---------------------------------------------------------------------------
-- What is handed on
-- ---------------------------------------------------------------------------

/-- Nothing arrives twice or from outside the list, also when results are lost. -/
theorem orderly_of_losses (h : s.Sound plan gone) (hWanted : s.Wanted) (hEnded : s.ended = true) :
    Orderly (some plan.count) s.received := by
  have hReceived := received_of_losses h hWanted hEnded
  refine ⟨hReceived.nodup_iff.mpr (List.nodup_range.filter _), ?_⟩
  intro count hCount a ha
  have hClaimed := List.mem_of_mem_filter (hReceived.mem_iff.mp (List.mem_map_of_mem ha))
  rw [List.mem_range] at hClaimed
  rw [← Option.mem_some_iff.mp hCount]
  omega

/-- No arrival breaks the order by itself. -/
theorem soundCount_of_losses (h : s.Sound plan gone) (hWanted : s.Wanted) (hEnded : s.ended = true) :
    soundCount (some plan.count) s.received = s.received.length := by
  have hSound : soundCount (some plan.count) (s.received ++ []) = s.received.length :=
    soundCount_eq (orderly_of_losses h hWanted hEnded) (by simp)
  rwa [List.append_nil] at hSound

/-- **What is ready at the end** is what stands before the first loss. -/
theorem readyCount_of_losses (h : s.Sound plan gone) (hCounted : s.Counted plan)
    (hWanted : s.Wanted) (hEnded : s.ended = true) :
    readyCount (some plan.count) s.received = plan.firstLoss := by
  have hReceived := received_of_losses h hWanted hEnded
  have hFirst := firstLoss_le_claimed h hCounted hWanted hEnded
  rw [readyCount, soundCount_of_losses h hWanted hEnded, List.take_length]
  -- the first loss is missing and nothing before it is
  apply leastMissing_eq
  · rw [hReceived.mem_iff, List.mem_filter, List.mem_range]
    rintro ⟨hClaimed, hSome⟩
    rw [Plan.fetch_firstLoss (by omega)] at hSome
    cases hSome
  · intro i hi
    rw [hReceived.mem_iff, List.mem_filter, List.mem_range]
    exact ⟨by omega, Plan.fetch_of_lt_firstLoss hi⟩

/-- There is a fault just when something is lost. -/
theorem faulty_iff_of_losses {items : List (Arrival α)} {faults : List Violation}
    (hDelivery : Delivery (some plan.count) s.received items faults) (h : s.Sound plan gone)
    (hCounted : s.Counted plan) (hWanted : s.Wanted) (hEnded : s.ended = true) :
    faults = [] ↔ plan.dying = [] := by
  rw [← not_iff_not, ← ne_eq, hDelivery.faulty_iff, readyCount_of_losses h hCounted hWanted hEnded,
    soundCount_of_losses h hWanted hEnded, ← Plan.firstLoss_eq_count_iff]
  constructor
  · -- of the three faults a sequencer finds, only the missing end is possible here
    rintro (hLt | ⟨a, ha, hLt⟩ | ⟨count, hCount, hNe⟩) hEq
    · omega
    · have hIndex := (orderly_of_losses h hWanted hEnded).in_range _ rfl a ha
      omega
    · rw [Option.mem_some_iff] at hCount
      omega
  · intro hNe
    exact Or.inr (Or.inr ⟨plan.count, rfl, fun hEq => hNe hEq.symm⟩)

/-- **A loss ends the order.** The results before the first loss are handed on, each of them what its
fetch gives, and then a violation is reported if anything was lost. -/
theorem sequenced_of_losses (h : s.Sound plan gone) (hCounted : s.Counted plan)
    (hWanted : s.Wanted) (hEnded : s.ended = true) :
    ∃ (items : List (Arrival α)) (faults : List Violation),
      items.map Arrival.index = List.range plan.firstLoss ∧
      (∀ a ∈ items, plan.fetch a.index = some a.outcome) ∧
      faults.length = (if plan.dying = [] then 0 else 1) ∧
      sequenced (some plan.count) s.received =
        items.map .result ++ faults.map .violation ++ [.finished] := by
  obtain ⟨items, faults, hDelivery, hSequenced, -⟩ := exists_delivery (some plan.count) s.received
  refine ⟨items, faults, ?_, ?_, ?_, hSequenced⟩
  · rw [hDelivery.indices, readyCount_of_losses h hCounted hWanted hEnded]
  · intro a ha
    have hArrived := List.mem_of_mem_take (hDelivery.arrived a ha)
    exact h.results a (List.mem_append_left _ hArrived)
  · have hFaulty := faulty_iff_of_losses hDelivery h hCounted hWanted hEnded
    have hOne := hDelivery.at_most_one
    split
    case isTrue hSafe => rw [hFaulty.mpr hSafe, List.length_nil]
    case isFalse hLoss =>
      have hSome := List.length_pos_iff.mpr fun hNone => hLoss (hFaulty.mp hNone)
      omega

end

-- ---------------------------------------------------------------------------
-- All runs
-- ---------------------------------------------------------------------------

/-- **Runs with losses.** A pool whose fetches may die, with any number of workers and any channel, in
whatever order its parties move: it can move until the consumer has seen the end, and it comes to that
end. The results before the first index whose fetch dies are handed on in the order of the list, each of
them what its fetch gives; then one violation is reported if any fetch dies, and nothing more. When
fewer fetches die than workers were asked for, the consumer has received what does not die, each once,
and nothing else. -/
theorem runs_with_losses {plan : Plan α} {ms : List Move} {s : Pool α} (h : Undisturbed plan ms s) :
    ms.length ≤ moveLimit plan ∧
      (s.ended = false → ∃ m s', m.keepsInterest = true ∧ s.step plan m = some s') ∧
      ((∀ m, m.keepsInterest = true → s.step plan m = none) →
        s.ended = true ∧
        (∃ (items : List (Arrival α)) (faults : List Violation),
          items.map Arrival.index = List.range plan.firstLoss ∧
          (∀ a ∈ items, plan.fetch a.index = some a.outcome) ∧
          faults.length = (if plan.dying = [] then 0 else 1) ∧
          sequenced (some plan.count) s.received =
            items.map .result ++ faults.map .violation ++ [.finished]) ∧
        (plan.dying.length < plan.workers →
          (s.received.map Arrival.index).Perm
              ((List.range plan.count).filter fun i => i ∉ plan.dying) ∧
            ∀ a ∈ s.received, plan.fetch a.index = some a.outcome)) := by
  obtain ⟨gone, hSound⟩ := h.sound
  have hCounted := counted_of_follow h.run
  refine ⟨h.length_le, h.exists_step, ?_⟩
  intro hStuck
  have hEnded := (ended_iff_stuck h.wanted hSound).mpr hStuck
  refine ⟨hEnded, sequenced_of_losses hSound hCounted h.wanted hEnded, fun hFew => ⟨?_, ?_⟩⟩
  · exact received_of_few_losses hSound hCounted h.wanted hEnded hFew
  · exact fun a ha => hSound.results a (List.mem_append_left _ ha)

/-- Two workers, a channel that holds nothing, and a first fetch that dies while the other result is
handed over: it is received, and not handed on. -/
theorem runs_with_losses_first_dies :
    ∃ ms s, Undisturbed (⟨2, 2, 0, fun i => if i = 0 then none else some "b"⟩ : Plan String) ms s ∧
      s.received.map Arrival.index = [1] ∧
      ∃ v, sequenced (some 2) s.received = [.violation v, .finished] := by
  have h : Undisturbed (⟨2, 2, 0, fun i => if i = 0 then none else some "b"⟩ : Plan String)
      [.check 0, .check 1, .claim 0, .claim 1, .begin 0, .begin 1, .finish 0, .finish 1, .handOver 1,
        .check 1, .claim 1, .close, .conclude]
      ⟨3, [.lost, .stopped], [], false, false, true, true, [0, 1], [⟨1, "b"⟩]⟩ := ⟨rfl, by decide⟩
  obtain ⟨gone, hSound⟩ := h.sound
  obtain ⟨-, -, hEnd⟩ := runs_with_losses h
  obtain ⟨-, ⟨items, faults, hItems, -, hFaults, hSequenced⟩, hReceived⟩ :=
    hEnd ((ended_iff_stuck h.wanted hSound).mp rfl)
  obtain ⟨hPerm, -⟩ := hReceived (by decide)
  have hNoItems : items = [] := List.map_eq_nil_iff.mp hItems
  obtain ⟨v, hOne⟩ := List.length_eq_one_iff.mp hFaults
  rw [hNoItems, hOne] at hSequenced
  exact ⟨_, _, h, List.perm_singleton.mp hPerm, v, hSequenced⟩

end Pool

end BuildQuery.Fetch
