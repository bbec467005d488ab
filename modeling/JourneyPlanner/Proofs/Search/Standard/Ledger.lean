import JourneyPlanner.Proofs.Search.Closure

/-! The tables of best times against the records they sum up. A ledger holds the best time at
every stop over the records of some kind and, where it was improved in the current round, the
record that did. One ledger is kept over all records and one over those by transit. -/
namespace JourneyPlanner.Search.Standard

variable {numStops : Nat} {marks : IndexSet} {holders : IndexTable (Option Nat)}

@[simp]
theorem holder?_clear (marks : IndexSet) (holders : IndexTable (Option Nat)) (stop : Nat) :
    holder? marks.clear holders stop = none := by
  simp [holder?]

/-- A stop has a holder exactly when it is marked, and then the one entered for it. -/
theorem holder?_eq_some_iff {stop id : Nat} :
    holder? marks holders stop = some id ↔
      marks.contains stop = true ∧ holders.get stop = some id := by
  unfold holder?
  split <;> simp_all

/-- The number of the best arrival by transit of this round at a stop, if it was improved by transit
in it. -/
def State.byTransitId? (state : State) (stop : Nat) : Option Nat :=
  holder? state.best.reachedByTransit state.byTransit stop

structure Marked (numStops : Nat) (marks : IndexSet) (holders : IndexTable (Option Nat)) :
    Prop where
  size_marks : marks.marks.size = numStops
  size_holders : holders.cells.size = numStops
  exists_entry : ∀ {stop}, marks.contains stop = true → ∃ id, holders.get stop = some id

namespace Marked

theorem initial (numStops : Nat) :
    Marked numStops (IndexSet.empty numStops) (IndexTable.uniform numStops none) :=
  ⟨by simp [IndexSet.empty], by simp [IndexTable.uniform], by simp⟩

/-- Entries that are not marked do not count. -/
theorem clear (marked : Marked numStops marks holders) : Marked numStops marks.clear holders :=
  ⟨by simp [IndexSet.clear, IndexSet.empty, marked.size_marks], marked.size_holders, by simp⟩

theorem contains_iff (marked : Marked numStops marks holders) (stop : Nat) :
    marks.contains stop = true ↔ ∃ id, holder? marks holders stop = some id := by
  constructor
  · intro hStop
    obtain ⟨id, hId⟩ := marked.exists_entry hStop
    exact ⟨id, holder?_eq_some_iff.mpr ⟨hStop, hId⟩⟩
  · rintro ⟨id, hId⟩
    exact (holder?_eq_some_iff.mp hId).1

/-- Entering a holder marks its stop and changes no other. -/
theorem holder?_set (marked : Marked numStops marks holders) {stop : Nat} (hStop : stop < numStops)
    (id other : Nat) :
    holder? (marks.insert stop) (holders.set stop (some id)) other =
      if stop = other then some id else holder? marks holders other := by
  rw [holder?, IndexSet.contains_insert, IndexTable.get_set, marked.size_marks, marked.size_holders]
  by_cases hSame : stop = other
  · subst hSame
    simp [hStop]
  · simp [hSame, holder?]

theorem set (marked : Marked numStops marks holders) {stop id : Nat} (hStop : stop < numStops) :
    Marked numStops (marks.insert stop) (holders.set stop (some id)) := by
  refine ⟨by simp [marked.size_marks], by simp [marked.size_holders], fun {other} hOther => ?_⟩
  rw [IndexSet.contains_insert, marked.size_marks] at hOther
  rw [IndexTable.get_set, marked.size_holders]
  by_cases hSame : stop = other
  · subst hSame
    exact ⟨id, by simp [hStop]⟩
  · simpa [hSame] using marked.exists_entry (by simpa [hSame] using hOther)

end Marked

/-- The best times over the records of some kind, and who made them in the current round. -/
structure Ledger (direction : Direction) (numStops : Nat) (counts : Arrival → Bool)
    (arrivals : Arrivals) (round : Nat) (times : IndexTable Int) (marks : IndexSet)
    (holders : IndexTable (Option Nat)) : Prop where
  size_times : times.cells.size = numStops
  marked : Marked numStops marks holders
  time_le : ∀ arrival ∈ arrivals.toList, counts arrival = true →
    direction.timeCriterion (times.get arrival.stop) ≤ direction.timeCriterion arrival.time
  /-- An entry leads to a record of this round that has the best time of its stop. -/
  held : ∀ {stop id}, holder? marks holders stop = some id → ∃ arrival, arrivals.get? id = some arrival ∧
    counts arrival = true ∧ arrival.stop = stop ∧ arrival.round = round ∧
      arrival.time = times.get stop
  /-- A best time without an entry was made in an earlier round. -/
  attained : ∀ stop, times.get stop = direction.unreached ∨
    (∃ id, holder? marks holders stop = some id) ∨
    ∃ arrival ∈ arrivals.toList, counts arrival = true ∧ arrival.stop = stop ∧
      arrival.time = times.get stop ∧ arrival.round < round

namespace Ledger

variable {direction : Direction} {counts : Arrival → Bool} {arrivals : Arrivals} {round : Nat}
  {times : IndexTable Int} {arrival : Arrival}

theorem initial (direction : Direction) (numStops : Nat) (counts : Arrival → Bool) (round : Nat) :
    Ledger direction numStops counts Arrivals.empty round
      (IndexTable.uniform numStops direction.unreached) (IndexSet.empty numStops)
      (IndexTable.uniform numStops none) := by
  refine ⟨by simp [IndexTable.uniform], Marked.initial numStops, ?_, ?_, ?_⟩
  · simp [Arrivals.empty, Arrivals.toList]
  · simp [holder?]
  · exact fun stop => Or.inl (IndexTable.get_uniform ..)

/-- A record that beats the best time of its stop is entered. -/
theorem push_entered (ledger : Ledger direction numStops counts arrivals round times marks holders)
    (hStop : arrival.stop < numStops) (hCounts : counts arrival = true)
    (hRound : arrival.round = round)
    (hBetter : direction.timeCriterion arrival.time <
      direction.timeCriterion (times.get arrival.stop)) :
    Ledger direction numStops counts (arrivals.push arrival) round
      (times.set arrival.stop arrival.time) (marks.insert arrival.stop)
      (holders.set arrival.stop (some arrivals.size)) := by
  have hTimes : ∀ stop, (times.set arrival.stop arrival.time).get stop =
      if arrival.stop = stop then arrival.time else times.get stop :=
    fun stop => IndexTable.get_set_of_lt (ledger.size_times ▸ hStop) stop arrival.time
  have hHolders := ledger.marked.holder?_set hStop arrivals.size
  refine ⟨by simp [ledger.size_times], ledger.marked.set hStop, ?_, ?_, ?_⟩
  · intro other hOther hCountsOther
    rw [hTimes]
    rcases Arrivals.mem_push.mp hOther with hBefore | rfl
    · have hLe := ledger.time_le other hBefore hCountsOther
      split
      · rename_i hSame
        rw [← hSame] at hLe
        omega
      · exact hLe
    · simp
  · intro stop id hHolder
    rw [hHolders] at hHolder
    rw [hTimes]
    split at hHolder
    · rename_i hSame
      cases hHolder
      exact ⟨arrival, Arrivals.get?_push_size .., hCounts, hSame, hRound, by rw [if_pos hSame]⟩
    · rename_i hOther
      obtain ⟨found, hFound, hRest⟩ := ledger.held hHolder
      rw [if_neg hOther]
      exact ⟨found, Arrivals.extends_push _ _ _ _ hFound, hRest⟩
  · intro stop
    rw [hTimes, hHolders]
    split
    · exact Or.inr (Or.inl ⟨_, rfl⟩)
    · rcases ledger.attained stop with hUnreached | hHolder | ⟨found, hFound, hRest⟩
      · exact Or.inl hUnreached
      · exact Or.inr (Or.inl hHolder)
      · exact Or.inr (Or.inr ⟨found, Arrivals.mem_push.mpr (Or.inl hFound), hRest⟩)

/-- A record that is of another kind, or no better than the best time of its stop, leaves the
ledger as it is. -/
theorem push_passed (ledger : Ledger direction numStops counts arrivals round times marks holders)
    (hPassed : counts arrival = true → direction.timeCriterion (times.get arrival.stop) ≤
      direction.timeCriterion arrival.time) :
    Ledger direction numStops counts (arrivals.push arrival) round times marks holders := by
  refine ⟨ledger.size_times, ledger.marked, ?_, ?_, ?_⟩
  · intro other hOther hCounts
    rcases Arrivals.mem_push.mp hOther with hBefore | rfl
    · exact ledger.time_le other hBefore hCounts
    · exact hPassed hCounts
  · intro stop id hHolder
    obtain ⟨found, hFound, hRest⟩ := ledger.held hHolder
    exact ⟨found, Arrivals.extends_push _ _ _ _ hFound, hRest⟩
  · intro stop
    rcases ledger.attained stop with hUnreached | hHolder | ⟨found, hFound, hRest⟩
    · exact Or.inl hUnreached
    · exact Or.inr (Or.inl hHolder)
    · exact Or.inr (Or.inr ⟨found, Arrivals.mem_push.mpr (Or.inl hFound), hRest⟩)

/-- The best times stand when a round begins, and no entry counts. -/
theorem next (ledger : Ledger direction numStops counts arrivals round times marks holders)
    {others : IndexSet} {otherHolders : IndexTable (Option Nat)}
    (marked : Marked numStops others otherHolders) :
    Ledger direction numStops counts arrivals (round + 1) times others.clear otherHolders := by
  refine ⟨ledger.size_times, marked.clear, ledger.time_le, by simp, ?_⟩
  · intro stop
    rcases ledger.attained stop with
      hUnreached | ⟨id, hHolder⟩ | ⟨found, hFound, hCounts, hStop, hTime, hRound⟩
    · exact Or.inl hUnreached
    · obtain ⟨found, hFound, hCounts, hStop, hRound, hTime⟩ := ledger.held hHolder
      exact Or.inr (Or.inr ⟨found, Arrivals.mem_toList_of_get? hFound, hCounts, hStop, hTime,
        by omega⟩)
    · exact Or.inr (Or.inr ⟨found, hFound, hCounts, hStop, hTime, by omega⟩)

/-- Where the best time is no later than some time that can be told, a record made it: one that
is entered or one of an earlier round. -/
theorem exists_of_le (ledger : Ledger direction numStops counts arrivals round times marks holders)
    {stop : Nat} {time : Int}
    (hLe : direction.timeCriterion (times.get stop) ≤ direction.timeCriterion time)
    (hTime : direction.timeCriterion time < direction.timeCriterion direction.unreached) :
    ∃ arrival ∈ arrivals.toList, counts arrival = true ∧ arrival.stop = stop ∧
      direction.timeCriterion arrival.time ≤ direction.timeCriterion time ∧
      (arrival.round < round ∨ arrival.round = round ∧
        ∃ id, holder? marks holders stop = some id ∧ arrivals.get? id = some arrival) := by
  rcases ledger.attained stop with
    hUnreached | ⟨id, hHolder⟩ | ⟨found, hFound, hCounts, hStop, hSame, hRound⟩
  · rw [hUnreached] at hLe
    omega
  · obtain ⟨found, hFound, hCounts, hStop, hRound, hSame⟩ := ledger.held hHolder
    exact ⟨found, Arrivals.mem_toList_of_get? hFound, hCounts, hStop, hSame ▸ hLe,
      Or.inr ⟨hRound, id, hHolder, hFound⟩⟩
  · exact ⟨found, hFound, hCounts, hStop, hSame ▸ hLe, Or.inl hRound⟩

end Ledger

end JourneyPlanner.Search.Standard
