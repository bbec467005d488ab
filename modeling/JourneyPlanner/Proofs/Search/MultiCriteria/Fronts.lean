import JourneyPlanner.Proofs.Pareto.Survivors
import JourneyPlanner.Proofs.Search.MultiCriteria.Course
import JourneyPlanner.Proofs.Search.Prices

/-! The fronts of a search for the best compromises. As long as costs stay within their limits all
its comparisons are orders, so a front holds what none of the alternatives offered is better than.
Main statement: recording arrivals offers to the front of each stop those made there that no way to
the destination covers. -/
namespace JourneyPlanner.Search.MultiCriteria

variable {problem : Problem} {time : Int} {state : State} {direction : Direction}

theorem rideRules_orderly : rideRules.Orderly (Rules.Fits rideRules.criteria) :=
  Rules.orderly_of_exact (by simp [rideRules, Criterion.IsExact])

theorem stopRules_orderly : stopRules.Orderly (Rules.Fits stopRules.criteria) :=
  Rules.orderly_of_exact (by simp [stopRules, Criterion.IsExact])

theorem destinationRules_orderly :
    (destinationRules 0).Orderly (Rules.Fits (destinationRules 0).criteria) :=
  Rules.orderly_of_exact (by simp [destinationRules, Criterion.IsExact])

theorem fits_rideEntry (direction : Direction) (ride : Ride) :
    Rules.Fits rideRules.criteria (rideEntry direction ride).criteria :=
  ⟨trivial, trivial, trivial⟩

theorem fits_stopCriteria (direction : Direction) (arrival : Arrival) :
    Rules.Fits stopRules.criteria (stopCriteria direction arrival) :=
  ⟨trivial, trivial, trivial, trivial, trivial⟩

theorem fits_destinationEntry (direction : Direction) {costSlack : Int}
    {destination : DestinationArrival}
    (hCost : Criterion.lowest ≤ destination.cost ∧ destination.cost ≤ Criterion.highest) :
    Rules.Fits (destinationRules costSlack).criteria
      (destinationEntry direction destination).criteria :=
  ⟨trivial, trivial, hCost, trivial⟩

theorem rideEntry_eq_iff {first second : Ride} :
    (rideEntry direction first).criteria = (rideEntry direction second).criteria ↔
      first.trip = second.trip ∧ first.relativeCost = second.relativeCost := by
  simp only [rideEntry, List.cons.injEq, and_true]
  exact and_congr_left fun _ => ⟨Direction.tripCriterion_injective, congrArg _⟩

/-- Records compare on time, round, cost and whether they were ridden to, and on nothing else. -/
theorem stopCriteria_eq_iff {first second : Arrival} :
    stopCriteria direction first = stopCriteria direction second ↔
      first.time = second.time ∧ first.round = second.round ∧ first.cost = second.cost ∧
        first.isTransit = second.isTransit := by
  simp only [stopCriteria, travelCriteria, List.cons_append, List.nil_append, List.cons.injEq,
    and_true, Int.ofNat_inj]
  refine and_congr ⟨Direction.timeCriterion_injective, congrArg _⟩
    (and_congr_right fun _ => and_congr_right fun _ => ?_)
  cases first.isTransit <;> cases second.isTransit <;> simp

/-- Ways to the destination compare on time, round and cost alone. -/
theorem destinationEntry_eq_iff {first second : DestinationArrival} :
    (destinationEntry direction first).criteria = (destinationEntry direction second).criteria ↔
      first.time = second.time ∧ first.round = second.round ∧ first.cost = second.cost := by
  simp only [destinationEntry, travelCriteria, List.cons.injEq, and_true, Int.ofNat_inj]
  exact and_congr_left fun _ => ⟨Direction.timeCriterion_injective, congrArg _⟩

namespace State

@[simp]
theorem destinations_add (problem : Problem) (state : State) (arrival : Arrival) :
    (state.add problem arrival).destinations = state.destinations := by
  rcases state.add_eq_or problem arrival with hSame | ⟨front, -, hAdd⟩
  · rw [hSame]
  · rw [hAdd]

@[simp]
theorem destinations_foldl_add (problem : Problem) (state : State) (offers : List Arrival) :
    (offers.foldl (add problem) state).destinations = state.destinations := by
  induction offers generalizing state with
  | nil => rfl
  | cons first rest ih => rw [List.foldl_cons, ih, destinations_add]

@[simp]
theorem accepted_add (problem : Problem) (state : State) (arrival : Arrival) :
    (state.add problem arrival).accepted = state.accepted := by
  rcases state.add_eq_or problem arrival with hSame | ⟨front, -, hAdd⟩
  · rw [hSame]
  · rw [hAdd]

@[simp]
theorem accepted_foldl_add (problem : Problem) (state : State) (offers : List Arrival) :
    (offers.foldl (add problem) state).accepted = state.accepted := by
  induction offers generalizing state with
  | nil => rfl
  | cons first rest ih => rw [List.foldl_cons, ih, accepted_add]

@[simp]
theorem size_fronts_add (problem : Problem) (state : State) (arrival : Arrival) :
    (state.add problem arrival).fronts.cells.size = state.fronts.cells.size := by
  rcases state.add_eq_or problem arrival with hSame | ⟨front, -, hAdd⟩
  · rw [hSame]
  · rw [hAdd]
    exact IndexTable.size_set ..

/-- The arrivals at a stop that no way to the destination covers. -/
def admitted (problem : Problem) (state : State) (stop : Nat) (offers : List Arrival) :
    List Arrival :=
  offers.filter fun arrival =>
    arrival.stop == stop && !state.isCovered (stopCriteria problem.direction arrival)

/-- Adding an arrival offers it to the front of its stop, unless it is covered. -/
theorem get_fronts_add (problem : Problem) (state : State) {arrival : Arrival}
    (hInside : arrival.stop < state.fronts.cells.size) (stop : Nat) :
    (state.add problem arrival).fronts.get stop = (state.fronts.get stop).offerAll stopRules
      ((state.admitted problem stop [arrival]).map fun arrival =>
        { item := state.arrivals.size, criteria := stopCriteria problem.direction arrival }) := by
  unfold add
  split
  · rename_i hCovered
    simp [admitted, hCovered, Front.offerAll]
  · rename_i hCovered
    rw [Bool.not_eq_true] at hCovered
    unfold keep
    dsimp only
    by_cases hStop : arrival.stop = stop
    · subst hStop
      simp only [admitted, hCovered, List.filter_cons, List.filter_nil, beq_self_eq_true,
        Bool.not_false, Bool.and_self, if_true, List.map_cons, List.map_nil, Front.offerAll,
        List.foldl_cons, List.foldl_nil]
      split
      · rename_i hNone
        rw [Front.offer_eq_of_none hNone]
      · rename_i front hSome
        rw [Front.offer_eq_of_some hSome]
        dsimp only
        rw [IndexTable.get_set, if_pos ⟨rfl, hInside⟩]
    · have hNone : state.admitted problem stop [arrival] = [] := by simp [admitted, hStop]
      rw [hNone]
      split
      · rfl
      · dsimp only
        rw [IndexTable.get_set, if_neg fun h => hStop h.1]
        rfl

/-- Recording arrivals offers to the front of each stop those made there that are not covered. -/
theorem exists_front_foldl (problem : Problem) (state : State) (offers : List Arrival)
    (hInside : ∀ arrival ∈ offers, arrival.stop < state.fronts.cells.size) (stop : Nat) :
    ∃ entries : List (Entry Nat),
      (offers.foldl (add problem) state).fronts.get stop =
        (state.fronts.get stop).offerAll stopRules entries ∧
      entries.map Entry.criteria =
        (state.admitted problem stop offers).map (stopCriteria problem.direction) := by
  induction offers generalizing state with
  | nil => exact ⟨[], rfl, rfl⟩
  | cons first rest ih =>
      obtain ⟨hFirst, hRest⟩ := List.forall_mem_cons.mp hInside
      obtain ⟨entries, hFront, hCriteria⟩ := ih (state.add problem first)
        fun arrival hArrival => by
          rw [size_fronts_add]
          exact hRest arrival hArrival
      have hSame : (state.add problem first).admitted problem stop rest =
          state.admitted problem stop rest := by
        simp only [admitted, isCovered, destinations_add]
      have hSplit : state.admitted problem stop (first :: rest) =
          state.admitted problem stop [first] ++ state.admitted problem stop rest :=
        List.filter_append [first] rest
      refine ⟨((state.admitted problem stop [first]).map fun arrival =>
        { item := state.arrivals.size, criteria := stopCriteria problem.direction arrival }) ++
          entries, ?_, ?_⟩
      · rw [List.foldl_cons, hFront, get_fronts_add problem state hFirst, Front.offerAll,
          Front.offerAll, Front.offerAll, List.foldl_append]
      · rw [List.map_append, hCriteria, hSame, List.map_map, hSplit, List.map_append]
        rfl

section Offered

variable {entries : List (Entry Nat)} {offered : List Arrival}
  (hCriteria : entries.map Entry.criteria = offered.map (stopCriteria direction))

include hCriteria

/-- Entries for some arrivals have the values of those arrivals. -/
theorem exists_entry_iff {values : List Int} :
    (∃ entry ∈ entries, entry.criteria = values) ↔
      ∃ arrival ∈ offered, stopCriteria direction arrival = values := by
  rw [← List.mem_map, hCriteria, List.mem_map]

theorem fits_entries :
    ∀ entry ∈ entries, Rules.Fits stopRules.criteria entry.criteria := by
  intro entry hEntry
  obtain ⟨arrival, -, hShape⟩ := (exists_entry_iff hCriteria).mp ⟨entry, hEntry, rfl⟩
  exact hShape ▸ fits_stopCriteria ..

end Offered

end State

namespace Books

theorem fits_front (books : Books problem time state) (stop : Nat) :
    ∀ held ∈ (state.fronts.get stop).entries, Rules.Fits stopRules.criteria held.criteria := by
  intro held hHeld
  obtain ⟨arrival, hShape⟩ := books.shape hHeld
  exact hShape ▸ fits_stopCriteria ..

/-- The candidates are the egresses after rides of the round. -/
theorem mem_candidates_iff (books : Books problem time state) {candidate : DestinationArrival} :
    candidate ∈ state.candidates problem ↔
      ∃ stop, ∃ source ∈ state.arrivalsAt stop state.round, source.2.isTransit = true ∧
        ∃ leg ∈ problem.endLegsAt stop,
          candidate = problem.destinationArrival state.round source.1 source.2 leg := by
  constructor
  · intro h
    obtain ⟨stop, -, hMem⟩ := List.mem_flatMap.mp h
    obtain ⟨source, hSource, hMem⟩ := List.mem_flatMap.mp hMem
    obtain ⟨leg, hLeg, rfl⟩ := List.mem_map.mp hMem
    obtain ⟨hAt, hRide⟩ := List.mem_filter.mp hSource
    exact ⟨stop, source, hAt, hRide, leg, hLeg, rfl⟩
  · rintro ⟨stop, source, hAt, hRide, leg, hLeg, rfl⟩
    obtain ⟨-, rfl, -⟩ := books.of_mem_arrivalsAt hAt
    exact books.mem_candidates hAt hRide hLeg

/-- A search is settled once the destination is reached and its ways there cover all that is kept of
the round. -/
theorem isSettled_iff (books : Books problem time state) :
    (strategy problem).isSettled state = true ↔ state.destinations.entries ≠ [] ∧
      ∀ stop, ∀ source ∈ state.arrivalsAt stop state.round,
        state.isCovered (stopCriteria problem.direction source.2) = true := by
  simp only [strategy, strategyWith, State.isSettled, Bool.and_eq_true, Front.isEmpty,
    Bool.not_eq_true', List.isEmpty_eq_false_iff, List.all_eq_true, IndexSet.mem_toList]
  refine and_congr_right fun _ => ⟨fun h stop source hSource => ?_, fun h stop _ => h stop⟩
  obtain ⟨hId, hStop, hRound⟩ := books.of_mem_arrivalsAt hSource
  exact h stop (hStop ▸ books.current _ (Arrivals.mem_toList_of_get? hId) hRound) source hSource

section Fits

variable (books : Books problem time state) (modest : problem.Modest)
  (hTime : Clock.Within (2 * Clock.modest) time) (hRates : problem.cost.Modest)
  (hRounds : state.round ≤ Request.maxSupportedTransfers + 1)

include books modest hTime hRates hRounds

theorem fits_destinations : ∀ held ∈ state.destinations.entries,
    Rules.Fits (destinationRules 0).criteria held.criteria := by
  intro held hHeld
  have hMem := List.mem_map_of_mem (f := Entry.item) hHeld
  rw [books.destinations_entry held hHeld]
  exact fits_destinationEntry _ (books.records.within_cost_of_finishes modest hTime hRates
    (books.finishes _ hMem) ((books.destinations_round _ hMem).trans hRounds))

theorem fits_candidates :
    ∀ entry ∈ (state.candidates problem).map (destinationEntry problem.direction),
      Rules.Fits (destinationRules 0).criteria entry.criteria := by
  intro entry hEntry
  obtain ⟨candidate, hCandidate, rfl⟩ := List.mem_map.mp hEntry
  obtain ⟨hFinishes, hRound⟩ := books.of_mem_candidates hCandidate
  exact fits_destinationEntry _ (books.records.within_cost_of_finishes modest hTime hRates hFinishes
    (hRound ▸ hRounds))

end Fits

end Books

end JourneyPlanner.Search.MultiCriteria
