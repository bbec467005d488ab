import JourneyPlanner.Proofs.Search.Standard.Scan

/-! The other phases of a search for the best time: the start, the turn of a round, walking on,
and walking to the destination. Each keeps the books and makes up for the walks it is there
for. -/
namespace JourneyPlanner.Search.Standard

variable {problem : Problem} {time : Int} {state : State}

theorem Books.initial (problem : Problem) (time : Int) :
    Books problem time (State.initial problem) := by
  refine ⟨⟨.empty, ?_, ?_, ?_, ?_, ?_, Or.inl rfl, ?_, List.Pairwise.nil, ?_⟩,
    Ledger.initial .., Ledger.initial .., Marked.initial _⟩
  all_goals simp [State.initial, State.lastId?, BestTimes.initial, holder?, Arrivals.empty,
    Arrivals.toList]

/-- Entering leaves the stop of a leg reached no later than the leg does. -/
theorem Books.enter (books : Books problem time state) (regular : problem.Regular time)
    (hRound : state.round = 0) {leg : WalkLeg} (hLeg : leg ∈ problem.startLegs) :
    Books problem time (state.enter problem time leg) ∧
      Onward problem state (state.enter problem time leg) ∧
      (state.enter problem time leg).found.Reached problem.direction leg.stop 0
        (problem.direction.timeCriterion time + leg.duration) := by
  have hDerives : problem.Derives time state.arrivals (problem.accessArrival time leg) :=
    .access hLeg
  obtain ⟨hBooks, hOnward, hReached⟩ := books.settle
    (hDerives.stop_lt regular.sound.toLinked regular.legs) rfl hDerives hRound.symm
    (books.records.lt_unreached regular.modest regular.time hDerives (Nat.zero_le _))
  have hAlong : problem.direction.timeCriterion (problem.accessArrival time leg).time =
      problem.direction.timeCriterion time + leg.duration := by
    rw [Problem.accessArrival, Records.plus_startLeg regular.modest regular.time hLeg,
      Direction.timeCriterion_along]
  rw [hAlong] at hReached
  exact ⟨hBooks, hOnward, hReached⟩

/-- The start reaches the stop of every leg no later than the leg does. -/
theorem Books.start (regular : problem.Regular time) :
    Books problem time ((strategy problem).start time) ∧
      ((strategy problem).start time).round = 0 ∧
      problem.Closed time 0 ((strategy problem).start time).found := by
  obtain ⟨⟨books, onward⟩, hGoals, -⟩ := Strategy.foldl_covers
    (State.enter problem time) problem.startLegs (State.initial problem)
    (fun next => Books problem time next ∧ Onward problem (State.initial problem) next)
    (fun leg next => next.found.Reached problem.direction leg.stop 0
      (problem.direction.timeCriterion time + leg.duration))
    (fun leg hLeg next ⟨books, onward⟩ => by
      obtain ⟨hBooks, hOnward, hReached⟩ := books.enter regular onward.round hLeg
      exact ⟨⟨hBooks, onward.trans hOnward⟩, hReached, fun other h => h.mono hOnward.found⟩)
    ⟨Books.initial problem time, Onward.refl ..⟩
  exact ⟨books, onward.round, .of_start hGoals books.records fun arrival hMem =>
    (books.round_le arrival hMem).trans (Nat.le_of_eq onward.round)⟩

/-- When a round begins, the records of the last one are those to go on from. -/
theorem Books.beginRound (books : Books problem time state) :
    Books problem time (state.beginRound (state.round + 1)) := by
  refine ⟨⟨books.records, books.finishes, fun arrival hMem => ?_, books.lt_unreached, ?_, ?_,
    books.destinationTime, fun destination hMem => ?_, books.improving, books.destinationTime_le⟩,
    books.best.next books.last, books.byTransit.next books.byTransit.marked, books.best.marked⟩
  · exact Nat.le_succ_of_le (books.round_le arrival hMem)
  · intro stop id hLast
    obtain ⟨arrival, hArrival, -, hStop, hRound, -⟩ := books.best.held hLast
    exact ⟨arrival, hArrival, hStop, congrArg (· + 1) hRound⟩
  · intro arrival hMem hRound
    have hRound : arrival.round = state.round := Nat.succ_injective hRound
    obtain ⟨other, hOther, -, hStop, hTime, hBefore | ⟨hSame, id, hHolder, hId⟩⟩ :=
      books.best.exists_of_le (books.best.time_le arrival hMem rfl) (books.lt_unreached arrival hMem)
    · exact Or.inr ⟨other, hOther, ⟨hStop, by omega, hTime⟩, by omega⟩
    · exact Or.inl ⟨id, other, hHolder, hId, hStop, by omega, hTime⟩
  · exact Nat.le_succ_of_le (books.destinations_round destination hMem)

theorem Books.of_mem_walkSources (books : Books problem time state) {source : Nat × Arrival}
    (h : source ∈ state.walkSources) :
    state.arrivals.get? source.1 = some source.2 ∧ source.2.roundOnFoot = state.round := by
  rcases List.mem_append.mp h with hRide | hFoot
  · obtain ⟨hId, hSource⟩ := Arrivals.mem_numbered.mp hRide
    obtain ⟨stop, hStop, hHolder⟩ := List.mem_filterMap.mp hId
    obtain ⟨arrival, hArrival, hRide, -, hRound, -⟩ := books.byTransit.held
      (holder?_eq_some_iff.mpr ⟨IndexSet.mem_toList.mp hStop, hHolder⟩)
    rw [hSource, Option.some.injEq] at hArrival
    rw [Arrival.roundOnFoot, if_pos (hArrival ▸ hRide)]
    exact ⟨hSource, hArrival ▸ hRound⟩
  · obtain ⟨hMem, hFoot⟩ := List.mem_filter.mp hFoot
    obtain ⟨hId, hSource⟩ := Arrivals.mem_numbered.mp hMem
    obtain ⟨stop, hStop, hHolder⟩ := List.mem_filterMap.mp hId
    obtain ⟨arrival, hArrival, -, hRound⟩ := books.held_last
      (holder?_eq_some_iff.mpr ⟨IndexSet.mem_toList.mp hStop, hHolder⟩)
    rw [hSource, Option.some.injEq] at hArrival
    rw [Arrival.roundOnFoot, if_neg (by simpa using hFoot)]
    exact ⟨hSource, hArrival ▸ hRound⟩

/-- The best ride of the round at a stop is walked on from. -/
theorem State.mem_walkSources_of_byTransit {id : Nat} {arrival : Arrival}
    (hHolder : state.byTransitId? arrival.stop = some id)
    (hArrival : state.arrivals.get? id = some arrival) : (id, arrival) ∈ state.walkSources := by
  obtain ⟨hStop, hEntry⟩ := holder?_eq_some_iff.mp hHolder
  refine List.mem_append_left _ (Arrivals.mem_numbered.mpr ⟨?_, hArrival⟩)
  exact List.mem_filterMap.mpr ⟨arrival.stop, IndexSet.mem_toList.mpr hStop, hEntry⟩

theorem State.mem_walkSources_of_last {id : Nat} {arrival : Arrival}
    (hHolder : state.lastId? arrival.stop = some id)
    (hArrival : state.arrivals.get? id = some arrival) (hFoot : arrival.isTransit = false) :
    (id, arrival) ∈ state.walkSources := by
  refine List.mem_append_right _ (List.mem_filter.mpr ⟨?_, by simp [hFoot]⟩)
  obtain ⟨hStop, hEntry⟩ := holder?_eq_some_iff.mp hHolder
  exact Arrivals.mem_numbered.mpr
    ⟨List.mem_filterMap.mpr ⟨arrival.stop, IndexSet.mem_toList.mpr hStop, hEntry⟩, hArrival⟩

/-- Walking along a transfer leaves its other end reached no later, unless the destination was. -/
theorem Books.walkAlong (books : Books problem time state) (regular : problem.Regular time)
    (hRounds : state.round ≤ Request.maxSupportedTransfers + 1) {source : Nat × Arrival}
    (hSource : state.arrivals.get? source.1 = some source.2)
    (hFoot : source.2.roundOnFoot = state.round) {transfer : Transfer}
    (hWalk : transfer ∈ problem.transfersAt source.2.stop) :
    Books problem time (state.walkAlong problem source transfer) ∧
      Onward problem state (state.walkAlong problem source transfer) ∧
      ((state.walkAlong problem source transfer).found.Reached problem.direction
          (problem.direction.transferTarget transfer) source.2.roundOnFoot
          (problem.direction.timeCriterion source.2.time + transfer.duration) ∨
        (state.walkAlong problem source transfer).found.Ended problem.direction
          source.2.roundOnFoot
          (problem.direction.timeCriterion source.2.time + transfer.duration)) := by
  have hDerives : problem.Derives time state.arrivals
      (problem.walkArrival source.2.roundOnFoot source.1 source.2 transfer) := .walk hSource hWalk
  have hTime := books.records.lt_unreached regular.modest regular.time hDerives (hFoot ▸ hRounds)
  have hAlong : problem.direction.timeCriterion
      (problem.walkArrival source.2.roundOnFoot source.1 source.2 transfer).time =
        problem.direction.timeCriterion source.2.time + transfer.duration := by
    rw [Problem.walkArrival, books.records.plus_eq_along regular.modest regular.time
      (Arrivals.mem_toList_of_get? hSource)
      (Nat.le_trans source.2.round_le_roundOnFoot (hFoot ▸ hRounds))
      (regular.modest.network.transfers hWalk), Direction.timeCriterion_along]
  rw [State.walkAlong_eq_settle, ← hFoot, ← hAlong]
  split
  · obtain ⟨hBooks, hOnward, hReached⟩ := books.settle
      (hDerives.stop_lt regular.sound.toLinked regular.legs) rfl hDerives hFoot hTime
    exact ⟨hBooks, hOnward, Or.inl hReached⟩
  · rename_i hNot
    have hEnded := books.ended_of_not_improving hTime (Bool.eq_false_iff.mpr hNot)
    exact ⟨books, Onward.refl .., Or.inr (hFoot ▸ hEnded)⟩

/-- Walking on makes up for every walk from the sources, and no ride is added. -/
theorem Books.walk (books : Books problem time state) (regular : problem.Regular time)
    (hRounds : state.round ≤ Request.maxSupportedTransfers + 1) :
    Books problem time (state.walk problem) ∧ Onward problem state (state.walk problem) ∧
      (state.walk problem).byTransitId? = state.byTransitId? ∧
      ∀ source ∈ state.walkSources, problem.WalksCovered (state.walk problem).found source.2 := by
  obtain ⟨⟨hBooks, hOnward, hSame⟩, hCovered⟩ := problem.walkAll_covers
    (State.walkAlong problem) State.found
    (fun next => Books problem time next ∧ Onward problem state next ∧
      next.byTransitId? = state.byTransitId?)
    (fun source hMem transfer hWalk next ⟨hBooks, hOnward, hSame⟩ => by
      obtain ⟨hSource, hFoot⟩ := books.of_mem_walkSources hMem
      obtain ⟨hBooks, hStep, hCovered⟩ := hBooks.walkAlong regular (hOnward.round ▸ hRounds)
        (hOnward.arrivals _ _ hSource) (hFoot.trans hOnward.round.symm) hWalk
      refine ⟨⟨hBooks, hOnward.trans hStep, ?_⟩, hStep.found, hCovered⟩
      rw [← hSame, State.walkAlong_eq_settle]
      unfold State.settle
      split
      · split
        · rfl
        · rename_i best hBest
          obtain ⟨-, rfl⟩ := BestTimes.improve?_eq_some_iff.mp hBest
          rfl
      · rfl)
    ⟨books, Onward.refl .., rfl⟩
  exact ⟨hBooks, hOnward, hSame, hCovered⟩

/-- One candidate after the other is compared with the best so far. -/
theorem State.foldl_bestCandidate (direction : Direction) (candidates : List DestinationArrival)
    (start : Int) (held : Option DestinationArrival) :
    let result := candidates.foldl
      (fun best candidate =>
        if direction.isBetter candidate.time best.1 then (candidate.time, some candidate) else best)
      (start, held)
    direction.timeCriterion result.1 ≤ direction.timeCriterion start ∧
      (∀ candidate ∈ candidates,
        direction.timeCriterion result.1 ≤ direction.timeCriterion candidate.time) ∧
      (result = (start, held) ∨
        ∃ candidate ∈ candidates, result = (candidate.time, some candidate) ∧
          direction.timeCriterion candidate.time < direction.timeCriterion start) := by
  induction candidates generalizing start held with
  | nil => exact ⟨Int.le_refl _, by simp, Or.inl rfl⟩
  | cons first rest ih =>
      simp only [List.foldl_cons]
      by_cases hBetter : direction.isBetter first.time start = true
      · obtain ⟨hLe, hAll, hResult⟩ := ih first.time (some first)
        simp only [hBetter, if_true]
        rw [Direction.isBetter_iff] at hBetter
        refine ⟨by omega, List.forall_mem_cons.mpr ⟨hLe, hAll⟩, Or.inr ?_⟩
        rcases hResult with hSame | ⟨candidate, hMem, hSame, hLt⟩
        · exact ⟨first, List.mem_cons_self .., hSame, hBetter⟩
        · exact ⟨candidate, List.mem_cons_of_mem _ hMem, hSame, by omega⟩
      · obtain ⟨hLe, hAll, hResult⟩ := ih start held
        simp only [hBetter, Bool.false_eq_true, if_false]
        rw [Bool.not_eq_true, Direction.isBetter_eq_false_iff] at hBetter
        refine ⟨hLe, List.forall_mem_cons.mpr ⟨by omega, hAll⟩, ?_⟩
        rcases hResult with hSame | ⟨candidate, hMem, hRest⟩
        · exact Or.inl hSame
        · exact Or.inr ⟨candidate, List.mem_cons_of_mem _ hMem, hRest⟩

/-- Candidates are ways to the destination of the current round. -/
theorem Books.of_mem_candidates (books : Books problem time state) {candidate : DestinationArrival}
    (h : candidate ∈ state.candidates problem) :
    problem.Finishes state.arrivals candidate ∧ candidate.round = state.round := by
  obtain ⟨⟨id, source⟩, hMem, hLeg⟩ := List.mem_flatMap.mp h
  obtain ⟨leg, hEnd, rfl⟩ := List.mem_map.mp hLeg
  obtain ⟨hId, hSource⟩ := Arrivals.mem_numbered.mp hMem
  obtain ⟨stop, hStop, hHolder⟩ := List.mem_filterMap.mp hId
  obtain ⟨arrival, hArrival, hRide, -, hRound, -⟩ := books.byTransit.held
    (holder?_eq_some_iff.mpr ⟨IndexSet.mem_toList.mp hStop, hHolder⟩)
  rw [hSource, Option.some.injEq] at hArrival
  subst hArrival
  exact ⟨hRound ▸ .egress hSource hRide hEnd, rfl⟩

/-- Every best ride of the round with an egress leg at its stop makes a candidate. -/
theorem State.mem_candidates {id : Nat} {arrival : Arrival}
    (hHolder : state.byTransitId? arrival.stop = some id)
    (hArrival : state.arrivals.get? id = some arrival) {leg : WalkLeg}
    (hLeg : leg ∈ problem.endLegsAt arrival.stop) :
    problem.destinationArrival state.round id arrival leg ∈ state.candidates problem := by
  obtain ⟨hStop, hEntry⟩ := holder?_eq_some_iff.mp hHolder
  refine List.mem_flatMap.mpr ⟨(id, arrival), ?_, List.mem_map_of_mem hLeg⟩
  exact Arrivals.mem_numbered.mpr
    ⟨List.mem_filterMap.mpr ⟨arrival.stop, IndexSet.mem_toList.mpr hStop, hEntry⟩, hArrival⟩

/-- A candidate gets there when its ride and its leg do. -/
theorem Books.candidate_time (books : Books problem time state) (regular : problem.Regular time)
    (hRounds : state.round ≤ Request.maxSupportedTransfers + 1) {id : Nat} {arrival : Arrival}
    (hHolder : state.byTransitId? arrival.stop = some id)
    (hArrival : state.arrivals.get? id = some arrival) {leg : WalkLeg}
    (hLeg : leg ∈ problem.endLegsAt arrival.stop) :
    arrival.round = state.round ∧
      problem.direction.timeCriterion
          (problem.destinationArrival state.round id arrival leg).time =
        problem.direction.timeCriterion arrival.time + leg.duration ∧
      problem.direction.timeCriterion arrival.time + leg.duration <
        problem.direction.timeCriterion problem.direction.unreached := by
  obtain ⟨found, hFound, -, -, hRound, -⟩ := books.byTransit.held hHolder
  rw [hArrival, Option.some.injEq] at hFound
  subst hFound
  have hMem := Arrivals.mem_toList_of_get? hArrival
  have hDuration := regular.modest.legs leg (Or.inr (Problem.mem_endLegsAt.mp hLeg).1)
  rw [Problem.destinationArrival, books.records.plus_eq_along regular.modest regular.time hMem
    (hRound ▸ hRounds) hDuration, Direction.timeCriterion_along]
  exact ⟨hRound, rfl, books.records.along_lt_unreached regular.modest regular.time hMem
    (hRound ▸ hRounds) hDuration⟩

/-- A way to the destination that beats all of earlier rounds may be added. -/
theorem Chronicle.push_destination (chronicle : Chronicle problem time state)
    {best : DestinationArrival} (hFinishes : problem.Finishes state.arrivals best)
    (hRound : best.round = state.round)
    (hBetter : problem.direction.timeCriterion best.time <
      problem.direction.timeCriterion state.destinationTime)
    (hBefore : ∀ destination ∈ state.destinations, destination.round < state.round) :
    Chronicle problem time { state with
      destinationTime := best.time
      destinations := state.destinations ++ [best] } := by
  have hNew : ∀ destination ∈ state.destinations ++ [best],
      destination ∈ state.destinations ∨ destination = best := by simp
  have hBeats : ∀ destination ∈ state.destinations, problem.direction.timeCriterion best.time <
      problem.direction.timeCriterion destination.time := by
    intro destination hMem
    have hLe := chronicle.destinationTime_le destination hMem
    rw [Direction.isBetter_eq_false_iff] at hLe
    exact Int.lt_of_lt_of_le hBetter hLe
  refine ⟨chronicle.records, ?_, chronicle.round_le, chronicle.lt_unreached, chronicle.held_last,
    chronicle.last_serves, Or.inr ⟨best, by simp, rfl⟩, ?_, ?_, ?_⟩
  · intro destination hMem
    rcases hNew destination hMem with hOld | rfl
    · exact chronicle.finishes destination hOld
    · exact hFinishes
  · intro destination hMem
    rcases hNew destination hMem with hOld | rfl
    · exact chronicle.destinations_round destination hOld
    · exact Nat.le_of_eq hRound
  · refine List.pairwise_append.mpr ⟨chronicle.improving, List.pairwise_singleton .., ?_⟩
    intro earlier hEarlier later hLater
    rw [List.mem_singleton.mp hLater, hRound, Direction.isBetter_iff]
    exact ⟨hBefore earlier hEarlier, hBeats earlier hEarlier⟩
  · intro destination hMem
    rw [Direction.isBetter_eq_false_iff]
    rcases hNew destination hMem with hOld | rfl
    · exact Int.le_of_lt (hBeats destination hOld)
    · exact Int.le_refl _

/-- Walking to the destination makes up for every egress leg from a holder by transit. -/
theorem Books.finish (books : Books problem time state) (regular : problem.Regular time)
    (hRounds : state.round ≤ Request.maxSupportedTransfers + 1)
    (hBefore : ∀ destination ∈ state.destinations, destination.round < state.round) :
    Books problem time (state.finish problem) ∧ (state.finish problem).round = state.round ∧
      (state.finish problem).arrivals = state.arrivals ∧
      (state.finish problem).found.Extends state.found problem.direction ∧
      ∀ id arrival, state.byTransitId? arrival.stop = some id →
        state.arrivals.get? id = some arrival →
        problem.EndsCovered (state.finish problem).found arrival := by
  obtain ⟨-, hAll, hNone | ⟨best, hMem, hSome, hBetter⟩⟩ := State.foldl_bestCandidate
    problem.direction (state.candidates problem) state.destinationTime none
  · simp only [hNone] at hAll
    have hSame : state.finish problem = state := by
      simp only [State.finish, State.bestCandidate, hNone]
    rw [hSame]
    refine ⟨books, rfl, rfl, Found.Extends.refl .., fun id arrival hHolder hArrival leg hLeg => ?_⟩
    obtain ⟨hRound, hTime, hLt⟩ := books.candidate_time regular hRounds hHolder hArrival hLeg
    have hLe := hAll _ (State.mem_candidates hHolder hArrival hLeg)
    rw [hTime] at hLe
    rcases books.destinationTime with hUnreached | ⟨destination, hDestination, hSame⟩
    · rw [hUnreached] at hLe
      omega
    · exact ⟨destination, hDestination, hRound ▸ books.destinations_round destination hDestination,
        hSame ▸ hLe⟩
  · obtain ⟨hFinishes, hRound⟩ := books.of_mem_candidates hMem
    simp only [hSome] at hAll
    have hNext : state.finish problem = { state with
        destinationTime := best.time
        destinations := state.destinations ++ [best] } := by
      simp only [State.finish, State.bestCandidate, hSome]
    rw [hNext]
    refine ⟨⟨books.toChronicle.push_destination hFinishes hRound hBetter hBefore, books.best,
      books.byTransit, books.last⟩, rfl, rfl, ⟨Arrivals.Extends.refl _, ?_⟩, ?_⟩
    · rintro round criterion ⟨destination, hDestination, hRest⟩
      exact ⟨destination, List.mem_append_left _ hDestination, hRest⟩
    · intro id arrival hHolder hArrival leg hLeg
      obtain ⟨hSameRound, hTime, -⟩ :=
        books.candidate_time regular hRounds hHolder hArrival hLeg
      have hLe := hAll _ (State.mem_candidates hHolder hArrival hLeg)
      rw [hTime] at hLe
      exact ⟨best, List.mem_append_right _ (List.mem_singleton.mpr rfl), by omega, hLe⟩

end JourneyPlanner.Search.Standard
