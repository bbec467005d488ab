import JourneyPlanner.Proofs.Search.MultiCriteria.Scan

/-! The other phases of a search for the best compromises: the start, the turn of a round, walking
on, and walking to the destination. -/
namespace JourneyPlanner.Search.MultiCriteria

variable {problem : Problem} {time : Int} {state : State}

theorem Books.initial (problem : Problem) (time : Int) :
    Books problem time (State.initial problem) := by
  have hNone : ∀ arrival, arrival ∉ (State.initial problem).arrivals.toList := by
    simp [State.initial, Arrivals.empty, Arrivals.toList]
  refine ⟨.empty, ?_, fun arrival h => absurd h (hNone arrival), ?_,
    fun arrival h => absurd h (hNone arrival), ?_, ?_, ?_, ?_,
    fun arrival h => absurd h (hNone arrival), fun arrival h => absurd h (hNone arrival),
    fun arrival h => absurd h (hNone arrival), ?_, ?_⟩
  case refine_2 =>
    intro stop entry hEntry
    simp [State.initial, Front.empty] at hEntry
  all_goals simp [State.initial, IndexTable.uniform, IndexSet.empty, Front.empty, Front.items]

/-- The start reaches the stop of every leg no later than the leg does. -/
theorem Books.start (regular : problem.Regular time) :
    Books problem time ((strategy problem).start time) ∧
      ((strategy problem).start time).round = 0 ∧
      problem.Closed time 0 ((strategy problem).start time).found := by
  obtain ⟨⟨books, onward⟩, hGoals, -⟩ := Strategy.foldl_covers
    (State.add problem) (problem.startLegs.map (problem.accessArrival time)) (State.initial problem)
    (fun next => Books problem time next ∧ Onward problem (State.initial problem) next)
    (fun arrival next => next.found.Reached problem.direction arrival.stop 0
      (problem.direction.timeCriterion arrival.time))
    (fun arrival hMem next ⟨books, onward⟩ => by
      obtain ⟨leg, hLeg, rfl⟩ := List.mem_map.mp hMem
      have hDerives : problem.Derives time next.arrivals (problem.accessArrival time leg) :=
        .access hLeg
      obtain ⟨hBooks, hOnward, hReached⟩ := books.add
        (hDerives.stop_lt regular.sound.toLinked regular.legs) hDerives onward.round.symm
      refine ⟨⟨hBooks, onward.trans hOnward⟩, ?_, fun other h => h.mono hOnward.found⟩
      rcases hReached with ⟨other, hOther, hNoWorse, -⟩ | ⟨destination, hNone, -⟩
      · exact ⟨other, hOther, hNoWorse.stop_eq, hNoWorse.round_le, hNoWorse.time_le⟩
      · have hNone : destination ∈ (State.add problem next
            (problem.accessArrival time leg)).destinations.items := hNone
        rw [hOnward.destinations, onward.destinations] at hNone
        cases hNone)
    ⟨Books.initial problem time, Onward.refl ..⟩
  refine ⟨books, onward.round, .of_start (fun leg hLeg => ?_) books.records fun arrival hMem =>
    (books.round_le arrival hMem).trans (Nat.le_of_eq onward.round)⟩
  have hReached := hGoals _ (List.mem_map_of_mem hLeg)
  have hAlong : problem.direction.timeCriterion (problem.accessArrival time leg).time =
      problem.direction.timeCriterion time + leg.duration := by
    rw [Problem.accessArrival, Records.plus_startLeg regular.modest regular.time hLeg,
      Direction.timeCriterion_along]
  rwa [hAlong] at hReached

/-- When a round begins, the records of the last one are those to go on from. -/
theorem Books.beginRound (books : Books problem time state) :
    Books problem time (state.beginRound (state.round + 1)) := by
  refine ⟨books.records, books.finishes, fun arrival hMem => ?_, books.entry, books.kept,
    books.size_fronts, ?_, books.size_current, ?_, fun arrival hMem hRound => ?_,
    fun arrival hMem hRound => ?_, fun arrival hMem hRound => ?_, books.destinations_entry,
    fun destination hMem => ?_⟩
  · exact Nat.le_succ_of_le (books.round_le arrival hMem)
  · simp [State.beginRound, IndexSet.clear, IndexSet.empty, books.size_last]
  · simp [State.beginRound, IndexSet.clear, IndexSet.empty, books.size_byTransit]
  · have hLe := books.round_le arrival hMem
    have hRound : arrival.round = state.round + 1 := hRound
    omega
  · exact books.current arrival hMem (Nat.succ_injective hRound)
  · have hLe := books.round_le arrival hMem
    have hRound : arrival.round = state.round + 1 := hRound
    omega
  · exact Nat.le_succ_of_le (books.destinations_round destination hMem)

theorem Books.of_mem_walkSources (books : Books problem time state) (hBegun : 0 < state.round)
    {source : Nat × Arrival} (h : source ∈ state.walkSources) :
    state.arrivals.get? source.1 = some source.2 ∧ source.2.roundOnFoot = state.round := by
  rcases List.mem_append.mp h with hRide | hFoot
  · obtain ⟨stop, -, hMem⟩ := List.mem_flatMap.mp hRide
    obtain ⟨hAt, hRide⟩ := List.mem_filter.mp hMem
    obtain ⟨hSource, -, hRound⟩ := books.of_mem_arrivalsAt hAt
    rw [Arrival.roundOnFoot, if_pos hRide]
    exact ⟨hSource, hRound⟩
  · obtain ⟨stop, -, hMem⟩ := List.mem_flatMap.mp hFoot
    obtain ⟨hAt, hFoot⟩ := List.mem_filter.mp hMem
    obtain ⟨hSource, -, hRound⟩ := books.of_mem_arrivalsAt hAt
    rw [Arrival.roundOnFoot, if_neg (by simpa using hFoot)]
    exact ⟨hSource, by omega⟩

/-- What is kept of the rides of this round and of the places on foot of the last one is walked on
from. -/
theorem Books.mem_walkSources (books : Books problem time state) {id : Nat} {arrival : Arrival}
    (hArrival : state.arrivals.get? id = some arrival)
    (hAt : (id, arrival) ∈ state.arrivalsAt arrival.stop arrival.round)
    (hFoot : arrival.roundOnFoot = state.round) : (id, arrival) ∈ state.walkSources := by
  have hMem := Arrivals.mem_toList_of_get? hArrival
  by_cases hRide : arrival.isTransit = true
  · rw [Arrival.roundOnFoot, if_pos hRide] at hFoot
    refine List.mem_append_left _ (List.mem_flatMap.mpr ⟨arrival.stop, ?_, ?_⟩)
    · exact IndexSet.mem_toList.mpr (books.byTransit arrival hMem hFoot hRide)
    · exact List.mem_filter.mpr ⟨hFoot ▸ hAt, hRide⟩
  · rw [Arrival.roundOnFoot, if_neg hRide] at hFoot
    refine List.mem_append_right _ (List.mem_flatMap.mpr ⟨arrival.stop, ?_, ?_⟩)
    · exact IndexSet.mem_toList.mpr (books.last arrival hMem hFoot)
    · rw [← hFoot, Nat.add_sub_cancel]
      exact List.mem_filter.mpr ⟨hAt, by simpa using hRide⟩

theorem State.mem_of_mem_add {arrival other : Arrival}
    (h : other ∈ (state.add problem arrival).arrivals.toList) :
    other ∈ state.arrivals.toList ∨ other = arrival := by
  unfold State.add at h
  split at h
  · exact Or.inl h
  · unfold State.keep at h
    dsimp only at h
    split at h
    · exact Or.inl h
    · exact Arrivals.mem_push.mp h

/-- Walking along a transfer leaves its other end reached no later, unless the destination was. -/
theorem Books.walkAlong (books : Books problem time state) (regular : problem.Regular time)
    (hRounds : state.round ≤ Request.maxSupportedTransfers + 1) {source : Nat × Arrival}
    (hSource : state.arrivals.get? source.1 = some source.2)
    (hFoot : source.2.roundOnFoot = state.round) {transfer : Transfer}
    (hWalk : transfer ∈ problem.transfersAt source.2.stop) {after : State}
    (hAfter : after = state.add problem
      (problem.walkArrival state.round source.1 source.2 transfer)) :
    Books problem time after ∧ Onward problem state after ∧
      (∀ other ∈ after.arrivals.toList, other.isTransit = true → other ∈ state.arrivals.toList) ∧
      (after.found.Reached problem.direction (problem.direction.transferTarget transfer)
          source.2.roundOnFoot
          (problem.direction.timeCriterion source.2.time + transfer.duration) ∨
        after.found.Ended problem.direction source.2.roundOnFoot
          (problem.direction.timeCriterion source.2.time + transfer.duration)) := by
  have hDerives : problem.Derives time state.arrivals
      (problem.walkArrival source.2.roundOnFoot source.1 source.2 transfer) := .walk hSource hWalk
  have hAlong : problem.direction.timeCriterion
      (problem.walkArrival source.2.roundOnFoot source.1 source.2 transfer).time =
        problem.direction.timeCriterion source.2.time + transfer.duration := by
    rw [Problem.walkArrival, books.records.plus_eq_along regular.modest regular.time
      (Arrivals.mem_toList_of_get? hSource)
      (Nat.le_trans source.2.round_le_roundOnFoot (hFoot ▸ hRounds))
      (regular.modest.network.transfers hWalk), Direction.timeCriterion_along]
  rw [← hFoot] at hAfter
  obtain ⟨hBooks, hOnward, hReached⟩ := books.add
    (hDerives.stop_lt regular.sound.toLinked regular.legs) hDerives hFoot
  rw [← hAfter] at hBooks hOnward hReached
  refine ⟨hBooks, hOnward, fun other hOther hRide => ?_, ?_⟩
  · rw [hAfter] at hOther
    rcases State.mem_of_mem_add hOther with hOld | rfl
    · exact hOld
    · cases hRide
  · rw [← hAlong]
    refine hReached.imp ?_ id
    rintro ⟨other, hOther, hNoWorse, -⟩
    exact ⟨other, hOther, hNoWorse.stop_eq, hNoWorse.round_le, hNoWorse.time_le⟩

/-- Walking on makes up for every walk from the sources, and no ride is added. -/
theorem Books.walk (books : Books problem time state) (regular : problem.Regular time)
    (hBegun : 0 < state.round) (hRounds : state.round ≤ Request.maxSupportedTransfers + 1)
    {after : State} (hAfter : after = state.walk problem (State.add problem)) :
    Books problem time after ∧ Onward problem state after ∧
      (∀ other ∈ after.arrivals.toList, other.isTransit = true → other ∈ state.arrivals.toList) ∧
      ∀ source ∈ state.walkSources, problem.WalksCovered after.found source.2 := by
  obtain ⟨⟨hBooks, hOnward, hRides⟩, hCovered⟩ := problem.walkAll_covers
    (fun source state transfer => state.add problem
      (problem.walkArrival state.round source.1 source.2 transfer))
    State.found
    (fun next => Books problem time next ∧ Onward problem state next ∧
      ∀ other ∈ next.arrivals.toList, other.isTransit = true → other ∈ state.arrivals.toList)
    (fun source hMem transfer hWalk next ⟨hBooks, hOnward, hRides⟩ => by
      obtain ⟨hSource, hFoot⟩ := books.of_mem_walkSources hBegun hMem
      obtain ⟨hBooks, hStep, hOld, hCovered⟩ := hBooks.walkAlong regular
        (hOnward.round ▸ hRounds) (hOnward.arrivals _ _ hSource) (hFoot.trans hOnward.round.symm)
        hWalk rfl
      refine ⟨⟨hBooks, hOnward.trans hStep, ?_⟩, hStep.found, hCovered⟩
      exact fun other hOther hRide => hRides other (hOld other hOther hRide) hRide)
    ⟨books, Onward.refl .., fun _ h _ => h⟩
  rw [hAfter]
  exact ⟨hBooks, hOnward, hRides, hCovered⟩

/-- Offering ways to the destination changes nothing but the front of those found. -/
theorem State.foldl_offerDestination (problem : Problem) (candidates : List DestinationArrival)
    (state : State) :
    ∃ accepted, candidates.foldl (offerDestination problem) state = { state with
      destinations := state.destinations.offerAll (destinationRules problem.costSlack)
        (candidates.map (destinationEntry problem.direction))
      accepted } := by
  induction candidates generalizing state with
  | nil => exact ⟨state.accepted, rfl⟩
  | cons first rest ih =>
      rw [List.foldl_cons, List.map_cons, Front.offerAll, List.foldl_cons]
      obtain ⟨accepted, hRest⟩ := ih (state.offerDestination problem first)
      rw [hRest]
      unfold offerDestination
      split
      · rename_i hNone
        rw [Front.offer_eq_of_none hNone]
        exact ⟨accepted, rfl⟩
      · rename_i front hSome
        rw [Front.offer_eq_of_some hSome]
        exact ⟨accepted, rfl⟩

/-- Candidates are ways to the destination of the current round. -/
theorem Books.of_mem_candidates (books : Books problem time state) {candidate : DestinationArrival}
    (h : candidate ∈ state.candidates problem) :
    problem.Finishes state.arrivals candidate ∧ candidate.round = state.round := by
  obtain ⟨stop, -, hMem⟩ := List.mem_flatMap.mp h
  obtain ⟨⟨id, source⟩, hSource, hMem⟩ := List.mem_flatMap.mp hMem
  obtain ⟨leg, hLeg, rfl⟩ := List.mem_map.mp hMem
  obtain ⟨hAt, hRide⟩ := List.mem_filter.mp hSource
  obtain ⟨hId, rfl, hRound⟩ := books.of_mem_arrivalsAt hAt
  exact ⟨hRound ▸ .egress hId hRide hLeg, rfl⟩

/-- Every ride of the round with an egress leg at its stop makes a candidate. -/
theorem Books.mem_candidates (books : Books problem time state) {id : Nat} {arrival : Arrival}
    (hAt : (id, arrival) ∈ state.arrivalsAt arrival.stop state.round)
    (hRide : arrival.isTransit = true) {leg : WalkLeg}
    (hLeg : leg ∈ problem.endLegsAt arrival.stop) :
    problem.destinationArrival state.round id arrival leg ∈ state.candidates problem := by
  obtain ⟨hId, -, hRound⟩ := books.of_mem_arrivalsAt hAt
  refine List.mem_flatMap.mpr ⟨arrival.stop, ?_, List.mem_flatMap.mpr ⟨(id, arrival), ?_,
    List.mem_map_of_mem hLeg⟩⟩
  · exact IndexSet.mem_toList.mpr
      (books.byTransit arrival (Arrivals.mem_toList_of_get? hId) hRound hRide)
  · exact List.mem_filter.mpr ⟨hAt, hRide⟩

/-- What the candidates leave in the front of the ways to the destination was there or is one
of them. -/
theorem Books.of_mem_finish (books : Books problem time state) {after : State}
    (hFront : after.destinations = state.destinations.offerAll (destinationRules problem.costSlack)
      ((state.candidates problem).map (destinationEntry problem.direction)))
    {entry : Entry DestinationArrival} (hEntry : entry ∈ after.destinations.entries) :
    entry = destinationEntry problem.direction entry.item ∧
      (entry.item ∈ state.destinations.items ∨ entry.item ∈ state.candidates problem) := by
  rw [hFront] at hEntry
  rcases Front.mem_of_mem_offerAll hEntry with hOld | hNew
  · exact ⟨books.destinations_entry entry hOld, Or.inl (List.mem_map_of_mem hOld)⟩
  · obtain ⟨candidate, hCandidate, rfl⟩ := List.mem_map.mp hNew
    exact ⟨rfl, Or.inr hCandidate⟩

/-- Whatever the fronts compare on cost, time and round are never given up for it. -/
theorem State.ended_of_noWorse
    (hEntries : ∀ entry ∈ state.destinations.entries,
      entry = destinationEntry problem.direction entry.item) {destination : DestinationArrival}
    (hServed : ∃ held ∈ state.destinations.entries, Rules.NoWorse [.less, .less] held.criteria
      (destinationEntry problem.direction destination).criteria) :
    state.found.Ended problem.direction destination.round
      (problem.direction.timeCriterion destination.time) := by
  obtain ⟨held, hHeld, hNoWorse⟩ := hServed
  rw [congrArg Entry.criteria (hEntries held hHeld)] at hNoWorse
  simp only [destinationEntry, travelCriteria, Rules.NoWorse, Criterion.noWorse_less,
    Int.ofNat_le, and_true] at hNoWorse
  exact ⟨held.item, List.mem_map_of_mem hHeld, hNoWorse.2, hNoWorse.1⟩

/-- Walking to the destination offers the candidates to the front of the ways there. -/
theorem State.destinations_finish (problem : Problem) (state : State) :
    (state.finish problem).destinations =
      state.destinations.offerAll (destinationRules problem.costSlack)
        ((state.candidates problem).map (destinationEntry problem.direction)) := by
  obtain ⟨accepted, hSame⟩ := foldl_offerDestination problem (state.candidates problem) state
  rw [finish, hSame]

/-- Walking to the destination keeps the books and records nothing. -/
theorem Books.ended (books : Books problem time state) :
    Books problem time (state.finish problem) ∧ (state.finish problem).round = state.round ∧
      (state.finish problem).arrivals = state.arrivals ∧
      (state.finish problem).fronts = state.fronts ∧
      (state.finish problem).reachedCurrent = state.reachedCurrent := by
  obtain ⟨accepted, hSame⟩ := State.foldl_offerDestination problem
    (state.candidates problem) state
  have hFront := State.destinations_finish problem state
  have hMem : ∀ entry ∈ (state.finish problem).destinations.entries,
      entry = destinationEntry problem.direction entry.item ∧
        (entry.item ∈ state.destinations.items ∨ entry.item ∈ state.candidates problem) :=
    fun _ hEntry => books.of_mem_finish hFront hEntry
  generalize hAfter : state.finish problem = after at hFront hMem
  rw [State.finish, hSame] at hAfter
  subst hAfter
  refine ⟨?_, rfl, rfl, rfl, rfl⟩
  refine ⟨books.records, fun destination hDestination => ?_, books.round_le, books.entry, books.kept,
    books.size_fronts, books.size_current, books.size_last, books.size_byTransit, books.current,
    books.last, books.byTransit, fun entry hEntry => (hMem entry hEntry).1,
    fun destination hDestination => ?_⟩
  · obtain ⟨entry, hEntry, rfl⟩ := List.mem_map.mp hDestination
    rcases (hMem entry hEntry).2 with hOld | hCandidate
    · exact books.finishes _ hOld
    · exact (books.of_mem_candidates hCandidate).1
  · obtain ⟨entry, hEntry, rfl⟩ := List.mem_map.mp hDestination
    rcases (hMem entry hEntry).2 with hOld | hCandidate
    · exact books.destinations_round _ hOld
    · exact Nat.le_of_eq (books.of_mem_candidates hCandidate).2

/-- Walking to the destination makes up for every egress leg from the rides of this round that are
kept. -/
theorem Books.finish (books : Books problem time state) (regular : problem.Regular time)
    (hRounds : state.round ≤ Request.maxSupportedTransfers + 1) {after : State}
    (hAfter : after = state.finish problem) :
    Books problem time after ∧ after.round = state.round ∧ after.arrivals = state.arrivals ∧
      after.found.Extends state.found problem.direction ∧
      ∀ id arrival, (id, arrival) ∈ state.arrivalsAt arrival.stop state.round →
        arrival.isTransit = true → problem.EndsCovered after.found arrival := by
  subst hAfter
  obtain ⟨hBooks, hRound, hArrivals, -⟩ := books.ended
  have hFront := State.destinations_finish problem state
  have hEntries := hBooks.destinations_entry
  have entails := destinationRules_entails problem.direction problem.costSlack
  obtain ⟨hOffered, hKept⟩ := Front.offerAll_keeps entails state.destinations
    ((state.candidates problem).map (destinationEntry problem.direction))
    (fun entry hEntry => ⟨entry.item, congrArg _ (books.destinations_entry entry hEntry)⟩)
    (fun entry hEntry => by
      obtain ⟨candidate, -, rfl⟩ := List.mem_map.mp hEntry
      exact ⟨candidate, rfl⟩)
  rw [← hFront] at hOffered hKept
  refine ⟨hBooks, hRound, hArrivals, ⟨?_, ?_⟩, ?_⟩
  · simp only [State.found, hArrivals, Arrivals.Extends.refl]
  · rintro round criterion ⟨destination, hMem, hRound, hTime⟩
    obtain ⟨entry, hEntry, rfl⟩ := List.mem_map.mp hMem
    refine (State.ended_of_noWorse hEntries
      (hKept _ ⟨entry.item, rfl⟩ ⟨entry, hEntry, ?_⟩)).of_le hRound hTime
    rw [congrArg Entry.criteria (books.destinations_entry entry hEntry)]
    exact entails.refl ⟨entry.item, rfl⟩
  · intro id arrival hAt hRide leg hLeg
    obtain ⟨hId, -, hRound⟩ := books.of_mem_arrivalsAt hAt
    have hEnded := State.ended_of_noWorse hEntries
      (hOffered _ (List.mem_map_of_mem (books.mem_candidates hAt hRide hLeg)))
    rwa [Problem.destinationArrival, books.records.plus_eq_along regular.modest regular.time
      (Arrivals.mem_toList_of_get? hId) (hRound ▸ hRounds)
      (regular.modest.legs leg (Or.inr (Problem.mem_endLegsAt.mp hLeg).1)),
      Direction.timeCriterion_along, ← hRound] at hEnded

end JourneyPlanner.Search.MultiCriteria
