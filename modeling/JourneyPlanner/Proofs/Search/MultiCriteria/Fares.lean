import JourneyPlanner.Proofs.Search.Fares
import JourneyPlanner.Proofs.Search.MultiCriteria.Fronts

/-! Costs in a search for the best compromises. A trip that is boarded first is as cheap at every
stop as those after it, since the time gained there costs no more than the wait saved. So what a
round makes of a record it makes at its cost, and keeps unless something else is no worse. Main
statement: a run has missed nothing at its cost. -/
namespace JourneyPlanner.Search.MultiCriteria

variable {problem : Problem} {time : Int} {state : State} {table : TripTable}

/-- A ride that is boarded no later than another time is no dearer than one boarded then. -/
theorem relativeCost_le_of_board? (fair : problem.cost.Fair) {position stop id : Nat}
    {source : Arrival} {bound : Option Nat} {ride : Ride}
    (h : board? problem table position stop id source bound = .ok (some ride)) {boarded : Int}
    (hTime : problem.direction.timeCriterion ride.time ≤ problem.direction.timeCriterion boarded)
    (left : Int) :
    ride.relativeCost + problem.rideCostAt left ≤
      source.cost + problem.cost.fare problem.direction source.time boarded left := by
  have hGain := Int.mul_nonneg (Int.sub_nonneg_of_le hTime)
    (Int.sub_nonneg_of_le fair.transit_le_wait)
  rw [relativeCost_of_board? h]
  simp only [CostRates.fare, Direction.duration_eq, CostRates.waitCost, CostRates.transitCostAt,
    Problem.rideCostAt, Int.sub_mul, Int.mul_sub] at hGain ⊢
  omega

section Pass

variable {round : Nat} {sources : Nat → List (Nat × Arrival)} {rides : Front Ride}
  {offers : List Arrival} {trip second target : Nat} {later : StopTime}
  (sound : table.Sound) (ofRides : OfRides problem.direction rides)
  (hTarget : table.stopAt second = .ok target) (hLater : table.timeAt trip second = .ok later)

include sound ofRides hTarget hLater

/-- Leaving a trip is offered no later and for no more than the cost of any ride on board that does
not come after it. -/
theorem exists_offer_of_onBoard (hRate : 0 ≤ problem.cost.transitReluctance)
    {positions : List Nat}
    (h : passOffers problem table round sources positions rides = .ok offers) {on : Ride}
    (hOn : on ∈ rides.items)
    (hTrip : problem.direction.tripCriterion on.trip ≤ problem.direction.tripCriterion trip)
    (hSecond : second ∈ positions) :
    ∃ arrival ∈ offers, arrival.Meets problem.direction true target round
      (problem.direction.timeCriterion (problem.direction.alightTime later))
      (on.relativeCost + problem.rideCostAt (problem.direction.alightTime later)) := by
  induction positions generalizing rides offers on with
  | nil => cases hSecond
  | cons position rest ih =>
      obtain ⟨stop, arrivals, boarded, others, hStop, hArrivals, hBoarded, hOthers, rfl⟩ :=
        passOffers_cons_eq_ok_iff.mp h
      rcases List.mem_cons.mp hSecond with rfl | hRest
      · rw [hStop, Except.ok.injEq] at hTarget
        subst hTarget
        obtain ⟨left, hLeft⟩ := exists_left_of_alightings hArrivals on hOn
        obtain ⟨time, hTime, rfl, -⟩ := Ride.alightTime_eq_ok_iff.mp hLeft
        have hNoLater := sound.alightTime_le_of_tripCriterion_le hTrip
          (TripTable.lt_numStops_of_stopAt hStop) hTime hLater
        have hNoDearer := Int.mul_le_mul_of_nonneg_right hNoLater hRate
        have hOffered := (mem_of_alightings hArrivals).mpr ⟨on, hOn, _, hLeft, rfl⟩
        exact ⟨_, List.mem_append_left _ hOffered, rfl, rfl, Nat.le_refl _, hNoLater,
          Int.add_le_add_left hNoDearer _⟩
      · obtain ⟨better, hBetter, hBetterTrip, hCost⟩ := ofRides.exists_covering (Or.inl hOn)
        obtain ⟨arrival, hMem, meets⟩ := ih (ofRides.offerAll boarded) hOthers hBetter
          (Int.le_trans hBetterTrip hTrip) hRest
        have hMeets := meets.cost_le
        exact ⟨arrival, List.mem_append_right _ hMem,
          { meets with cost_le := by omega }⟩

/-- Leaving a trip is offered no later and for no more than the cost of boarding it after any
arrival to go on from. The induction is on the positions before the one where it is boarded. -/
theorem exists_offer_of_source (fair : problem.cost.Fair) {before after : List Nat}
    {first stop : Nat} {time : StopTime}
    (h : passOffers problem table round sources (before ++ first :: after) rides = .ok offers)
    (hOrigin : table.stopAt first = .ok stop) {source : Nat × Arrival}
    (hSource : source ∈ sources stop) (hRuns : table.Runs problem.day.isActive trip)
    (hTime : table.timeAt trip first = .ok time)
    (hReady : problem.direction.timeCriterion (problem.readyAfter source.2) ≤
      problem.direction.timeCriterion (problem.direction.boardTime time))
    (hSecond : second ∈ after) :
    ∃ arrival ∈ offers, arrival.Meets problem.direction true target round
      (problem.direction.timeCriterion (problem.direction.alightTime later))
      (source.2.cost + problem.cost.fare problem.direction source.2.time
        (problem.direction.boardTime time) (problem.direction.alightTime later)) := by
  induction before generalizing rides offers with
  | nil =>
      obtain ⟨same, arrivals, boarded, others, hSame, hArrivals, hBoarded, hOthers, rfl⟩ :=
        passOffers_cons_eq_ok_iff.mp h
      rw [hOrigin, Except.ok.injEq] at hSame
      subst hSame
      have hPosition := TripTable.lt_numStops_of_stopAt hOrigin
      obtain ⟨result, hBoard⟩ := exists_board? problem stop source.1 source.2 none sound.toShaped
        hPosition (by simp)
      obtain ⟨ride, rfl, hTrip⟩ := board?_least sound hPosition hBoard hRuns hTime hReady (by simp)
      have hRide := (mem_of_boardings hBoarded).mpr ⟨source, hSource, hBoard⟩
      obtain ⟨boardedAt, hBoardedAt, hRideTime⟩ := (boarded_of_board? hBoard).time
      have hNoLater := sound.boardTime_le_of_tripCriterion_le hTrip hPosition hBoardedAt hTime
      have hNoDearer := relativeCost_le_of_board? fair hBoard (hRideTime ▸ hNoLater)
        (problem.direction.alightTime later)
      obtain ⟨better, hBetter, hBetterTrip, hCost⟩ := ofRides.exists_covering (Or.inr hRide)
      obtain ⟨arrival, hMem, meets⟩ := exists_offer_of_onBoard sound (ofRides.offerAll boarded)
        hTarget hLater fair.transitReluctance hOthers hBetter (Int.le_trans hBetterTrip hTrip)
        hSecond
      have hMeets := meets.cost_le
      exact ⟨arrival, List.mem_append_right _ hMem, { meets with cost_le := by omega }⟩
  | cons position rest ih =>
      obtain ⟨other, arrivals, boarded, others, -, -, -, hOthers, rfl⟩ :=
        passOffers_cons_eq_ok_iff.mp h
      obtain ⟨arrival, hMem, meets⟩ := ih (ofRides.offerAll boarded) hOthers
      exact ⟨arrival, List.mem_append_right _ hMem, meets⟩

end Pass

theorem Onward.grows {first second : State} (onward : Onward problem first second) :
    second.found.Grows first.found problem.direction := by
  refine ⟨onward.arrivals, fun hEnded => ?_⟩
  obtain ⟨destination, hMem, hRest⟩ := hEnded
  have hMem : destination ∈ second.destinations.items := onward.destinations ▸ hMem
  exact ⟨destination, hMem, hRest⟩

/-- Recording arrivals records nothing else. -/
theorem State.mem_of_mem_foldl {offers : List Arrival} {other : Arrival}
    (h : other ∈ (offers.foldl (State.add problem) state).arrivals.toList) :
    other ∈ state.arrivals.toList ∨ other ∈ offers := by
  induction offers generalizing state with
  | nil => exact Or.inl h
  | cons first rest ih =>
      rcases ih h with hFirst | hRest
      · rcases State.mem_of_mem_add hFirst with hOld | rfl
        · exact Or.inl hOld
        · exact Or.inr (List.mem_cons_self ..)
      · exact Or.inr (List.mem_cons_of_mem _ hRest)

namespace Books

variable {arrival : Arrival}

/-- A record that a way to the destination covers is of no use at its cost either. -/
theorem endedFor_of_isCovered (books : Books problem time state)
    (h : state.isCovered (stopCriteria problem.direction arrival) = true) :
    state.found.EndedFor problem.direction arrival.round
      (problem.direction.timeCriterion arrival.time) arrival.cost := by
  obtain ⟨entry, hEntry, hCovers⟩ := List.any_eq_true.mp h
  rw [books.destinations_entry entry hEntry, covers_take_stopCriteria_iff] at hCovers
  exact ⟨entry.item, List.mem_map_of_mem hEntry, hCovers.2.1, hCovers.1, hCovers.2.2⟩

/-- What is offered is recorded, unless something else is no worse. -/
theorem serves_foldl (books : Books problem time state) {offers : List Arrival}
    (hOffers : ∀ arrival ∈ offers, Offered problem time state arrival) (hMem : arrival ∈ offers)
    {transit : Bool} {stop round : Nat} {criterion cost : Int}
    (meets : arrival.Meets problem.direction transit stop round criterion cost) :
    (offers.foldl (State.add problem) state).found.Serves problem.direction transit stop round
      criterion cost := by
  obtain ⟨after, steady⟩ := books.steady_foldl hOffers
  cases hCovered : state.isCovered (stopCriteria problem.direction arrival) with
  | true =>
      exact Or.inr (steady.toOnward.grows.ended ((books.endedFor_of_isCovered hCovered).of_le
        meets.round_le meets.time_le meets.cost_le))
  | false =>
      obtain ⟨entries, hFront, hCriteria⟩ := State.exists_front_foldl problem state offers
        (fun other hOther => books.size_fronts ▸ (hOffers other hOther).stop_lt) arrival.stop
      have hAdmitted : arrival ∈ state.admitted problem arrival.stop offers :=
        List.mem_filter.mpr ⟨hMem, by simp [hCovered]⟩
      obtain ⟨entry, hEntry, hSame⟩ :=
        (State.exists_entry_iff hCriteria).mpr ⟨arrival, hAdmitted, rfl⟩
      obtain ⟨held, hHeld, hCovers⟩ := (Front.offerAll_keeps stopRules_orderly.entails
        (state.fronts.get arrival.stop) entries (books.fits_front arrival.stop)
        (State.fits_entries hCriteria)).1 entry hEntry
      rw [← hFront] at hHeld
      obtain ⟨other, hOther, hStop, hOtherCriteria⟩ := after.entry hHeld
      rw [hOtherCriteria, hSame, covers_stopCriteria_iff] at hCovers
      obtain ⟨hTime, hRound, hCost, hTransit⟩ := hCovers
      exact Or.inl ⟨other, Arrivals.mem_toList_of_get? hOther, hTransit.trans meets.isTransit,
        hStop.trans meets.stop, Nat.le_trans hRound meets.round_le,
        Int.le_trans hTime meets.time_le, Int.le_trans hCost meets.cost_le⟩

/-- For every record there is one in the front of its stop that takes its place. -/
theorem exists_replacing (books : Books problem time state)
    (hMem : arrival ∈ state.arrivals.toList) :
    ∃ id other, state.arrivals.get? id = some other ∧ problem.Replaces other arrival ∧
      (id, other) ∈ state.arrivalsAt other.stop other.round := by
  obtain ⟨id, other, hId, hNoWorse, hTransit, hCost, hAt⟩ := books.exists_kept hMem
  exact ⟨id, other, hId, ⟨hNoWorse, hTransit, hCost⟩, hNoWorse.stop_eq ▸ hAt⟩

section Finish

variable (books : Books problem time state) (regular : problem.Regular time)
  (hRates : problem.cost.Modest) (hExact : problem.costSlack = 0)
  (hRounds : state.round ≤ Request.maxSupportedTransfers + 1)

include books regular hRates hExact hRounds

/-- Each way to the destination, found before or at the end of a round, is kept unless another one
is no worse. -/
theorem endedFor_finish {destination : DestinationArrival}
    (h : destination ∈ state.destinations.items ∨ destination ∈ state.candidates problem) :
    (state.finish problem).found.EndedFor problem.direction destination.round
      (problem.direction.timeCriterion destination.time) destination.cost := by
  obtain ⟨hAfter, hRound, -⟩ := books.ended
  have hFits := books.fits_destinations regular.modest regular.time hRates hRounds
  have hCandidates := books.fits_candidates regular.modest regular.time hRates hRounds
  have hAfterFits := hAfter.fits_destinations regular.modest regular.time hRates (hRound ▸ hRounds)
  have entails := destinationRules_orderly.entails
  obtain ⟨hOffered, hKept⟩ := Front.offerAll_keeps entails state.destinations
    ((state.candidates problem).map (destinationEntry problem.direction)) hFits hCandidates
  have hFront : (state.finish problem).destinations =
      state.destinations.offerAll (destinationRules 0)
        ((state.candidates problem).map (destinationEntry problem.direction)) := by
    rw [State.destinations_finish, hExact]
  rw [← hFront] at hOffered hKept
  obtain ⟨values, hValues, hSame, held, hHeld, hCovers⟩ : ∃ values,
      Rules.Fits (destinationRules 0).criteria values ∧
        values = (destinationEntry problem.direction destination).criteria ∧
        ∃ held ∈ (state.finish problem).destinations.entries,
          (destinationRules 0).covers held.criteria values = true := by
    rcases h with hOld | hNew
    · obtain ⟨entry, hEntry, rfl⟩ := List.mem_map.mp hOld
      exact ⟨_, hFits entry hEntry, congrArg _ (books.destinations_entry entry hEntry),
        hKept _ (hFits entry hEntry) ⟨entry, hEntry, entails.refl (hFits entry hEntry)⟩⟩
    · have hEntry := List.mem_map_of_mem (f := destinationEntry problem.direction) hNew
      exact ⟨_, hCandidates _ hEntry, rfl, hOffered _ hEntry⟩
  have hHeldFits := hAfterFits held hHeld
  rw [hAfter.destinations_entry held hHeld] at hCovers hHeldFits
  rw [hSame] at hCovers hValues
  rw [Rules.covers_iff] at hCovers
  obtain ⟨hTime, hRounds, hCost, -⟩ := hCovers
  rw [Criterion.noWorse_lessWithSlack_zero hHeldFits.2.2.1 hValues.2.2.1] at hCost
  rw [Criterion.noWorse_less] at hTime hRounds
  exact ⟨held.item, List.mem_map_of_mem hHeld, Int.ofNat_le.mp hRounds, hTime, hCost⟩

/-- Walking to the destination loses nothing but for ways that are no worse. -/
theorem grows_finish :
    (state.finish problem).found.Grows state.found problem.direction := by
  obtain ⟨-, -, hArrivals, -⟩ := books.ended
  refine ⟨?_, fun hEnded => ?_⟩
  · simp only [State.found, hArrivals, Arrivals.Extends.refl]
  · obtain ⟨destination, hMem, hRound, hTime, hCost⟩ := hEnded
    exact (books.endedFor_finish regular hRates hExact hRounds (Or.inl hMem)).of_le hRound hTime
      hCost

end Finish

end Books

/-- At the start every leg is offered at its cost. -/
theorem Books.priced_start (regular : problem.Regular time) :
    problem.Priced time 0 ((strategy problem).start time).found := by
  obtain ⟨books, steady⟩ := Books.start_of_known time regular.sound.toLinked regular.legs
  refine .of_start (fun leg hLeg => ?_) books.records fun arrival hMem =>
    (books.round_le arrival hMem).trans (Nat.le_of_eq steady.round)
  have hTime := congrArg problem.direction.timeCriterion
    (Records.plus_startLeg regular.modest regular.time hLeg)
  rw [Direction.timeCriterion_along] at hTime
  exact (Books.initial problem time).serves_foldl
    (offered_start time regular.sound.toLinked regular.legs)
    (List.mem_map_of_mem hLeg) ⟨rfl, rfl, Nat.le_refl _, Int.le_of_eq hTime, Int.le_refl _⟩

namespace Course

variable {rides : List Arrival} {scanned walked : State} {arrival : Arrival}
  (course : Course problem time state rides scanned walked)

include course

theorem grows : walked.found.Grows state.found problem.direction :=
  course.steady.toOnward.grows

/-- Records of the rounds before were there when the round began. -/
theorem mem_of_round_le (hMem : arrival ∈ walked.arrivals.toList)
    (hRound : arrival.round ≤ state.round) : arrival ∈ state.arrivals.toList := by
  rcases course.steady.new arrival hMem with hBefore | hNew
  · exact hBefore
  · have hNew : arrival.round = state.round + 1 := hNew
    omega

section Priced

variable (regular : problem.Regular time)
  (hRounds : state.round + 1 ≤ Request.maxSupportedTransfers + 1)

include regular hRounds

/-- All rides after an arrival that a round goes on from are made at its cost. -/
theorem ridesPriced_of_source (fair : problem.cost.Fair) {id : Nat}
    (hSource : (id, arrival) ∈ state.arrivalsAt arrival.stop state.round) :
    problem.RidesPriced scanned.found arrival := by
  intro pattern trip first second target table boarded left hTable hActive hOrigin hTarget passage
    hReady
  have hAt : (id, arrival) ∈
      (state.beginRound (state.round + 1)).arrivalsAt arrival.stop state.round := hSource
  obtain ⟨hId, -, hRound⟩ := course.begun.of_mem_arrivalsAt hAt
  have hRound : arrival.round = state.round := hRound
  have hMem := Arrivals.mem_toList_of_get? hId
  have hFrom : (id, arrival) ∈ (state.beginRound (state.round + 1)).sources arrival.stop := by
    rw [course.begun.sources_eq (Nat.succ_pos _)]
    exact hAt
  have hPattern : pattern ∈ (strategy problem).patterns problem.day
      (state.beginRound (state.round + 1)) :=
    DayTimetable.mem_patternsTouching regular.sound.toLinked hTable hOrigin
      (IndexSet.mem_toList.mpr (course.begun.last arrival hMem (congrArg (· + 1) hRound))) hActive
  obtain ⟨same, made, hSame, hMade⟩ := exists_made_of_rideOffers course.rideOffers pattern hPattern
  rw [hTable, Except.ok.injEq] at hSame
  subst hSame
  have hScan := hMade
  obtain ⟨before, after, hSplit, hSecond⟩ := Direction.positions_eq_append
    (TripTable.lt_numStops_of_stopAt hOrigin) (TripTable.lt_numStops_of_stopAt hTarget)
    passage.order
  obtain ⟨time, hTime, rfl⟩ := passage.boards
  obtain ⟨later, hLater, rfl⟩ := passage.alights
  rw [← Direction.timeCriterion_along, ← course.begun.records.readyAfter_eq_along regular.modest
    regular.time hMem (by omega)] at hReady
  rw [scanOffers, hSplit] at hScan
  obtain ⟨offer, hOffer, meets⟩ := exists_offer_of_source (regular.sound.table hTable)
    (List.forall_mem_nil _) hTarget hLater fair hScan hOrigin hFrom passage.runs hTime hReady
    hSecond
  have hMade := (mem_of_rideOffers course.rideOffers).mpr
    ⟨pattern, hPattern, table, made, hTable, hMade, hOffer⟩
  rw [course.scanned_eq, hRound]
  exact course.begun.serves_foldl course.offered hMade meets

/-- Rides go on from every record of the last round, or from one that takes its place. -/
theorem rides_priced (fair : problem.cost.Fair) (books : Books problem time state)
    (priced : problem.Priced time state.round state.found) (hMem : arrival ∈ state.arrivals.toList)
    (hRound : arrival.round = state.round) :
    ∃ other ∈ state.arrivals.toList, problem.Replaces other arrival ∧
      problem.RidesPriced walked.found other := by
  obtain ⟨id, other, hId, replaces, hAt⟩ := books.exists_replacing hMem
  have hOther := Arrivals.mem_toList_of_get? hId
  rcases Nat.lt_or_eq_of_le replaces.round_le with hBefore | hSame
  · obtain ⟨third, hThird, replacesOther, hPriced⟩ :=
      priced.rides other hOther (Nat.lt_of_lt_of_eq hBefore hRound)
    exact ⟨third, hThird, replacesOther.trans replaces, hPriced.mono course.grows⟩
  · rw [hSame, hRound] at hAt
    exact ⟨other, hOther, replaces,
      (course.ridesPriced_of_source regular hRounds fair hAt).mono course.walking.toOnward.grows⟩

/-- Walks go on from every record they are due from, or from one that takes its place. -/
theorem walks_priced (priced : problem.Priced time state.round state.found)
    (hMem : arrival ∈ walked.arrivals.toList) (hFoot : arrival.roundOnFoot = state.round + 1) :
    problem.WalksPriced walked.found arrival := by
  -- walking records no rides, so what is walked on from was there before
  have hScanned : arrival ∈ scanned.arrivals.toList := by
    by_cases hRide : arrival.isTransit = true
    · rw [course.walked_eq] at hMem
      rcases State.mem_of_mem_foldl hMem with hOld | hNew
      · exact hOld
      · obtain ⟨source, -, hWalk⟩ := List.mem_flatMap.mp hNew
        obtain ⟨transfer, -, rfl⟩ := List.mem_map.mp hWalk
        cases hRide
    · rw [Arrival.roundOnFoot, if_neg hRide] at hFoot
      exact course.scanning.arrivals.mem_toList (course.mem_of_round_le hMem (by omega))
  obtain ⟨id, other, hId, replaces, hAt⟩ := course.scan.exists_replacing hScanned
  refine Problem.WalksPriced.of_replaces replaces ?_
  have hOtherFoot := replaces.roundOnFoot_le
  have hOtherMem := Arrivals.mem_toList_of_get? hId
  have hOtherRound := other.round_le_roundOnFoot
  rcases Nat.lt_or_eq_of_le hOtherFoot with hEarlier | hThis
  · have hOld := course.mem_of_round_le (course.walking.arrivals.mem_toList hOtherMem) (by omega)
    exact (priced.walks other hOld (by omega)).mono course.grows
  · intro transfer hWalk
    have hScanRound := course.round_scanned
    have hSource : (id, other) ∈ scanned.walkSources :=
      course.scan.mem_walkSources hId hAt (by omega)
    have hOffer : problem.walkArrival scanned.round id other transfer ∈
        walkOffers problem scanned :=
      List.mem_flatMap.mpr ⟨(id, other), hSource, List.mem_map_of_mem hWalk⟩
    have hTime := congrArg problem.direction.timeCriterion
      (course.scan.records.plus_eq_along regular.modest regular.time hOtherMem (by omega)
        (regular.modest.network.transfers hWalk))
    rw [Direction.timeCriterion_along] at hTime
    rw [course.walked_eq]
    exact course.scan.serves_foldl course.walks hOffer
      ⟨rfl, rfl, Nat.le_of_eq (show scanned.round = other.roundOnFoot by omega), Int.le_of_eq hTime,
        Int.le_refl _⟩

/-- Egress legs are walked from every ride of the round, or from one that takes its place. -/
theorem ends_priced (hRates : problem.cost.Modest) (hExact : problem.costSlack = 0)
    (priced : problem.Priced time state.round state.found)
    (hMem : arrival ∈ walked.arrivals.toList) (hRide : arrival.isTransit = true)
    (hRound : arrival.round = state.round + 1) :
    problem.EndsPriced (walked.finish problem).found arrival := by
  have hWalkedRound := course.round_walked
  have hGrows := course.walk.grows_finish regular hRates hExact (hWalkedRound ▸ hRounds)
  obtain ⟨id, other, hId, replaces, hAt⟩ := course.walk.exists_replacing hMem
  have hOtherRide := replaces.isTransit.trans hRide
  have hOtherMem := Arrivals.mem_toList_of_get? hId
  refine Problem.EndsPriced.of_replaces replaces ?_
  rcases Nat.lt_or_eq_of_le replaces.round_le with hEarlier | hSame
  · have hOld := course.mem_of_round_le hOtherMem (by omega)
    exact ((priced.ends other hOld hOtherRide (by omega)).mono course.grows).mono hGrows
  · intro leg hLeg
    have hThis : other.round = walked.round := by omega
    rw [hThis] at hAt
    have hTime := congrArg problem.direction.timeCriterion
      (course.walk.records.plus_eq_along regular.modest regular.time hOtherMem (by omega)
        (regular.modest.legs leg (Or.inr (Problem.mem_endLegsAt.mp hLeg).1)))
    rw [Direction.timeCriterion_along] at hTime
    exact (course.walk.endedFor_finish regular hRates hExact (hWalkedRound ▸ hRounds)
      (Or.inr (course.walk.mem_candidates hAt hOtherRide hLeg))).of_le (Nat.le_of_eq hThis.symm)
        (Int.le_of_eq hTime) (Int.le_refl _)

/-- A round misses nothing at its cost if nothing was missed before it. -/
theorem priced (fair : problem.cost.Fair) (hRates : problem.cost.Modest)
    (hExact : problem.costSlack = 0) (books : Books problem time state)
    (priced : problem.Priced time state.round state.found) :
    problem.Priced time (state.round + 1) (walked.finish problem).found := by
  have hFinish := course.walk.grows_finish regular hRates hExact
    (course.round_walked ▸ hRounds)
  have hGrows := hFinish.trans course.grows
  have hMemOf : ∀ {arrival}, arrival ∈ (walked.finish problem).found.arrivals.toList →
      arrival ∈ walked.arrivals.toList := by
    intro arrival hMem
    rwa [State.found, course.walk.ended.2.2.1] at hMem
  refine ⟨fun leg hLeg => (priced.start leg hLeg).mono hGrows, fun arrival hMem hRound => ?_,
    fun arrival hMem hFoot => ?_, fun arrival hMem hRide hRound => ?_⟩
  · have hOld := course.mem_of_round_le (hMemOf hMem) (Nat.le_of_lt_succ hRound)
    obtain ⟨other, hOther, replaces, hPriced⟩ : ∃ other ∈ state.arrivals.toList,
        problem.Replaces other arrival ∧ problem.RidesPriced walked.found other := by
      rcases Nat.lt_or_eq_of_le (Nat.le_of_lt_succ hRound) with hBefore | hLast
      · obtain ⟨other, hOther, replaces, hPriced⟩ := priced.rides arrival hOld hBefore
        exact ⟨other, hOther, replaces, hPriced.mono course.grows⟩
      · exact course.rides_priced regular hRounds fair books priced hOld hLast
    exact ⟨other, hGrows.arrivals.mem_toList hOther, replaces, hPriced.mono hFinish⟩
  · rcases Nat.lt_or_eq_of_le hFoot with hBefore | hThis
    · have hRoundLe := arrival.round_le_roundOnFoot
      have hOld := course.mem_of_round_le (hMemOf hMem) (by omega)
      exact (priced.walks arrival hOld (Nat.le_of_lt_succ hBefore)).mono hGrows
    · exact (course.walks_priced regular hRounds priced (hMemOf hMem) hThis).mono hFinish
  · rcases Nat.lt_or_eq_of_le hRound with hBefore | hThis
    · have hOld := course.mem_of_round_le (hMemOf hMem) (Nat.le_of_lt_succ hBefore)
      exact (priced.ends arrival hOld hRide (Nat.le_of_lt_succ hBefore)).mono hGrows
    · exact course.ends_priced regular hRounds hRates hExact priced (hMemOf hMem) hRide hThis

end Priced

end Course

/-- A round without progress, or one that is settled, leaves nothing to go on from that could lead
to a better compromise. -/
theorem Books.priced_of_ended (books : Books problem time state) (regular : problem.Regular time)
    (fair : problem.cost.Fair) (hSlack : 0 ≤ problem.boardSlack)
    (priced : problem.Priced time state.round state.found)
    (hEnds : (strategy problem).hasProgressed state = false ∨
      (strategy problem).isSettled state = true) (rounds : Nat) :
    problem.Priced time rounds state.found := by
  refine priced.of_spent fair regular.sound hSlack books.round_le (fun arrival hMem hRound => ?_)
    rounds
  rcases hEnds with hStill | hSettled
  · have hMarked := books.current arrival hMem hRound
    simp only [strategy, strategyWith, Bool.not_eq_false'] at hStill
    rw [IndexSet.isEmpty_iff.mp hStill] at hMarked
    cases hMarked
  · obtain ⟨id, other, hId, replaces, hAt⟩ := books.exists_replacing hMem
    rcases Nat.lt_or_eq_of_le replaces.round_le with hEarlier | hSame
    · exact Or.inr ⟨other, Arrivals.mem_toList_of_get? hId, replaces, by omega⟩
    · rw [hSame, hRound] at hAt
      have hCovered := (books.isSettled_iff.mp hSettled).2 _ _ hAt
      exact Or.inl ((books.endedFor_of_isCovered hCovered).of_le replaces.round_le replaces.time_le
        replaces.cost_le)

/-- On a regular problem a run has missed nothing at its cost, if its rates are fair, the slacks are
such that comparing is an order, and there is no time limit. -/
theorem exists_run_priced {planner : Planner} (regular : planner.problem.Regular time)
    (hRounds : planner.maxRounds ≤ Request.maxSupportedTransfers + 1)
    (fair : planner.problem.cost.Fair) (hRates : planner.problem.cost.Modest)
    (hExact : planner.problem.costSlack = 0) (hSlack : 0 ≤ planner.problem.boardSlack)
    (hLimit : planner.timeLimit = none) (watch : Stopwatch) :
    ∃ run, planner.runWith (strategy planner.problem) time watch = .ok run ∧
      Records planner.problem time run.found.arrivals ∧
      planner.problem.Priced time planner.maxRounds run.found := by
  obtain ⟨run, state, hRun, -, hFound, books, -, priced, hEnds⟩ := exists_run_of_course time
    watch regular.sound regular.legs
    (fun state => planner.problem.Priced time state.round state.found)
    (by
      have hRound : ((strategy planner.problem).start time).round = 0 :=
        (Books.start_of_known time regular.sound.toLinked regular.legs).2.round
      rw [hRound]
      exact Books.priced_start regular)
    (fun state rides scanned walked hLt books course priced => by
      rw [course.walk.ended.2.1, course.round_walked]
      exact course.priced regular (Nat.le_trans hLt hRounds) fair hRates hExact books priced)
  refine ⟨run, hRun, hFound ▸ books.records, ?_⟩
  rw [hFound]
  rcases hEnds with hLate | hAll | hEnds
  · rw [hLimit] at hLate
    cases hLate
  · exact hAll ▸ priced
  · exact books.priced_of_ended regular fair hSlack priced hEnds _

end JourneyPlanner.Search.MultiCriteria
