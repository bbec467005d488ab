import JourneyPlanner.Proofs.Relisting.Rounds
import JourneyPlanner.Proofs.Scanning.Each
import JourneyPlanner.Proofs.Search.MultiCriteria.Fares

/-! Riding along a pattern on a front of rides against trying every boarding. The search leaves only
rides that would be tried, and for whatever is tried it leaves one at the same stop that is no later
and, as time on board has its price, no dearer. Main statement: the fronts come out the same. -/
namespace JourneyPlanner.Search

def Alighting.arrival (problem : Problem) (table : TripTable) (round : Nat)
    (alighting : Alighting) : Arrival :=
  alighting.ride.arrival problem round table.pattern alighting.stop alighting.time

namespace MultiCriteria

variable {problem : Problem} {time : Int} {table : TripTable} {state : State}

/-- A search for the best compromises gets on after every arrival of the last round that a stop
keeps. -/
def manner (problem : Problem) (table : TripTable) : Manner State :=
  { sources := State.sources
    leave := fun stop ride time state =>
      state.add problem (ride.arrival problem state.round table.pattern stop time) }

/-- Leaving rides in turn records what they make. -/
theorem leaveAll_eq (problem : Problem) (table : TripTable) (alightings : List Alighting)
    (state : State) :
    (manner problem table).leaveAll alightings state =
      (alightings.map (Alighting.arrival problem table state.round)).foldl
        (State.add problem) state := by
  induction alightings generalizing state with
  | nil => rfl
  | cons first rest ih =>
      have hRest := ih (state.add problem (first.arrival problem table state.round))
      rw [State.round_add] at hRest
      exact hRest

section Members

variable {round : Nat} {sources : Nat → List (Nat × Arrival)} {positions : List Nat}
  {rides : Front Ride} {offers : List Arrival}

/-- Only the rides on board and rides that would be tried are left. -/
theorem exists_alighting_of_mem
    (h : passOffers problem table round sources positions rides = .ok offers) {arrival : Arrival}
    (hMem : arrival ∈ offers) :
    ∃ alighting : Alighting, arrival = alighting.arrival problem table round ∧
      ((∃ on ∈ rides.items, on.LeftAt problem table positions alighting) ∨
        Tried problem table sources positions alighting) := by
  induction positions generalizing rides offers with
  | nil =>
      cases h
      cases hMem
  | cons position rest ih =>
      obtain ⟨stop, arrivals, boarded, others, hStop, hArrivals, hBoarded, hOthers, rfl⟩ :=
        passOffers_cons_eq_ok_iff.mp h
      rcases List.mem_append.mp hMem with hHere | hLater
      · obtain ⟨on, hOn, left, hLeft, rfl⟩ := (mem_of_alightings hArrivals).mp hHere
        exact ⟨⟨stop, on, left⟩, rfl,
          Or.inl ⟨on, hOn, rfl, position, List.mem_cons_self .., hStop, hLeft⟩⟩
      · obtain ⟨alighting, hArrival, hKind⟩ := ih hOthers hLater
        refine ⟨alighting, hArrival, ?_⟩
        rcases hKind with ⟨on, hOn, hSame, second, hSecond, hLeft⟩ | hTried
        · obtain ⟨entry, hEntry, rfl⟩ := List.mem_map.mp hOn
          rcases Front.mem_of_mem_offerAll hEntry with hOld | hNew
          · exact Or.inl ⟨entry.item, List.mem_map_of_mem hOld, hSame, second,
              List.mem_cons_of_mem _ hSecond, hLeft⟩
          · obtain ⟨ride, hRide, rfl⟩ := List.mem_map.mp hNew
            obtain ⟨source, hSource, hBoard⟩ := (mem_of_boardings hBoarded).mp hRide
            exact Or.inr (.here hStop hSource hBoard ⟨hSame, second, hSecond, hLeft⟩)
        · exact Or.inr hTried.later

/-- For whatever is tried an arrival is offered at the same stop that is no later and no dearer. -/
theorem exists_offer_of_tried (sound : table.Sound) (hRate : 0 ≤ problem.cost.transitReluctance)
    (ofRides : OfRides problem.direction rides)
    (h : passOffers problem table round sources positions rides = .ok offers)
    {alighting : Alighting} (hTried : Tried problem table sources positions alighting) :
    ∃ arrival ∈ offers, arrival.Meets problem.direction true alighting.stop round
      (problem.direction.timeCriterion alighting.time)
      (alighting.arrival problem table round).cost := by
  induction hTried generalizing rides offers with
  | @here first stop later source ride alighting hStop hSource hBoard hLeft =>
      obtain ⟨same, arrivals, boarded, others, hSame, hArrivals, hBoarded, hOthers, rfl⟩ :=
        passOffers_cons_eq_ok_iff.mp h
      rw [hStop, Except.ok.injEq] at hSame
      subst hSame
      obtain ⟨rfl, second, hSecond, hTarget, hLeftAt⟩ := hLeft
      obtain ⟨found, hFound, hTime, -⟩ := Ride.alightTime_eq_ok_iff.mp hLeftAt
      have hRide := (mem_of_boardings hBoarded).mpr ⟨source, hSource, hBoard⟩
      obtain ⟨better, hBetter, hTrip, hCost⟩ := ofRides.exists_covering (Or.inr hRide)
      obtain ⟨arrival, hMem, meets⟩ := exists_offer_of_onBoard sound (ofRides.offerAll boarded)
        hTarget hFound hRate hOthers hBetter hTrip hSecond
      rw [hTime] at meets
      have hMeets := meets.cost_le
      exact ⟨arrival, List.mem_append_right _ hMem,
        { meets with cost_le := Int.le_trans hMeets (Int.add_le_add_right hCost _) }⟩
  | later hLater ih =>
      obtain ⟨stop, arrivals, boarded, others, -, -, -, hOthers, rfl⟩ :=
        passOffers_cons_eq_ok_iff.mp h
      obtain ⟨arrival, hMem, meets⟩ := ih (ofRides.offerAll boarded) hOthers
      exact ⟨arrival, List.mem_append_right _ hMem, meets⟩

end Members

namespace Books

/-- What is tried may be recorded. -/
theorem offered_of_tried (books : Books problem time state) (sound : problem.day.network.Sound)
    (legs : problem.KnownLegs) (hBegun : 0 < state.round) {pattern : Nat}
    (hTable : problem.day.network.tripTable pattern = .ok table)
    (hActive : problem.day.activePatterns.contains pattern = true) {positions : List Nat}
    (hOrder : positions.Pairwise problem.direction.Precedes) {alighting : Alighting}
    (hTried : Tried problem table state.sources positions alighting) :
    Offered problem time state (alighting.arrival problem table state.round) := by
  induction hTried with
  | @here first stop later source ride alighting hStop hSource hBoard hLeft =>
      obtain ⟨rfl, second, hSecond, hTarget, hLeftAt⟩ := hLeft
      obtain ⟨hId, rfl, hRound⟩ := books.of_mem_sources hBegun hSource
      have onBoard : OnBoard problem table state.arrivals state.round later alighting.ride :=
        ⟨first, source.1, source.2, none, hStop, hId, hRound, hBoard,
          (List.pairwise_cons.mp hOrder).1⟩
      obtain ⟨left, hLeft, hDerives⟩ :=
        onBoard.exists_alightTime hTable hActive hSecond hTarget time sound
      rw [hLeftAt, Except.ok.injEq] at hLeft
      subst hLeft
      exact ⟨hDerives.stop_lt sound.toLinked legs, hDerives, rfl⟩
  | later hLater ih => exact ih (List.pairwise_cons.mp hOrder).2

/-- A way to the destination that covers an arrival covers any that is no better. -/
theorem isCovered_of_covers (books : Books problem time state) {arrival other : Arrival}
    (hCovers : stopRules.covers (stopCriteria problem.direction arrival)
      (stopCriteria problem.direction other) = true)
    (h : state.isCovered (stopCriteria problem.direction arrival) = true) :
    state.isCovered (stopCriteria problem.direction other) = true := by
  obtain ⟨entry, hEntry, hBetter⟩ := List.any_eq_true.mp h
  refine List.any_eq_true.mpr ⟨entry, hEntry, ?_⟩
  rw [books.destinations_entry entry hEntry, covers_take_stopCriteria_iff] at hBetter ⊢
  obtain ⟨hTime, hRound, hCost, -⟩ := covers_stopCriteria_iff.mp hCovers
  exact ⟨Int.le_trans hBetter.1 hTime, Nat.le_trans hBetter.2.1 hRound,
    Int.le_trans hBetter.2.2 hCost⟩

/-- Arrivals that others at their stop cover can be left out of what is recorded. -/
theorem alike_of_covered (books : Books problem time state)
    (tidy : ∀ stop, (state.fronts.get stop).Tidy stopRules) {offers others : List Arrival}
    (hStops : ∀ other ∈ others, other.stop < problem.numStops)
    (hSubset : ∀ arrival ∈ offers, arrival ∈ others)
    (hCovered : ∀ other ∈ others, ∃ arrival ∈ offers, arrival.stop = other.stop ∧
      stopRules.covers (stopCriteria problem.direction arrival)
        (stopCriteria problem.direction other) = true) (stop : Nat) :
    ((offers.foldl (State.add problem) state).fronts.get stop).Alike
      ((others.foldl (State.add problem) state).fronts.get stop) := by
  rw [← books.size_fronts] at hStops
  obtain ⟨entries, hFront, hCriteria⟩ := State.exists_front_foldl problem state offers
    (fun arrival hArrival => hStops arrival (hSubset arrival hArrival)) stop
  obtain ⟨images, hImage, hImageCriteria⟩ :=
    State.exists_front_foldl problem state others hStops stop
  rw [hFront, hImage]
  refine Front.offerAll_alike_of_covered stopRules_orderly (tidy stop) (books.fits_front stop)
    (State.fits_entries hImageCriteria) (fun entry hEntry => ?_) fun image hImage => ?_
  · obtain ⟨arrival, hAdmitted, hSame⟩ := (State.exists_entry_iff hCriteria).mp ⟨entry, hEntry, rfl⟩
    obtain ⟨hMem, hOpen⟩ := List.mem_filter.mp hAdmitted
    exact (State.exists_entry_iff hImageCriteria).mpr
      ⟨arrival, List.mem_filter.mpr ⟨hSubset arrival hMem, hOpen⟩, hSame⟩
  · obtain ⟨other, hAdmitted, hSame⟩ :=
      (State.exists_entry_iff hImageCriteria).mp ⟨image, hImage, rfl⟩
    obtain ⟨hMem, hOpen⟩ := List.mem_filter.mp hAdmitted
    obtain ⟨arrival, hArrival, hStop, hCovers⟩ := hCovered other hMem
    rw [Bool.and_eq_true, Bool.not_eq_true'] at hOpen
    -- what covers an arrival that is admitted is admitted itself
    have hAlso : arrival ∈ state.admitted problem stop offers := by
      refine List.mem_filter.mpr ⟨hArrival, ?_⟩
      rw [hStop, hOpen.1, Bool.true_and, Bool.not_eq_true']
      refine Bool.eq_false_iff.mpr fun h => ?_
      rw [books.isCovered_of_covers hCovers h] at hOpen
      cases hOpen.2
    obtain ⟨entry, hEntry, hEntryCriteria⟩ :=
      (State.exists_entry_iff hCriteria).mpr ⟨arrival, hAlso, rfl⟩
    exact ⟨entry, hEntry, by rwa [hEntryCriteria, ← hSame]⟩

/-- Riding along a pattern on a front of rides leaves the same values in the fronts of all stops as
trying every boarding. -/
theorem exists_scans (books : Books problem time state)
    (tidy : ∀ stop, (state.fronts.get stop).Tidy stopRules) (sound : problem.day.network.Sound)
    (legs : problem.KnownLegs) (hRate : 0 ≤ problem.cost.transitReluctance)
    (hBegun : 0 < state.round) {pattern : Nat}
    (hTable : problem.day.network.tripTable pattern = .ok table)
    (hActive : problem.day.activePatterns.contains pattern = true) :
    ∃ after each, State.scan problem (State.add problem) table state = .ok after ∧
      scanEach problem table (manner problem table)
        (problem.direction.positions table.numStops) state = .ok each ∧
      ∀ stop, (after.fronts.get stop).Alike (each.fronts.get stop) := by
  have hOrder := Direction.positions_pairwise problem.direction table.numStops
  obtain ⟨offers, hOffers, hOffered⟩ :=
    books.exists_scanOffers sound legs hBegun hTable hActive
  have hTriable : ∀ {alighting}, Tried problem table state.sources
      (problem.direction.positions table.numStops) alighting →
      Offered problem time state (alighting.arrival problem table state.round) :=
    books.offered_of_tried sound legs hBegun hTable hActive hOrder
  obtain ⟨alightings, hEach, hMem⟩ := exists_scanEach (sound.table hTable) (manner problem table)
    (fun next (hNext : Books problem time next ∧ Steady problem state next) =>
      hNext.2.sources hBegun)
    hOrder (fun position hPosition => Direction.mem_positions.mp hPosition)
    (fun alighting hTried next ⟨hBooks, hSteady⟩ => by
      have offered := (hTriable hTried).mono hSteady.toOnward
      rw [← hSteady.round] at offered
      obtain ⟨hNext, hStep⟩ := hBooks.steady_add offered
      exact ⟨hNext, hSteady.trans hStep⟩)
    ⟨books, Steady.refl ..⟩
  refine ⟨_, _, books.pass_eq hBegun hOffers hOffered, hEach, fun stop => ?_⟩
  rw [leaveAll_eq]
  refine books.alike_of_covered tidy (fun other hOther => ?_) (fun arrival hArrival => ?_)
    (fun other hOther => ?_) stop
  · obtain ⟨alighting, hAlighting, rfl⟩ := List.mem_map.mp hOther
    exact (hTriable ((hMem alighting).mp hAlighting)).stop_lt
  · obtain ⟨alighting, rfl, hKind⟩ := exists_alighting_of_mem hOffers hArrival
    rcases hKind with ⟨on, hOn, -⟩ | hTried
    · cases hOn
    · exact List.mem_map_of_mem ((hMem alighting).mpr hTried)
  · obtain ⟨alighting, hAlighting, rfl⟩ := List.mem_map.mp hOther
    obtain ⟨arrival, hArrival, meets⟩ := exists_offer_of_tried (sound.table hTable) hRate
      (List.forall_mem_nil _) hOffers ((hMem alighting).mp hAlighting)
    exact ⟨arrival, hArrival, meets.stop, covers_stopCriteria_iff.mpr
      ⟨meets.time_le, meets.round_le, meets.cost_le, meets.isTransit⟩⟩

end Books

end MultiCriteria

end JourneyPlanner.Search
