import JourneyPlanner.Proofs.Search.MultiCriteria.Books

/-! One pass along a pattern on a front of rides. The front may drop a ride, but only for one on
a trip that does not come after it, so leaving it is made up for all the same. -/
namespace JourneyPlanner.Search.MultiCriteria

variable {problem : Problem} {time : Int} {table : TripTable} {state : State}

namespace State

/-- Every ride is left, if all of them can be. -/
theorem exists_alightings (round stop : Nat) {position : Nat} {rides : List Ride}
    (hRides : ∀ ride ∈ rides, ∃ left, ride.alightTime problem table position = .ok left) :
    ∃ arrivals, alightings problem table round position stop rides = .ok arrivals ∧
      (∀ arrival ∈ arrivals, ∃ ride ∈ rides, ∃ left,
        ride.alightTime problem table position = .ok left ∧
          arrival = ride.arrival problem round table.pattern stop left) ∧
      ∀ ride ∈ rides, ∀ left, ride.alightTime problem table position = .ok left →
        ride.arrival problem round table.pattern stop left ∈ arrivals := by
  induction rides with
  | nil => exact ⟨[], rfl, by simp, by simp⟩
  | cons ride rest ih =>
      obtain ⟨⟨left, hLeft⟩, hRest⟩ := List.forall_mem_cons.mp hRides
      obtain ⟨arrivals, hArrivals, hMade, hAll⟩ := ih hRest
      refine ⟨ride.arrival problem round table.pattern stop left :: arrivals, ?_, ?_, ?_⟩
      · exact Checked.bind_eq_ok_iff.mpr ⟨left, hLeft,
          Checked.bind_eq_ok_iff.mpr ⟨arrivals, hArrivals, rfl⟩⟩
      · refine List.forall_mem_cons.mpr ⟨⟨ride, List.mem_cons_self .., left, hLeft, rfl⟩, ?_⟩
        intro arrival hMem
        obtain ⟨other, hOther, hRest⟩ := hMade arrival hMem
        exact ⟨other, List.mem_cons_of_mem _ hOther, hRest⟩
      · refine List.forall_mem_cons.mpr ⟨fun other hOther => ?_, fun other hMem left hOther =>
          List.mem_cons_of_mem _ (hAll other hMem left hOther)⟩
        rw [hLeft, Except.ok.injEq] at hOther
        rw [hOther]
        exact List.mem_cons_self ..

/-- The rides got on are those that the sources have to offer. -/
theorem exists_boardings (problem : Problem) (stop : Nat) (shaped : table.Shaped) {position : Nat}
    (hPosition : position < table.numStops) (sources : List (Nat × Arrival)) :
    ∃ rides, boardings problem table position stop sources = .ok rides ∧
      ∀ ride, ride ∈ rides ↔ ∃ source ∈ sources,
        board? problem table position stop source.1 source.2 none = .ok (some ride) := by
  induction sources with
  | nil => exact ⟨[], rfl, by simp⟩
  | cons source rest ih =>
      obtain ⟨rides, hRides, hMem⟩ := ih
      obtain ⟨result, hResult⟩ := exists_board? problem stop source.1 source.2 none shaped
        hPosition (by simp)
      refine ⟨result.toList ++ rides, ?_, fun ride => ?_⟩
      · exact Checked.bind_eq_ok_iff.mpr ⟨result, hResult,
          Checked.bind_eq_ok_iff.mpr ⟨rides, hRides, rfl⟩⟩
      · simp only [List.mem_append, hMem, List.mem_cons, exists_eq_or_imp, hResult,
          Option.mem_toList, Except.ok.injEq]

theorem pass_cons (state : State) {position stop : Nat} {rest : List Nat} {rides : Front Ride}
    {add : State → Arrival → State} {arrivals : List Arrival} {boarded : List Ride}
    (hStop : table.stopAt position = .ok stop)
    (hArrivals : alightings problem table state.round position stop rides.items = .ok arrivals)
    (hBoarded : (arrivals.foldl add state).boardingsAt problem table position stop = .ok boarded) :
    pass problem table add (position :: rest) rides state =
      pass problem table add rest
        (rides.offerAll rideRules (boarded.map (rideEntry problem.direction)))
        (arrivals.foldl add state) := by
  rw [pass]
  simp only [hStop, hArrivals, hBoarded]

end State

/-- A running trip can be caught at a position after a record of the last round, the place of
which no record of an earlier round takes. -/
def Catches (problem : Problem) (table : TripTable) (state : State) (position trip : Nat) : Prop :=
  ∃ source ∈ state.arrivals.toList, ∃ time, source.round + 1 = state.round ∧
    (∀ other ∈ state.arrivals.toList, problem.NoWorse other source → other.round = source.round) ∧
    table.stopAt position = .ok source.stop ∧
    table.Runs problem.day.isActive trip ∧ table.timeAt trip position = .ok time ∧
    problem.direction.timeCriterion (problem.readyAfter source) ≤
      problem.direction.timeCriterion (problem.direction.boardTime time)

/-- A trip that can be caught can still be caught later in the round. -/
theorem Catches.onward {position trip : Nat} {after : State} (onward : Onward problem state after)
    (h : Catches problem table state position trip) :
    Catches problem table after position trip := by
  obtain ⟨source, hMem, time, hRound, hFresh, hRest⟩ := h
  refine ⟨source, onward.arrivals.mem_toList hMem, time, hRound.trans onward.round.symm, ?_, hRest⟩
  intro other hOther hNoWorse
  rcases onward.new other hOther with hOld | hNew
  · exact hFresh other hOld hNoWorse
  · have := hNoWorse.round_le
    omega

/-- The entries of a front of rides are rides with the values on which they compare. -/
def OfRides (direction : Direction) (rides : Front Ride) : Prop :=
  ∀ entry ∈ rides.entries, entry = rideEntry direction entry.item

namespace OfRides

variable {direction : Direction} {rides : Front Ride}

theorem offerAll (ofRides : OfRides direction rides) (boarded : List Ride) :
    OfRides direction (rides.offerAll rideRules (boarded.map (rideEntry direction))) := by
  intro entry hEntry
  rcases Front.mem_of_mem_offerAll hEntry with hOld | hNew
  · exact ofRides entry hOld
  · obtain ⟨ride, -, rfl⟩ := List.mem_map.mp hNew
    rfl

/-- When rides are got on, each ride of before and each of them has one in the front on a trip that
does not come after it, at no more than its cost. -/
theorem exists_covering (ofRides : OfRides direction rides) {boarded : List Ride} {on : Ride}
    (hOn : on ∈ rides.items ∨ on ∈ boarded) :
    ∃ better ∈ (rides.offerAll rideRules (boarded.map (rideEntry direction))).items,
      direction.tripCriterion better.trip ≤ direction.tripCriterion on.trip ∧
        better.relativeCost ≤ on.relativeCost := by
  have entails := rideRules_entails direction
  obtain ⟨hOffered, hKept⟩ := Front.offerAll_keeps entails rides
    (boarded.map (rideEntry direction))
    (fun entry hEntry => ⟨entry.item, congrArg _ (ofRides entry hEntry)⟩)
    (fun entry hEntry => by
      obtain ⟨ride, -, rfl⟩ := List.mem_map.mp hEntry
      exact ⟨ride, rfl⟩)
  obtain ⟨entry, hEntry, hCovers⟩ : ∃ entry ∈
      (rides.offerAll rideRules (boarded.map (rideEntry direction))).entries,
      rideRules.covers entry.criteria (rideEntry direction on).criteria = true := by
    rcases hOn with hOld | hNew
    · obtain ⟨entry, hEntry, rfl⟩ := List.mem_map.mp hOld
      refine hKept _ ⟨entry.item, rfl⟩ ⟨entry, hEntry, ?_⟩
      rw [congrArg Entry.criteria (ofRides entry hEntry)]
      exact entails.refl ⟨entry.item, rfl⟩
    · exact hOffered _ (List.mem_map_of_mem hNew)
  rw [ofRides.offerAll boarded entry hEntry, covers_rideEntry_iff] at hCovers
  exact ⟨entry.item, List.mem_map_of_mem hEntry, hCovers⟩

end OfRides

/-- Every entry of a front of rides is one on board, with the values on which it compares. -/
def AllOnBoard (problem : Problem) (table : TripTable) (arrivals : Arrivals) (round : Nat)
    (positions : List Nat) (rides : Front Ride) : Prop :=
  ∀ entry ∈ rides.entries, entry = rideEntry problem.direction entry.item ∧
    OnBoard problem table arrivals round positions entry.item

namespace AllOnBoard

variable {arrivals : Arrivals} {round : Nat} {positions : List Nat} {rides : Front Ride}

theorem empty : AllOnBoard problem table arrivals round positions Front.empty :=
  List.forall_mem_nil _

theorem ofRides (h : AllOnBoard problem table arrivals round positions rides) :
    OfRides problem.direction rides :=
  fun entry hEntry => (h entry hEntry).1

theorem onBoard (h : AllOnBoard problem table arrivals round positions rides) :
    ∀ ride ∈ rides.items, OnBoard problem table arrivals round positions ride := by
  intro ride hRide
  obtain ⟨entry, hEntry, rfl⟩ := List.mem_map.mp hRide
  exact (h entry hEntry).2

/-- The front of rides stays so when a position is passed and rides are got on there. -/
theorem board {position : Nat} {rest : List Nat}
    (h : AllOnBoard problem table state.arrivals state.round (position :: rest) rides)
    {after : State} (onward : Onward problem state after) {boarded : List Ride}
    (hBoarded : ∀ ride ∈ boarded, OnBoard problem table after.arrivals after.round rest ride) :
    AllOnBoard problem table after.arrivals after.round rest
      (rides.offerAll rideRules (boarded.map (rideEntry problem.direction))) := by
  intro entry hEntry
  rcases Front.mem_of_mem_offerAll hEntry with hOld | hNew
  · exact ⟨(h entry hOld).1, onward.round ▸ ((h entry hOld).2.mono onward.arrivals).tail⟩
  · obtain ⟨ride, hRide, rfl⟩ := List.mem_map.mp hNew
    exact ⟨rfl, hBoarded ride hRide⟩

end AllOnBoard

namespace Books

variable {pattern position stop : Nat} {rest : List Nat}

/-- Leaving all rides at a position makes up for leaving each of them there. -/
theorem leave (books : Books problem time state) (regular : problem.Regular time)
    (hTable : problem.day.network.tripTable pattern = .ok table)
    (hActive : problem.day.activePatterns.contains pattern = true)
    (hStop : table.stopAt position = .ok stop) {rides : List Ride}
    (hRides : ∀ ride ∈ rides,
      OnBoard problem table state.arrivals state.round (position :: rest) ride) :
    ∃ arrivals, State.alightings problem table state.round position stop rides = .ok arrivals ∧
      Books problem time (arrivals.foldl (State.add problem) state) ∧
      Onward problem state (arrivals.foldl (State.add problem) state) ∧
      ∀ ride ∈ rides, problem.AlightingCovered (arrivals.foldl (State.add problem) state).found
        state.round table ride.trip position := by
  have hLeave := fun ride hRide => (hRides ride hRide).exists_alightTime
    hTable hActive (List.mem_cons_self ..) hStop time regular.sound
  obtain ⟨arrivals, hArrivals, hMade, hAll⟩ := State.exists_alightings state.round stop
    fun ride hRide => (hLeave ride hRide).imp fun _ h => h.1
  obtain ⟨⟨hBooks, hOnward⟩, hGoals, -⟩ := Strategy.foldl_covers
    (State.add problem) arrivals state
    (fun next => Books problem time next ∧ Onward problem state next)
    (fun arrival next =>
      next.found.Ridden problem.direction arrival.stop state.round
          (problem.direction.timeCriterion arrival.time) ∨
        next.found.Ended problem.direction state.round
          (problem.direction.timeCriterion arrival.time))
    (fun arrival hMem next ⟨hBooks, hOnward⟩ => by
      obtain ⟨ride, hRide, left, hLeft, rfl⟩ := hMade arrival hMem
      obtain ⟨other, hOther, hDerives⟩ := hLeave ride hRide
      rw [hLeft, Except.ok.injEq] at hOther
      subst hOther
      obtain ⟨hAdded, hStep, hCovered⟩ := hBooks.add
        (hDerives.stop_lt regular.sound.toLinked regular.legs) (hDerives.mono hOnward.arrivals)
        hOnward.round.symm
      refine ⟨⟨hAdded, hOnward.trans hStep⟩, hCovered.imp ?_ id, fun other hOther =>
        hOther.imp (·.mono hStep.found) hStep.found.ended⟩
      rintro ⟨other, hMem, hNoWorse, hRideOther⟩
      exact ⟨other, hMem, hRideOther, hNoWorse.stop_eq, hNoWorse.round_le, hNoWorse.time_le⟩)
    ⟨books, Onward.refl ..⟩
  refine ⟨arrivals, hArrivals, hBooks, hOnward, fun ride hRide other later hOther hLater => ?_⟩
  obtain ⟨left, hLeft, -⟩ := hLeave ride hRide
  obtain ⟨found, hFound, rfl, -⟩ := Ride.alightTime_eq_ok_iff.mp hLeft
  rw [hStop, Except.ok.injEq] at hOther
  rw [hFound, Except.ok.injEq] at hLater
  subst hOther hLater
  exact hGoals _ (hAll ride hRide _ hLeft)

/-- The rides got on at a position are at least as good as any trip that could be caught there. -/
theorem board (books : Books problem time state) (regular : problem.Regular time)
    (hBegun : 0 < state.round) (hRounds : state.round ≤ Request.maxSupportedTransfers + 1)
    (sound : table.Sound)
    (hStop : table.stopAt position = .ok stop)
    (hRest : ∀ later ∈ rest, problem.direction.Precedes position later) :
    ∃ boarded, state.boardingsAt problem table position stop = .ok boarded ∧
      (∀ ride ∈ boarded, OnBoard problem table state.arrivals state.round rest ride) ∧
      ∀ trip, Catches problem table state position trip → ∃ ride ∈ boarded,
        problem.direction.tripCriterion ride.trip ≤ problem.direction.tripCriterion trip := by
  have hPosition := TripTable.lt_numStops_of_stopAt hStop
  cases hLast : state.reachedLast.contains stop with
  | false =>
      refine ⟨[], by simp [State.boardingsAt, hLast], by simp, ?_⟩
      rintro trip ⟨source, hMem, boardedAt, hRound, -, hOrigin, -⟩
      rw [hStop, Except.ok.injEq] at hOrigin
      rw [hOrigin, books.last source hMem hRound] at hLast
      cases hLast
  | true =>
      obtain ⟨boarded, hBoarded, hIff⟩ := State.exists_boardings problem stop sound.toShaped
        hPosition (state.arrivalsAt stop (state.round - 1))
      refine ⟨boarded, by simp [State.boardingsAt, hLast, hBoarded], ?_, ?_⟩
      · intro ride hRide
        obtain ⟨source, hSource, hBoard⟩ := (hIff ride).mp hRide
        obtain ⟨hId, rfl, hRound⟩ := books.of_mem_arrivalsAt hSource
        exact ⟨position, source.1, source.2, none, hStop, hId, by omega, hBoard, hRest⟩
      · rintro trip ⟨source, hMem, boardedAt, hRound, hFresh, hOrigin, hRuns, hTime, hReady⟩
        rw [hStop, Except.ok.injEq] at hOrigin
        subst hOrigin
        obtain ⟨id, other, hId, hNoWorse, -, -, hAt⟩ := books.exists_kept hMem
        have hOtherMem := Arrivals.mem_toList_of_get? hId
        have hSame := hFresh other hOtherMem hNoWorse
        have hOtherReady : problem.direction.timeCriterion (problem.readyAfter other) ≤
            problem.direction.timeCriterion (problem.readyAfter source) := by
          have hTimes := hNoWorse.time_le
          rw [books.records.readyAfter_eq_along regular.modest regular.time hMem (by omega),
            books.records.readyAfter_eq_along regular.modest regular.time hOtherMem (by omega),
            Direction.timeCriterion_along, Direction.timeCriterion_along, hSame]
          omega
        obtain ⟨result, hResult⟩ := exists_board? problem source.stop id other none
          sound.toShaped hPosition (by simp)
        obtain ⟨ride, rfl, hLe⟩ := board?_least sound hPosition hResult hRuns hTime
          (Int.le_trans hOtherReady hReady) (by simp)
        refine ⟨ride, (hIff ride).mpr ⟨(id, other), ?_, hResult⟩, hLe⟩
        rwa [← hRound, Nat.add_sub_cancel, ← hSame]

/-- Passing positions makes up for leaving every trip the search is on, or could get on, at every
later one of them. The induction is on the positions still to be passed. -/
theorem pass {positions : List Nat} {rides : Front Ride} (books : Books problem time state)
    (regular : problem.Regular time) (hBegun : 0 < state.round)
    (hRounds : state.round ≤ Request.maxSupportedTransfers + 1)
    (hTable : problem.day.network.tripTable pattern = .ok table)
    (hActive : problem.day.activePatterns.contains pattern = true)
    (hOrder : positions.Pairwise problem.direction.Precedes)
    (hInside : ∀ position ∈ positions, position < table.numStops)
    (hRides : AllOnBoard problem table state.arrivals state.round positions rides) :
    ∃ after, State.pass problem table (State.add problem) positions rides state = .ok after ∧
      Books problem time after ∧ Onward problem state after ∧
      (∀ on ∈ rides.items, ∀ trip,
        problem.direction.tripCriterion on.trip ≤ problem.direction.tripCriterion trip →
        ∀ second ∈ positions,
          problem.AlightingCovered after.found state.round table trip second) ∧
      ∀ before first later, positions = before ++ first :: later → ∀ trip,
        Catches problem table state first trip → ∀ second ∈ later,
          problem.AlightingCovered after.found state.round table trip second := by
  induction positions generalizing state rides with
  | nil => exact ⟨state, rfl, books, Onward.refl .., by simp, by simp⟩
  | cons position rest ih =>
      have sound := regular.sound.table hTable
      obtain ⟨hFirst, hOrder⟩ := List.pairwise_cons.mp hOrder
      obtain ⟨stop, hStop⟩ := TripTable.exists_stopAt (hInside position (List.mem_cons_self ..))
      obtain ⟨arrivals, hArrivals, hBooks, hOnward, hHere⟩ :=
        books.leave regular hTable hActive hStop hRides.onBoard
      obtain ⟨boarded, hBoarded, hOnBoard, hCaught⟩ := hBooks.board regular
        (hOnward.round ▸ hBegun) (hOnward.round ▸ hRounds) sound hStop hFirst
      obtain ⟨after, hAfter, hBooksAfter, hOnwardAfter, hRidden, hLater⟩ :=
        ih hBooks (hOnward.round ▸ hBegun) (hOnward.round ▸ hRounds) hOrder
          (fun later hLater => hInside later (List.mem_cons_of_mem _ hLater))
          (hRides.board hOnward hOnBoard)
      rw [hOnward.round] at hRidden hLater
      refine ⟨after, (State.pass_cons state hStop hArrivals hBoarded).trans hAfter, hBooksAfter,
        hOnward.trans hOnwardAfter, ?_, ?_⟩
      · intro on hOn trip hTrip second hSecond
        rcases List.mem_cons.mp hSecond with rfl | hSecond
        · exact ((hHere on hOn).mono hOnwardAfter.found).of_tripCriterion_le sound hTrip
            (hRides.onBoard on hOn).lt_numTrips
        · obtain ⟨better, hBetter, hLe, -⟩ := hRides.ofRides.exists_covering (Or.inl hOn)
          exact hRidden better hBetter trip (by omega) second hSecond
      · intro before first later hSplit trip hCatches second hSecond
        cases before with
        | nil =>
            rw [List.nil_append, List.cons.injEq] at hSplit
            obtain ⟨rfl, rfl⟩ := hSplit
            obtain ⟨ride, hRide, hLeRide⟩ := hCaught trip (hCatches.onward hOnward)
            obtain ⟨better, hBetter, hLe, -⟩ := hRides.ofRides.exists_covering (Or.inr hRide)
            exact hRidden better hBetter trip (by omega) second hSecond
        | cons _ before =>
            rw [List.cons_append, List.cons.injEq] at hSplit
            exact hLater before first later hSplit.2 trip (hCatches.onward hOnward) second hSecond

/-- Scanning a pattern makes up for every ride along it after the records of the last round. -/
theorem scan (books : Books problem time state) (regular : problem.Regular time)
    (hBegun : 0 < state.round) (hRounds : state.round ≤ Request.maxSupportedTransfers + 1)
    (hTable : problem.day.network.tripTable pattern = .ok table)
    (hActive : problem.day.activePatterns.contains pattern = true) :
    ∃ after, State.scan problem (State.add problem) table state = .ok after ∧
      Books problem time after ∧ Onward problem state after ∧
      ∀ first second trip, Catches problem table state first trip →
        problem.direction.Precedes first second → second < table.numStops →
          problem.AlightingCovered after.found state.round table trip second := by
  obtain ⟨after, hAfter, hBooks, hOnward, -, hBoarded⟩ :=
    books.pass regular hBegun hRounds hTable hActive
      (Direction.positions_pairwise problem.direction table.numStops)
      (fun position hPosition => Direction.mem_positions.mp hPosition) .empty
  refine ⟨after, hAfter, hBooks, hOnward, fun first second trip hCatches hOrder hSecond => ?_⟩
  obtain ⟨source, -, boardedAt, -, -, hOrigin, -⟩ := id hCatches
  obtain ⟨before, later, hSplit, hLater⟩ := Direction.positions_eq_append
    (TripTable.lt_numStops_of_stopAt hOrigin) hSecond hOrder
  exact hBoarded before first later hSplit trip hCatches second hLater

/-- The scans of a round keep the books and gain records of the round only. -/
theorem scanAll (books : Books problem time state) (regular : problem.Regular time)
    (hBegun : 0 < state.round) (hRounds : state.round ≤ Request.maxSupportedTransfers + 1)
    {patterns : List Nat}
    (hPatterns : ∀ pattern ∈ patterns, problem.day.activePatterns.contains pattern = true ∧
      pattern < problem.day.network.numPatterns) :
    ∃ after, (strategy problem).scanAll problem.day.network patterns state = .ok after ∧
      Books problem time after ∧ Onward problem state after ∧
      ∀ pattern ∈ patterns, ∀ table, problem.day.network.tripTable pattern = .ok table →
        ∀ first second trip, Catches problem table state first trip →
          problem.direction.Precedes first second → second < table.numStops →
            problem.AlightingCovered after.found state.round table trip second := by
  obtain ⟨after, hAfter, ⟨hBooks, hOnward⟩, hCovered⟩ := regular.exists_scanAll (strategy problem)
    State.found (fun next => Books problem time next ∧ Onward problem state next)
    (fun table => Catches problem table state) state.round hPatterns
    (fun hTable hActive ⟨hBooks, hOnward⟩ => by
      obtain ⟨after, hAfter, hBooksAfter, hOnwardAfter, hCovered⟩ := hBooks.scan regular
        (hOnward.round ▸ hBegun) (hOnward.round ▸ hRounds) hTable hActive
      exact ⟨after, hAfter, ⟨hBooksAfter, hOnward.trans hOnwardAfter⟩, hOnwardAfter.found,
        fun first second trip hCatches => hOnward.round ▸
          hCovered first second trip (hCatches.onward hOnward)⟩)
    ⟨books, Onward.refl problem state⟩
  exact ⟨after, hAfter, hBooks, hOnward, hCovered⟩

end Books

end JourneyPlanner.Search.MultiCriteria
