import JourneyPlanner.Proofs.Search.MultiCriteria.Course

/-! A search for the best compromises on a network whose trips may go back in time. Nothing that the
books say of a state depends on the times of trips, so a run that is completed has kept them. Main
statement: on a linked network every run is completed, and its records come from each other, unless
a trip goes back in time. -/
namespace JourneyPlanner.Search.MultiCriteria

variable {problem : Problem} {time : Int} {state : State} {table : TripTable}

/-- Leaving all rides yields what leaving each of them does. -/
theorem State.alightings_yields {position round stop : Nat} {made : Arrival → Prop}
    {fails : Fault → Prop} {rides : List Ride}
    (hRides : ∀ ride ∈ rides,
      Yields (fun left => made (ride.arrival problem round table.pattern stop left)) fails
        (ride.alightTime problem table position)) :
    Yields (fun arrivals => ∀ arrival ∈ arrivals, made arrival) fails
      (alightings problem table round position stop rides) := by
  induction rides with
  | nil => exact List.forall_mem_nil _
  | cons ride rest ih =>
      obtain ⟨hFirst, hRest⟩ := List.forall_mem_cons.mp hRides
      apply hFirst.bind
      intro left hLeft
      apply (ih hRest).bind
      intro arrivals hArrivals
      exact List.forall_mem_cons.mpr ⟨hLeft, hArrivals⟩

namespace Books

variable (linked : problem.day.network.Linked) (legs : problem.KnownLegs)

include linked legs

section Pattern

variable {pattern position stop : Nat} {rest : List Nat} {rides : Front Ride}
  (hTable : problem.day.network.tripTable pattern = .ok table)
  (hActive : problem.day.activePatterns.contains pattern = true)

include hTable hActive

/-- Leaving all rides offers arrivals that may be recorded, unless a trip goes back in time. -/
theorem alightings_yields (time : Int) (hStop : table.stopAt position = .ok stop)
    (hRides : AllOnBoard problem table state.arrivals state.round (position :: rest) rides) :
    Yields (fun arrivals => ∀ arrival ∈ arrivals, Offered problem time state arrival)
      (problem.day.network.GoesBack problem.direction)
      (State.alightings problem table state.round position stop rides.items) := by
  apply State.alightings_yields
  intro ride hRide
  apply ((hRides.onBoard ride hRide).alightTime_yields hTable hActive (List.mem_cons_self ..) hStop
    time linked).imp
  intro left hDerives
  exact ⟨hDerives.stop_lt linked legs, hDerives, rfl⟩

omit legs hActive in
/-- Getting on after the records of the last round is never given up. -/
theorem exists_boarded (books : Books problem time state) (hBegun : 0 < state.round)
    (hStop : table.stopAt position = .ok stop)
    (hRest : ∀ later ∈ rest, problem.direction.Precedes position later) :
    ∃ boarded, state.boardingsAt problem table position stop = .ok boarded ∧
      ∀ ride ∈ boarded, OnBoard problem table state.arrivals state.round rest ride := by
  obtain ⟨boarded, hBoarded, hIff⟩ := State.exists_boardings problem stop (linked.shaped hTable)
    (TripTable.lt_numStops_of_stopAt hStop) (state.sources stop)
  refine ⟨boarded, by rw [State.boardingsAt_eq, hBoarded], fun ride hRide => ?_⟩
  obtain ⟨source, hSource, hBoard⟩ := (hIff ride).mp hRide
  obtain ⟨hId, rfl, hRound⟩ := books.of_mem_sources hBegun hSource
  exact ⟨position, source.1, source.2, none, hStop, hId, hRound, hBoard, hRest⟩

/-- Passing positions keeps the books, unless a trip goes back in time. The induction is on the
positions still to be passed. -/
theorem pass_yields (books : Books problem time state) (hBegun : 0 < state.round)
    {positions : List Nat} (hOrder : positions.Pairwise problem.direction.Precedes)
    (hInside : ∀ position ∈ positions, position < table.numStops)
    (hRides : AllOnBoard problem table state.arrivals state.round positions rides) :
    Yields (fun after => Books problem time after ∧ Steady problem state after)
      (fun stopped => problem.day.network.GoesBack problem.direction stopped.fault)
      (State.pass problem table (State.add problem) positions rides state) := by
  induction positions generalizing state rides with
  | nil => exact ⟨books, Steady.refl ..⟩
  | cons position rest ih =>
      obtain ⟨hFirst, hOrder⟩ := List.pairwise_cons.mp hOrder
      obtain ⟨stop, hStop⟩ := TripTable.exists_stopAt (hInside position (List.mem_cons_self ..))
      have hLeft := alightings_yields linked legs hTable hActive time hStop hRides
      rw [State.pass, hStop]
      dsimp only
      cases hArrivals : State.alightings problem table state.round position stop rides.items with
      | error fault =>
          rw [hArrivals] at hLeft
          exact hLeft
      | ok arrivals =>
          rw [hArrivals] at hLeft
          obtain ⟨hBooks, hSteady⟩ := books.steady_foldl hLeft
          obtain ⟨boarded, hBoarded, hOnBoard⟩ := hBooks.exists_boarded linked hTable
            (hSteady.round ▸ hBegun) hStop hFirst
          dsimp only
          rw [hBoarded]
          apply (ih hBooks (hSteady.round ▸ hBegun) hOrder
            (fun later hLater => hInside later (List.mem_cons_of_mem _ hLater))
            (hRides.board hSteady.toOnward hOnBoard)).imp
          intro after hAfter
          exact ⟨hAfter.1, hSteady.trans hAfter.2⟩

end Pattern

/-- Scanning patterns keeps the books, unless a trip goes back in time. -/
theorem scanAll_yields (books : Books problem time state) (hBegun : 0 < state.round)
    {patterns : List Nat}
    (hPatterns : ∀ pattern ∈ patterns, problem.day.activePatterns.contains pattern = true ∧
      pattern < problem.day.network.numPatterns) :
    Yields (fun after => Books problem time after ∧ Steady problem state after)
      (fun stopped => problem.day.network.GoesBack problem.direction stopped.fault)
      ((strategy problem).scanAll problem.day.network patterns state) := by
  apply (strategy problem).scanAll_yields
  · intro pattern hPattern
    obtain ⟨hActive, hKnown⟩ := hPatterns pattern hPattern
    obtain ⟨table, hTable⟩ := linked.exists_table hKnown
    refine ⟨table, hTable, (linked.shaped hTable).numStops_pos, fun next hNext => ?_⟩
    apply (hNext.1.pass_yields linked legs hTable hActive (hNext.2.round ▸ hBegun)
      (Direction.positions_pairwise problem.direction table.numStops)
      (fun position hPosition => Direction.mem_positions.mp hPosition) .empty).imp
    intro after hAfter
    exact ⟨hAfter.1, hNext.2.trans hAfter.2⟩
  · exact ⟨books, Steady.refl ..⟩

/-- A round keeps the books, unless a trip goes back in time. -/
theorem scanRound_yields (books : Books problem time state) :
    Yields
      (fun scanned => Books problem time
          ((strategy problem).finish ((strategy problem).walk scanned)) ∧
        ((strategy problem).finish ((strategy problem).walk scanned)).round = state.round + 1)
      (fun stopped => problem.day.network.GoesBack problem.direction stopped.fault)
      ((strategy problem).scanRound problem.day (state.round + 1) state) := by
  apply (books.beginRound.scanAll_yields linked legs (Nat.succ_pos _)
    ((strategy problem).patterns_known problem.day (state.beginRound (state.round + 1)))).imp
  rintro scanned ⟨hScanned, hScanning⟩
  have hRound : scanned.round = state.round + 1 := hScanning.round
  obtain ⟨hWalked, hWalking⟩ := hScanned.steady_foldl fun arrival hMem =>
    hScanned.offered_of_mem_walkOffers linked legs (hRound ▸ Nat.succ_pos _) hMem
  obtain ⟨hNext, hNextRound, -⟩ := hWalked.ended
  rw [finish_strategy, walk_strategy, State.walk_eq]
  exact ⟨hNext, hNextRound.trans (hWalking.round.trans hRound)⟩

end Books

/-- On a linked network every run from and to known stops is completed, unless a trip goes back in
time. -/
theorem run_yields (planner : Planner) (linked : planner.problem.day.network.Linked)
    (legs : planner.problem.KnownLegs) (time : Int) (watch : Stopwatch) :
    Yields
      (fun run => run.direction = planner.problem.direction ∧
        run.found.Complete planner.problem time planner.maxRounds)
      (fun broken =>
        planner.problem.day.network.GoesBack planner.problem.direction broken.fault)
      (planner.runWith (strategy planner.problem) time watch) := by
  obtain ⟨hStart, hSteady⟩ := Books.start_of_known time linked legs
  apply (planner.runWith_yields (strategy planner.problem) time watch
    (fun count state => Books planner.problem time state ∧ state.round = count)
    (fun fault => planner.problem.day.network.GoesBack planner.problem.direction fault)
    ⟨hStart, hSteady.round⟩ ?_).imp
  · rintro run ⟨hDirection, state, count, hFound, ⟨books, rfl⟩, hLe, -⟩
    rw [show run.found = state.found from hFound]
    exact ⟨hDirection, books.records, fun arrival hMem =>
      (books.round_le arrival hMem).trans hLe, books.finishes⟩
  · rintro _ state - ⟨books, rfl⟩
    exact books.scanRound_yields linked legs

end JourneyPlanner.Search.MultiCriteria
