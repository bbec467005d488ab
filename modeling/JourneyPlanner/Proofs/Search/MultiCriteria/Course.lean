import JourneyPlanner.Proofs.Search.MultiCriteria.Offers
import JourneyPlanner.Proofs.Search.MultiCriteria.Round

/-! The rounds of a search for the best compromises as lists of offers, one after the other. Main
statement: on a sound network every run is completed, whatever the size of the numbers, and what
every such round keeps holds at its end. -/
namespace JourneyPlanner.Search.MultiCriteria

variable {problem : Problem} {time : Int} {state : State}

/-- The course of a round: the arrivals that riding offers are recorded, then those that walking on
offers. -/
structure Course (problem : Problem) (time : Int) (state : State) (rides : List Arrival)
    (scanned walked : State) : Prop where
  begun : Books problem time (state.beginRound (state.round + 1))
  rideOffers : rideOffers problem (state.round + 1)
    (state.beginRound (state.round + 1)).sources
    ((strategy problem).patterns problem.day (state.beginRound (state.round + 1))) = .ok rides
  offered : ∀ arrival ∈ rides, Offered problem time (state.beginRound (state.round + 1)) arrival
  scanned_eq : scanned = rides.foldl (State.add problem) (state.beginRound (state.round + 1))
  scan : Books problem time scanned
  scanning : Steady problem (state.beginRound (state.round + 1)) scanned
  walks : ∀ arrival ∈ walkOffers problem scanned, Offered problem time scanned arrival
  walked_eq : walked = (walkOffers problem scanned).foldl (State.add problem) scanned
  walk : Books problem time walked
  walking : Steady problem scanned walked

namespace Course

variable {rides : List Arrival} {scanned walked : State}

theorem round_scanned (course : Course problem time state rides scanned walked) :
    scanned.round = state.round + 1 := course.scanning.round

theorem round_walked (course : Course problem time state rides scanned walked) :
    walked.round = state.round + 1 := course.walking.round.trans course.round_scanned

/-- A round only gains records of its own. -/
theorem steady (course : Course problem time state rides scanned walked) :
    Steady problem (state.beginRound (state.round + 1)) walked :=
  course.scanning.trans course.walking

theorem round (course : Course problem time state rides scanned walked)
    (sound : problem.day.network.Sound) :
    (strategy problem).Round problem.day (state.round + 1) state (walked.finish problem) := by
  refine ⟨scanned, ?_, ?_⟩
  · rw [course.scanned_eq]
    exact course.begun.scanAll_eq sound (Nat.succ_pos _) course.rideOffers course.offered
  · rw [finish_strategy, walk_strategy, State.walk_eq, ← course.walked_eq]

end Course

/-- On a sound network every round takes its course. -/
theorem Books.exists_course (books : Books problem time state) (sound : problem.day.network.Sound)
    (legs : problem.KnownLegs) :
    ∃ rides scanned walked, Course problem time state rides scanned walked := by
  have hBegun := books.beginRound
  obtain ⟨rides, hRides, hOffered⟩ := hBegun.exists_rideOffers sound legs (Nat.succ_pos _)
    ((strategy problem).patterns_known problem.day (state.beginRound (state.round + 1)))
  obtain ⟨hScanned, hScanning⟩ := hBegun.steady_foldl hOffered
  have hPos : 0 < (rides.foldl (State.add problem) (state.beginRound (state.round + 1))).round := by
    rw [hScanning.round]
    exact Nat.succ_pos _
  have hWalks := fun arrival (hMem : arrival ∈ walkOffers problem _) =>
    hScanned.offered_of_mem_walkOffers sound.toLinked legs hPos hMem
  obtain ⟨hWalked, hWalking⟩ := hScanned.steady_foldl hWalks
  exact ⟨rides, _, _, hBegun, hRides, hOffered, rfl, hScanned, hScanning, hWalks, rfl, hWalked,
    hWalking⟩

/-- At the start the stops of all legs are offered. -/
theorem offered_start (time : Int) (linked : problem.day.network.Linked)
    (legs : problem.KnownLegs) :
    ∀ arrival ∈ problem.startLegs.map (problem.accessArrival time),
      Offered problem time (State.initial problem) arrival := by
  intro arrival hMem
  obtain ⟨leg, hLeg, rfl⟩ := List.mem_map.mp hMem
  have hDerives : problem.Derives time (State.initial problem).arrivals
      (problem.accessArrival time leg) := .access hLeg
  exact ⟨hDerives.stop_lt linked legs, hDerives, rfl⟩

theorem Books.start_of_known (time : Int) (linked : problem.day.network.Linked)
    (legs : problem.KnownLegs) :
    Books problem time ((strategy problem).start time) ∧
      Steady problem (State.initial problem) ((strategy problem).start time) :=
  (Books.initial problem time).steady_foldl (offered_start time linked legs)

/-- On a sound network every run is completed. What holds at the start and every round keeps, given
its course, holds at the end. -/
theorem exists_run_of_course {planner : Planner} (time : Int) (watch : Stopwatch)
    (sound : planner.problem.day.network.Sound) (legs : planner.problem.KnownLegs)
    (Holds : State → Prop)
    (hStart : Holds ((strategy planner.problem).start time))
    (hRound : ∀ state rides scanned walked, state.round < planner.maxRounds →
      Books planner.problem time state → Course planner.problem time state rides scanned walked →
      Holds state → Holds (walked.finish planner.problem)) :
    ∃ run state, planner.runWith (strategy planner.problem) time watch = .ok run ∧
      run.direction = planner.problem.direction ∧ run.found = state.found ∧
      Books planner.problem time state ∧ state.round ≤ planner.maxRounds ∧ Holds state ∧
      (watch.isPast planner.timeLimit state.round = true ∨ state.round = planner.maxRounds ∨
        (strategy planner.problem).hasProgressed state = false ∨
        (strategy planner.problem).isSettled state = true) := by
  obtain ⟨hBooks, hSteady⟩ := Books.start_of_known time sound.toLinked legs
  obtain ⟨run, state, _, hRun, hDirection, hFound, ⟨books, rfl, hHolds⟩, hLe, hEnds⟩ :=
    planner.exists_runWith (strategy planner.problem) time watch
      (fun count state => Books planner.problem time state ∧ state.round = count ∧ Holds state)
      ⟨hBooks, hSteady.round, hStart⟩
      (by
        rintro _ state hLt ⟨books, rfl, hHolds⟩
        obtain ⟨rides, scanned, walked, course⟩ := books.exists_course sound legs
        obtain ⟨hNext, hNextRound, -⟩ := course.walk.ended
        exact ⟨_, course.round sound, hNext, hNextRound.trans course.round_walked,
          hRound state rides scanned walked hLt books course hHolds⟩)
  exact ⟨run, state, hRun, hDirection, hFound, books, hLe, hHolds, hEnds⟩

end JourneyPlanner.Search.MultiCriteria
