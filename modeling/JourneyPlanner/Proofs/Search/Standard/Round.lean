import JourneyPlanner.Proofs.Search.Exact
import JourneyPlanner.Proofs.Search.Standard.Phases

/-! One whole round of a search for the best time, and all of them. Main statements: a round is
never given up and misses nothing that the rounds before it did not miss; so a completed run
has missed nothing, also when it ended early. -/
namespace JourneyPlanner.Search.Standard

variable {problem : Problem} {time : Int}

theorem walk_strategy (problem : Problem) : (strategy problem).walk = State.walk problem := rfl

theorem finish_strategy (problem : Problem) : (strategy problem).finish = State.finish problem := rfl

structure Passed (problem : Problem) (time : Int) (state scanned : State) : Prop where
  begun : Books problem time (state.beginRound (state.round + 1))
  scan : Books problem time scanned
  scanning : Onward problem (state.beginRound (state.round + 1)) scanned
  walked : Books problem time (scanned.walk problem)
  walking : Onward problem scanned (scanned.walk problem)
  byTransit : (scanned.walk problem).byTransitId? = scanned.byTransitId?
  rides : ∀ pattern ∈ (strategy problem).patterns problem.day (state.beginRound (state.round + 1)),
    ∀ table, problem.day.network.tripTable pattern = .ok table →
      ∀ first second trip,
        Catches problem table (state.beginRound (state.round + 1)) first trip →
        problem.direction.Precedes first second → second < table.numStops →
          problem.AlightingCovered scanned.found (state.round + 1) table trip second
  walks : ∀ source ∈ scanned.walkSources,
    problem.WalksCovered (scanned.walk problem).found source.2

/-- On a regular problem the scans of a round are never given up. -/
theorem Books.exists_passed {state : State} (books : Books problem time state)
    (regular : problem.Regular time)
    (hRounds : state.round + 1 ≤ Request.maxSupportedTransfers + 1) :
    ∃ scanned, (strategy problem).scanAll problem.day.network
        ((strategy problem).patterns problem.day (state.beginRound (state.round + 1)))
        (state.beginRound (state.round + 1)) = .ok scanned ∧ Passed problem time state scanned := by
  obtain ⟨scanned, hScanned, hBooks, hOnward, hRides⟩ := books.beginRound.scanAll regular hRounds
    ((strategy problem).patterns_known problem.day (state.beginRound (state.round + 1)))
  have hRound : scanned.round = state.round + 1 := hOnward.round
  obtain ⟨hWalked, hWalking, hSame, hWalks⟩ := hBooks.walk regular (hRound ▸ hRounds)
  exact ⟨scanned, hScanned, books.beginRound, hBooks, hOnward, hWalked, hWalking, hSame,
    hRides, hWalks⟩

namespace Passed

variable {state scanned : State} {arrival : Arrival}

theorem onward (passed : Passed problem time state scanned) :
    Onward problem (state.beginRound (state.round + 1)) (scanned.walk problem) :=
  passed.scanning.trans passed.walking

/-- A record of an earlier round was there when the round began. -/
theorem mem_of_round_le (passed : Passed problem time state scanned)
    (hMem : arrival ∈ (scanned.walk problem).arrivals.toList) (hRound : arrival.round ≤ state.round) :
    arrival ∈ state.arrivals.toList := by
  rcases passed.onward.new arrival hMem with hBefore | hNew
  · exact hBefore
  · have hNew : arrival.round = state.round + 1 := hNew
    omega

/-- Rides go on from every record of the last round, or from one that takes its place. -/
theorem rides_covered (passed : Passed problem time state scanned)
    (regular : problem.Regular time) (hSlack : 0 ≤ problem.boardSlack)
    (hRounds : state.round ≤ Request.maxSupportedTransfers + 1)
    (hMem : arrival ∈ (scanned.walk problem).arrivals.toList) (hRound : arrival.round = state.round) :
    problem.RidesCovered (scanned.walk problem).found arrival ∨
      ∃ other ∈ state.arrivals.toList, problem.NoWorse other arrival ∧ other.round < state.round := by
  have hNext : (scanned.walk problem).round = state.round + 1 := passed.onward.round
  rcases passed.walked.last_serves arrival hMem (by omega) with
    ⟨id, other, hHolder, hId, hNoWorse⟩ | ⟨other, hOther, hNoWorse, hBefore⟩
  · refine Or.inl (Problem.RidesCovered.of_noWorse hSlack hNoWorse (.of_alightings ?_))
    intro pattern trip first second table boardedAt hTable hActive hOrigin hRuns hTime hReady hOrder
      hSecond
    rw [← hNoWorse.stop_eq, passed.onward.lastId?] at hHolder
    obtain ⟨found, hFound, -, hFoundRound⟩ := passed.begun.held_last hHolder
    have hSame := passed.onward.arrivals _ _ hFound
    rw [hId, Option.some.injEq] at hSame
    subst hSame
    have hLast : other.round = state.round := Nat.succ_injective hFoundRound
    have hPattern : pattern ∈ (strategy problem).patterns problem.day
        (state.beginRound (state.round + 1)) :=
      DayTimetable.mem_patternsTouching regular.sound.toLinked hTable hOrigin
        (IndexSet.mem_toList.mpr ((passed.begun.last.contains_iff _).mpr ⟨id, hHolder⟩)) hActive
    rw [← Direction.timeCriterion_along, ← passed.begun.records.readyAfter_eq_along regular.modest
      regular.time (Arrivals.mem_toList_of_get? hFound) (hLast ▸ hRounds)] at hReady
    rw [hLast]
    exact (passed.rides pattern hPattern table hTable first second trip
      ⟨id, other, boardedAt, hHolder, hFound, hOrigin, hRuns, hTime, hReady⟩ hOrder hSecond).mono
        passed.walking.found
  · exact Or.inr ⟨other, passed.mem_of_round_le hOther (by omega), hNoWorse, hRound ▸ hBefore⟩

/-- By transit, the best record of a stop is one of this round to go on from, or an earlier one. -/
theorem byTransit_serves (passed : Passed problem time state scanned)
    (hMem : arrival ∈ (scanned.walk problem).arrivals.toList) (hRide : arrival.isTransit = true)
    (hRound : arrival.round = state.round + 1) :
    ∃ other ∈ (scanned.walk problem).arrivals.toList, other.isTransit = true ∧
      problem.NoWorse other arrival ∧
      (other.round ≤ state.round ∨ ∃ id, (scanned.walk problem).byTransitId? other.stop = some id ∧
        (scanned.walk problem).arrivals.get? id = some other) := by
  have hNext : (scanned.walk problem).round = state.round + 1 := passed.onward.round
  obtain ⟨other, hOther, hRideOther, hStop, hTime, hHeld⟩ := passed.walked.byTransit.exists_of_le
    (passed.walked.byTransit.time_le arrival hMem hRide) (passed.walked.lt_unreached arrival hMem)
  rcases hHeld with hBefore | ⟨hSame, id, hHolder, hId⟩
  · exact ⟨other, hOther, hRideOther, ⟨hStop, by omega, hTime⟩, Or.inl (by omega)⟩
  · exact ⟨other, hOther, hRideOther, ⟨hStop, by omega, hTime⟩,
      Or.inr ⟨id, hStop.symm ▸ hHolder, hId⟩⟩

/-- Walks go on from every record they are due from, or from one that takes its place. -/
theorem walks_covered (passed : Passed problem time state scanned)
    (hMem : arrival ∈ (scanned.walk problem).arrivals.toList)
    (hRound : arrival.roundOnFoot = state.round + 1) :
    problem.WalksCovered (scanned.walk problem).found arrival ∨
      ∃ other ∈ state.arrivals.toList, problem.NoWorse other arrival ∧
        other.roundOnFoot ≤ state.round := by
  have hNext : (scanned.walk problem).round = state.round + 1 := passed.onward.round
  by_cases hRide : arrival.isTransit = true
  · rw [Arrival.roundOnFoot, if_pos hRide] at hRound
    obtain ⟨other, hOther, hRideOther, hNoWorse, hBefore | ⟨id, hHolder, hId⟩⟩ :=
      passed.byTransit_serves hMem hRide hRound
    · refine Or.inr ⟨other, passed.mem_of_round_le hOther hBefore, hNoWorse, ?_⟩
      rwa [Arrival.roundOnFoot, if_pos hRideOther]
    · refine Or.inl (Problem.WalksCovered.of_noWorse hNoWorse ?_ ?_)
      · rw [Arrival.roundOnFoot, if_pos hRideOther, Arrival.roundOnFoot, if_pos hRide]
        exact hNoWorse.round_le
      · rw [passed.byTransit] at hHolder
        obtain ⟨found, hFound, -⟩ := passed.scan.byTransit.held hHolder
        have hSame := passed.walking.arrivals _ _ hFound
        rw [hId, Option.some.injEq] at hSame
        subst hSame
        exact passed.walks _ (State.mem_walkSources_of_byTransit hHolder hFound)
  · rw [Arrival.roundOnFoot, if_neg hRide] at hRound
    rcases passed.walked.last_serves arrival hMem (by omega) with
      ⟨id, other, hHolder, hId, hNoWorse⟩ | ⟨other, hOther, hNoWorse, hBefore⟩
    · by_cases hRideOther : other.isTransit = true
      · have hLe := hNoWorse.round_le
        refine Or.inr ⟨other, passed.mem_of_round_le (Arrivals.mem_toList_of_get? hId) (by omega),
          hNoWorse, ?_⟩
        rw [Arrival.roundOnFoot, if_pos hRideOther]
        omega
      · refine Or.inl (Problem.WalksCovered.of_noWorse hNoWorse ?_ ?_)
        · rw [Arrival.roundOnFoot, if_neg hRideOther, Arrival.roundOnFoot, if_neg hRide]
          exact Nat.succ_le_succ hNoWorse.round_le
        · rw [← hNoWorse.stop_eq, passed.walking.lastId?] at hHolder
          obtain ⟨found, hFound, -⟩ := passed.scan.held_last hHolder
          have hSame := passed.walking.arrivals _ _ hFound
          rw [hId, Option.some.injEq] at hSame
          subst hSame
          exact passed.walks _ (State.mem_walkSources_of_last hHolder hFound
            (Bool.eq_false_iff.mpr hRideOther))
    · have hFoot := other.roundOnFoot_le
      exact Or.inr ⟨other, passed.mem_of_round_le hOther (by omega), hNoWorse, by omega⟩

end Passed

/-- A round keeps the books, and misses nothing if nothing was missed before it. -/
theorem Books.exists_round {state : State} (books : Books problem time state)
    (regular : problem.Regular time)
    (hRounds : state.round + 1 ≤ Request.maxSupportedTransfers + 1) :
    ∃ next, (strategy problem).Round problem.day (state.round + 1) state next ∧
      Books problem time next ∧ next.round = state.round + 1 ∧
      (0 ≤ problem.boardSlack → problem.Closed time state.round state.found →
        problem.Closed time (state.round + 1) next.found) := by
  obtain ⟨scanned, hScanned, passed⟩ := books.exists_passed regular hRounds
  have hNext : (scanned.walk problem).round = state.round + 1 := passed.onward.round
  obtain ⟨hBooks, hRound, hArrivals, hExtends, hEnds⟩ := passed.walked.finish regular
    (hNext ▸ hRounds) fun destination hMem => by
      rw [hNext]
      exact Nat.lt_succ_of_le (books.destinations_round destination (passed.onward.destinations ▸ hMem))
  have hMemOf : ∀ {arrival}, arrival ∈ ((scanned.walk problem).finish problem).found.arrivals.toList →
      arrival ∈ (scanned.walk problem).arrivals.toList := by
    intro arrival hMem
    rwa [State.found, hArrivals] at hMem
  refine ⟨(scanned.walk problem).finish problem,
    ⟨scanned, hScanned, by rw [finish_strategy, walk_strategy]⟩, hBooks,
    hRound.trans hNext, fun hSlack closed => ?_⟩
  refine closed.step hSlack (hExtends.trans passed.onward.found) ?_ ?_ ?_ ?_
  · intro arrival hMem
    exact passed.onward.new arrival (hMemOf hMem)
  · intro arrival hMem hLast
    exact (passed.rides_covered regular hSlack (by omega) (hMemOf hMem) hLast).imp
      (·.mono hExtends) id
  · intro arrival hMem hFoot
    exact (passed.walks_covered (hMemOf hMem) hFoot).imp (·.mono hExtends) id
  · intro arrival hMem hRide hThis
    obtain ⟨other, hOther, hRideOther, hNoWorse, hBefore | ⟨id, hHolder, hId⟩⟩ :=
      passed.byTransit_serves (hMemOf hMem) hRide hThis
    · exact Or.inr ⟨other, passed.mem_of_round_le hOther hBefore, hRideOther, hNoWorse, hBefore⟩
    · exact Or.inl (Problem.EndsCovered.of_noWorse hNoWorse (hEnds id other hHolder hId))

/-- A round without progress leaves nothing to go on from. -/
theorem Books.closed_of_fixedPoint {state : State} (books : Books problem time state)
    (regular : problem.Regular time) (hSlack : 0 ≤ problem.boardSlack)
    (closed : problem.Closed time state.round state.found)
    (hStill : (strategy problem).hasProgressed state = false) (rounds : Nat) :
    problem.Closed time rounds state.found := by
  refine closed.of_spent regular.sound hSlack books.round_le (fun arrival hMem hRound => ?_) rounds
  obtain ⟨other, hOther, -, hStop, hTime, hBefore | ⟨-, id, hHolder, -⟩⟩ :=
    books.best.exists_of_le (books.best.time_le arrival hMem rfl) (books.lt_unreached arrival hMem)
  · exact Or.inr ⟨other, hOther, ⟨hStop, by omega, hTime⟩, hBefore⟩
  · have hMarked := (books.best.marked.contains_iff _).mpr ⟨id, hHolder⟩
    simp only [strategy, Bool.not_eq_false'] at hStill
    rw [IndexSet.isEmpty_iff.mp hStill] at hMarked
    cases hMarked

/-- On a regular problem every run is completed, and it has missed nothing if the slack is not
negative and there is no time limit. -/
theorem exists_run {planner : Planner} (regular : planner.problem.Regular time)
    (hRounds : planner.maxRounds ≤ Request.maxSupportedTransfers + 1) (watch : Stopwatch) :
    ∃ run, planner.runWith (strategy planner.problem) time watch = .ok run ∧
      run.direction = planner.problem.direction ∧
      run.found.Complete planner.problem time planner.maxRounds ∧
      (planner.timeLimit = none → 0 ≤ planner.problem.boardSlack →
        planner.problem.Closed time planner.maxRounds run.found) ∧
      run.found.destinations.Pairwise fun earlier later => earlier.round < later.round ∧
        planner.problem.direction.isBetter later.time earlier.time = true := by
  obtain ⟨run, state, _, hRun, hDirection, hFound, ⟨books, rfl, hClosed⟩, hLe, hEnds⟩ :=
    planner.exists_runWith (strategy planner.problem) time watch
      (fun count state => Books planner.problem time state ∧ state.round = count ∧
        (0 ≤ planner.problem.boardSlack → planner.problem.Closed time count state.found))
      (by
        obtain ⟨books, hRound, closed⟩ := Books.start regular
        exact ⟨books, hRound, fun _ => closed⟩)
      (by
        rintro _ state hLt ⟨books, rfl, hClosed⟩
        obtain ⟨next, hStep, hBooks, hRound, hNext⟩ := books.exists_round regular (by omega)
        exact ⟨next, hStep, hBooks, hRound, fun hSlack => hNext hSlack (hClosed hSlack)⟩)
  refine ⟨run, hRun, hDirection, ?_⟩
  rw [show run.found = state.found from hFound]
  refine ⟨⟨books.records, fun arrival hMem => (books.round_le arrival hMem).trans hLe,
    books.finishes⟩, fun hLimit hSlack => ?_, books.improving⟩
  rcases hEnds with hLate | hAll | hStill | hSettled
  · rw [hLimit] at hLate
    cases hLate
  · exact hAll ▸ hClosed hSlack
  · exact books.closed_of_fixedPoint regular hSlack (hClosed hSlack) hStill _
  · cases hSettled

end JourneyPlanner.Search.Standard
