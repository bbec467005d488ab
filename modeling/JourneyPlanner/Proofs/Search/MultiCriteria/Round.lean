import JourneyPlanner.Proofs.Search.Exact
import JourneyPlanner.Proofs.Search.MultiCriteria.Phases

/-! One whole round of a search for the best compromises, and all of them. Main statements: a round
is never given up and misses nothing that the rounds before it did not miss; and when a search
stops because ways to the destination cover its last round, it has missed nothing either. -/
namespace JourneyPlanner.Search.MultiCriteria

variable {problem : Problem} {time : Int}

theorem walk_strategy (problem : Problem) :
    (strategy problem).walk = State.walk problem (State.add problem) := rfl

theorem finish_strategy (problem : Problem) : (strategy problem).finish = State.finish problem := rfl

structure Passed (problem : Problem) (time : Int) (state scanned walked : State) : Prop where
  begun : Books problem time (state.beginRound (state.round + 1))
  scan : Books problem time scanned
  scanning : Onward problem (state.beginRound (state.round + 1)) scanned
  walk : Books problem time walked
  walking : Onward problem scanned walked
  noRides : ∀ other ∈ walked.arrivals.toList, other.isTransit = true →
    other ∈ scanned.arrivals.toList
  rides : ∀ pattern ∈ (strategy problem).patterns problem.day (state.beginRound (state.round + 1)),
    ∀ table, problem.day.network.tripTable pattern = .ok table →
      ∀ first second trip,
        Catches problem table (state.beginRound (state.round + 1)) first trip →
        problem.direction.Precedes first second → second < table.numStops →
          problem.AlightingCovered scanned.found (state.round + 1) table trip second
  walks : ∀ source ∈ scanned.walkSources, problem.WalksCovered walked.found source.2

/-- On a regular problem the scans of a round are never given up. -/
theorem Books.exists_passed {state : State} (books : Books problem time state)
    (regular : problem.Regular time)
    (hRounds : state.round + 1 ≤ Request.maxSupportedTransfers + 1) :
    ∃ scanned, (strategy problem).scanAll problem.day.network
        ((strategy problem).patterns problem.day (state.beginRound (state.round + 1)))
        (state.beginRound (state.round + 1)) = .ok scanned ∧
      Passed problem time state scanned (scanned.walk problem (State.add problem)) := by
  obtain ⟨scanned, hScanned, hBooks, hOnward, hRides⟩ := books.beginRound.scanAll regular
    (Nat.succ_pos _) hRounds
    ((strategy problem).patterns_known problem.day (state.beginRound (state.round + 1)))
  have hRound : scanned.round = state.round + 1 := hOnward.round
  obtain ⟨hWalked, hWalking, hNoRides, hWalks⟩ := hBooks.walk regular
    (hRound ▸ Nat.succ_pos _) (hRound ▸ hRounds) rfl
  exact ⟨scanned, hScanned, books.beginRound, hBooks, hOnward, hWalked, hWalking, hNoRides,
    hRides, hWalks⟩

namespace Passed

variable {state scanned walked : State} {arrival : Arrival}

theorem onward (passed : Passed problem time state scanned walked) :
    Onward problem (state.beginRound (state.round + 1)) walked :=
  passed.scanning.trans passed.walking

/-- A record of an earlier round was there when the round began. -/
theorem mem_of_round_le (passed : Passed problem time state scanned walked)
    (hMem : arrival ∈ walked.arrivals.toList) (hRound : arrival.round ≤ state.round) :
    arrival ∈ state.arrivals.toList := by
  rcases passed.onward.new arrival hMem with hBefore | hNew
  · exact hBefore
  · have hNew : arrival.round = state.round + 1 := hNew
    omega

/-- Rides go on from every record of the last round, unless an earlier one takes its place. -/
theorem rides_covered (passed : Passed problem time state scanned walked)
    (regular : problem.Regular time) (hRounds : state.round ≤ Request.maxSupportedTransfers + 1)
    (hMem : arrival ∈ walked.arrivals.toList) (hRound : arrival.round = state.round) :
    problem.RidesCovered walked.found arrival ∨
      ∃ other ∈ state.arrivals.toList, problem.NoWorse other arrival ∧ other.round < state.round := by
  have hOld := passed.mem_of_round_le hMem (Nat.le_of_eq hRound)
  by_cases hEarlier : ∃ other ∈ state.arrivals.toList,
      problem.NoWorse other arrival ∧ other.round < state.round
  · exact Or.inr hEarlier
  refine Or.inl (.of_alightings ?_)
  intro pattern trip first second table boardedAt hTable hActive hOrigin hRuns hTime hReady hOrder
    hSecond
  have hFresh : ∀ other ∈ state.arrivals.toList, problem.NoWorse other arrival →
      other.round = arrival.round := by
    intro other hOther hNoWorse
    refine Nat.le_antisymm hNoWorse.round_le (Nat.le_of_not_lt fun hLt => ?_)
    exact hEarlier ⟨other, hOther, hNoWorse, hRound ▸ hLt⟩
  have hBegun := passed.begun.last arrival hOld (congrArg (· + 1) hRound)
  have hPattern : pattern ∈ (strategy problem).patterns problem.day
      (state.beginRound (state.round + 1)) :=
    DayTimetable.mem_patternsTouching regular.sound.toLinked hTable hOrigin
      (IndexSet.mem_toList.mpr hBegun) hActive
  rw [← Direction.timeCriterion_along, ← passed.begun.records.readyAfter_eq_along regular.modest
    regular.time hOld (hRound ▸ hRounds)] at hReady
  rw [hRound]
  exact (passed.rides pattern hPattern table hTable first second trip ⟨arrival, hOld, boardedAt,
    congrArg (· + 1) hRound, hFresh, hOrigin, hRuns, hTime, hReady⟩ hOrder hSecond).mono
      passed.walking.found

/-- Walks go on from every record they are due from, or from one that takes its place. -/
theorem walks_covered (passed : Passed problem time state scanned walked)
    (hMem : arrival ∈ walked.arrivals.toList) (hRound : arrival.roundOnFoot = state.round + 1) :
    problem.WalksCovered walked.found arrival ∨
      ∃ other ∈ state.arrivals.toList, problem.NoWorse other arrival ∧
        other.roundOnFoot ≤ state.round := by
  have hScanned : arrival ∈ scanned.arrivals.toList := by
    by_cases hRide : arrival.isTransit = true
    · exact passed.noRides arrival hMem hRide
    · rw [Arrival.roundOnFoot, if_neg hRide] at hRound
      exact passed.scanning.arrivals.mem_toList (passed.mem_of_round_le hMem (by omega))
  obtain ⟨id, other, hId, hNoWorse, hSame, -, hAt⟩ := passed.scan.exists_kept hScanned
  have hFoot : other.roundOnFoot ≤ arrival.roundOnFoot := by
    have := hNoWorse.round_le
    simp only [Arrival.roundOnFoot, hSame]
    split <;> omega
  rcases Nat.lt_or_eq_of_le hFoot with hEarlier | hThis
  · have hOther := passed.walking.arrivals.mem_toList (Arrivals.mem_toList_of_get? hId)
    have := other.round_le_roundOnFoot
    exact Or.inr ⟨other, passed.mem_of_round_le hOther (by omega), hNoWorse, by omega⟩
  · refine Or.inl (Problem.WalksCovered.of_noWorse hNoWorse hFoot ?_)
    have hScanRound : scanned.round = state.round + 1 := passed.scanning.round
    exact passed.walks _ (passed.scan.mem_walkSources hId (hNoWorse.stop_eq ▸ hAt) (by omega))

end Passed

/-- A round keeps the books, and misses nothing if nothing was missed before it. -/
theorem Books.exists_round {state : State} (books : Books problem time state)
    (regular : problem.Regular time)
    (hRounds : state.round + 1 ≤ Request.maxSupportedTransfers + 1) :
    ∃ next, (strategy problem).Round problem.day (state.round + 1) state next ∧
      Books problem time next ∧ next.round = state.round + 1 ∧
      (0 ≤ problem.boardSlack → problem.Closed time state.round state.found →
        problem.Closed time (state.round + 1) next.found) := by
  obtain ⟨scanned, hScanned, passed⟩ := books.exists_passed regular hRounds
  generalize hWalked : scanned.walk problem (State.add problem) = walked at passed
  have hNext : walked.round = state.round + 1 := passed.onward.round
  obtain ⟨hBooks, hRound, hArrivals, hExtends, hEnds⟩ :=
    passed.walk.finish regular (hNext ▸ hRounds) rfl
  have hMemOf : ∀ {arrival}, arrival ∈ (walked.finish problem).found.arrivals.toList →
      arrival ∈ walked.arrivals.toList := by
    intro arrival hMem
    rwa [State.found, hArrivals] at hMem
  refine ⟨walked.finish problem,
    ⟨scanned, hScanned, by rw [finish_strategy, walk_strategy, hWalked]⟩, hBooks,
    hRound.trans hNext, fun hSlack closed => ?_⟩
  refine closed.step hSlack (hExtends.trans passed.onward.found) ?_ ?_ ?_ ?_
  · intro arrival hMem
    exact passed.onward.new arrival (hMemOf hMem)
  · intro arrival hMem hLast
    exact (passed.rides_covered regular (by omega) (hMemOf hMem) hLast).imp (·.mono hExtends) id
  · intro arrival hMem hFoot
    exact (passed.walks_covered (hMemOf hMem) hFoot).imp (·.mono hExtends) id
  · intro arrival hMem hRide hThis
    obtain ⟨id, other, hId, hNoWorse, hSame, -, hAt⟩ := passed.walk.exists_kept (hMemOf hMem)
    have hOther := Arrivals.mem_toList_of_get? hId
    have hLe := hNoWorse.round_le
    rcases Nat.lt_or_eq_of_le hLe with hEarlier | hSameRound
    · exact Or.inr ⟨other, passed.mem_of_round_le hOther (by omega), hSame.trans hRide, hNoWorse,
        by omega⟩
    · refine Or.inl (Problem.EndsCovered.of_noWorse hNoWorse (hEnds id other ?_ (hSame.trans hRide)))
      rw [hNoWorse.stop_eq, hNext, ← hThis, ← hSameRound]
      exact hAt

/-- A round without progress leaves nothing to go on from. -/
theorem Books.closed_of_fixedPoint {state : State} (books : Books problem time state)
    (regular : problem.Regular time) (hSlack : 0 ≤ problem.boardSlack)
    (closed : problem.Closed time state.round state.found)
    (hStill : (strategy problem).hasProgressed state = false) (rounds : Nat) :
    problem.Closed time rounds state.found := by
  refine closed.of_spent regular.sound hSlack books.round_le (fun arrival hMem hRound => ?_) rounds
  have hMarked := books.current arrival hMem hRound
  simp only [strategy, strategyWith, Bool.not_eq_false'] at hStill
  rw [IndexSet.isEmpty_iff.mp hStill] at hMarked
  cases hMarked

/-- A settled round leaves nothing to go on from that could lead to a better time. -/
theorem Books.closed_of_settled {state : State} (books : Books problem time state)
    (regular : problem.Regular time) (hSlack : 0 ≤ problem.boardSlack)
    (closed : problem.Closed time state.round state.found)
    (hSettled : (strategy problem).isSettled state = true) (rounds : Nat) :
    problem.Closed time rounds state.found := by
  refine closed.of_spent regular.sound hSlack books.round_le (fun arrival hMem hRound => ?_) rounds
  obtain ⟨id, other, hId, hNoWorse, -, -, hAt⟩ := books.exists_kept hMem
  have hOther := Arrivals.mem_toList_of_get? hId
  rcases Nat.lt_or_eq_of_le hNoWorse.round_le with hEarlier | hSame
  · exact Or.inr ⟨other, hOther, hNoWorse, by omega⟩
  · have hCovered := (Bool.and_eq_true_iff.mp hSettled).2
    rw [List.all_eq_true] at hCovered
    have hStop := hCovered arrival.stop (IndexSet.mem_toList.mpr (books.current arrival hMem hRound))
    rw [List.all_eq_true] at hStop
    rw [hSame, hRound] at hAt
    have hEnded := books.ended_of_isCovered (hStop (id, other) hAt)
    exact Or.inl (hEnded.of_le (Nat.le_of_eq hSame) hNoWorse.time_le)

/-- On a regular problem every run is completed, and it has missed nothing if the slack is not
negative and there is no time limit. -/
theorem exists_run {planner : Planner} (regular : planner.problem.Regular time)
    (hRounds : planner.maxRounds ≤ Request.maxSupportedTransfers + 1) (watch : Stopwatch) :
    ∃ run, planner.runWith (strategy planner.problem) time watch = .ok run ∧
      run.direction = planner.problem.direction ∧
      run.found.Complete planner.problem time planner.maxRounds ∧
      (planner.timeLimit = none → 0 ≤ planner.problem.boardSlack →
        planner.problem.Closed time planner.maxRounds run.found) := by
  obtain ⟨run, state, _, hRun, hDirection, hFound, ⟨books, rfl, hClosed⟩, hLe, hEnds⟩ :=
    planner.exists_runWith (strategy planner.problem) time watch
      (fun count state => Books planner.problem time state ∧ state.round = count ∧
        (0 ≤ planner.problem.boardSlack → planner.problem.Closed time count state.found))
      (by
        obtain ⟨books, hRound, closed⟩ := Books.start regular
        exact ⟨books, hRound, fun _ => closed⟩)
      (by
        rintro _ state hLt ⟨books, rfl, hClosed⟩
        obtain ⟨next, hStep, hBooks, hRound, hNext⟩ := books.exists_round regular (by omega)
        exact ⟨next, hStep, hBooks, hRound, fun hSlack => hNext hSlack (hClosed hSlack)⟩)
  refine ⟨run, hRun, hDirection, ?_⟩
  rw [show run.found = state.found from hFound]
  refine ⟨⟨books.records, fun arrival hMem => (books.round_le arrival hMem).trans hLe,
    books.finishes⟩, fun hLimit hSlack => ?_⟩
  rcases hEnds with hLate | hAll | hStill | hSettled
  · rw [hLimit] at hLate
    cases hLate
  · exact hAll ▸ hClosed hSlack
  · exact books.closed_of_fixedPoint regular hSlack (hClosed hSlack) hStill _
  · exact books.closed_of_settled regular hSlack (hClosed hSlack) hSettled _

end JourneyPlanner.Search.MultiCriteria
