import JourneyPlanner.Proofs.Search.MultiCriteria.Round
import JourneyPlanner.Proofs.Search.Standard.Round

/-! Runs for a request, whatever its profile. Main statements: on a network that was built every
run is completed and answers its request; and the search for the best time finds, for every number
of rounds, the best time of all journeys of no more rounds. -/
namespace JourneyPlanner

/-- On a regular problem every run is completed, and it has missed nothing if the slack is not
negative and there is no time limit. -/
theorem Search.Planner.exists_run {planner : Planner} {time : Int}
    (regular : planner.problem.Regular time)
    (hRounds : planner.maxRounds ≤ Request.maxSupportedTransfers + 1) (watch : Stopwatch) :
    ∃ run, planner.run time watch = .ok run ∧ run.direction = planner.problem.direction ∧
      run.found.Complete planner.problem time planner.maxRounds ∧
      (planner.timeLimit = none → 0 ≤ planner.problem.boardSlack →
        planner.problem.Closed time planner.maxRounds run.found) ∧
      (planner.profile ≠ .multiCriteria → run.found.destinations.Pairwise fun earlier later =>
        earlier.round < later.round ∧
          planner.problem.direction.isBetter later.time earlier.time = true) := by
  cases hProfile : planner.profile with
  | multiCriteria =>
      obtain ⟨run, hRun, hDirection, complete, hClosed⟩ :=
        MultiCriteria.exists_run regular hRounds watch
      exact ⟨run, by rw [Planner.run, hProfile]; exact hRun, hDirection, complete, hClosed,
        fun h => absurd rfl h⟩
  | standard =>
      obtain ⟨run, hRun, hDirection, complete, hClosed, hImproving⟩ :=
        Standard.exists_run regular hRounds watch
      exact ⟨run, by rw [Planner.run, hProfile]; exact hRun, hDirection, complete, hClosed,
        fun _ => hImproving⟩
  | bestTime =>
      obtain ⟨run, hRun, hDirection, complete, hClosed, hImproving⟩ :=
        Standard.exists_run regular hRounds watch
      exact ⟨run, by rw [Planner.run, hProfile]; exact hRun, hDirection, complete, hClosed,
        fun _ => hImproving⟩

variable {draft : Draft} {query : Query} {day : DayTimetable} {config : SearchConfig}
  {planner : Search.Planner} {time : Int}

/-- What a run for a query has found are journeys, which can be read off its records. -/
structure Search.Run.Answers (run : Search.Run) (query : Query) (time : Int) : Prop where
  direction : run.direction = query.direction
  round_le : ∀ destination ∈ run.found.destinations,
    destination.round ≤ query.request.maxTransfers + 1
  ending : ∀ destination ∈ run.found.destinations, ∃ source rest,
    query.Ending time source rest destination ∧
      Journey.ofDestination run.found.arrivals run.direction destination =
        .ok (Journey.ofLegs (Journey.legsOf query.direction (source :: rest) destination)
          destination.cost)

/-- A run for a request answers it, however its watch goes. Without a time limit and with no negative
slack it is exact. -/
theorem Search.Planner.exists_answer (sound : query.network.Sound)
    (hDay : query.network.onDate query.date query.modes = .ok day)
    (hPlanner : Planner.ofRequest day query.request config = .ok planner)
    (hNetwork : query.network.Modest) (hRequest : query.request.Modest)
    (hTime : Clock.Within (2 * Clock.modest) time) (watch : Stopwatch) :
    ∃ run, planner.run time watch = .ok run ∧ run.Answers query time ∧
      (query.request.timeLimit = none → 0 ≤ query.request.boardSlack →
        run.found.Exact query time (query.request.maxTransfers + 1)) ∧
      (query.request.profile ≠ .multiCriteria →
        run.found.destinations.Pairwise fun earlier later => earlier.round < later.round ∧
          query.direction.isBetter later.time earlier.time = true) := by
  obtain ⟨regular, hRounds, hTransfers⟩ :=
    Planner.regular_ofRequest sound hDay hPlanner hNetwork hRequest hTime
  obtain ⟨run, hRun, hDirection, complete, hClosed, hImproving⟩ :=
    Planner.exists_run regular hTransfers watch
  rw [hRounds] at complete hClosed hTransfers
  obtain ⟨-, rfl⟩ := Planner.ofRequest_eq_ok_iff.mp hPlanner
  have posed := Query.posed_ofRequest hDay config
  refine ⟨run, hRun, ⟨hDirection, fun destination hMem => complete.round_le_of_mem hMem,
    fun destination hMem => ?_⟩, fun hLimit hSlack => ?_, hImproving⟩
  · rw [hDirection]
    exact complete.records.exists_ending regular.modest hTime posed sound
      (complete.finishes destination hMem) ((complete.round_le_of_mem hMem).trans hTransfers)
  · exact complete.exact (hClosed hLimit hSlack) posed sound hSlack regular hTransfers

/-- A search for the best time finds journeys, each of more rides and a better time than the one
before; and for every number of rides the best time it finds is the best there is. -/
theorem Search.Planner.best_time_in_rounds (hBuild : draft.build = .ok query.network)
    (hDay : query.network.onDate query.date query.modes = .ok day)
    (hPlanner : Planner.ofRequest day query.request config = .ok planner)
    (hProfile : query.request.profile ≠ .multiCriteria) (hSlack : 0 ≤ query.request.boardSlack)
    (hLimit : query.request.timeLimit = none) (hNetwork : query.network.Modest)
    (hRequest : query.request.Modest) (hTime : Clock.Within Clock.modest time)
    (watch : Stopwatch) :
    ∃ run, planner.run time watch = .ok run ∧
      (∀ destination ∈ run.found.destinations,
        0 < destination.round ∧ destination.round ≤ query.request.maxTransfers + 1 ∧
          query.Ends time destination.round destination.time) ∧
      (run.found.destinations.Pairwise fun earlier later => earlier.round < later.round ∧
        query.direction.isBetter later.time earlier.time = true) ∧
      ∀ rounds ≤ query.request.maxTransfers + 1,
        (∀ finish, run.found.IsBest query.direction rounds finish ↔
          query.IsBest time rounds finish) ∧
        ((∀ destination ∈ run.found.destinations, rounds < destination.round) ↔
          ∀ round ≤ rounds, ∀ finish, ¬ query.Ends time round finish) := by
  obtain ⟨run, hRun, -, hExact, hImproving⟩ := Planner.exists_answer (.of_build hBuild) hDay
    hPlanner hNetwork hRequest (Clock.Within.double hTime) watch
  have exact := hExact hLimit hSlack
  exact ⟨run, hRun, exact.ends, hImproving hProfile, fun rounds hRounds =>
    ⟨fun finish => exact.isBest_iff hRounds, exact.none_iff hRounds⟩⟩

theorem Search.Planner.best_time_in_rounds_shuttle :
    ∃ day planner run, Query.shuttle.network.onDate Query.shuttle.date Query.shuttle.modes = .ok day ∧
      Planner.ofRequest day Query.shuttle.request SearchConfig.shuttle = .ok planner ∧
      planner.run (-60) = .ok run ∧
      ∀ finish, run.found.IsBest .forward 1 finish ↔ Query.shuttle.IsBest (-60) 1 finish := by
  obtain ⟨run, hRun, -, -, hBest⟩ := @Search.Planner.best_time_in_rounds Draft.shuttle
    Query.shuttle _ SearchConfig.shuttle _ (-60)
    (Draft.build_eq_ok_iff.mpr ⟨Draft.sound_shuttle, rfl⟩) rfl
    (Planner.ofRequest_eq_ok_iff.mpr ⟨Query.valid_shuttle, rfl⟩) (by decide) (by decide) rfl
    Draft.modest_shuttle.pack Query.modest_shuttle ⟨by decide, by decide⟩ .stopped
  exact ⟨_, _, run, rfl, Planner.ofRequest_eq_ok_iff.mpr ⟨Query.valid_shuttle, rfl⟩, hRun,
    (hBest 1 (Nat.le_refl _)).1⟩

end JourneyPlanner
