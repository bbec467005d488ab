import JourneyPlanner.Proofs.Search.Answer

/-! The profiles of a request differ in what else they compare, but not in the times they find. Main
statement: for every number of rounds the runs of all profiles find the same best time, and so do
the answers to the request. -/
namespace JourneyPlanner

def Request.withProfile (request : Request) (profile : Profile) : Request :=
  { request with profile }

namespace Query

def withProfile (query : Query) (profile : Profile) : Query :=
  { query with request := query.request.withProfile profile }

variable {query : Query} {time : Int}

/-- Where journeys can be does not depend on the profile. -/
theorem Reaches.withProfile {manner : Manner} {round stop : Nat} {reached : Int}
    (h : query.Reaches time manner round stop reached) (profile : Profile) :
    (query.withProfile profile).Reaches time manner round stop reached := by
  induction h with
  | access hLeg => exact .access hLeg
  | ride before hRide hReady ih => exact .ride ih hRide hReady
  | walk before hWalk ih => exact .walk ih hWalk

/-- What journeys there are does not depend on the profile. -/
theorem ends_withProfile_iff {profile : Profile} {round : Nat} {finish : Int} :
    (query.withProfile profile).Ends time round finish ↔ query.Ends time round finish := by
  constructor
  · rintro ⟨last, hLeg⟩
    exact .egress (last.withProfile query.request.profile) hLeg
  · rintro ⟨last, hLeg⟩
    exact .egress (last.withProfile profile) hLeg

theorem isBest_withProfile_iff {profile : Profile} {rounds : Nat} {finish : Int} :
    (query.withProfile profile).IsBest time rounds finish ↔ query.IsBest time rounds finish := by
  simp only [IsBest, ends_withProfile_iff]
  exact Iff.rfl

def IsBestOf (query : Query) (times : List Int) (finish : Int) : Prop :=
  (∃ time ∈ times, ∃ round ≤ query.request.maxTransfers + 1, query.Ends time round finish) ∧
    ∀ time ∈ times, ∀ round ≤ query.request.maxTransfers + 1, ∀ other,
      query.Ends time round other → query.direction.isBetter other finish = false

/-- What is best in a window does not depend on the profile. -/
theorem isBestOf_withProfile_iff {profile : Profile} {times : List Int} {finish : Int} :
    (query.withProfile profile).IsBestOf times finish ↔ query.IsBestOf times finish := by
  simp only [IsBestOf, ends_withProfile_iff]
  exact Iff.rfl

end Query

/-- The best time at which some journeys end along a search: the earliest arrival, or the latest
departure. -/
def Journey.IsBestTime (direction : Direction) (journeys : List Journey) (finish : Int) : Prop :=
  (∃ journey ∈ journeys, journey.finish direction = finish) ∧
    ∀ journey ∈ journeys, direction.isBetter (journey.finish direction) finish = false

variable {draft : Draft} {query : Query} {day : DayTimetable} {config : SearchConfig}

/-- The answer to a request without a time limit has the best time of all journeys from the times of
its window, and is empty only if there are none. -/
theorem Search.exists_best_response (query : Query) (sound : query.network.Sound)
    (hDay : query.network.onDate query.date query.modes = .ok day)
    (hValid : query.request.validate day.numStops config = .ok ())
    (hSlack : 0 ≤ query.request.boardSlack) (hLimit : query.request.timeLimit = none)
    (hNetwork : query.network.Modest) (hRequest : query.request.Modest)
    (watches : Nat → Stopwatch) :
    ∃ response, search day query.request config watches = .ok response ∧
      (response.journeys = [] ↔ ∀ time ∈ query.request.iterationTimes config.iterationStep,
        ∀ round ≤ query.request.maxTransfers + 1, ∀ finish, ¬ query.Ends time round finish) ∧
      ∀ finish, Journey.IsBestTime query.direction response.journeys finish ↔
        query.IsBestOf (query.request.iterationTimes config.iterationStep) finish := by
  obtain ⟨response, hResponse, hTraced, hEnds⟩ :=
    exists_response sound hDay hValid hNetwork hRequest watches
  replace hEnds := hEnds hLimit hSlack
  refine ⟨response, hResponse, ⟨?_, ?_⟩, fun finish => ⟨?_, ?_⟩⟩
  · intro hEmpty time hTime round hRound finish hEnd
    obtain ⟨journey, hJourney, -⟩ := hEnds time hTime round hRound finish hEnd
    rw [hEmpty] at hJourney
    cases hJourney
  · intro hNone
    refine List.eq_nil_iff_forall_not_mem.mpr fun journey hJourney => ?_
    obtain ⟨time, hTime, traced⟩ := hTraced journey hJourney
    obtain ⟨round, hRound, hEnd⟩ := traced.exists_ends
    exact hNone time hTime round hRound _ hEnd
  · rintro ⟨⟨journey, hJourney, rfl⟩, hBest⟩
    obtain ⟨time, hTime, traced⟩ := hTraced journey hJourney
    refine ⟨⟨time, hTime, traced.exists_ends⟩, fun other hOther round hRound end' hEnd => ?_⟩
    obtain ⟨better, hBetter, hLe⟩ := hEnds other hOther round hRound end' hEnd
    have hLeast := hBest better hBetter
    rw [Direction.isBetter_eq_false_iff] at hLeast ⊢
    exact Int.le_trans hLeast hLe
  · rintro ⟨⟨time, hTime, round, hRound, hEnd⟩, hBest⟩
    have hNoneBetter : ∀ journey ∈ response.journeys,
        query.direction.isBetter (journey.finish query.direction) finish = false := by
      intro journey hJourney
      obtain ⟨other, hOther, traced⟩ := hTraced journey hJourney
      obtain ⟨rounds, hRounds, hTracedEnd⟩ := traced.exists_ends
      exact hBest other hOther rounds hRounds _ hTracedEnd
    obtain ⟨journey, hJourney, hLe⟩ := hEnds time hTime round hRound finish hEnd
    have hLeast := hNoneBetter journey hJourney
    rw [Direction.isBetter_eq_false_iff] at hLeast
    exact ⟨⟨journey, hJourney, Direction.timeCriterion_injective (Int.le_antisymm hLe hLeast)⟩,
      hNoneBetter⟩

/-- Under every profile the runs have the best time of all journeys, for every bound on the
rounds. -/
theorem Search.exists_best_runs (query : Query) (sound : query.network.Sound)
    (hDay : query.network.onDate query.date query.modes = .ok day)
    (hValid : query.request.validate day.numStops config = .ok ())
    (hSlack : 0 ≤ query.request.boardSlack) (hLimit : query.request.timeLimit = none)
    (hNetwork : query.network.Modest) (hRequest : query.request.Modest) :
    ∃ planner, Planner.ofRequest day query.request config = .ok planner ∧
      ∀ time, Clock.Within Clock.modest time → ∀ watch, ∃ run, planner.run time watch = .ok run ∧
        ∀ rounds ≤ query.request.maxTransfers + 1,
          (∀ finish, run.found.IsBest query.direction rounds finish ↔
            query.IsBest time rounds finish) ∧
          ((∀ destination ∈ run.found.destinations, rounds < destination.round) ↔
            ∀ round ≤ rounds, ∀ finish, ¬ query.Ends time round finish) := by
  have hPlanner := Planner.ofRequest_eq_ok_iff.mpr ⟨Request.validate_eq_ok_iff.mp hValid, rfl⟩
  refine ⟨_, hPlanner, fun time hTime watch => ?_⟩
  obtain ⟨run, hRun, -, hExact, -⟩ := Planner.exists_answer sound hDay hPlanner hNetwork hRequest
    (Clock.Within.double hTime) watch
  have exact := hExact hLimit hSlack
  exact ⟨run, hRun, fun rounds hRounds =>
    ⟨fun finish => exact.isBest_iff hRounds, exact.none_iff hRounds⟩⟩

/-- All profiles find the same best times: their runs for every bound on the rounds, whatever the
costs, and their answers over the whole window. -/
theorem Search.profiles_agree_on_time (hBuild : draft.build = .ok query.network)
    (hDay : query.network.onDate query.date query.modes = .ok day)
    (hValid : query.request.validate day.numStops config = .ok ())
    (hSlack : 0 ≤ query.request.boardSlack) (hLimit : query.request.timeLimit = none)
    (hNetwork : query.network.Modest) (hRequest : query.request.Modest) (profile other : Profile)
    (watches otherWatches : Nat → Stopwatch) :
    (∃ planner otherPlanner,
      Planner.ofRequest day (query.request.withProfile profile) config = .ok planner ∧
      Planner.ofRequest day (query.request.withProfile other) config = .ok otherPlanner ∧
      ∀ time, Clock.Within Clock.modest time → ∀ watch otherWatch, ∃ run otherRun,
        planner.run time watch = .ok run ∧ otherPlanner.run time otherWatch = .ok otherRun ∧
        ∀ rounds ≤ query.request.maxTransfers + 1,
          (∀ finish, run.found.IsBest query.direction rounds finish ↔
            otherRun.found.IsBest query.direction rounds finish) ∧
          ((∀ destination ∈ run.found.destinations, rounds < destination.round) ↔
            ∀ destination ∈ otherRun.found.destinations, rounds < destination.round)) ∧
    ∃ response otherResponse,
      search day (query.request.withProfile profile) config watches = .ok response ∧
      search day (query.request.withProfile other) config otherWatches = .ok otherResponse ∧
      (response.journeys = [] ↔ otherResponse.journeys = []) ∧
      ∀ finish, Journey.IsBestTime query.direction response.journeys finish ↔
        Journey.IsBestTime query.direction otherResponse.journeys finish := by
  have sound := Network.Sound.of_build hBuild
  have hModest : ∀ profile, (query.withProfile profile).request.Modest := fun _ =>
    ⟨hRequest.time, hRequest.searchWindow, hRequest.boardSlack, hRequest.legs⟩
  constructor
  · obtain ⟨planner, hPlanner, hRuns⟩ := exists_best_runs
      (query.withProfile profile) sound hDay hValid hSlack hLimit hNetwork (hModest profile)
    obtain ⟨otherPlanner, hOther, hOtherRuns⟩ := exists_best_runs
      (query.withProfile other) sound hDay hValid hSlack hLimit hNetwork (hModest other)
    simp only [Query.ends_withProfile_iff, Query.isBest_withProfile_iff] at hRuns hOtherRuns
    refine ⟨planner, otherPlanner, hPlanner, hOther, fun time hTime watch otherWatch => ?_⟩
    obtain ⟨run, hRun, hBest⟩ := hRuns time hTime watch
    obtain ⟨otherRun, hOtherRun, hOtherBest⟩ := hOtherRuns time hTime otherWatch
    refine ⟨run, otherRun, hRun, hOtherRun, fun rounds hRounds => ⟨fun finish => ?_, ?_⟩⟩
    · exact ((hBest rounds hRounds).1 finish).trans ((hOtherBest rounds hRounds).1 finish).symm
    · exact (hBest rounds hRounds).2.trans (hOtherBest rounds hRounds).2.symm
  · obtain ⟨response, hResponse, hEmpty, hBest⟩ := exists_best_response
      (query.withProfile profile) sound hDay hValid hSlack hLimit hNetwork
      (hModest profile) watches
    obtain ⟨otherResponse, hOther, hOtherEmpty, hOtherBest⟩ := exists_best_response
      (query.withProfile other) sound hDay hValid hSlack hLimit hNetwork (hModest other)
      otherWatches
    simp only [Query.ends_withProfile_iff] at hEmpty hOtherEmpty
    simp only [Query.isBestOf_withProfile_iff] at hBest hOtherBest
    exact ⟨response, otherResponse, hResponse, hOther, hEmpty.trans hOtherEmpty.symm,
      fun finish => (hBest finish).trans (hOtherBest finish).symm⟩

theorem Search.profiles_agree_on_time_connection :
    ∃ response otherResponse, Draft.connection.build = .ok Query.connection.network ∧
      search DayTimetable.connection (Query.connection.request.withProfile .standard)
        SearchConfig.shuttle = .ok response ∧
      search DayTimetable.connection (Query.connection.request.withProfile .multiCriteria)
        SearchConfig.shuttle = .ok otherResponse ∧
      response.stats.iterations = 3 ∧
      (response.journeys.map Journey.arrival).Perm [2030, 2430, 1930] ∧
      Journey.IsBestTime .forward otherResponse.journeys 1930 := by
  obtain ⟨-, response, otherResponse, hResponse, hOther, -, hBest⟩ :=
    @Search.profiles_agree_on_time Draft.connection Query.connection _ SearchConfig.shuttle
      Draft.build_connection Query.onDate_connection
      (Request.validate_eq_ok_iff.mpr Query.valid_connection) (by decide) rfl
      Network.modest_connection Query.modest_connection .standard .multiCriteria
      (fun _ => .stopped) (fun _ => .stopped)
  have hRuns : (search DayTimetable.connection (Query.connection.request.withProfile .standard)
      SearchConfig.shuttle).toOption.map (fun response => response.stats.iterations) = some 3 := by
    decide +kernel
  rw [hResponse, Except.toOption, Option.map_some, Option.some.injEq] at hRuns
  have hArrivals : (response.journeys.map Journey.arrival).Perm [2030, 2430, 1930] :=
    perm_of_search hResponse (by decide +kernel)
  have hOnTime : ∀ arrival ∈ [2030, 2430, 1930],
      Direction.forward.isBetter arrival 1930 = false := by
    decide
  exact ⟨response, otherResponse, Draft.build_connection, hResponse, hOther, hRuns, hArrivals,
    (hBest 1930).mp ⟨List.mem_map.mp (hArrivals.mem_iff.mpr (by decide)), fun journey hJourney =>
      hOnTime _ (hArrivals.mem_iff.mp (List.mem_map_of_mem hJourney))⟩⟩

end JourneyPlanner
