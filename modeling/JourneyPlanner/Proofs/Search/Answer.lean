import JourneyPlanner.Proofs.Pareto
import JourneyPlanner.Proofs.Search.Runs
import JourneyPlanner.Search.Range

/-! The answer to a request. Main statement: on a network that was built every valid request is
answered with journeys of its runs, and for every journey there is one that ends no later along
the search. -/
namespace JourneyPlanner

/-- When a journey ends along a search: the arrival of a forward search, the departure of a
reverse one. -/
def Journey.finish (journey : Journey) : Direction → Int
  | .forward => journey.arrival
  | .reverse => journey.departure

/-- The journey of a trail ends when its search reaches the destination. -/
theorem Journey.finish_ofLegs_legsOf (direction : Direction) (chain : List Arrival)
    (destination : DestinationArrival) (cost : Int) :
    (ofLegs (legsOf direction chain destination) cost).finish direction = destination.time := by
  cases direction with
  | forward => simp [finish, ofLegs, legsOf, Leg.arrival]
  | reverse => rfl

/-- A journey that follows a trail from its start to the destination. -/
def Query.Traced (query : Query) (time : Int) (journey : Journey) : Prop :=
  ∃ source rest destination, query.Ending time source rest destination ∧
    destination.round ≤ query.request.maxTransfers + 1 ∧
    journey = Journey.ofLegs (Journey.legsOf query.direction (source :: rest) destination)
      destination.cost

theorem Query.Traced.exists_ends {query : Query} {time : Int} {journey : Journey}
    (traced : query.Traced time journey) :
    ∃ round ≤ query.request.maxTransfers + 1,
      query.Ends time round (journey.finish query.direction) := by
  obtain ⟨source, rest, destination, ending, hRound, rfl⟩ := traced
  exact ⟨destination.round, hRound, Journey.finish_ofLegs_legsOf .. ▸ ending.ends⟩

namespace Search

section Merging

variable {direction : Direction} {profile : Profile} {costSlack : Int} {journeys : List Journey}
  {journey : Journey}

/-- What a front keeps of some journeys are journeys of these with the values on which they
compare. -/
theorem exists_of_mem_kept {held : Entry Journey}
    (h : held ∈ (Front.empty.offerAll (journeyRules profile costSlack) (journeys.map fun journey =>
      { item := journey, criteria := journeyCriteria direction profile journey })).entries) :
    ∃ journey ∈ journeys,
      held = { item := journey, criteria := journeyCriteria direction profile journey } := by
  rcases Front.mem_of_mem_offerAll h with hOld | hOffered
  · cases hOld
  · obtain ⟨journey, hMem, rfl⟩ := List.mem_map.mp hOffered
    exact ⟨journey, hMem, rfl⟩

/-- The best journeys are chosen from those found. -/
theorem mem_of_mem_bestJourneys
    (h : journey ∈ bestJourneys direction profile costSlack journeys) : journey ∈ journeys := by
  rw [bestJourneys, List.mem_mergeSort] at h
  obtain ⟨held, hHeld, rfl⟩ := List.mem_map.mp h
  obtain ⟨offered, hMem, rfl⟩ := exists_of_mem_kept hHeld
  exact hMem

/-- Whatever else is compared, no journey takes the place of one that ends earlier along the
search. -/
theorem journeyRules_entails (direction : Direction) (profile : Profile) (costSlack : Int) :
    (journeyRules profile costSlack).Entails
      (fun values => ∃ journey, values = journeyCriteria direction profile journey)
      (Rules.NoWorse [.less]) := by
  constructor
  · rintro _ ⟨journey, rfl⟩
    cases profile <;> simp [journeyCriteria, Rules.NoWorse]
  · rintro _ _ _ ⟨first, rfl⟩ ⟨second, rfl⟩ ⟨third, rfl⟩ hFirst hSecond
    cases profile <;>
      simp only [journeyCriteria, Rules.NoWorse, Criterion.noWorse_less, and_true] at * <;> omega
  · rintro _ _ ⟨first, rfl⟩ ⟨second, rfl⟩ hCovers
    rw [Rules.covers_iff] at hCovers
    cases profile <;> exact ⟨hCovers.1, trivial⟩

/-- Of all journeys one that ends no later is among the best. -/
theorem exists_bestJourneys_le (direction : Direction) (profile : Profile) (costSlack : Int)
    (h : journey ∈ journeys) :
    ∃ best ∈ bestJourneys direction profile costSlack journeys,
      direction.timeCriterion (best.finish direction) ≤
        direction.timeCriterion (journey.finish direction) := by
  have hKeeps := Front.offerAll_keeps (journeyRules_entails direction profile costSlack)
    Front.empty
    (journeys.map fun journey =>
      { item := journey, criteria := journeyCriteria direction profile journey })
    (by simp [Front.empty]) (by
      intro entry hEntry
      obtain ⟨offered, -, rfl⟩ := List.mem_map.mp hEntry
      exact ⟨offered, rfl⟩)
  obtain ⟨held, hHeld, hOrder⟩ := hKeeps.1 _ (List.mem_map.mpr ⟨journey, h, rfl⟩)
  obtain ⟨offered, -, rfl⟩ := exists_of_mem_kept hHeld
  refine ⟨offered, ?_, ?_⟩
  · rw [bestJourneys, List.mem_mergeSort]
    exact List.mem_map.mpr ⟨_, hHeld, rfl⟩
  · cases profile <;> cases direction <;>
      simpa only [journeyCriteria, Rules.NoWorse, Criterion.noWorse_less, and_true,
        Journey.finish, Direction.timeCriterion] using hOrder

end Merging

section Reading

variable {ε α β : Type} {read : α → Except ε β} {items : List α} {values : List β}

/-- Readings none of which fails have a list of results. -/
theorem exists_map_ok (h : ∀ item ∈ items, ∃ value, read item = .ok value) :
    ∃ values : List β, items.map read = values.map .ok := by
  induction items with
  | nil => exact ⟨[], rfl⟩
  | cons item rest ih =>
      obtain ⟨⟨value, hValue⟩, hRest⟩ := List.forall_mem_cons.mp h
      obtain ⟨values, hValues⟩ := ih hRest
      exact ⟨value :: values, by rw [List.map_cons, hValue, hValues, List.map_cons]⟩

/-- When all reads succeed, the values are those read from the items. -/
theorem mem_iff_of_map_ok (h : items.map read = values.map .ok) {value : β} :
    value ∈ values ↔ ∃ item ∈ items, read item = .ok value := by
  rw [← List.mem_map, h]
  simp

/-- The journeys of several ways to the destination are those of each, in order. -/
theorem ofDestinations_eq {arrivals : Arrivals} {direction : Direction}
    {destinations : List DestinationArrival} {journeys : List Journey}
    (h : destinations.map (Journey.ofDestination arrivals direction) = journeys.map .ok) :
    Journey.ofDestinations arrivals direction destinations = .ok journeys := by
  induction destinations generalizing journeys with
  | nil =>
      cases journeys with
      | nil => rfl
      | cons => cases h
  | cons destination rest ih =>
      cases journeys with
      | nil => cases h
      | cons journey others =>
          rw [List.map_cons, List.map_cons, List.cons.injEq] at h
          rw [Journey.ofDestinations, h.1]
          simp only [ih h.2]

/-- If each way to the destination makes a journey, the journeys are just those. -/
theorem exists_ofDestinations {arrivals : Arrivals} {direction : Direction}
    {destinations : List DestinationArrival}
    (h : ∀ destination ∈ destinations, ∃ journey,
      Journey.ofDestination arrivals direction destination = .ok journey) :
    ∃ journeys, Journey.ofDestinations arrivals direction destinations = .ok journeys ∧
      ∀ journey, journey ∈ journeys ↔ ∃ destination ∈ destinations,
        Journey.ofDestination arrivals direction destination = .ok journey := by
  obtain ⟨journeys, hJourneys⟩ := exists_map_ok h
  exact ⟨journeys, ofDestinations_eq hJourneys, fun _ => mem_iff_of_map_ok hJourneys⟩

/-- If the runs can be read off, the journeys of all are those of each, in order. -/
theorem allJourneys_eq {runs : List Run} {found : List (List Journey)}
    (h : runs.map Run.journeys = found.map .ok) :
    allJourneys (runs.map .ok) = .ok found.flatten := by
  induction runs generalizing found with
  | nil =>
      cases found with
      | nil => rfl
      | cons => cases h
  | cons run rest ih =>
      cases found with
      | nil => cases h
      | cons first others =>
          rw [List.map_cons, List.map_cons, List.cons.injEq] at h
          rw [List.map_cons, allJourneys, h.1, ih h.2]
          rfl

@[simp]
theorem completedRuns_map_ok (runs : List Run) : completedRuns (runs.map .ok) = runs := by
  rw [completedRuns, List.filterMap_map]
  exact List.filterMap_some

/-- Runs that all stay in range are all counted. -/
theorem runsUntilLost_eq {runs : List (Except BrokenRun Run)}
    (h : ∀ result ∈ runs, isOutOfRange result = false) : runsUntilLost runs = runs := by
  induction runs with
  | nil => rfl
  | cons result rest ih =>
      obtain ⟨hFirst, hRest⟩ := List.forall_mem_cons.mp h
      rw [runsUntilLost, hFirst, if_neg Bool.false_ne_true, ih hRest]

end Reading

end Search

/-- The journeys of a run are those of its ways to the destination, and end with them. -/
theorem Search.Run.Answers.exists_journeys {run : Search.Run} {query : Query} {time : Int}
    (answers : run.Answers query time) :
    ∃ journeys, run.journeys = .ok journeys ∧ (∀ journey ∈ journeys, query.Traced time journey) ∧
      ∀ destination ∈ run.found.destinations, ∃ journey ∈ journeys,
        journey.finish query.direction = destination.time := by
  have hRead : ∀ destination ∈ run.found.destinations, ∃ journey,
      Journey.ofDestination run.found.arrivals run.direction destination = .ok journey := by
    intro destination hDestination
    obtain ⟨source, rest, -, hJourney⟩ := answers.ending destination hDestination
    exact ⟨_, hJourney⟩
  obtain ⟨journeys, hJourneys, hMem⟩ := exists_ofDestinations hRead
  refine ⟨journeys, hJourneys, fun journey hJourney => ?_, fun destination hDestination => ?_⟩
  · obtain ⟨destination, hDestination, hOf⟩ := (hMem journey).mp hJourney
    obtain ⟨source, rest, ending, hRead⟩ := answers.ending destination hDestination
    rw [hOf, Except.ok.injEq] at hRead
    exact ⟨source, rest, destination, ending, answers.round_le destination hDestination, hRead⟩
  · obtain ⟨source, rest, -, hRead⟩ := answers.ending destination hDestination
    exact ⟨_, (hMem _).mpr ⟨destination, hDestination, hRead⟩,
      Journey.finish_ofLegs_legsOf ..⟩

/-- Whatever is read off a run that answers a query is traced. -/
theorem Search.Run.Answers.traced {run : Search.Run} {query : Query} {time : Int}
    {journeys : List Journey} (answers : run.Answers query time)
    (hJourneys : run.journeys = .ok journeys) : ∀ journey ∈ journeys, query.Traced time journey := by
  obtain ⟨others, hOthers, hTraced, -⟩ := answers.exists_journeys
  rw [hJourneys, Except.ok.injEq] at hOthers
  exact hOthers ▸ hTraced

/-- The times searched for a modest request are modest but for the length of its window. -/
theorem Request.Modest.within_of_mem_iterationTimes {request : Request} (modest : request.Modest)
    {step time : Int} (h : time ∈ request.iterationTimes step) :
    Clock.Within (2 * Clock.modest) time := by
  unfold iterationTimes at h
  split at h
  · cases h
  · obtain ⟨n, hCount, rfl⟩ := List.mem_map.mp h
    have hReach : n * (max step 1).toNat ≤ request.searchWindow.toNat := by
      have hLe := Nat.lt_succ_iff.mp (List.mem_range.mp hCount)
      exact Nat.le_trans (Nat.mul_le_mul_right _ hLe) (Nat.div_mul_le_self _ _)
    have hWindow := modest.searchWindow
    have hTime := request.direction.within_timeCriterion.mpr modest.time
    rw [← request.direction.within_timeCriterion]
    simp only [Clock.Within, Clock.modest] at hWindow hTime ⊢
    rw [Direction.timeCriterion_plus (by simp only [Clock.Within]; omega)]
    omega

variable {query : Query} {day : DayTimetable} {config : SearchConfig}

/-- If the runs of a window were completed and could be read off, the search answers with the best of
the journeys of all. -/
theorem Search.search_eq {request : Request} {planner : Planner} {watches : Nat → Stopwatch}
    {runs : List Run} {found : List (List Journey)}
    (hPlanner : Planner.ofRequest day request config = .ok planner)
    (hRuns : planner.runAll (request.iterationTimes config.iterationStep) watches = runs.map .ok)
    (hFound : runs.map Run.journeys = found.map .ok) :
    search day request config watches = .ok
      { journeys := bestJourneys request.direction request.profile config.costSlack found.flatten
        timedOut := runs.any Run.timedOut
        stats := statsOf runs } := by
  have hKept : ∀ result ∈ runs.map (Except.ok : Run → Except BrokenRun Run),
      isOutOfRange result = false := by
    intro result hResult
    obtain ⟨run, -, rfl⟩ := List.mem_map.mp hResult
    rfl
  rw [search, RangeSearch.ofRequest, hPlanner]
  simp only [hRuns, runsUntilLost_eq hKept, RangeSearch.response, List.any_eq_false.mpr
    (fun result hResult => Bool.eq_false_iff.mp (hKept result hResult)), allJourneys_eq hFound,
    completedRuns_map_ok, Bool.false_eq_true, if_false]

/-- A run with a watch of its own was made for every time. -/
theorem Search.Planner.mem_runs_iff {planner : Planner} {times : List Int}
    {watches : Nat → Stopwatch} {runs : List Run}
    (hRuns : planner.runAll times watches = runs.map .ok) {run : Run} :
    run ∈ runs ↔ ∃ place time, times[place]? = some time ∧
      planner.run time (watches place) = .ok run := by
  rw [mem_iff_of_map_ok hRuns]
  constructor
  · rintro ⟨entry, hEntry, hRun⟩
    exact ⟨entry.2, entry.1, List.mem_zipIdx_iff_getElem?.mp hEntry, hRun⟩
  · rintro ⟨place, time, hTime, hRun⟩
    exact ⟨(time, place), List.mem_zipIdx_iff_getElem?.mpr hTime, hRun⟩

/-- Runs all of which were completed, whatever their watches show. -/
theorem Search.Planner.exists_runAll {planner : Planner} {times : List Int}
    (watches : Nat → Stopwatch)
    (hRun : ∀ time ∈ times, ∀ watch, ∃ run, planner.run time watch = .ok run) :
    ∃ runs : List Run, planner.runAll times watches = runs.map .ok :=
  exists_map_ok fun entry hEntry =>
    hRun entry.1 (List.mem_of_getElem? (List.mem_zipIdx_iff_getElem?.mp hEntry)) _

/-- If each run of a window was completed and can be read off, the search answers with the best of
the journeys of all. -/
theorem Search.exists_search_eq {request : Request} {planner : Planner}
    (hPlanner : Planner.ofRequest day request config = .ok planner)
    (hRead : ∀ time ∈ request.iterationTimes config.iterationStep, ∀ watch,
      ∃ run journeys, planner.run time watch = .ok run ∧ run.journeys = .ok journeys)
    (watches : Nat → Stopwatch) :
    ∃ response all, search day request config watches = .ok response ∧
      response.journeys = bestJourneys request.direction request.profile config.costSlack all ∧
      ∀ journey, journey ∈ all ↔ ∃ place time,
        (request.iterationTimes config.iterationStep)[place]? = some time ∧
        ∃ run journeys, planner.run time (watches place) = .ok run ∧ run.journeys = .ok journeys ∧
          journey ∈ journeys := by
  obtain ⟨runs, hRuns⟩ := Planner.exists_runAll watches fun time hTime watch =>
    (hRead time hTime watch).imp fun run ⟨_, hRun, _⟩ => hRun
  obtain ⟨found, hFound⟩ : ∃ found : List (List Journey),
      runs.map Run.journeys = found.map .ok := exists_map_ok fun run hRun => by
    obtain ⟨place, time, hTime, hMade⟩ := (Planner.mem_runs_iff hRuns).mp hRun
    obtain ⟨other, journeys, hOther, hJourneys⟩ :=
      hRead time (List.mem_of_getElem? hTime) (watches place)
    rw [hMade, Except.ok.injEq] at hOther
    exact ⟨journeys, hOther ▸ hJourneys⟩
  refine ⟨_, found.flatten, search_eq hPlanner hRuns hFound, rfl, fun journey => ?_⟩
  simp only [List.mem_flatten, mem_iff_of_map_ok hFound, Planner.mem_runs_iff hRuns]
  constructor
  · rintro ⟨journeys, ⟨run, ⟨place, time, hTime, hRun⟩, hJourneys⟩, hMem⟩
    exact ⟨place, time, hTime, run, journeys, hRun, hJourneys, hMem⟩
  · rintro ⟨place, time, hTime, run, journeys, hRun, hJourneys, hMem⟩
    exact ⟨journeys, ⟨run, ⟨place, time, hTime, hRun⟩, hJourneys⟩, hMem⟩

/-- A valid request is answered with journeys of the times of its window, however the watches of its
runs go. Without a time limit and with no negative slack, none from any of these times ends earlier
along the search than all in the answer. -/
theorem Search.exists_response (sound : query.network.Sound)
    (hDay : query.network.onDate query.date query.modes = .ok day)
    (hValid : query.request.validate day.numStops config = .ok ())
    (hNetwork : query.network.Modest) (hRequest : query.request.Modest)
    (watches : Nat → Stopwatch) :
    ∃ response, search day query.request config watches = .ok response ∧
      (∀ journey ∈ response.journeys,
        ∃ time ∈ query.request.iterationTimes config.iterationStep, query.Traced time journey) ∧
      (query.request.timeLimit = none → 0 ≤ query.request.boardSlack →
        ∀ time ∈ query.request.iterationTimes config.iterationStep,
        ∀ round ≤ query.request.maxTransfers + 1, ∀ finish, query.Ends time round finish →
          ∃ journey ∈ response.journeys,
            query.direction.timeCriterion (journey.finish query.direction) ≤
              query.direction.timeCriterion finish) := by
  obtain ⟨planner, hPlanner⟩ :
      ∃ planner, Planner.ofRequest day query.request config = .ok planner :=
    ⟨_, Planner.ofRequest_eq_ok_iff.mpr ⟨Request.validate_eq_ok_iff.mp hValid, rfl⟩⟩
  have hAnswer : ∀ time ∈ query.request.iterationTimes config.iterationStep, ∀ watch, ∃ run,
      planner.run time watch = .ok run ∧ run.Answers query time ∧
        (query.request.timeLimit = none → 0 ≤ query.request.boardSlack →
          run.found.Exact query time (query.request.maxTransfers + 1)) := by
    intro time hTime watch
    obtain ⟨run, hRun, answers, hExact, -⟩ := Planner.exists_answer sound hDay hPlanner hNetwork
      hRequest (hRequest.within_of_mem_iterationTimes hTime) watch
    exact ⟨run, hRun, answers, hExact⟩
  obtain ⟨response, all, hSearch, hBest, hMem⟩ := exists_search_eq hPlanner
    (fun time hTime watch => by
      obtain ⟨run, hRun, answers, -⟩ := hAnswer time hTime watch
      obtain ⟨journeys, hJourneys, -⟩ := answers.exists_journeys
      exact ⟨run, journeys, hRun, hJourneys⟩) watches
  rw [← Query.direction] at hBest
  refine ⟨response, hSearch, fun journey hJourney => ?_, fun hLimit hSlack time hTime round hRound
    finish hEnds => ?_⟩
  · rw [hBest] at hJourney
    obtain ⟨place, time, hPlace, run, journeys, hRun, hJourneys, hJourney⟩ :=
      (hMem journey).mp (mem_of_mem_bestJourneys hJourney)
    have hTime := List.mem_of_getElem? hPlace
    obtain ⟨found, hFound, answers, -⟩ := hAnswer time hTime (watches place)
    rw [hRun, Except.ok.injEq] at hFound
    subst hFound
    exact ⟨time, hTime, answers.traced hJourneys journey hJourney⟩
  · obtain ⟨place, hPlace⟩ := List.mem_iff_getElem?.mp hTime
    obtain ⟨run, hRun, answers, hExact⟩ := hAnswer time hTime (watches place)
    obtain ⟨journeys, hJourneys, -, hEnding⟩ := answers.exists_journeys
    obtain ⟨destination, hDestination, -, hLe⟩ := (hExact hLimit hSlack).ended hEnds hRound
    obtain ⟨journey, hJourney, hFinish⟩ := hEnding destination hDestination
    obtain ⟨best, hKept, hBestLe⟩ := exists_bestJourneys_le query.direction query.request.profile
      config.costSlack ((hMem journey).mpr
        ⟨place, time, hPlace, run, journeys, hRun, hJourneys, hJourney⟩)
    exact ⟨best, hBest ▸ hKept, Int.le_trans hBestLe (hFinish ▸ hLe)⟩

/-- The best of some journeys in the order in which they came, which can be evaluated. -/
def Search.keptJourneys (direction : Direction) (profile : Profile) (costSlack : Int)
    (journeys : List Journey) : List Journey :=
  (Front.empty.offerAll (journeyRules profile costSlack) (journeys.map fun journey =>
    { item := journey, criteria := journeyCriteria direction profile journey })).items

theorem Search.RangeSearch.exists_of_response {window : RangeSearch} {response : Response}
    (h : window.response = .ok response) :
    ∃ all, allJourneys window.runs = .ok all ∧
      response.journeys = bestJourneys window.request.direction window.request.profile
        window.config.costSlack all := by
  rw [RangeSearch.response] at h
  split at h
  · cases h
  · split at h
    · cases h
    · rename_i all hAll
      rw [← Except.ok.inj h]
      exact ⟨all, hAll, rfl⟩

/-- An answer holds what is kept of the journeys of its runs. -/
theorem Search.perm_of_search {request : Request} {watches : Nat → Stopwatch} {response : Response}
    {β : Type} {value : Journey → β} {values : List β}
    (h : search day request config watches = .ok response)
    (hKept : ((RangeSearch.ofRequest day request config watches).toOption.bind fun window =>
      (allJourneys window.runs).toOption.map fun all => (keptJourneys window.request.direction
        window.request.profile window.config.costSlack all).map value) = some values) :
    (response.journeys.map value).Perm values := by
  rw [search] at h
  cases hWindow : RangeSearch.ofRequest day request config watches with
  | error error => simp [hWindow] at h
  | ok window =>
      rw [hWindow] at h hKept
      dsimp only at h
      split at h
      · cases h
      · rename_i answer hAnswer
        obtain ⟨all, hAll, hBest⟩ := RangeSearch.exists_of_response hAnswer
        rw [Except.toOption, Option.bind_some, hAll, Except.toOption, Option.map_some,
          Option.some.injEq] at hKept
        rw [← Except.ok.inj h, hBest, ← hKept]
        exact (List.mergeSort_perm ..).map value

/-- In a hurry the second of three runs is cut off after its first round and the third one before
it; what was found until then is the answer. -/
theorem Search.response_hurried {response : Response}
    (h : search DayTimetable.connection Query.hurried.request SearchConfig.shuttle .ofPlace =
      .ok response) :
    response.timedOut = true ∧ response.stats = ⟨3, 3, 8⟩ ∧
      (response.journeys.map Journey.arrival).Perm [2030, 1930, 2430] := by
  have hCut : (search DayTimetable.connection Query.hurried.request SearchConfig.shuttle
      .ofPlace).toOption.map (fun response => (response.timedOut, response.stats)) =
        some (true, ⟨3, 3, 8⟩) := by decide +kernel
  rw [h, Except.toOption, Option.map_some, Option.some.injEq, Prod.mk.injEq] at hCut
  exact ⟨hCut.1, hCut.2, perm_of_search h (by decide +kernel)⟩

end JourneyPlanner
