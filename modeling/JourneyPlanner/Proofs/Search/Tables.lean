import JourneyPlanner.Proofs.Search.Runs
import JourneyPlanner.Proofs.Search.Standard.Accounts

/-! What the tables of a search for the best time say at every point of a run. Main statement: the
best times are those of the records made so far, a stop is marked exactly if a record of the round
improved it, and then its entry leads to that record. -/
namespace JourneyPlanner

namespace Arrivals

variable {arrivals : Arrivals} {direction : Direction} {counts : Arrival → Bool} {stop : Nat}
  {time : Int}

/-- The time is the best one of the records of some kind at a stop, or the worst there is if there
are none. -/
structure IsBestTime (arrivals : Arrivals) (direction : Direction) (counts : Arrival → Bool)
    (stop : Nat) (time : Int) : Prop where
  not_better : ∀ arrival ∈ arrivals.toList, counts arrival = true → arrival.stop = stop →
    direction.isBetter arrival.time time = false
  attained : (∃ arrival ∈ arrivals.toList, counts arrival = true ∧ arrival.stop = stop ∧
      arrival.time = time) ∨
    time = direction.unreached ∧
      ∀ arrival ∈ arrivals.toList, counts arrival = true → arrival.stop ≠ stop

/-- A best time is looked for among records one after the other. -/
theorem foldl_bestTime (direction : Direction) (records : List Arrival) (start : Int) :
    ∃ best, records.foldl
        (fun best arrival =>
          match best with
          | none => some arrival.time
          | some time =>
            if direction.isBetter arrival.time time then some arrival.time else some time)
        (some start) = some best ∧
      direction.timeCriterion best ≤ direction.timeCriterion start ∧
      (∀ arrival ∈ records,
        direction.timeCriterion best ≤ direction.timeCriterion arrival.time) ∧
      (best = start ∨ ∃ arrival ∈ records, arrival.time = best) := by
  induction records generalizing start with
  | nil => exact ⟨start, rfl, Int.le_refl _, by simp, Or.inl rfl⟩
  | cons first rest ih =>
      rw [List.foldl_cons]
      dsimp only
      split
      · rename_i hBetter
        rw [Direction.isBetter_iff] at hBetter
        obtain ⟨best, hBest, hLe, hAll, hAttained⟩ := ih first.time
        refine ⟨best, hBest, by omega, List.forall_mem_cons.mpr ⟨hLe, hAll⟩, Or.inr ?_⟩
        rcases hAttained with rfl | ⟨arrival, hMem, hSame⟩
        · exact ⟨first, List.mem_cons_self .., rfl⟩
        · exact ⟨arrival, List.mem_cons_of_mem _ hMem, hSame⟩
      · rename_i hNot
        rw [Bool.not_eq_true, Direction.isBetter_eq_false_iff] at hNot
        obtain ⟨best, hBest, hLe, hAll, hAttained⟩ := ih start
        refine ⟨best, hBest, hLe, List.forall_mem_cons.mpr ⟨by omega, hAll⟩, ?_⟩
        exact hAttained.imp id fun ⟨arrival, hMem, hSame⟩ =>
          ⟨arrival, List.mem_cons_of_mem _ hMem, hSame⟩

/-- The best time that is read off the records is the one that they have. -/
theorem IsBestTime.bestTimeAt?_eq (h : arrivals.IsBestTime direction (fun _ => true) stop time)
    (hUnreached : ∀ arrival ∈ arrivals.toList, arrival.time ≠ direction.unreached) :
    arrivals.bestTimeAt? direction stop =
      if time = direction.unreached then none else some time := by
  have hMemOf : ∀ {arrival}, arrival ∈ arrivals.toList.filter (fun arrival => arrival.stop == stop) ↔
      arrival ∈ arrivals.toList ∧ arrival.stop = stop := by simp
  rw [bestTimeAt?]
  cases hRecords : arrivals.toList.filter (fun arrival => arrival.stop == stop) with
  | nil =>
      rcases h.attained with ⟨arrival, hMem, -, hStop, -⟩ | ⟨hTime, -⟩
      · have := hMemOf.mpr ⟨hMem, hStop⟩
        simp [hRecords] at this
      · rw [if_pos hTime, List.foldl_nil]
  | cons first rest =>
      rw [hRecords] at hMemOf
      obtain ⟨hFirst, hFirstStop⟩ := hMemOf.mp (List.mem_cons_self ..)
      obtain ⟨best, hBest, hLe, hAll, hAttained⟩ := foldl_bestTime direction rest first.time
      have hRecord : ∃ arrival ∈ arrivals.toList, arrival.stop = stop ∧ arrival.time = best := by
        rcases hAttained with rfl | ⟨arrival, hMem, hSame⟩
        · exact ⟨first, hFirst, hFirstStop, rfl⟩
        · obtain ⟨hArrival, hStop⟩ := hMemOf.mp (List.mem_cons_of_mem _ hMem)
          exact ⟨arrival, hArrival, hStop, hSame⟩
      rcases h.attained with ⟨arrival, hMem, -, hStop, rfl⟩ | ⟨-, hNone⟩
      · have hBound : direction.timeCriterion best ≤ direction.timeCriterion arrival.time := by
          rcases List.mem_cons.mp (hMemOf.mpr ⟨hMem, hStop⟩) with rfl | hRest
          · exact hLe
          · exact hAll arrival hRest
        obtain ⟨other, hOther, hOtherStop, rfl⟩ := hRecord
        have hNot := h.not_better other hOther rfl hOtherStop
        rw [Direction.isBetter_eq_false_iff] at hNot
        rw [List.foldl_cons, if_neg (hUnreached arrival hMem)]
        refine hBest.trans (congrArg some ?_)
        exact Direction.timeCriterion_injective (Int.le_antisymm hBound hNot)
      · exact absurd hFirstStop (hNone first hFirst rfl)

end Arrivals

namespace Search

/-- What the tables of a state of a round say about the records made so far. -/
structure Standard.State.SumsUp (state : State) (direction : Direction) (round : Nat) : Prop where
  time : ∀ stop,
    state.arrivals.IsBestTime direction (fun _ => true) stop (state.best.time stop)
  transitTime : ∀ stop,
    state.arrivals.IsBestTime direction Arrival.isTransit stop (state.best.transitTime stop)
  time_no_worse : ∀ stop,
    direction.isBetter (state.best.transitTime stop) (state.best.time stop) = false
  reachedCurrent_iff : ∀ stop, state.best.reachedCurrent.contains stop = true ↔
    ∃ id arrival, state.arrivals.get? id = some arrival ∧ arrival.stop = stop ∧
      arrival.round = round ∧ state.arrivals.Leading direction (fun _ => true) id arrival
  current : ∀ stop, state.best.reachedCurrent.contains stop = true →
    ∃ id arrival, state.current.get stop = some id ∧ state.arrivals.get? id = some arrival ∧
      arrival.stop = stop ∧ arrival.round = round ∧ arrival.time = state.best.time stop
  reachedLast_iff : ∀ stop, state.best.reachedLast.contains stop = true ↔
    ∃ id arrival, state.arrivals.get? id = some arrival ∧ arrival.stop = stop ∧
      arrival.round + 1 = round ∧ state.arrivals.Leading direction (fun _ => true) id arrival
  last : ∀ stop, state.best.reachedLast.contains stop = true →
    ∃ id arrival, state.last.get stop = some id ∧ state.arrivals.get? id = some arrival ∧
      arrival.stop = stop ∧ arrival.round + 1 = round ∧
      ∀ other ∈ state.arrivals.toList, other.stop = stop → other.round + 1 = round →
        direction.isBetter other.time arrival.time = false
  reachedByTransit_iff : ∀ stop, state.best.reachedByTransit.contains stop = true ↔
    ∃ arrival ∈ state.arrivals.toList, arrival.isTransit = true ∧ arrival.stop = stop ∧
      arrival.round = round
  byTransit : ∀ stop, state.best.reachedByTransit.contains stop = true →
    ∃ id arrival, state.byTransit.get stop = some id ∧ state.arrivals.get? id = some arrival ∧
      arrival.isTransit = true ∧ arrival.stop = stop ∧ arrival.round = round ∧
      ∀ other ∈ state.arrivals.toList, other.isTransit = true → other.stop = stop →
        other.round = round → direction.isBetter other.time arrival.time = false
  destinationTime : state.destinationTime =
    (state.destinations.getLast?.map DestinationArrival.time).getD direction.unreached
  destinationTime_no_worse : ∀ destination ∈ state.destinations,
    direction.isBetter destination.time state.destinationTime = false

/-- A ledger holds the best times of the records it is kept over. -/
theorem Standard.Ledger.isBestTime {direction : Direction} {numStops round : Nat}
    {counts : Arrival → Bool} {arrivals : Arrivals} {times : IndexTable Int} {marks : IndexSet}
    {holders : IndexTable (Option Nat)}
    (ledger : Ledger direction numStops counts arrivals round times marks holders)
    (hLt : ∀ arrival ∈ arrivals.toList,
      direction.timeCriterion arrival.time < direction.timeCriterion direction.unreached)
    (stop : Nat) : arrivals.IsBestTime direction counts stop (times.get stop) := by
  have hLe : ∀ arrival ∈ arrivals.toList, counts arrival = true → arrival.stop = stop →
      direction.timeCriterion (times.get stop) ≤ direction.timeCriterion arrival.time :=
    fun arrival hMem hCounts hStop => hStop ▸ ledger.time_le arrival hMem hCounts
  refine ⟨fun arrival hMem hCounts hStop =>
    Direction.isBetter_eq_false_iff.mpr (hLe arrival hMem hCounts hStop), ?_⟩
  rcases ledger.attained stop with
    hUnreached | ⟨id, hHolder⟩ | ⟨found, hFound, hCounts, hStop, hSame, -⟩
  · refine Or.inr ⟨hUnreached, fun arrival hMem hCounts hStop => ?_⟩
    have hNoLater := hLe arrival hMem hCounts hStop
    have hEarlier := hLt arrival hMem
    rw [hUnreached] at hNoLater
    omega
  · obtain ⟨found, hFound, hCounts, hStop, -, hSame⟩ := ledger.held hHolder
    exact Or.inl ⟨found, Arrivals.mem_toList_of_get? hFound, hCounts, hStop, hSame⟩
  · exact Or.inl ⟨found, hFound, hCounts, hStop, hSame⟩

/-- Accounts in order sum up the records. -/
theorem Standard.Accounts.sumsUp {problem : Problem} {round : Nat} {state : State}
    (accounts : Accounts problem round state) : state.SumsUp problem.direction round := by
  have hTransit := accounts.byTransit.isBestTime accounts.lt_unreached
  constructor
  · exact accounts.best.isBestTime accounts.lt_unreached
  · exact hTransit
  · intro stop
    rcases (hTransit stop).attained with ⟨ride, hMem, -, hStop, hSame⟩ | ⟨hSame, -⟩
    · have hLe := accounts.best.time_le ride hMem rfl
      rw [hStop, hSame] at hLe
      exact Direction.isBetter_eq_false_iff.mpr hLe
    · rw [BestTimes.transitTime, hSame]
      exact Direction.isBetter_eq_false_iff.mpr
        (accounts.best.le_unreached accounts.lt_unreached stop)
  · intro stop
    simp [accounts.currentStandings.contains_iff accounts.best.marked]
  · intro stop hMark
    obtain ⟨id, hHolder⟩ := (accounts.best.marked.contains_iff stop).mp hMark
    obtain ⟨arrival, hArrival, -, hStop, hRound, hTime⟩ := accounts.best.held hHolder
    exact ⟨id, arrival, (holder?_eq_some_iff.mp hHolder).2, hArrival, hStop, hRound, hTime⟩
  · intro stop
    simp [accounts.lastStandings.contains_iff accounts.last]
  · intro stop hMark
    obtain ⟨id, arrival, hEntry, hArrival, -, hStop, hTurn, hBest⟩ :=
      accounts.lastStandings.exists_best accounts.last hMark
    exact ⟨id, arrival, hEntry, hArrival, hStop, hTurn, fun other hOther => hBest other hOther rfl⟩
  · intro stop
    rw [accounts.transitStandings.contains_iff accounts.byTransit.marked]
    constructor
    · rintro ⟨id, arrival, hArrival, hRide, hStop, hTurn, -⟩
      exact ⟨arrival, Arrivals.mem_toList_of_get? hArrival, hRide, hStop, Nat.succ_injective hTurn⟩
    · rintro ⟨arrival, hMem, hRide, hStop, hRound⟩
      obtain ⟨id, hArrival⟩ := Arrivals.mem_toList_iff.mp hMem
      exact ⟨id, arrival, hArrival, hRide, hStop, congrArg (· + 1) hRound,
        accounts.ride_leading hArrival hRide⟩
  · intro stop hMark
    obtain ⟨id, arrival, hEntry, hArrival, hRide, hStop, hTurn, hBest⟩ :=
      accounts.transitStandings.exists_best accounts.byTransit.marked hMark
    exact ⟨id, arrival, hEntry, hArrival, hRide, hStop, Nat.succ_injective hTurn,
      fun other hOther hRideOther hStopOther hRoundOther =>
        hBest other hOther hRideOther hStopOther (congrArg (· + 1) hRoundOther)⟩
  · exact accounts.destinationTime
  · exact accounts.destinationTime_le

end Search

variable {draft : Draft} {query : Query} {day : DayTimetable} {config : SearchConfig}
  {planner : Search.Planner} {time : Int}

/-- In a search for the best time the tables sum up the records, at every point of every round. When
the run is over they hold the best time of every stop that was reached. -/
theorem Search.Planner.tables_sum_up_records (hBuild : draft.build = .ok query.network)
    (hDay : query.network.onDate query.date query.modes = .ok day)
    (hPlanner : Planner.ofRequest day query.request config = .ok planner)
    (hProfile : query.request.profile ≠ .multiCriteria) (hNetwork : query.network.Modest)
    (hRequest : query.request.Modest) (hTime : Clock.Within Clock.modest time)
    (watch : Stopwatch) :
    (∀ round stage state,
      planner.Visits (Standard.strategy planner.problem) time round stage state →
        state.SumsUp query.direction round) ∧
      ∃ run state, planner.run time watch = .ok run ∧
        planner.Visits (Standard.strategy planner.problem) time run.rounds .ended state ∧
        run.found.arrivals = state.arrivals ∧ run.found.destinations = state.destinations ∧
        ∀ stop, run.bestTimeAt? stop =
          if state.best.isReached query.direction stop then some (state.best.time stop)
          else none := by
  obtain ⟨regular, -, hTransfers⟩ := Planner.regular_ofRequest (.of_build hBuild) hDay hPlanner
    hNetwork hRequest (Clock.Within.double hTime)
  obtain ⟨run, hRun, hDirection, -⟩ := Standard.exists_run regular hTransfers watch
  obtain ⟨state, hFound, visits⟩ := Planner.exists_visits_of_run hRun
  have hSame : planner.problem.direction = query.direction := by
    obtain ⟨-, rfl⟩ := Planner.ofRequest_eq_ok_iff.mp hPlanner
    rfl
  have hAccounts : ∀ {round stage state},
      planner.Visits (Standard.strategy planner.problem) time round stage state →
        Standard.Accounts planner.problem round state :=
    Standard.accounts_of_visits regular.sound.toLinked regular.legs
  have accounts := hAccounts visits
  refine ⟨fun round stage state visits => hSame ▸ (hAccounts visits).sumsUp, run, state, ?_, visits,
    congrArg Found.arrivals hFound, congrArg Found.destinations hFound, fun stop => ?_⟩
  · obtain ⟨-, rfl⟩ := Planner.ofRequest_eq_ok_iff.mp hPlanner
    rw [Planner.run]
    cases hKind : query.request.profile with
    | multiCriteria => exact absurd hKind hProfile
    | standard => exact hRun
    | bestTime => exact hRun
  · have hArrivals : run.found.arrivals = state.arrivals := congrArg Found.arrivals hFound
    rw [Run.bestTimeAt?, hDirection, hArrivals, (accounts.sumsUp.time stop).bestTimeAt?_eq, hSame]
    · simp [BestTimes.isReached]
    · intro arrival hMem hUnreached
      have hLt := accounts.lt_unreached arrival hMem
      rw [hUnreached] at hLt
      exact Int.lt_irrefl _ hLt

theorem Search.Planner.tables_sum_up_records_shuttle :
    ∃ day planner run state,
      Query.shuttle.network.onDate Query.shuttle.date Query.shuttle.modes = .ok day ∧
      Planner.ofRequest day Query.shuttle.request SearchConfig.shuttle = .ok planner ∧
      planner.run (-60) = .ok run ∧
      planner.Visits (Standard.strategy planner.problem) (-60) run.rounds .ended state ∧
      state.SumsUp .forward run.rounds := by
  obtain ⟨hSums, run, state, hRun, visits, -⟩ := @Search.Planner.tables_sum_up_records Draft.shuttle
    Query.shuttle _ SearchConfig.shuttle _ (-60)
    (Draft.build_eq_ok_iff.mpr ⟨Draft.sound_shuttle, rfl⟩) rfl
    (Planner.ofRequest_eq_ok_iff.mpr ⟨Query.valid_shuttle, rfl⟩) (by decide)
    Draft.modest_shuttle.pack Query.modest_shuttle ⟨by decide, by decide⟩ .stopped
  exact ⟨_, _, run, state, rfl, Planner.ofRequest_eq_ok_iff.mpr ⟨Query.valid_shuttle, rfl⟩, hRun,
    visits, hSums _ _ _ visits⟩

end JourneyPlanner
