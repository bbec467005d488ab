import JourneyPlanner.Proofs.Search.Problem

/-! Getting on a trip and getting off it, on tables that need not be sound except where it is
said so. The trip got on is the first one that can be caught, so on a sound table leaving it
anywhere is no later than leaving any other trip that could have been caught. -/
namespace JourneyPlanner

/-- A trip found runs on the day. -/
theorem TripTable.runs_of_boardable {table : TripTable} {isActive : Nat → Bool}
    {direction : Direction} {position trip : Nat} {ready : Int} {bound : Option Nat}
    (h : table.boardable isActive direction position ready bound = .ok (some trip)) :
    table.Runs isActive trip := by
  cases direction with
  | forward =>
      obtain ⟨first, -, hFound⟩ := Checked.bind_eq_ok_iff.mp h
      exact (firstRunning_eq_some hFound).2
  | reverse =>
      obtain ⟨last, -, hFound⟩ := Checked.bind_eq_ok_iff.mp h
      exact (firstRunning_eq_some hFound).2

/-- A fault that names a trip and a position which the trip gets to, along a search, before it has
left one that comes earlier. -/
inductive Network.GoesBack (network : Network) (direction : Direction) : Fault → Prop where
  | trip {pattern trip first second : Nat} {table : TripTable} {time later : StopTime}
      (hTable : network.tripTable pattern = .ok table)
      (hOrder : direction.Precedes first second)
      (hFirst : first < table.numStops) (hSecond : second < table.numStops)
      (hTime : table.timeAt trip first = .ok time)
      (hLater : table.timeAt trip second = .ok later)
      (hBack : direction.isBetter (direction.alightTime later) (direction.boardTime time) = true) :
      GoesBack network direction (.integrity (.nonMonotonicSchedule pattern trip second))

/-- In a sound network no trip goes back in time. -/
theorem Network.Sound.not_goesBack {network : Network} (sound : network.Sound)
    {direction : Direction} (fault : Fault) : ¬ network.GoesBack direction fault := by
  rintro ⟨hTable, hOrder, hFirst, hSecond, hTime, hLater, hBack⟩
  have hForward :=
    (sound.table hTable).boardTime_le_alightTime hOrder hFirst hSecond hTime hLater
  rw [Direction.isBetter_iff] at hBack
  omega

namespace Search

/-- A trip that runs that day passes one position of its pattern and later another. -/
structure Problem.Passage (problem : Problem) (table : TripTable) (trip first second : Nat)
    (boarded left : Int) : Prop where
  runs : table.Runs problem.day.isActive trip
  order : problem.direction.Precedes first second
  boards : ∃ time, table.timeAt trip first = .ok time ∧
    problem.direction.boardTime time = boarded
  alights : ∃ time, table.timeAt trip second = .ok time ∧
    problem.direction.alightTime time = left

variable {problem : Problem} {table : TripTable} {position stop id : Nat} {arrival : Arrival}
  {bound : Option Nat}

/-- The time from which a trip can be got on after an arrival. -/
def Problem.readyAfter (problem : Problem) (arrival : Arrival) : Int :=
  problem.direction.plus arrival.time (problem.slackAfter arrival.round)

/-- A ride is got on if a trip can be caught, at its time there. -/
theorem board?_eq_some_iff {ride : Ride} :
    board? problem table position stop id arrival bound = .ok (some ride) ↔
      ∃ trip time, problem.day.boardable table problem.direction position
          (problem.readyAfter arrival) bound = .ok (some trip) ∧
        table.timeAt trip position = .ok time ∧
        ride = { trip, stop, time := problem.direction.boardTime time
                 relativeCost := problem.costOnBoard arrival (problem.direction.boardTime time) -
                   problem.rideCostAt (problem.direction.boardTime time)
                 predecessor := id } := by
  unfold board? Problem.readyAfter
  rw [Checked.bind_eq_ok_iff]
  constructor
  · rintro ⟨_ | trip, hTrip, h⟩
    · cases h
    · obtain ⟨time, hTime, h⟩ := Checked.bind_eq_ok_iff.mp h
      cases h
      exact ⟨trip, time, hTrip, hTime, rfl⟩
  · rintro ⟨trip, time, hTrip, hTime, rfl⟩
    exact ⟨some trip, hTrip, Checked.bind_eq_ok_iff.mpr ⟨time, hTime, rfl⟩⟩

/-- Getting on a trip never leaves a table that has all its times. -/
theorem exists_board? (problem : Problem) (stop id : Nat) (arrival : Arrival) (bound : Option Nat)
    (shaped : table.Shaped) (hPosition : position < table.numStops)
    (hBound : ∀ limit, bound = some limit → limit < table.numTrips) :
    ∃ result, board? problem table position stop id arrival bound = .ok result := by
  obtain ⟨result, hResult⟩ := shaped.exists_boardable problem.day.isActive problem.direction
    (problem.readyAfter arrival) bound hPosition hBound
  cases result with
  | none => exact ⟨none, Checked.bind_eq_ok_iff.mpr ⟨none, hResult, rfl⟩⟩
  | some trip =>
      obtain ⟨time, hTime⟩ :=
        shaped.exists_timeAt (TripTable.runs_of_boardable hResult).lt_numTrips hPosition
      exact ⟨_, board?_eq_some_iff.mpr ⟨trip, time, hResult, hTime, rfl⟩⟩

structure Boarded (problem : Problem) (table : TripTable) (position stop id : Nat)
    (ride : Ride) : Prop where
  runs : table.Runs problem.day.isActive ride.trip
  stop_eq : ride.stop = stop
  predecessor_eq : ride.predecessor = id
  time : ∃ time, table.timeAt ride.trip position = .ok time ∧
    ride.time = problem.direction.boardTime time

theorem boarded_of_board? {ride : Ride}
    (h : board? problem table position stop id arrival bound = .ok (some ride)) :
    Boarded problem table position stop id ride := by
  obtain ⟨trip, time, hTrip, hTime, rfl⟩ := board?_eq_some_iff.mp h
  exact ⟨TripTable.runs_of_boardable hTrip, rfl, rfl, time, hTime, rfl⟩

/-- On a sound table the trip got on leaves no earlier than it can be got on. -/
theorem readyAfter_le_of_board? (sound : table.Sound) (hPosition : position < table.numStops)
    {ride : Ride} (h : board? problem table position stop id arrival bound = .ok (some ride)) :
    problem.direction.timeCriterion (problem.readyAfter arrival) ≤
      problem.direction.timeCriterion ride.time := by
  obtain ⟨trip, time, hTrip, hTime, rfl⟩ := board?_eq_some_iff.mp h
  obtain ⟨found, hFound, hReady⟩ := (sound.of_boardable hPosition hTrip).inTime
  rw [hTime, Except.ok.injEq] at hFound
  rwa [← hFound] at hReady

/-- The trip got on comes before the one that was to be bettered. -/
theorem tripCriterion_lt_of_board? (sound : table.Sound) (hPosition : position < table.numStops)
    {ride : Ride} {limit : Nat}
    (h : board? problem table position stop id arrival (some limit) = .ok (some ride)) :
    problem.direction.tripCriterion ride.trip < problem.direction.tripCriterion limit := by
  obtain ⟨trip, time, hTrip, -, rfl⟩ := board?_eq_some_iff.mp h
  exact (sound.of_boardable hPosition hTrip).before limit rfl

/-- No running trip that could have been caught, and would have bettered the bound, comes before
the trip got on. -/
theorem board?_least (sound : table.Sound) (hPosition : position < table.numStops)
    {result : Option Ride}
    (h : board? problem table position stop id arrival bound = .ok result)
    {other : Nat} {time : StopTime} (hRuns : table.Runs problem.day.isActive other)
    (hTime : table.timeAt other position = .ok time)
    (hReady : problem.direction.timeCriterion (problem.readyAfter arrival) ≤
      problem.direction.timeCriterion (problem.direction.boardTime time))
    (hBound : ∀ limit, bound = some limit →
      problem.direction.tripCriterion other < problem.direction.tripCriterion limit) :
    ∃ ride, result = some ride ∧
      problem.direction.tripCriterion ride.trip ≤ problem.direction.tripCriterion other := by
  obtain ⟨found, hFound, hRest⟩ := Checked.bind_eq_ok_iff.mp h
  obtain ⟨trip, rfl, hOrder⟩ :=
    sound.boardable_least hPosition hFound ⟨hRuns, ⟨time, hTime, hReady⟩, hBound⟩
  obtain ⟨boardedAt, -, hRest⟩ := Checked.bind_eq_ok_iff.mp hRest
  cases hRest
  exact ⟨_, rfl, hOrder⟩

section Change

variable {ride result : Option Ride} (sound : table.Sound) (hPosition : position < table.numStops)
  (h : board? problem table position stop id arrival (ride.map Ride.trip) = .ok result)

include sound hPosition h

/-- A change to a better trip, or staying on, leaves one on a trip no later than before. -/
theorem change_no_later {on : Ride} (hOn : ride = some on) :
    ∃ better, (result <|> ride) = some better ∧
      problem.direction.tripCriterion better.trip ≤ problem.direction.tripCriterion on.trip := by
  subst hOn
  cases result with
  | none => exact ⟨on, rfl, Int.le_refl _⟩
  | some better =>
      exact ⟨better, rfl, Int.le_of_lt (tripCriterion_lt_of_board? sound hPosition h)⟩

/-- No running trip that could have been caught comes before the one that is on board then. -/
theorem change_least {trip : Nat} {time : StopTime} (hRuns : table.Runs problem.day.isActive trip)
    (hTime : table.timeAt trip position = .ok time)
    (hReady : problem.direction.timeCriterion (problem.readyAfter arrival) ≤
      problem.direction.timeCriterion (problem.direction.boardTime time)) :
    ∃ better, (result <|> ride) = some better ∧
      problem.direction.tripCriterion better.trip ≤ problem.direction.tripCriterion trip := by
  by_cases hBetter : ∀ limit, ride.map Ride.trip = some limit →
      problem.direction.tripCriterion trip < problem.direction.tripCriterion limit
  · obtain ⟨better, rfl, hLe⟩ := board?_least sound hPosition h hRuns hTime hReady hBetter
    exact ⟨better, rfl, hLe⟩
  · simp only [Option.map_eq_some_iff, forall_exists_index, and_imp,
      forall_apply_eq_imp_iff₂, not_forall, Int.not_lt] at hBetter
    obtain ⟨on, hOn, hLe⟩ := hBetter
    obtain ⟨better, hChange, hNoLater⟩ := change_no_later sound hPosition h hOn
    exact ⟨better, hChange, Int.le_trans hNoLater hLe⟩

end Change

namespace Ride

variable {ride : Ride}

/-- A ride is left when its trip gets there, unless that is before it was got on. -/
theorem alightTime_eq_ok_iff {left : Int} :
    ride.alightTime problem table position = .ok left ↔
      ∃ time, table.timeAt ride.trip position = .ok time ∧
        problem.direction.alightTime time = left ∧
        problem.direction.timeCriterion ride.time ≤ problem.direction.timeCriterion left := by
  unfold alightTime
  rw [Checked.bind_eq_ok_iff]
  refine exists_congr fun time => and_congr_right fun _ => ?_
  by_cases hBack : problem.direction.isBetter (problem.direction.alightTime time) ride.time = true
  · simp only [hBack, if_true, reduceCtorEq, false_iff, not_and, Int.not_le]
    rintro rfl
    exact Direction.isBetter_iff.mp hBack
  · simp only [hBack, Bool.false_eq_true, if_false, Except.ok.injEq]
    refine ⟨?_, fun h => h.1⟩
    rintro rfl
    exact ⟨rfl, Direction.isBetter_eq_false_iff.mp (Bool.eq_false_iff.mpr hBack)⟩

/-- A ride can be left at every later position, unless its trip goes back in time. -/
theorem alightTime_yields {network : Network} {pattern : Nat}
    (hTable : network.tripTable pattern = .ok table) (shaped : table.Shaped) {first second : Nat}
    (hBoarded : Boarded problem table first stop id ride)
    (hOrder : problem.direction.Precedes first second) (hFirst : first < table.numStops)
    (hSecond : second < table.numStops) :
    Yields (fun _ => True) (network.GoesBack problem.direction)
      (ride.alightTime problem table second) := by
  obtain ⟨time, hTime, hRide⟩ := hBoarded.time
  obtain ⟨later, hLater⟩ := shaped.exists_timeAt hBoarded.runs.lt_numTrips hSecond
  rw [alightTime, hLater]
  simp only [bind, Except.bind]
  split
  · rename_i hBack
    rw [Network.pattern_of_tripTable hTable]
    exact .trip hTable hOrder hFirst hSecond hTime hLater (hRide ▸ hBack)
  · trivial

/-- A ride that is left is a passage of its trip. -/
theorem passage_of_alightTime {first second : Nat} {left : Int}
    (hBoarded : Boarded problem table first stop id ride)
    (hOrder : problem.direction.Precedes first second)
    (hLeft : ride.alightTime problem table second = .ok left) :
    problem.Passage table ride.trip first second ride.time left := by
  obtain ⟨time, hTime, hRide⟩ := hBoarded.time
  obtain ⟨later, hLater, hAlight, -⟩ := alightTime_eq_ok_iff.mp hLeft
  exact ⟨hBoarded.runs, hOrder, ⟨time, hTime, hRide.symm⟩, ⟨later, hLater, hAlight⟩⟩

end Ride

end Search

/-- The rides of a query are the passages of trips of the patterns that take part that day. -/
theorem Query.Posed.carries_iff {query : Query} {problem : Search.Problem}
    (posed : query.Posed problem) {pattern trip origin target : Nat} {boarded left : Int} :
    query.network.Carries query.date query.modes query.direction pattern trip origin target
        boarded left ↔
      ∃ table first second, problem.day.network.tripTable pattern = .ok table ∧
        problem.day.activePatterns.contains pattern = true ∧
        table.stopAt first = .ok origin ∧ table.stopAt second = .ok target ∧
        problem.Passage table trip first second boarded left := by
  have hActive := DayTimetable.isActive_onDate posed.onDate
  constructor
  · rintro ⟨hTable, hMode, hService, hRuns, hOrder, hOrigin, hTarget, hTime, hLater⟩
    rename_i table service first second time later
    have runs : table.Runs problem.day.isActive trip :=
      ⟨service, hService, (hActive service).trans hRuns⟩
    refine ⟨table, first, second, posed.network ▸ hTable, ?_, hOrigin, hTarget, runs, ?_,
      ⟨time, hTime, ?_⟩, ⟨later, hLater, ?_⟩⟩
    · exact (DayTimetable.activePatterns_onDate posed.onDate hTable).mpr ⟨hMode, trip, runs⟩
    · exact posed.direction ▸ hOrder
    · rw [posed.direction]
    · rw [posed.direction]
  · rintro ⟨table, first, second, hTable, hContains, hOrigin, hTarget, passage⟩
    rw [posed.network] at hTable
    obtain ⟨service, hService, hRuns⟩ := passage.runs
    obtain ⟨time, hTime, rfl⟩ := passage.boards
    obtain ⟨later, hLater, rfl⟩ := passage.alights
    rw [posed.direction]
    exact .ride hTable ((DayTimetable.activePatterns_onDate posed.onDate hTable).mp hContains).1
      hService ((hActive service).symm.trans hRuns) (posed.direction ▸ passage.order) hOrigin
      hTarget hTime hLater

end JourneyPlanner
