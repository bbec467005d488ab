import JourneyPlanner.Proofs.Duality.Trail
import JourneyPlanner.Proofs.Search.Runs

/-! Departing after a time and arriving by another. Main statement: what a search finds from one end,
if it gets on a trip right where it starts, a search from the other end finds as well or better. -/
namespace JourneyPlanner

/-- Putting the legs in travel order twice leaves them as they were. -/
theorem Direction.travelOrder_travelOrder (direction : Direction) (legs : List Leg) :
    direction.travelOrder (direction.travelOrder legs) = legs := by
  cases direction with
  | forward => exact List.reverse_reverse legs
  | reverse => rfl

/-- A ride that stands next to the leg with which the search started was recorded right after the
start. -/
theorem Journey.exists_first_ride {direction : Direction} {chain : List Arrival}
    {destination : DestinationArrival} {front : List Leg} {ride first : Leg}
    (hRide : ride.isTransit = true)
    (hLegs : direction.travelOrder (legsOf direction chain destination) = front ++ [ride, first]) :
    ∃ front ride first, chain = front ++ [ride, first] ∧ ride.isTransit = true := by
  rw [Journey.legsOf_eq, Direction.travelOrder_travelOrder] at hLegs
  cases front with
  | nil =>
      obtain ⟨rfl, -⟩ := List.cons.inj hLegs
      cases direction <;> cases hRide
  | cons last front =>
      obtain ⟨before, steps, hChain, -, hSteps⟩ :=
        List.map_eq_append_iff.mp (List.cons.inj hLegs).2
      obtain ⟨step, others, rfl, rfl, hOthers⟩ := List.map_eq_cons_iff.mp hSteps
      obtain ⟨start, none, rfl, -, hNone⟩ := List.map_eq_cons_iff.mp hOthers
      rw [List.map_eq_nil_iff.mp hNone] at hChain
      exact ⟨before, step, start, hChain, (step.isTransit_leg direction).symm.trans hRide⟩

namespace Query

variable {query : Query} {time : Int} {source : Arrival} {rest : List Arrival}
  {destination : DestinationArrival}

/-- The opposite search starts where a journey ends. -/
theorem Ending.meets (ending : query.Ending time source rest destination) :
    query.Meets destination.time source destination.round .access 0 source.time := by
  refine ⟨?_, fun hFoot => ?_, ?_, ?_⟩
  · have hLeg := ending.leg
    rw [← startLegs_opposite] at hLeg
    have hReaches : query.opposite.Reaches destination.time .access 0 destination.egress.stop
        (query.opposite.direction.along destination.time destination.egress.duration) :=
      .access hLeg
    have hBack : query.direction.opposite.along destination.time destination.egress.duration =
        source.time := by
      rw [ending.time, Direction.along_opposite_along]
    rwa [direction_opposite, ending.stop, hBack] at hReaches
  · rw [ending.isTransit] at hFoot
    cases hFoot
  · rw [if_pos ending.isTransit, ending.round, Nat.zero_add]
  · refine Int.le_of_eq ?_
    rw [slackAfter, if_pos rfl, Int.add_zero]

/-- A way to the destination that ends in a ride is not far from the timetable. -/
theorem Ending.within_time (ending : query.Ending time source rest destination)
    (hNetwork : query.network.Modest) (hRequest : query.request.Modest) :
    Clock.Within (2 * Clock.modest) destination.time := by
  have hSource : Clock.Within Clock.modest source.time := by
    have hRide := ending.isTransit
    cases ending.trail with
    | access hLeg => cases hRide
    | follow before hFollows =>
        cases hFollows with
        | walk hWalk => cases hRide
        | ride hCarries hReady =>
            cases hCarries with
            | ride hTable _ _ _ _ _ _ _ hLater =>
                obtain ⟨hArrival, hDeparture⟩ := hNetwork.timeAt hTable hLater
                cases query.direction with
                | forward => exact hArrival
                | reverse => exact hDeparture
  have hLeg := hRequest.legs _ (Request.mem_legs_iff.mpr (Or.inr ending.leg))
  rw [ending.time]
  cases query.direction <;> (simp only [Direction.along, Clock.Within] at *; omega)

/-- A journey whose first step is a ride can be made from the other end, in no more rounds and without
ending before it started. -/
theorem Ending.ends_opposite (ending : query.Ending time source rest destination)
    (linked : query.network.Linked)
    (hFirst : ∃ front ride first, source :: rest = front ++ [ride, first] ∧ ride.isTransit = true) :
    ∃ round finish, query.opposite.Ends destination.time round finish ∧ round ≤ destination.round ∧
      query.direction.timeCriterion time ≤ query.direction.timeCriterion finish :=
  ending.trail.ends_opposite linked hFirst ending.meets

end Query

namespace Search.Planner

variable {draft : Draft} {query : Query} {day : DayTimetable} {config : SearchConfig}
  {planner opposite : Planner} {time : Int}

/-- What a run finds by a journey that gets on a trip right where the search starts, the opposite
search finds too, from where it ends, in no more rounds and without going back further. -/
theorem exists_opposite_run (sound : query.network.Sound)
    (hDay : query.network.onDate query.date query.modes = .ok day)
    (hPlanner : Planner.ofRequest day query.request config = .ok planner)
    (hOpposite : Planner.ofRequest day query.opposite.request config = .ok opposite)
    (hSlack : 0 ≤ query.request.boardSlack) (hLimit : query.request.timeLimit = none)
    (hNetwork : query.network.Modest) (hRequest : query.request.Modest)
    (hTime : Clock.Within Clock.modest time) (watch otherWatch : Stopwatch) :
    ∃ run, planner.run time watch = .ok run ∧ ∀ destination ∈ run.found.destinations, ∃ journey,
      Journey.ofDestination run.found.arrivals run.direction destination = .ok journey ∧
      ∀ front ride first, query.direction.travelOrder journey.legs = front ++ [ride, first] →
        ride.isTransit = true →
        ∃ other, opposite.run destination.time otherWatch = .ok other ∧
          ∃ back ∈ other.found.destinations, back.round ≤ destination.round ∧
            query.direction.timeCriterion time ≤ query.direction.timeCriterion back.time := by
  have hOppositeRequest : query.opposite.request.Modest :=
    ⟨hRequest.time, hRequest.searchWindow, hRequest.boardSlack, hRequest.legs⟩
  obtain ⟨run, hRun, answers, -, -⟩ :=
    exists_answer sound hDay hPlanner hNetwork hRequest hTime.double watch
  refine ⟨run, hRun, fun destination hMem => ?_⟩
  obtain ⟨source, rest, ending, hJourney⟩ := answers.ending destination hMem
  refine ⟨_, hJourney, fun front ride first hLegs hRide => ?_⟩
  obtain ⟨round, finish, hEnds, hRounds, hStart⟩ :=
    ending.ends_opposite sound.toLinked (Journey.exists_first_ride hRide hLegs)
  obtain ⟨other, hOther, -, hExact, -⟩ := @exists_answer query.opposite day config opposite
    destination.time sound hDay hOpposite hNetwork hOppositeRequest
    (ending.within_time hNetwork hRequest) otherWatch
  have hLimits := answers.round_le destination hMem
  obtain ⟨back, hBack, hBackRound, hBackTime⟩ :=
    (hExact hLimit hSlack).ended hEnds (hRounds.trans hLimits)
  rw [Query.direction_opposite, Direction.timeCriterion_opposite,
    Direction.timeCriterion_opposite] at hBackTime
  exact ⟨other, hOther, back, hBack, hBackRound.trans hRounds, by omega⟩

variable {forward reverse : Planner}

/-- Departing after and arriving by are dual. If a forward search gets on a trip right where it
starts, a reverse search from where it ends finds a way of no more rounds that departs no earlier;
and if a reverse search does so, a forward search finds a way of no more rounds that arrives no
later. -/
theorem departing_and_arriving_are_dual (hBuild : draft.build = .ok query.network)
    (hDay : query.network.onDate query.date query.modes = .ok day)
    (hForward : Planner.ofRequest day { query.request with arriveBy := false } config = .ok forward)
    (hReverse : Planner.ofRequest day { query.request with arriveBy := true } config = .ok reverse)
    (hSlack : 0 ≤ query.request.boardSlack) (hLimit : query.request.timeLimit = none)
    (hNetwork : query.network.Modest) (hRequest : query.request.Modest)
    (hTime : Clock.Within Clock.modest time) (watch otherWatch : Stopwatch) :
    (∃ run, forward.run time watch = .ok run ∧ ∀ destination ∈ run.found.destinations, ∃ journey,
      Journey.ofDestination run.found.arrivals run.direction destination = .ok journey ∧
      ∀ access ride rest, journey.legs = access :: ride :: rest → ride.isTransit = true →
        ∃ other, reverse.run destination.time otherWatch = .ok other ∧
          ∃ back ∈ other.found.destinations,
            back.round ≤ destination.round ∧ time ≤ back.time) ∧
    (∃ run, reverse.run time watch = .ok run ∧ ∀ destination ∈ run.found.destinations, ∃ journey,
      Journey.ofDestination run.found.arrivals run.direction destination = .ok journey ∧
      ∀ front ride egress, journey.legs = front ++ [ride, egress] → ride.isTransit = true →
        ∃ other, forward.run destination.time otherWatch = .ok other ∧
          ∃ back ∈ other.found.destinations,
            back.round ≤ destination.round ∧ back.time ≤ time) := by
  have modest : ∀ arriveBy, { query.request with arriveBy }.Modest := fun _ =>
    ⟨hRequest.time, hRequest.searchWindow, hRequest.boardSlack, hRequest.legs⟩
  constructor
  · obtain ⟨run, hRun, hBack⟩ := @exists_opposite_run
      { query with request := { query.request with arriveBy := false } } day config forward reverse
      time (.of_build hBuild) hDay hForward hReverse hSlack hLimit hNetwork (modest false) hTime
      watch otherWatch
    refine ⟨run, hRun, fun destination hMem => ?_⟩
    obtain ⟨journey, hJourney, hOther⟩ := hBack destination hMem
    refine ⟨journey, hJourney, fun access ride rest hLegs hRide => ?_⟩
    have hReversed : journey.legs.reverse = rest.reverse ++ [ride, access] := by
      rw [hLegs]
      simp
    exact hOther rest.reverse ride access hReversed hRide
  · obtain ⟨run, hRun, hBack⟩ := @exists_opposite_run
      { query with request := { query.request with arriveBy := true } } day config reverse forward
      time (.of_build hBuild) hDay hReverse hForward hSlack hLimit hNetwork (modest true) hTime
      watch otherWatch
    refine ⟨run, hRun, fun destination hMem => ?_⟩
    obtain ⟨journey, hJourney, hOther⟩ := hBack destination hMem
    refine ⟨journey, hJourney, fun front ride egress hLegs hRide => ?_⟩
    obtain ⟨other, hRunOther, back, hFound, hRound, hTimes⟩ :=
      hOther front ride egress hLegs hRide
    exact ⟨other, hRunOther, back, hFound, hRound, Int.neg_le_neg_iff.mp hTimes⟩

/-- Who departs a minute before the bus arrives thirty seconds after it; and to arrive by then there
is a way that departs no earlier. -/
theorem departing_and_arriving_are_dual_shuttle :
    ∃ day forward reverse run other,
      Query.shuttle.network.onDate Query.shuttle.date Query.shuttle.modes = .ok day ∧
      Planner.ofRequest day { Query.shuttle.request with arriveBy := false }
        SearchConfig.shuttle = .ok forward ∧
      Planner.ofRequest day { Query.shuttle.request with arriveBy := true }
        SearchConfig.shuttle = .ok reverse ∧
      forward.run (-60) = .ok run ∧
      (∃ destination ∈ run.found.destinations, destination.time = 630 ∧ destination.round = 1) ∧
      reverse.run 630 = .ok other ∧
      ∃ back ∈ other.found.destinations, back.round ≤ 1 ∧ -60 ≤ back.time := by
  have valid : ∀ arriveBy, { Query.shuttle.request with arriveBy }.Valid 2 SearchConfig.shuttle :=
    fun _ => { Query.valid_shuttle with }
  obtain ⟨day, forward, reverse, hDay, hForward, hReverse, run, hRun, hFound⟩ :
      ∃ day forward reverse,
        Query.shuttle.network.onDate Query.shuttle.date Query.shuttle.modes = .ok day ∧
        Planner.ofRequest day { Query.shuttle.request with arriveBy := false }
          SearchConfig.shuttle = .ok forward ∧
        Planner.ofRequest day { Query.shuttle.request with arriveBy := true }
          SearchConfig.shuttle = .ok reverse ∧
        ∃ run, forward.run (-60) = .ok run ∧ run.found.destinations.any (fun destination =>
          destination.time = 630 && destination.round = 1 &&
            (Journey.ofDestination run.found.arrivals run.direction destination).toOption.any
              (·.legs = [.access 0 (-60) 0, .transit 0 1 0 600 0 0, .egress 1 600 630])) = true :=
    ⟨_, _, _, rfl, Planner.ofRequest_eq_ok_iff.mpr ⟨valid false, rfl⟩,
      Planner.ofRequest_eq_ok_iff.mpr ⟨valid true, rfl⟩,
      Planner.exists_run_of_any (by decide +kernel)⟩
  obtain ⟨destination, hMem, hTest⟩ := List.any_eq_true.mp hFound
  simp only [Bool.and_eq_true, decide_eq_true_eq] at hTest
  obtain ⟨⟨hTime, hRound⟩, hRidden⟩ := hTest
  obtain ⟨same, hSame, hBack⟩ := (@departing_and_arriving_are_dual Draft.shuttle Query.shuttle day
    SearchConfig.shuttle (-60) forward reverse
    (Draft.build_eq_ok_iff.mpr ⟨Draft.sound_shuttle, rfl⟩) hDay hForward hReverse (by decide) rfl
    Draft.modest_shuttle.pack Query.modest_shuttle ⟨by decide, by decide⟩ .stopped .stopped).1
  obtain rfl := Except.ok.inj (hRun.symm.trans hSame)
  obtain ⟨journey, hJourney, hOther⟩ := hBack destination hMem
  simp only [hJourney, Except.toOption, Option.any_some, decide_eq_true_eq] at hRidden
  obtain ⟨other, hReversed, back, hBackMem, hBackRound, hBackTime⟩ := hOther _ _ _ hRidden rfl
  rw [hRound] at hBackRound
  rw [hTime] at hReversed
  exact ⟨day, forward, reverse, run, other, hDay, hForward, hReverse, hRun,
    ⟨destination, hMem, hTime, hRound⟩, hReversed, back, hBackMem, hBackRound, hBackTime⟩

end Search.Planner

end JourneyPlanner
