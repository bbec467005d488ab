import JourneyPlanner.Proofs.Search.Itinerary

/-! A journey found from one end, made again from the other. A search in the opposite direction takes
the same rides and walks in turn; it keeps the slack free on the other side of each of them and counts
a walk to the ride on its other side. Main statement: if the first step of a trail is a ride, the
opposite search can make its journey, in no more rounds, and does not end before the trail started. -/
namespace JourneyPlanner

namespace Direction

def opposite : Direction → Direction
  | forward => reverse
  | reverse => forward

/-- What is earlier in one direction is later in the other. -/
@[simp]
theorem timeCriterion_opposite (direction : Direction) (time : Int) :
    direction.opposite.timeCriterion time = -direction.timeCriterion time := by
  cases direction <;> simp [opposite, timeCriterion]

theorem timeCriterion_along_opposite (direction : Direction) (time duration : Int) :
    direction.timeCriterion (direction.opposite.along time duration) =
      direction.timeCriterion time - duration := by
  cases direction with
  | forward => rfl
  | reverse =>
      simp only [opposite, along, timeCriterion]
      omega

/-- Going forth and back over the same duration returns to the time. -/
theorem along_opposite_along (direction : Direction) (time duration : Int) :
    direction.opposite.along (direction.along time duration) duration = time := by
  cases direction <;> (simp only [opposite, along]; omega)

end Direction

/-- A ride is boarded where the opposite search leaves it. -/
theorem Network.Carries.opposite {network : Network} {date : Date} {modes : ModeSet}
    {direction : Direction} {pattern trip origin target : Nat} {boarded left : Int}
    (ride : network.Carries date modes direction pattern trip origin target boarded left) :
    network.Carries date modes direction.opposite pattern trip target origin left boarded := by
  obtain ⟨hTable, hMode, hService, hRuns, hOrder, hOrigin, hTarget, hTime, hLater⟩ := ride
  cases direction with
  | forward => exact .ride hTable hMode hService hRuns hOrder hTarget hOrigin hLater hTime
  | reverse => exact .ride hTable hMode hService hRuns hOrder hTarget hOrigin hLater hTime

/-- A walk leads the opposite search back. -/
theorem Network.Linked.transfers_opposite {network : Network} (linked : network.Linked)
    {direction : Direction} {stop : Nat} {transfer : Transfer}
    (hWalk : transfer ∈ direction.transfers network stop) :
    transfer ∈ direction.opposite.transfers network (direction.transferTarget transfer) ∧
      direction.opposite.transferTarget transfer = stop := by
  cases direction with
  | forward =>
      have hOrigin : transfer.origin = stop := (linked.transfersFrom hWalk).1
      exact ⟨linked.transfersTo.mpr ⟨rfl, hOrigin ▸ hWalk⟩, hOrigin⟩
  | reverse =>
      obtain ⟨hTarget, hFrom⟩ := linked.transfersTo.mp hWalk
      exact ⟨hFrom, hTarget⟩

namespace Query

def opposite (query : Query) : Query :=
  { query with request := { query.request with arriveBy := !query.request.arriveBy } }

variable {query : Query} {time finish reached : Int} {arrival source : Arrival}
  {rest : List Arrival} {manner : Manner} {round : Nat}

@[simp]
theorem direction_opposite (query : Query) : query.opposite.direction = query.direction.opposite := by
  cases h : query.request.arriveBy <;>
    simp [opposite, direction, Request.direction, Direction.opposite, h]

/-- The opposite request starts on the legs this one ends on. -/
theorem startLegs_opposite (query : Query) :
    query.opposite.request.startLegs = query.request.endLegs := by
  cases h : query.request.arriveBy <;> simp [opposite, Request.startLegs, Request.endLegs, h]

theorem endLegs_opposite (query : Query) :
    query.opposite.request.endLegs = query.request.startLegs := by
  cases h : query.request.arriveBy <;> simp [opposite, Request.startLegs, Request.endLegs, h]

/-- Where the opposite search has to be, and when, to go on by the way that a record tells. -/
structure Meets (query : Query) (finish : Int) (arrival : Arrival) (rounds : Nat)
    (manner : Manner) (round : Nat) (reached : Int) : Prop where
  reaches : query.opposite.Reaches finish manner round arrival.stop reached
  /-- It does not start with a walk. -/
  round_pos : arrival.isTransit = false → 0 < round
  /-- The rounds it has made, with one for a walk on from here, leave enough for the way. -/
  rounds_le : (if arrival.isTransit then round else manner.roundOnFoot round) + arrival.round ≤ rounds
  /-- There is time to board the ride that comes next. -/
  time_le : query.direction.timeCriterion arrival.time + query.slackAfter round ≤
    query.direction.timeCriterion reached

/-- From the first ride on, every boarding waits for the slack. -/
theorem slackAfter_of_pos (h : 0 < round) : query.slackAfter round = query.request.boardSlack :=
  if_neg (Nat.ne_of_gt h)

/-- A trail with more than one record did not get to the last one by an access leg. -/
theorem Trail.round_pos (trail : query.Trail time (arrival :: source :: rest)) : 0 < arrival.round := by
  refine Nat.pos_of_ne_zero fun hRound => ?_
  have hAccess := trail.round_eq_zero_iff.mp hRound
  cases trail with
  | follow before hFollows => cases hFollows <;> cases hAccess

/-- The opposite search takes the ride by which a record was made. -/
theorem Meets.reaches_source {target pattern trip id rounds : Nat} {boarded left cost : Int}
    (meets : query.Meets finish
      { stop := target, round := source.round + 1, time := left, cost
        approach := .transit source.stop boarded pattern trip, predecessor := some id }
      rounds manner round reached)
    (hRide : query.network.Carries query.date query.modes query.direction pattern trip source.stop
      target boarded left) :
    query.opposite.Reaches finish .ride (round + 1) source.stop boarded := by
  have hTime : query.direction.timeCriterion left + query.slackAfter round ≤
      query.direction.timeCriterion reached := meets.time_le
  have hReady : query.opposite.direction.isBetter left
      (query.opposite.direction.along reached (query.opposite.slackAfter round)) = false := by
    rw [direction_opposite, Direction.isBetter_eq_false_iff, Direction.timeCriterion_along,
      Direction.timeCriterion_opposite, Direction.timeCriterion_opposite,
      show query.opposite.slackAfter round = query.slackAfter round from rfl]
    omega
  have hBack := hRide.opposite
  rw [← direction_opposite] at hBack
  exact .ride meets.reaches hBack hReady

/-- From one record of a trail the opposite search gets to the one before it. -/
theorem Meets.follow {second : Arrival} {rounds : Nat}
    (meets : query.Meets finish arrival rounds manner round reached)
    (before : query.Trail time (source :: second :: rest)) (hFollows : query.Follows source arrival)
    (linked : query.network.Linked) :
    ∃ manner round reached, query.Meets finish source rounds manner round reached := by
  cases hFollows with
  | @ride target pattern trip id boarded left cost hRide hReady =>
      refine ⟨.ride, round + 1, boarded, meets.reaches_source hRide, fun _ => Nat.succ_pos _, ?_, ?_⟩
      · have hRounds : round + (source.round + 1) ≤ rounds := meets.rounds_le
        simp only [Manner.roundOnFoot, ite_self]
        omega
      · rw [Direction.isBetter_eq_false_iff, Direction.timeCriterion_along,
          slackAfter_of_pos before.round_pos] at hReady
        rwa [slackAfter_of_pos (Nat.succ_pos round)]
  | @walk id cost transfer hWalk =>
      have hPos : 0 < round := meets.round_pos rfl
      have hFoot : 0 < manner.roundOnFoot round := by
        cases manner <;> simp only [Manner.roundOnFoot] <;> omega
      obtain ⟨hBack, hTarget⟩ := linked.transfers_opposite hWalk
      refine ⟨.walk, manner.roundOnFoot round,
        query.direction.opposite.along reached transfer.duration, ?_, fun _ => hFoot, ?_, ?_⟩
      · have hReaches := meets.reaches
        rw [← hTarget, ← direction_opposite]
        exact .walk hReaches (by rw [direction_opposite]; exact hBack)
      · have hRounds : manner.roundOnFoot round + source.roundOnFoot ≤ rounds := meets.rounds_le
        unfold Arrival.roundOnFoot at hRounds
        split
        · rwa [if_pos ‹_›] at hRounds
        · rw [if_neg ‹_›] at hRounds
          have hNext : Manner.walk.roundOnFoot (manner.roundOnFoot round) =
            manner.roundOnFoot round + 1 := rfl
          omega
      · have hTime := meets.time_le
        rw [slackAfter_of_pos hPos] at hTime
        rw [slackAfter_of_pos hFoot, Direction.timeCriterion_along_opposite]
        simp only [Direction.timeCriterion_along] at hTime
        omega

/-- From the first ride of a trail the opposite search gets to the start. -/
theorem Meets.ends {rounds : Nat} (meets : query.Meets finish arrival rounds manner round reached)
    (start : query.Trail time [source]) (hFollows : query.Follows source arrival)
    (hRide : arrival.isTransit = true) :
    ∃ round departure, query.opposite.Ends finish round departure ∧ round ≤ rounds ∧
      query.direction.timeCriterion time ≤ query.direction.timeCriterion departure := by
  cases hFollows with
  | walk hWalk => cases hRide
  | @ride target pattern trip id boarded left cost hCarries hReady =>
      have hReaches := meets.reaches_source hCarries
      have hRounds : round + (source.round + 1) ≤ rounds := meets.rounds_le
      cases start with
      | @access leg _ hLeg =>
          rw [← endLegs_opposite] at hLeg
          refine ⟨round + 1, _, .egress hReaches hLeg, by omega, ?_⟩
          rw [Direction.isBetter_eq_false_iff, Direction.timeCriterion_along] at hReady
          simp only [Direction.timeCriterion_along, slackAfter, if_true] at hReady
          rw [direction_opposite, Direction.timeCriterion_along_opposite]
          omega

/-- A trail that starts with a ride leads the opposite search back to its start, in no more rounds and
in time. -/
theorem Trail.ends_opposite {rounds : Nat} (trail : query.Trail time (arrival :: rest))
    (linked : query.network.Linked)
    (hFirst : ∃ front ride first, arrival :: rest = front ++ [ride, first] ∧ ride.isTransit = true)
    (meets : query.Meets finish arrival rounds manner round reached) :
    ∃ round departure, query.opposite.Ends finish round departure ∧ round ≤ rounds ∧
      query.direction.timeCriterion time ≤ query.direction.timeCriterion departure := by
  induction rest generalizing arrival manner round reached with
  | nil =>
      obtain ⟨front, ride, first, hChain, -⟩ := hFirst
      have hLength := congrArg List.length hChain
      simp at hLength
  | cons source rest ih =>
      obtain ⟨front, ride, first, hChain, hRide⟩ := hFirst
      cases trail with
      | follow before hFollows =>
          cases rest with
          | nil =>
              have hFront : front = [] := by
                have hLength := congrArg List.length hChain
                simpa using hLength
              rw [hFront] at hChain
              cases hChain
              exact meets.ends before hFollows hRide
          | cons second rest =>
              obtain ⟨manner, round, reached, hMeets⟩ := meets.follow before hFollows linked
              cases front with
              | nil => simp at hChain
              | cons last front =>
                  rw [List.cons_append, List.cons.injEq] at hChain
                  exact ih before ⟨front, ride, first, hChain.2, hRide⟩ hMeets

end Query

end JourneyPlanner
