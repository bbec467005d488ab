import JourneyPlanner.Search.Problem

namespace JourneyPlanner.Search

/-!
A search proceeds in rounds, each of which rides one trip further than the one before. It
passes the positions of a pattern once; at each of them it may leave a trip it is on, and may
get on one. A strategy says what is remembered between the steps of a round and what each step
adds.
-/

/-- A trip the search is on. Its cost is counted from the fixed origin of riding costs, so
that it does not change while the ride goes on. -/
structure Ride where
  trip : Nat
  stop : Nat
  time : Int
  relativeCost : Int
  predecessor : Nat
deriving DecidableEq, Repr

/-- A computation on a state that was given up, with the state it had reached. -/
structure Stopped (State : Type) where
  fault : Fault
  state : State

/-- Get on the best trip at a position after an arrival, if there is one; with a bound, only
a trip better than that one. -/
def board? (problem : Problem) (table : TripTable) (position stop id : Nat)
    (arrival : Arrival) (bound : Option Nat) : Checked (Option Ride) := do
  let ready := problem.direction.plus arrival.time (problem.slackAfter arrival.round)
  match ← problem.day.boardable table problem.direction position ready bound with
  | none => return none
  | some trip =>
    let time := problem.direction.boardTime (← table.timeAt trip position)
    return some
      { trip, stop, time
        relativeCost := problem.costOnBoard arrival time - problem.rideCostAt time
        predecessor := id }

namespace Ride

/-- When the ride can be left at a position; a trip that gets there before it was boarded
goes back in time. -/
def alightTime (ride : Ride) (problem : Problem) (table : TripTable) (position : Nat) :
    Checked Int := do
  let time := problem.direction.alightTime (← table.timeAt ride.trip position)
  if problem.direction.isBetter time ride.time then
    .error (.integrity (.nonMonotonicSchedule table.pattern ride.trip position))
  else .ok time

def arrival (ride : Ride) (problem : Problem) (round pattern stop : Nat) (time : Int) :
    Arrival :=
  { stop, round, time
    cost := ride.relativeCost + problem.rideCostAt time
    approach := .transit ride.stop ride.time pattern ride.trip
    predecessor := some ride.predecessor }

end Ride

structure Found where
  arrivals : Arrivals
  /-- The ways to the destination that are kept. -/
  destinations : List DestinationArrival
  /-- Every way to the destination that was kept when it was found, in that order, whether
  or not a later one took its place. -/
  accepted : List DestinationArrival

/-- The steps of a search over some kind of state. -/
structure Strategy (State : Type) where
  /-- Round 0: the stops reached on foot from the start, at a time. -/
  start : Int → State
  /-- Make the stops reached in the last round those to go on from. -/
  beginRound : (round : Nat) → State → State
  /-- The stops reached in the last round, ascending. -/
  frontier : State → List Nat
  /-- Ride along a pattern from the stops reached in the last round. -/
  scan : TripTable → State → Except (Stopped State) State
  /-- Walk on between stops. -/
  walk : State → State
  /-- Walk to the destination from the stops reached by transit. -/
  finish : State → State
  /-- Whether any stop was reached in this round. -/
  hasProgressed : State → Bool
  /-- Whether nothing reached in this round can lead to a better way to the destination. -/
  isSettled : State → Bool
  found : State → Found

end JourneyPlanner.Search
