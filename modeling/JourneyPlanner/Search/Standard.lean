import JourneyPlanner.Search.BestTimes
import JourneyPlanner.Search.Strategy

namespace JourneyPlanner.Search.Standard

/-!
The search for the best time. Only arrivals that beat the best time at their stop, or the
best one by transit, are recorded, and none that could not beat the best time at the
destination. Along a pattern the search is on at most one trip, and changes to another only
if that one is better.
-/

/-- The entry of a table at a stop. It only counts where the stop is marked: elsewhere it is left
from an earlier round. -/
def holder? (marks : IndexSet) (table : IndexTable (Option Nat)) (stop : Nat) : Option Nat :=
  if marks.contains stop then table.get stop else none

/-- The arrivals a search for the best time goes on from, with the best times. The tables of
arrivals only count where the stop is marked among the best times. -/
structure State where
  round : Nat
  best : BestTimes
  arrivals : Arrivals
  /-- The best arrival of this round at every stop improved in it. -/
  current : IndexTable (Option Nat)
  /-- The best arrival of the last round at every stop improved in it. -/
  last : IndexTable (Option Nat)
  /-- The best arrival by transit of this round at every stop improved by transit in it. -/
  byTransit : IndexTable (Option Nat)
  destinationTime : Int
  destinations : List DestinationArrival

namespace State

def initial (problem : Problem) : State :=
  { round := 0
    best := BestTimes.initial problem.numStops problem.direction
    arrivals := Arrivals.empty
    current := IndexTable.uniform problem.numStops none
    last := IndexTable.uniform problem.numStops none
    byTransit := IndexTable.uniform problem.numStops none
    destinationTime := problem.direction.unreached
    destinations := [] }

/-- Whether going on from a time can still improve the time at the destination. -/
def canImproveDestination (problem : Problem) (state : State) (time : Int) : Bool :=
  problem.direction.isBetter time state.destinationTime

/-- Start from the stop of a leg, if that beats the legs before it. -/
def enter (problem : Problem) (time : Int) (state : State) (leg : WalkLeg) : State :=
  let arrival := problem.accessArrival time leg
  match state.best.improve? problem.direction leg.stop arrival.time with
  | none => state
  | some best =>
    { state with
      best
      arrivals := state.arrivals.push arrival
      current := state.current.set leg.stop (some state.arrivals.size) }

/-- Begin a round. The tables of this round and the last one change places, and none is cleared. -/
def beginRound (round : Nat) (state : State) : State :=
  { state with
    round
    best := state.best.prepareRound
    current := state.last
    last := state.current }

/-- The number of the best arrival of the last round at a stop, if it was improved in it. -/
def lastId? (state : State) (stop : Nat) : Option Nat :=
  holder? state.best.reachedLast state.last stop

/-- Leave a ride at a stop, if that beats the best time by transit there. -/
def alight (problem : Problem) (pattern stop : Nat) (ride : Ride) (time : Int)
    (state : State) : State :=
  if state.canImproveDestination problem time then
    match state.best.improveTransit? problem.direction stop time with
    | none => state
    | some best =>
      let id := state.arrivals.size
      let state := { state with
        best
        arrivals := state.arrivals.push (ride.arrival problem state.round pattern stop time)
        byTransit := state.byTransit.set stop (some id) }
      match best.improve? problem.direction stop time with
      | none => state
      | some best => { state with best, current := state.current.set stop (some id) }
  else state

/-- Pass a position on board: leave the ride there as well as stay on it. -/
def passOnBoard (problem : Problem) (table : TripTable) (position stop : Nat)
    (ride : Option Ride) (state : State) : Checked State :=
  match ride with
  | none => .ok state
  | some ride => do
    let time ← ride.alightTime problem table position
    return state.alight problem table.pattern stop ride time

/-- The best arrival of the last round at a stop, if the stop was improved in it. -/
def lastArrival? (state : State) (stop : Nat) : Option (Nat × Arrival) :=
  match state.lastId? stop with
  | none => none
  | some id => (state.arrivals.get? id).map fun arrival => (id, arrival)

/-- Change at a position to a better trip than the one the search is on, if there is one. -/
def change (problem : Problem) (table : TripTable) (position stop : Nat)
    (ride : Option Ride) (state : State) : Checked (Option Ride) :=
  match state.lastArrival? stop with
  | none => .ok ride
  | some (id, arrival) => do
    let better ← board? problem table position stop id arrival (ride.map Ride.trip)
    return better <|> ride

/-- Pass positions of a pattern in order, on a ride or not yet on one. -/
def pass (problem : Problem) (table : TripTable) :
    List Nat → Option Ride → State → Except (Stopped State) State
  | [], _, state => .ok state
  | position :: rest, ride, state =>
    match table.stopAt position with
    | .error fault => .error ⟨fault, state⟩
    | .ok stop =>
      match state.passOnBoard problem table position stop ride with
      | .error fault => .error ⟨fault, state⟩
      | .ok state =>
        match state.change problem table position stop ride with
        | .error fault => .error ⟨fault, state⟩
        | .ok ride => pass problem table rest ride state

def scan (problem : Problem) (table : TripTable) (state : State) :
    Except (Stopped State) State :=
  pass problem table (problem.direction.positions table.numStops) none state

/-- The arrivals from which to walk on: those by transit of this round, and those on foot of
the last round. A walk never follows a walk within one round. -/
def walkSources (state : State) : List (Nat × Arrival) :=
  state.arrivals.numbered (state.best.reachedByTransit.toList.filterMap state.byTransit.get) ++
    (state.arrivals.numbered (state.best.reachedLast.toList.filterMap state.last.get)).filter
      fun source => !source.2.isTransit

def walkAlong (problem : Problem) (source : Nat × Arrival) (state : State)
    (transfer : Transfer) : State :=
  let arrival := problem.walkArrival state.round source.1 source.2 transfer
  if state.canImproveDestination problem arrival.time then
    match state.best.improve? problem.direction arrival.stop arrival.time with
    | none => state
    | some best =>
      { state with
        best
        arrivals := state.arrivals.push arrival
        current := state.current.set arrival.stop (some state.arrivals.size) }
  else state

def walk (problem : Problem) (state : State) : State :=
  state.walkSources.foldl
    (fun state source =>
      (problem.transfersAt source.2.stop).foldl (walkAlong problem source) state)
    state

def candidates (problem : Problem) (state : State) : List DestinationArrival :=
  (state.arrivals.numbered
    (state.best.reachedByTransit.toList.filterMap state.byTransit.get)).flatMap fun source =>
      (problem.endLegsAt source.2.stop).map
        (problem.destinationArrival state.round source.1 source.2)

/-- The best of some ways to the destination that beats a time, and its time; of equal ones
the first. -/
def bestCandidate (direction : Direction) (time : Int) (candidates : List DestinationArrival) :
    Int × Option DestinationArrival :=
  candidates.foldl
    (fun best candidate =>
      if direction.isBetter candidate.time best.1 then (candidate.time, some candidate)
      else best)
    (time, none)

/-- Walk to the destination; of one round only the best way is kept. -/
def finish (problem : Problem) (state : State) : State :=
  match bestCandidate problem.direction state.destinationTime (state.candidates problem) with
  | (time, some destination) =>
    { state with
      destinationTime := time
      destinations := state.destinations ++ [destination] }
  | (_, none) => state

end State

/-- The search for the best time, as a strategy. An arrival that could not improve the time
at the destination is never recorded, so a round with progress is never settled. -/
def strategy (problem : Problem) : Strategy State where
  start time := problem.startLegs.foldl (State.enter problem time) (State.initial problem)
  beginRound := State.beginRound
  frontier state := state.best.reachedLast.toList
  scan := State.scan problem
  walk := State.walk problem
  finish := State.finish problem
  hasProgressed state := !state.best.reachedCurrent.isEmpty
  isSettled _ := false
  found state :=
    { arrivals := state.arrivals
      destinations := state.destinations
      accepted := state.destinations }

end JourneyPlanner.Search.Standard
