import JourneyPlanner.Pareto
import JourneyPlanner.Search.Strategy

namespace JourneyPlanner.Search.MultiCriteria

/-!
The search for the best compromises between time, rounds and generalized cost. Every stop
keeps a front of arrivals, and so does the destination; an arrival that some way to the
destination already found covers is not recorded. Along a pattern the search is on a front
of rides: all of them are left at the same stops, so only the trip and the cost of getting
on it compare.
-/

/-- Arrivals at a stop compare on time, round and cost. Those by transit and those on foot do
not compare: only the former can be ended, so a walk never takes the place of a ride. -/
def stopRules : Rules := ⟨[.less, .less, .less, .mustDiffer], by decide⟩

/-- A way to the destination covers an arrival if it is as good in time, round and cost. -/
def pruningRules : Rules := ⟨[.less, .less, .less], by decide⟩

/-- Rides along one pattern compare on the trip and the cost of getting on it. -/
def rideRules : Rules := ⟨[.less, .less], by decide⟩

/-- Ways to the destination compare on time, round and cost, the latter with a slack. -/
def destinationRules (costSlack : Int) : Rules :=
  ⟨[.less, .less, .lessWithSlack costSlack], Nat.le_of_ble_eq_true rfl⟩

def travelCriteria (direction : Direction) (time : Int) (round : Nat) (cost : Int) : List Int :=
  [direction.timeCriterion time, round, cost]

def stopCriteria (direction : Direction) (arrival : Arrival) : List Int :=
  travelCriteria direction arrival.time arrival.round arrival.cost ++
    [if arrival.isTransit then 1 else 0]

def rideEntry (direction : Direction) (ride : Ride) : Entry Ride :=
  { item := ride, criteria := [direction.tripCriterion ride.trip, ride.relativeCost] }

def destinationEntry (direction : Direction) (destination : DestinationArrival) :
    Entry DestinationArrival :=
  { item := destination
    criteria :=
      travelCriteria direction destination.time destination.round destination.cost }

/-- The fronts of a search for the best compromises. -/
structure State where
  round : Nat
  arrivals : Arrivals
  /-- The numbers of the arrivals kept at every stop. -/
  fronts : IndexTable (Front Nat)
  reachedCurrent : IndexSet
  reachedLast : IndexSet
  reachedByTransit : IndexSet
  destinations : Front DestinationArrival
  accepted : List DestinationArrival

namespace State

def initial (problem : Problem) : State :=
  { round := 0
    arrivals := Arrivals.empty
    fronts := IndexTable.uniform problem.numStops Front.empty
    reachedCurrent := IndexSet.empty problem.numStops
    reachedLast := IndexSet.empty problem.numStops
    reachedByTransit := IndexSet.empty problem.numStops
    destinations := Front.empty
    accepted := [] }

/-- Whether a way to the destination covers an arrival with these values. Whether it came by
transit does not matter then. -/
def isCovered (state : State) (criteria : List Int) : Bool :=
  state.destinations.covers pruningRules (criteria.take pruningRules.criteria.length)

/-- Record an arrival in the front of its stop, unless an arrival there is as good. -/
def keep (problem : Problem) (state : State) (arrival : Arrival) : State :=
  let id := state.arrivals.size
  let entry : Entry Nat := { item := id, criteria := stopCriteria problem.direction arrival }
  match (state.fronts.get arrival.stop).offer? stopRules entry with
  | none => state
  | some front =>
    { state with
      arrivals := state.arrivals.push arrival
      fronts := state.fronts.set arrival.stop front
      reachedCurrent := state.reachedCurrent.insert arrival.stop
      reachedByTransit :=
        if arrival.isTransit then state.reachedByTransit.insert arrival.stop
        else state.reachedByTransit }

/-- Record an arrival, unless a way to the destination covers it. -/
def add (problem : Problem) (state : State) (arrival : Arrival) : State :=
  if state.isCovered (stopCriteria problem.direction arrival) then state
  else state.keep problem arrival

/-- The arrivals of a round that are still in the front of a stop, with their numbers. -/
def arrivalsAt (state : State) (stop round : Nat) : List (Nat × Arrival) :=
  (state.arrivals.numbered (state.fronts.get stop).items).filter fun entry =>
    entry.2.round == round

def beginRound (round : Nat) (state : State) : State :=
  { state with
    round
    reachedCurrent := state.reachedLast.clear
    reachedLast := state.reachedCurrent
    reachedByTransit := state.reachedByTransit.clear }

/-- The arrivals made by leaving rides at a position. -/
def alightings (problem : Problem) (table : TripTable) (round position stop : Nat) :
    List Ride → Checked (List Arrival)
  | [] => .ok []
  | ride :: rest => do
    let time ← ride.alightTime problem table position
    let arrivals ← alightings problem table round position stop rest
    return ride.arrival problem round table.pattern stop time :: arrivals

/-- The rides got on at a position after arrivals at its stop, each on the best trip there
is for it. -/
def boardings (problem : Problem) (table : TripTable) (position stop : Nat) :
    List (Nat × Arrival) → Checked (List Ride)
  | [] => .ok []
  | (id, arrival) :: rest => do
    let ride ← board? problem table position stop id arrival none
    let rides ← boardings problem table position stop rest
    return ride.toList ++ rides

/-- The rides got on at a position: after the arrivals of the last round at its stop. -/
def boardingsAt (problem : Problem) (table : TripTable) (position stop : Nat)
    (state : State) : Checked (List Ride) :=
  if state.reachedLast.contains stop then
    boardings problem table position stop (state.arrivalsAt stop (state.round - 1))
  else .ok []

/-- Pass positions of a pattern in order, on a front of rides. At each position all rides
are left as well as kept up, and the rides got on there are offered to the front. -/
def pass (problem : Problem) (table : TripTable)
    (add : State → Arrival → State) :
    List Nat → Front Ride → State → Except (Stopped State) State
  | [], _, state => .ok state
  | position :: rest, rides, state =>
    match table.stopAt position with
    | .error fault => .error ⟨fault, state⟩
    | .ok stop =>
      match alightings problem table state.round position stop rides.items with
      | .error fault => .error ⟨fault, state⟩
      | .ok arrivals =>
        let state := arrivals.foldl add state
        match state.boardingsAt problem table position stop with
        | .error fault => .error ⟨fault, state⟩
        | .ok boarded =>
          let rides := rides.offerAll rideRules (boarded.map (rideEntry problem.direction))
          pass problem table add rest rides state

def scan (problem : Problem) (add : State → Arrival → State) (table : TripTable)
    (state : State) : Except (Stopped State) State :=
  pass problem table add (problem.direction.positions table.numStops) Front.empty state

/-- The arrivals from which to walk on: those by transit of this round, and those on foot of
the last round. A walk never follows a walk within one round. -/
def walkSources (state : State) : List (Nat × Arrival) :=
  (state.reachedByTransit.toList.flatMap fun stop =>
    (state.arrivalsAt stop state.round).filter fun source => source.2.isTransit) ++
  (state.reachedLast.toList.flatMap fun stop =>
    (state.arrivalsAt stop (state.round - 1)).filter fun source => !source.2.isTransit)

def walk (problem : Problem) (add : State → Arrival → State) (state : State) : State :=
  state.walkSources.foldl
    (fun state source =>
      (problem.transfersAt source.2.stop).foldl
        (fun state transfer =>
          add state (problem.walkArrival state.round source.1 source.2 transfer))
        state)
    state

def candidates (problem : Problem) (state : State) : List DestinationArrival :=
  state.reachedByTransit.toList.flatMap fun stop =>
    ((state.arrivalsAt stop state.round).filter fun source => source.2.isTransit).flatMap
      fun source =>
        (problem.endLegsAt stop).map
          (problem.destinationArrival state.round source.1 source.2)

/-- Offer a way to the destination to those found before. -/
def offerDestination (problem : Problem) (state : State) (destination : DestinationArrival) :
    State :=
  match state.destinations.offer? (destinationRules problem.costSlack)
      (destinationEntry problem.direction destination) with
  | none => state
  | some destinations =>
    { state with destinations, accepted := state.accepted ++ [destination] }

def finish (problem : Problem) (state : State) : State :=
  (state.candidates problem).foldl (offerDestination problem) state

/-- Whether every arrival of this round is covered by a way to the destination. -/
def isSettled (problem : Problem) (state : State) : Bool :=
  !state.destinations.isEmpty &&
    state.reachedCurrent.toList.all fun stop =>
      (state.arrivalsAt stop state.round).all fun entry =>
        state.isCovered (stopCriteria problem.direction entry.2)

end State

/-- A search for the best compromises that records arrivals in a given manner. -/
def strategyWith (problem : Problem) (add : State → Arrival → State) : Strategy State where
  start time :=
    (problem.startLegs.map (problem.accessArrival time)).foldl add (State.initial problem)
  beginRound := State.beginRound
  frontier state := state.reachedLast.toList
  scan := State.scan problem add
  walk := State.walk problem add
  finish := State.finish problem
  hasProgressed state := !state.reachedCurrent.isEmpty
  isSettled := State.isSettled problem
  found state :=
    { arrivals := state.arrivals
      destinations := state.destinations.items
      accepted := state.accepted }

def strategy (problem : Problem) : Strategy State :=
  strategyWith problem (State.add problem)

end JourneyPlanner.Search.MultiCriteria
