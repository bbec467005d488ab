import JourneyPlanner.Journey

namespace JourneyPlanner

/-!
Journeys read off the records of a search, by following the records back from the
destination to the start of the search. The records must be consistent: a ride takes a
round, a walk may stay in the round of the record before it, and the first record is a walk
from the start.
-/

namespace Arrival

def canFollow (arrival previous : Arrival) : Bool :=
  if arrival.isTransit then decide (previous.round < arrival.round)
  else decide (previous.round ≤ arrival.round)

/-- The leg made by a record of a forward search. -/
def forwardLeg (arrival : Arrival) : Leg :=
  match arrival.approach with
  | .access duration => .access arrival.stop (arrival.time - duration) arrival.time
  | .transit boardStop boardTime pattern trip =>
    .transit boardStop arrival.stop boardTime arrival.time pattern trip
  | .transfer origin duration =>
    .transfer origin arrival.stop (arrival.time - duration) arrival.time

/-- The leg made by a record of a reverse search, whose time is when the traveller leaves the
stop. -/
def reverseLeg (arrival : Arrival) : Leg :=
  match arrival.approach with
  | .access duration => .egress arrival.stop arrival.time (arrival.time + duration)
  | .transit boardStop boardTime pattern trip =>
    .transit arrival.stop boardStop arrival.time boardTime pattern trip
  | .transfer origin duration =>
    .transfer arrival.stop origin arrival.time (arrival.time + duration)

end Arrival

namespace Journey

/-- Where a chain, given from its end, first goes wrong: at a record that cannot follow the
one it was reached from, or else at a last record that is no walk from the start. -/
def brokenAt? : List Arrival → Option Arrival
  | [] => none
  | [first] => if first.approach.isAccess then none else some first
  | arrival :: previous :: rest =>
    if arrival.canFollow previous then brokenAt? (previous :: rest) else some arrival

/-- The legs of a journey found by a search, in the order of travel. A reverse search meets
them in that order. -/
def legsOf (direction : Direction) (chain : List Arrival) (destination : DestinationArrival) :
    List Leg :=
  match direction with
  | .forward =>
    chain.reverse.map Arrival.forwardLeg ++
      [.egress destination.egress.stop (destination.time - destination.egress.duration)
        destination.time]
  | .reverse =>
    .access destination.egress.stop destination.time
      (destination.time + destination.egress.duration) ::
    chain.map Arrival.reverseLeg

/-- The journey behind a way to the destination, if its records are consistent. -/
def ofDestination (arrivals : Arrivals) (direction : Direction)
    (destination : DestinationArrival) : Checked Journey :=
  match arrivals.chain destination.arrival with
  | [] => .error .outOfRange
  | chain =>
    match brokenAt? chain with
    | some arrival => .error (.integrity (.brokenArrivalChain arrival.stop arrival.round))
    | none => .ok (ofLegs (legsOf direction chain destination) destination.cost)

def ofDestinations (arrivals : Arrivals) (direction : Direction) :
    List DestinationArrival → Checked (List Journey)
  | [] => .ok []
  | destination :: rest =>
    match ofDestination arrivals direction destination with
    | .error fault => .error fault
    | .ok journey =>
      match ofDestinations arrivals direction rest with
      | .error fault => .error fault
      | .ok journeys => .ok (journey :: journeys)

end Journey

end JourneyPlanner
