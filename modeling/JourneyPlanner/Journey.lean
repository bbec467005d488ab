import JourneyPlanner.Arrival

namespace JourneyPlanner

/-!
A journey is a walk to a first stop, rides and walks between stops, and a walk from the last
stop. Its times are those of the traveller, whichever way the search for it ran.
-/

/-- One leg of a journey. The pattern and trip of a ride are given by number. -/
inductive Leg where
  | access (stop : Nat) (departure arrival : Int)
  | transit (origin target : Nat) (departure arrival : Int) (pattern trip : Nat)
  | transfer (origin target : Nat) (departure arrival : Int)
  | egress (stop : Nat) (departure arrival : Int)
deriving DecidableEq, Repr

namespace Leg

/-- The stop at which the leg starts; the first one starts at no stop. -/
def departureStop? : Leg → Option Nat
  | access .. => none
  | transit origin .. => some origin
  | transfer origin .. => some origin
  | egress stop .. => some stop

/-- The stop at which the leg ends; the last one ends at no stop. -/
def arrivalStop? : Leg → Option Nat
  | access stop .. => some stop
  | transit _ target .. => some target
  | transfer _ target .. => some target
  | egress .. => none

def departure : Leg → Int
  | access _ departure _ => departure
  | transit _ _ departure _ _ _ => departure
  | transfer _ _ departure _ => departure
  | egress _ departure _ => departure

def arrival : Leg → Int
  | access _ _ arrival => arrival
  | transit _ _ _ arrival _ _ => arrival
  | transfer _ _ _ arrival => arrival
  | egress _ _ arrival => arrival

def duration (leg : Leg) : Int := leg.arrival - leg.departure

def isTransit : Leg → Bool
  | transit .. => true
  | _ => false

end Leg

structure Journey where
  legs : List Leg
  departure : Int
  arrival : Int
  transfers : Nat
  cost : Int
deriving DecidableEq, Repr

namespace Journey

/-- A journey of these legs. Its transfers are one less than its rides. -/
def ofLegs (legs : List Leg) (cost : Int) : Journey :=
  { legs
    departure := (legs.head?.map Leg.departure).getD 0
    arrival := (legs.getLast?.map Leg.arrival).getD 0
    transfers := legs.countP Leg.isTransit - 1
    cost }

/-- The seconds from departure to arrival, even if more than the clock can tell. -/
def duration (journey : Journey) : Int := journey.arrival - journey.departure

def numRides (journey : Journey) : Nat := journey.legs.countP Leg.isTransit

def text (journey : Journey) : String :=
  s!"{Clock.text journey.departure} -> {Clock.text journey.arrival} " ++
    s!"({journey.transfers} transfers, cost {journey.cost})"

/-- Full minutes of a number of seconds. -/
def minutes (seconds : Int) : Int := seconds.tdiv 60

/-- The lines that tell a traveller what to do on a leg. -/
def describeLeg (network : Network) : Leg → Checked (List String)
  | .access stop departure arrival => do
    let name ← network.stopName stop
    return [s!"Walk from origin at {Clock.text departure} to {name} " ++
      s!"({minutes (arrival - departure)} min)."]
  | .transit origin target departure arrival pattern _ => do
    let boarded ← network.stopName origin
    let line ← network.patternName pattern
    let left ← network.stopName target
    return [s!"Board at {boarded} at {Clock.text departure} ({line} line).",
      s!"Arrive at {left} at {Clock.text arrival}."]
  | .transfer origin target departure arrival => do
    let first ← network.stopName origin
    let second ← network.stopName target
    return [s!"Walk from {first} to {second} ({minutes (arrival - departure)} min)."]
  | .egress stop departure arrival => do
    let name ← network.stopName stop
    return [s!"Walk from {name} to destination, arriving at {Clock.text arrival} " ++
      s!"({minutes (arrival - departure)} min)."]

def describeLegs (network : Network) : List Leg → Checked (List String)
  | [] => .ok []
  | leg :: rest => do
    let lines ← describeLeg network leg
    let others ← describeLegs network rest
    return lines ++ others

def ruleLine : String := String.ofList (List.replicate 47 '-')

/-- The journey with the names of its stops and lines, one line of text after the other. -/
def describe (journey : Journey) (network : Network) : Checked String := do
  let lines ← describeLegs network journey.legs
  let total := s!"Total journey time: {minutes journey.duration} minutes."
  return String.join
    (([ruleLine] ++ lines ++ [total, ruleLine]).map fun line => line ++ "\n")

end Journey

end JourneyPlanner
