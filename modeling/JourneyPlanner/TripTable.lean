import JourneyPlanner.Direction

namespace JourneyPlanner

/-!
The timetable of one pattern: its stops are the columns and its trips the rows, sorted so
that no trip overtakes another. Because of that, at any position the trips that leave too
early for a traveller come first and those that are still to be caught come after them, so
the first one to be caught is found by bisection.
-/

/-- The rows of one pattern, one trip after the other. -/
structure TripTable where
  pattern : Nat
  mode : Mode
  stops : Array Nat
  times : Array StopTime
  services : Array Nat

structure TripSchedule where
  pattern : Nat
  trip : Nat
  service : Nat
  times : Array StopTime

def TripSchedule.at (schedule : TripSchedule) (position : Nat) : Checked StopTime :=
  Checked.lookup schedule.times[position]?

/-- The rows of a pattern, if the tables of the network hold all of them. -/
def Network.tripTable (network : Network) (index : Nat) : Checked TripTable := do
  let pattern ← Checked.lookup network.patterns[index]?
  let stops ← Checked.lookup (slice? network.patternStops pattern.firstStop pattern.numStops)
  let times ← Checked.lookup
    (slice? network.stopTimes pattern.firstTime (pattern.numTrips * pattern.numStops))
  let services ← Checked.lookup (slice? network.tripServices pattern.firstTrip pattern.numTrips)
  return { pattern := index, mode := pattern.mode, stops, times, services }

/-- Bisection: the first index from a lower bound on at which a test fails, or the upper bound
if there is none, provided the test never holds again after it failed. Every index that is
looked at must have an answer. -/
def bisect (holds : Nat → Checked Bool) (low high : Nat) : Checked Nat :=
  if _ : low < high then
    let middle := low + (high - low) / 2
    match holds middle with
    | .error fault => .error fault
    | .ok true => bisect holds (middle + 1) high
    | .ok false => bisect holds low middle
  else .ok low
termination_by high - low

namespace TripTable

def numStops (table : TripTable) : Nat := table.stops.size

def numTrips (table : TripTable) : Nat := table.services.size

def stopAt (table : TripTable) (position : Nat) : Checked Nat :=
  Checked.lookup table.stops[position]?

def timeAt (table : TripTable) (trip position : Nat) : Checked StopTime :=
  Checked.lookup table.times[trip * table.numStops + position]?

def schedule (table : TripTable) (trip : Nat) : Checked TripSchedule := do
  let service ← Checked.lookup table.services[trip]?
  let times ← Checked.lookup (slice? table.times (trip * table.numStops) table.numStops)
  return { pattern := table.pattern, trip, service, times }

/-- The first trip of a list that runs. -/
def firstRunning (table : TripTable) (isActive : Nat → Bool) : List Nat → Checked (Option Nat)
  | [] => .ok none
  | trip :: rest =>
    match table.services[trip]? with
    | none => .error .outOfRange
    | some service =>
      if isActive service then .ok (some trip) else table.firstRunning isActive rest

/-- The first running trip that leaves a position at or after a time. With a bound, only
trips before that one count. -/
def earliestDeparting (table : TripTable) (isActive : Nat → Bool) (position : Nat)
    (time : Int) (before : Option Nat) : Checked (Option Nat) := do
  let bound := before.getD table.numTrips
  let first ← bisect
    (fun trip => (table.timeAt trip position).map fun t => decide (t.departure < time)) 0 bound
  table.firstRunning isActive (List.range' first (bound - first))

/-- The last running trip that reaches a position at or before a time. With a bound, only
trips after that one count. -/
def latestArriving (table : TripTable) (isActive : Nat → Bool) (position : Nat)
    (time : Int) (after : Option Nat) : Checked (Option Nat) := do
  let bound := (after.map (· + 1)).getD 0
  let last ← bisect
    (fun trip => (table.timeAt trip position).map fun t => decide (t.arrival ≤ time))
    bound table.numTrips
  table.firstRunning isActive (List.range' bound (last - bound)).reverse

/-- The best running trip, in the direction of the search, that can be boarded at a position
no earlier than a time; with a bound, only a trip better than that one. -/
def boardable (table : TripTable) (isActive : Nat → Bool) (direction : Direction)
    (position : Nat) (time : Int) (bound : Option Nat) : Checked (Option Nat) :=
  match direction with
  | .forward => table.earliestDeparting isActive position time bound
  | .reverse => table.latestArriving isActive position time bound

end TripTable

end JourneyPlanner
