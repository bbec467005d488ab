import JourneyPlanner.Calendar
import JourneyPlanner.Mode

namespace JourneyPlanner

/-!
A network: stops, the patterns that visit them, the trips that run along the patterns, and
the walks between stops. The rows of all patterns are packed into shared tables, one
pattern after the other and, within a pattern, one trip after the other; each pattern says
where its rows begin.
-/

/-- When a trip stands at one of its stops. -/
structure StopTime where
  arrival : Int
  departure : Int
deriving DecidableEq, Repr

structure Transfer where
  origin : Nat
  target : Nat
  duration : Int
deriving DecidableEq, Repr

structure Visit where
  pattern : Nat
  position : Nat
deriving DecidableEq, Repr

structure Stop where
  name : String
  visits : List Visit

/-- A sequence of stops shared by the trips of a line, with the places of its rows in the
tables of the network. -/
structure Pattern where
  name : String
  mode : Mode
  numStops : Nat
  numTrips : Nat
  firstStop : Nat
  firstTime : Nat
  firstTrip : Nat

/-- A timetable for all dates of its calendar. -/
structure Network where
  stops : Array Stop
  patterns : Array Pattern
  patternStops : Array Nat
  stopTimes : Array StopTime
  tripServices : Array Nat
  outgoing : Array (List Transfer)
  incoming : Array (List Transfer)
  calendar : Calendar

/-- The part of a table from one index on, if the table reaches that far. -/
def slice? {α : Type} (table : Array α) (start length : Nat) : Option (Array α) :=
  if start + length ≤ table.size then some (table.extract start (start + length)) else none

namespace Network

def numStops (network : Network) : Nat := network.stops.size

def numPatterns (network : Network) : Nat := network.patterns.size

def numTrips (network : Network) : Nat := network.tripServices.size

def numTransfers (network : Network) : Nat :=
  network.outgoing.toList.flatten.length

def stopName (network : Network) (stop : Nat) : Checked String :=
  Checked.lookup (network.stops[stop]?.map Stop.name)

def patternName (network : Network) (pattern : Nat) : Checked String :=
  Checked.lookup (network.patterns[pattern]?.map Pattern.name)

def stopNamed? (network : Network) (name : String) : Option Nat :=
  network.stops.findIdx? fun stop => stop.name == name

/-- The walks that start at a stop, by their other end. -/
def transfersFrom (network : Network) (stop : Nat) : List Transfer :=
  network.outgoing.getD stop []

/-- The walks that end at a stop, by their other end. -/
def transfersTo (network : Network) (stop : Nat) : List Transfer :=
  network.incoming.getD stop []

def transfersAt (network : Network) (stop : Nat) : Checked (List Transfer × List Transfer) :=
  if stop < network.numStops then
    .ok (network.transfersFrom stop, network.transfersTo stop)
  else .error .outOfRange

/-- The visits to all stops before this one, counted. -/
def visitsBefore (network : Network) (stop : Nat) : Nat :=
  ((network.stops.toList.take stop).flatMap Stop.visits).length

/-- A change of one entry of the tables. It is not checked again, so the result may be
malformed. -/
inductive Edit where
  | stopTime (index : Nat) (time : StopTime)
  | numStops (pattern count : Nat)

def edit (network : Network) : Edit → Checked Network
  | .stopTime index time =>
    if index < network.stopTimes.size then
      .ok { network with stopTimes := network.stopTimes.setIfInBounds index time }
    else .error .outOfRange
  | .numStops pattern count =>
    if pattern < network.patterns.size then
      .ok { network with
        patterns := network.patterns.modify pattern fun p => { p with numStops := count } }
    else .error .outOfRange

def editAll (network : Network) : List Edit → Checked Network
  | [] => .ok network
  | change :: rest =>
    match network.edit change with
    | .ok network => network.editAll rest
    | .error fault => .error fault

end Network

end JourneyPlanner
