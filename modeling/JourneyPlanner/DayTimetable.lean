import JourneyPlanner.IndexSet
import JourneyPlanner.TripTable

namespace JourneyPlanner

/-!
The timetable of one day: a network with only the services that run on a date and only the
patterns of some modes. A pattern takes part if its mode is asked for and at least one of
its trips runs that day.
-/

/-- A network as it runs on one date, by some modes. -/
structure DayTimetable where
  network : Network
  services : ServiceDay
  activePatterns : IndexSet

/-- Whether a pattern takes part in the timetable of a day. -/
def Network.isPatternActive (network : Network) (services : ServiceDay) (modes : ModeSet)
    (pattern : Pattern) : Bool :=
  modes.contains pattern.mode &&
    (network.tripServices.extract pattern.firstTrip (pattern.firstTrip + pattern.numTrips)).any
      services.isActive

def Network.onDate (network : Network) (date : Date) (modes : ModeSet) :
    Except RequestError DayTimetable :=
  match network.calendar.servicesOn date with
  | .error error => .error error
  | .ok services =>
    .ok { network, services
          activePatterns :=
            ⟨network.patterns.map (network.isPatternActive services modes)⟩ }

namespace DayTimetable

def date (day : DayTimetable) : Date := day.services.date

def numStops (day : DayTimetable) : Nat := day.network.numStops

def numActivePatterns (day : DayTimetable) : Nat := day.activePatterns.count

def isActive (day : DayTimetable) (service : Nat) : Bool := day.services.isActive service

def patternsAt (day : DayTimetable) (stop : Nat) : List Nat :=
  match day.network.stops[stop]? with
  | some stop => (stop.visits.map Visit.pattern).filter day.activePatterns.contains
  | none => []

/-- The patterns that take part and visit one of the stops, ascending. -/
def patternsTouching (day : DayTimetable) (stops : List Nat) : List Nat :=
  (IndexSet.ofList day.network.numPatterns (stops.flatMap day.patternsAt)).toList

/-- The patterns touching some stops, all of which must be known. -/
def patternsTouchingKnown (day : DayTimetable) (stops : List Nat) : Checked (List Nat) :=
  if stops.all fun stop => decide (stop < day.numStops) then .ok (day.patternsTouching stops)
  else .error .outOfRange

/-- The best trip of that day that can be boarded at a position no earlier than a time. -/
def boardable (day : DayTimetable) (table : TripTable) (direction : Direction)
    (position : Nat) (time : Int) (bound : Option Nat) : Checked (Option Nat) :=
  table.boardable day.isActive direction position time bound

end DayTimetable

end JourneyPlanner
