import JourneyPlanner.Date

namespace JourneyPlanner

/-!
What can go wrong, by cause. A request may be refused before anything is searched; the
data of a timetable may turn out to be malformed; and a lookup may fall outside its table,
which data and requests that were accepted never lead to.
-/

inductive RequestError where
  | negativeSearchWindow (window : Int)
  | dateOutOfRange (date first last : Date)
  | noAccessLegs
  | noEgressLegs
  | unknownStop (stop : Nat)
  | negativeLegDuration (stop : Nat) (duration : Int)
  | tooManyTransfers (requested limit : Nat)
  | invalidIterationStep (step : Int)
deriving DecidableEq

def RequestError.message : RequestError → String
  | negativeSearchWindow window => s!"Search window must not be negative (got {window}s)."
  | dateOutOfRange date first last =>
    s!"Date {date.text} is outside the timetable calendar ({first.text} to {last.text})."
  | noAccessLegs => "At least one access leg is required."
  | noEgressLegs => "At least one egress leg is required."
  | unknownStop stop => s!"Stop {stop} does not exist in the timetable."
  | negativeLegDuration stop duration =>
    s!"Leg to stop {stop} has a negative duration ({duration}s)."
  | tooManyTransfers requested limit =>
    s!"At most {limit} transfers are supported (got {requested})."
  | invalidIterationStep step => s!"Iteration step must be positive (got {step}s)."

/-- How timetable data is malformed. Positions count the stops of a pattern from 0. -/
inductive IntegrityError where
  | emptyPattern (pattern : Nat)
  | unknownPattern (pattern : Nat)
  | unknownStop (pattern stop : Nat)
  | wrongTripLength (pattern trip got expected : Nat)
  | nonMonotonicSchedule (pattern trip position : Nat)
  | overtakingTrip (pattern trip position : Nat)
  | unknownService (pattern trip service : Nat)
  | invalidTransfer (origin target : Nat)
  | brokenArrivalChain (stop round : Nat)
deriving DecidableEq, Repr

def IntegrityError.message : IntegrityError → String
  | emptyPattern pattern => s!"Pattern {pattern} has no stops."
  | unknownPattern pattern => s!"Pattern {pattern} does not exist."
  | unknownStop pattern stop => s!"Pattern {pattern} references unknown stop {stop}."
  | wrongTripLength pattern trip got expected =>
    s!"Trip {trip} of pattern {pattern} has {got} stop times, expected {expected}."
  | nonMonotonicSchedule pattern trip position =>
    s!"Trip {trip} of pattern {pattern} goes back in time at position {position}."
  | overtakingTrip pattern trip position =>
    s!"Trip {trip} of pattern {pattern} overtakes the trip before it at position {position}."
  | unknownService pattern trip service =>
    s!"Trip {trip} of pattern {pattern} uses unknown service {service}."
  | invalidTransfer origin target =>
    s!"Transfer from stop {origin} to stop {target} is invalid."
  | brokenArrivalChain stop round =>
    s!"Arrival chain is broken at stop {stop} (round {round})."

/-- Why a computation on a timetable was given up: the data is malformed, or a lookup fell
outside its table. -/
inductive Fault where
  | integrity (error : IntegrityError)
  | outOfRange
deriving DecidableEq, Repr

abbrev Checked (α : Type) := Except Fault α

def Checked.lookup {α : Type} : Option α → Checked α
  | some a => .ok a
  | none => .error .outOfRange

inductive SearchError where
  | invalidRequest (error : RequestError)
  | fault (fault : Fault)
deriving DecidableEq

/-- The message of a search error; a lookup outside its table has none of its own. -/
def SearchError.message : SearchError → String
  | invalidRequest error => "Invalid request: " ++ error.message
  | fault (.integrity error) => "Data integrity violation: " ++ error.message
  | fault .outOfRange => "A lookup fell outside its table."

end JourneyPlanner
