import JourneyPlanner.Network

namespace JourneyPlanner

/-!
A draft collects stops, patterns, trips and walks as they are handed in. Building checks it
and packs it into a network. The trips of a pattern are put in the order in which they start;
those that start at the same times keep the order in which they were handed in. Then none may
overtake the one before it, so that they are sorted at every stop alike, and a trip can be
searched for by bisection at any of them. A pattern may thus be refused for the order in which
trips with the same start were handed in.
-/

structure TripDraft where
  service : Nat
  times : List StopTime
deriving DecidableEq, Repr

structure PatternDraft where
  name : String
  mode : Mode
  stops : List Nat
  trips : List TripDraft
deriving DecidableEq, Repr

structure Draft where
  calendar : Calendar
  stops : List String
  patterns : List PatternDraft
  transfers : List Transfer

namespace TripDraft

/-- The first position at which the trip would leave before it arrives, else the first one
it would reach before leaving the one before. -/
def backwardPosition? (trip : TripDraft) : Option Nat :=
  match trip.times.findIdx? fun time => decide (time.departure < time.arrival) with
  | some position => some position
  | none =>
    ((trip.times.zip trip.times.tail).findIdx? fun pair =>
      decide (pair.2.arrival < pair.1.departure)).map (· + 1)

/-- What is wrong with a trip of a pattern with this many stops, if anything. -/
def error? (trip : TripDraft) (numStops numServices pattern index : Nat) :
    Option IntegrityError :=
  if trip.times.length ≠ numStops then
    some (.wrongTripLength pattern index trip.times.length numStops)
  else if numServices ≤ trip.service then
    some (.unknownService pattern index trip.service)
  else trip.backwardPosition?.map (.nonMonotonicSchedule pattern index)

/-- Trips are put in order of their departure from the first stop, then of their arrival
there. -/
def startsBefore (a b : TripDraft) : Bool :=
  match a.times.head?, b.times.head? with
  | some s, some t =>
    decide (s.departure < t.departure ∨ s.departure = t.departure ∧ s.arrival ≤ t.arrival)
  | none, _ => true
  | some _, none => false

/-- The first position at which one trip is behind a later one. -/
def overtakenAt? (earlier later : TripDraft) : Option Nat :=
  (earlier.times.zip later.times).findIdx? fun pair =>
    decide (pair.2.departure < pair.1.departure ∨ pair.2.arrival < pair.1.arrival)

end TripDraft

namespace PatternDraft

def tripError? (numStops numServices pattern : Nat) :
    (index : Nat) → List TripDraft → Option IntegrityError
  | _, [] => none
  | index, trip :: rest =>
    match trip.error? numStops numServices pattern index with
    | some error => some error
    | none => tripError? numStops numServices pattern (index + 1) rest

/-- What is wrong with a pattern or one of its trips, if anything. -/
def error? (pattern : PatternDraft) (numStops numServices index : Nat) :
    Option IntegrityError :=
  if pattern.stops.isEmpty then some (.emptyPattern index)
  else
    match pattern.stops.find? fun stop => decide (numStops ≤ stop) with
    | some stop => some (.unknownStop index stop)
    | none => tripError? pattern.stops.length numServices index 0 pattern.trips

/-- The first trip, in order, that overtakes the one before it, and where. -/
def overtaking? : (index : Nat) → List TripDraft → Option (Nat × Nat)
  | index, earlier :: later :: rest =>
    match earlier.overtakenAt? later with
    | some position => some (index + 1, position)
    | none => overtaking? (index + 1) (later :: rest)
  | _, _ => none

/-- The pattern with its trips in order; trips that start together keep their places. -/
def sorted (pattern : PatternDraft) : PatternDraft :=
  { pattern with trips := pattern.trips.mergeSort TripDraft.startsBefore }

def arrange (numStops numServices index : Nat) (pattern : PatternDraft) :
    Except IntegrityError PatternDraft :=
  match pattern.error? numStops numServices index with
  | some error => .error error
  | none =>
    match overtaking? 0 pattern.sorted.trips with
    | some (trip, position) => .error (.overtakingTrip index trip position)
    | none => .ok pattern.sorted

/-- Arrange patterns in order, numbered from an index on. The first error stops it. -/
def arrangeAll (numStops numServices : Nat) :
    (index : Nat) → List PatternDraft → Except IntegrityError (List PatternDraft)
  | _, [] => .ok []
  | index, pattern :: rest =>
    match pattern.arrange numStops numServices index with
    | .error error => .error error
    | .ok pattern =>
      match arrangeAll numStops numServices (index + 1) rest with
      | .error error => .error error
      | .ok rest => .ok (pattern :: rest)

/-- The patterns with the places of their rows, when the tables already hold this many stops,
stop times and trips. -/
def layOut : (stops times trips : Nat) → List PatternDraft → List Pattern
  | _, _, _, [] => []
  | stops, times, trips, pattern :: rest =>
    { name := pattern.name, mode := pattern.mode
      numStops := pattern.stops.length, numTrips := pattern.trips.length
      firstStop := stops, firstTime := times, firstTrip := trips } ::
    layOut (stops + pattern.stops.length)
      (times + (pattern.trips.flatMap TripDraft.times).length)
      (trips + pattern.trips.length) rest

def visitsTo (stop index : Nat) (pattern : PatternDraft) : List Visit :=
  (pattern.stops.zipIdx.filter fun entry => entry.1 == stop).map fun entry => ⟨index, entry.2⟩

end PatternDraft

namespace Draft

def empty (calendar : Calendar) : Draft :=
  { calendar, stops := [], patterns := [], transfers := [] }

def addStop (draft : Draft) (name : String) : Draft :=
  { draft with stops := draft.stops ++ [name] }

/-- Add a pattern without trips; it takes the next number. -/
def addPattern (draft : Draft) (name : String) (mode : Mode) (stops : List Nat) : Draft :=
  { draft with patterns := draft.patterns ++ [{ name, mode, stops, trips := [] }] }

def addTrip (draft : Draft) (pattern : Nat) (trip : TripDraft) :
    Except IntegrityError Draft :=
  if pattern < draft.patterns.length then
    .ok { draft with
      patterns := draft.patterns.modify pattern fun p => { p with trips := p.trips ++ [trip] } }
  else .error (.unknownPattern pattern)

def addTransfer (draft : Draft) (transfer : Transfer) : Draft :=
  { draft with transfers := draft.transfers ++ [transfer] }

def transferError? (draft : Draft) : Option IntegrityError :=
  (draft.transfers.find? fun t =>
    decide (draft.stops.length ≤ t.origin ∨ draft.stops.length ≤ t.target ∨ t.duration < 0)).map
    fun t => .invalidTransfer t.origin t.target

/-- The walks from a stop, by the stop they lead to. -/
def transfersFrom (draft : Draft) (stop : Nat) : List Transfer :=
  (draft.transfers.filter fun t => t.origin == stop).mergeSort fun a b =>
    decide (a.target ≤ b.target)

/-- The walks to a stop, by the stop they come from. -/
def transfersTo (draft : Draft) (stop : Nat) : List Transfer :=
  (draft.transfers.filter fun t => t.target == stop).mergeSort fun a b =>
    decide (a.origin ≤ b.origin)

def pack (draft : Draft) (patterns : List PatternDraft) : Network :=
  let stopIndices := Array.range draft.stops.length
  { stops := (draft.stops.zipIdx.map fun entry =>
      { name := entry.1
        visits := patterns.zipIdx.flatMap fun numbered =>
          numbered.1.visitsTo entry.2 numbered.2 : Stop }).toArray
    patterns := (PatternDraft.layOut 0 0 0 patterns).toArray
    patternStops := (patterns.flatMap PatternDraft.stops).toArray
    stopTimes := (patterns.flatMap fun p => p.trips.flatMap TripDraft.times).toArray
    tripServices := (patterns.flatMap fun p => p.trips.map TripDraft.service).toArray
    outgoing := stopIndices.map draft.transfersFrom
    incoming := stopIndices.map draft.transfersTo
    calendar := draft.calendar }

/-- Check a draft and pack it. Patterns are checked in order, each with its trips, and the
walks after all of them. Stops, patterns and trips are numbered without a limit: that there are
too many of them to be numbered in 32 bits is not among the errors. -/
def build (draft : Draft) : Except IntegrityError Network :=
  match PatternDraft.arrangeAll draft.stops.length draft.calendar.services.size 0
      draft.patterns with
  | .error error => .error error
  | .ok patterns =>
    match draft.transferError? with
    | some error => .error error
    | none => .ok (draft.pack patterns)

end Draft

end JourneyPlanner
