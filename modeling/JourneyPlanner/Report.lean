import JourneyPlanner.Network.Draft
import JourneyPlanner.Search.Range

namespace JourneyPlanner

/-!
What goes into the log. The log is a view of results: nothing is written while a search
runs, and what would have been written is read off what it found. The records of a run tell
their round, so its log is put together round by round.
-/

/-- How important a log record is, most important first. -/
inductive LogLevel where
  | error | warn | info | debug | trace
deriving DecidableEq, Repr

namespace LogLevel

def rank : LogLevel → Nat
  | error => 0
  | warn => 1
  | info => 2
  | debug => 3
  | trace => 4

def name : LogLevel → String
  | error => "ERROR"
  | warn => "WARN"
  | info => "INFO"
  | debug => "DEBUG"
  | trace => "TRACE"

end LogLevel

/-- A log record, with the part of the planner it comes from. -/
structure LogRecord where
  level : LogLevel
  target : String
  text : String
deriving DecidableEq, Repr

def LogRecord.isAtLeast (record : LogRecord) (level : LogLevel) : Bool :=
  decide (record.level.rank ≤ level.rank)

namespace Report

def built (network : Network) : LogRecord :=
  { level := .debug, target := "raptor::builder"
    text := s!"Built network with {network.numStops} stops, {network.numPatterns} patterns " ++
      s!"and {network.numTrips} trips." }

def size (network : Network) : LogRecord :=
  { level := .info, target := "raptor::network"
    text := s!"Network has {network.numStops} stops, {network.numPatterns} patterns, " ++
      s!"{network.numTrips} trips, {network.stopTimes.size} stop times and " ++
      s!"{network.numTransfers} transfers over {network.calendar.numDays} service days." }

def day (day : DayTimetable) : LogRecord :=
  { level := .debug, target := "raptor::provider"
    text := s!"Timetable for {day.date.text}: {day.numActivePatterns} of " ++
      s!"{day.network.numPatterns} patterns active, {day.services.numActive} services running." }

def arrival (arrival : Arrival) : LogRecord :=
  { level := .debug, target := "raptor::debug"
    text := s!"Round {arrival.round}: stop {arrival.stop} reached at " ++
      s!"{Clock.text arrival.time} by {arrival.approach.name} (cost {arrival.cost})." }

def scanning (round patterns : Nat) : LogRecord :=
  { level := .trace, target := "raptor::worker"
    text := s!"Round {round}: scanning {patterns} patterns." }

def destination (profile : Profile) (destination : DestinationArrival) : LogRecord :=
  let reached :=
    s!"Round {destination.round}: destination reached at {Clock.text destination.time}"
  match profile with
  | .multiCriteria =>
    { level := .trace, target := "raptor::mc_state"
      text := reached ++ s!" with cost {destination.cost}." }
  | _ => { level := .trace, target := "raptor::std_state", text := reached ++ "." }

def arrivals (tracing : Tracing) (found : Search.Found) (round : Nat) : List LogRecord :=
  (found.arrivals.toList.filter fun a =>
    a.round == round && tracing.stops.contains a.stop).map arrival

/-- One round: how many patterns it scans, the arrivals it records, and the ways to the
destination it finds. -/
def round (profile : Profile) (tracing : Tracing) (found : Search.Found)
    (number patterns : Nat) : List LogRecord :=
  [scanning number patterns] ++ arrivals tracing found number ++
    (found.accepted.filter fun d => d.round == number).map (destination profile)

def rounds (profile : Profile) (tracing : Tracing) (found : Search.Found)
    (scanned : List Nat) : List LogRecord :=
  arrivals tracing found 0 ++
    scanned.zipIdx.flatMap fun entry => round profile tracing found (entry.2 + 1) entry.1

def completed (run : Search.Run) : LogRecord :=
  { level := .trace, target := "raptor::worker"
    text := s!"Worker at {Clock.text run.time} finished after {run.rounds} rounds " ++
      s!"({run.termination.name}) with {run.found.arrivals.size} arrivals and " ++
      s!"{run.found.destinations.length} destination arrivals." }

/-- One run; of one that was given up, what it had found. -/
def run (profile : Profile) (tracing : Tracing) :
    Except Search.BrokenRun Search.Run → List LogRecord
  | .error broken => rounds profile tracing broken.found broken.scanned
  | .ok run => rounds profile tracing run.found run.scanned ++ [completed run]

def searching (search : Search.RangeSearch) : LogRecord :=
  let request := search.request
  let manner := if request.arriveBy then "arriving by" else "departing after"
  { level := .debug, target := "raptor::service"
    text := s!"Searching {manner} {Clock.text request.time} with {search.times.length} " ++
      s!"iterations ({request.profile.name}, max {request.maxTransfers} transfers)." }

def response (tracing : Tracing) (response : Search.Response) : List LogRecord :=
  let count := response.journeys.length
  let stats := response.stats
  let late : LogRecord :=
    { level := .warn, target := "raptor::service"
      text := s!"Search deadline passed, returning {count} paths found so far." }
  let found : LogRecord :=
    { level := .debug, target := "raptor::service"
      text := s!"Found {count} paths; SearchStats \x7b iterations: {stats.iterations}, " ++
        s!"rounds: {stats.rounds}, arrivals: {stats.arrivals} \x7d." }
  let journeys := response.journeys.map fun journey : Journey =>
    { level := .debug, target := "raptor::debug", text := journey.text : LogRecord }
  (if response.timedOut then [late] else []) ++ [found] ++
    if tracing.journeys then journeys else []

/-- A search over a window, from its beginning to its answer if it has one. -/
def search (search : Search.RangeSearch) : List LogRecord :=
  let tracing := search.request.tracing
  [searching search] ++ search.runs.flatMap (run search.request.profile tracing) ++
    match search.response with
    | .ok found => response tracing found
    | .error _ => []

end Report

end JourneyPlanner
