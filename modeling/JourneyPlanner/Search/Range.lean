import JourneyPlanner.Journey.Chain
import JourneyPlanner.Search.Rounds

namespace JourneyPlanner.Search

/-!
A search over a window of departure or arrival times. Every time of the window is searched
on its own; the journeys found are then merged in the order of the times, so that of equal
journeys the one found first is kept.
-/

structure Stats where
  /-- The number of times searched. -/
  iterations : Nat
  /-- Rounds, over all times. -/
  rounds : Nat
  /-- Arrivals recorded, over all times. -/
  arrivals : Nat
deriving DecidableEq, Repr

structure Response where
  /-- The best journeys, by departure and then by arrival. -/
  journeys : List Journey
  /-- Whether the time limit ran out in some run. -/
  timedOut : Bool
  stats : Stats
deriving DecidableEq, Repr

/-- The values on which the journeys of one search compare; of all of them less is better.
The time is the arrival of a forward search and the departure of a reverse one. -/
def journeyCriteria (direction : Direction) (profile : Profile) (journey : Journey) :
    List Int :=
  let time := match direction with
    | .forward => journey.arrival
    | .reverse => -journey.departure
  match profile with
  | .bestTime => [time]
  | .standard => [time, journey.transfers, journey.duration]
  | .multiCriteria => [time, journey.transfers, journey.duration, journey.cost]

def journeyRules (profile : Profile) (costSlack : Int) : Rules :=
  match profile with
  | .bestTime => ⟨[.less], Nat.le_of_ble_eq_true rfl⟩
  | .standard => ⟨[.less, .less, .less], Nat.le_of_ble_eq_true rfl⟩
  | .multiCriteria => ⟨[.less, .less, .less, .lessWithSlack costSlack], Nat.le_of_ble_eq_true rfl⟩

/-- Journeys are listed by departure, then arrival, then transfers, then cost. -/
def listedBefore (a b : Journey) : Bool :=
  decide (a.departure < b.departure ∨ a.departure = b.departure ∧
    (a.arrival < b.arrival ∨ a.arrival = b.arrival ∧
      (a.transfers < b.transfers ∨ a.transfers = b.transfers ∧ a.cost ≤ b.cost)))

def Run.journeys (run : Run) : Checked (List Journey) :=
  Journey.ofDestinations run.found.arrivals run.direction run.found.destinations

/-- All journeys of several runs, in order. The first run that was given up, or whose records
are broken, decides the fault. -/
def allJourneys : List (Except BrokenRun Run) → Checked (List Journey)
  | [] => .ok []
  | .error broken :: _ => .error broken.fault
  | .ok run :: rest => do
    let journeys ← run.journeys
    let others ← allJourneys rest
    return journeys ++ others

/-- The best of some journeys, in the order in which they are listed. -/
def bestJourneys (direction : Direction) (profile : Profile) (costSlack : Int)
    (journeys : List Journey) : List Journey :=
  let front := Front.empty.offerAll (journeyRules profile costSlack) <|
    journeys.map fun journey =>
      { item := journey, criteria := journeyCriteria direction profile journey }
  front.items.mergeSort listedBefore

def completedRuns (runs : List (Except BrokenRun Run)) : List Run :=
  runs.filterMap Except.toOption

def statsOf (runs : List Run) : Stats :=
  { iterations := runs.length
    rounds := (runs.flatMap Run.scanned).length
    arrivals := (runs.flatMap fun run => run.found.arrivals.toList).length }

/-- Whether a run was given up because a lookup fell outside its table. -/
def isOutOfRange : Except BrokenRun Run → Bool
  | .error broken => broken.fault == .outOfRange
  | .ok _ => false

/-- The runs up to the first one in which a lookup fell outside its table; no further one is
begun after it. -/
def runsUntilLost : List (Except BrokenRun Run) → List (Except BrokenRun Run)
  | [] => []
  | run :: rest => if isOutOfRange run then [run] else run :: runsUntilLost rest

structure RangeSearch where
  request : Request
  config : SearchConfig
  times : List Int
  runs : List (Except BrokenRun Run)

namespace RangeSearch

/-- Search all times of the window of a request, if the request can be searched. -/
def ofRequest (day : DayTimetable) (request : Request) (config : SearchConfig)
    (watches : Nat → Stopwatch := fun _ => .stopped) : Except RequestError RangeSearch :=
  match Planner.ofRequest day request config with
  | .error error => .error error
  | .ok planner =>
    let times := request.iterationTimes config.iterationStep
    .ok { request, config, times, runs := runsUntilLost (planner.runAll times watches) }

/-- The answer, once all runs are made. Faults are only looked at then; a lookup outside its
table goes before all others. -/
def response (search : RangeSearch) : Checked Response :=
  if search.runs.any isOutOfRange then .error .outOfRange
  else
    match allJourneys search.runs with
    | .error fault => .error fault
    | .ok journeys =>
      let runs := completedRuns search.runs
      .ok { journeys := bestJourneys search.request.direction search.request.profile
              search.config.costSlack journeys
            timedOut := runs.any Run.timedOut
            stats := statsOf runs }

end RangeSearch

def search (day : DayTimetable) (request : Request) (config : SearchConfig)
    (watches : Nat → Stopwatch := fun _ => .stopped) : Except SearchError Response :=
  match RangeSearch.ofRequest day request config watches with
  | .error error => .error (.invalidRequest error)
  | .ok search =>
    match search.response with
    | .error fault => .error (.fault fault)
    | .ok response => .ok response

end JourneyPlanner.Search
