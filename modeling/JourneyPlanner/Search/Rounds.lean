import JourneyPlanner.Search.MultiCriteria
import JourneyPlanner.Search.Standard

namespace JourneyPlanner.Search

/-!
The rounds of a search for one departure or arrival time. Round 0 holds the stops reached on
foot; every further round scans the patterns that visit a stop reached in the round before,
walks on between stops and ends at the destination, until nothing more can be found.
-/

inductive Termination where
  /-- No stop was reached in the last round. -/
  | fixedPoint
  | maxRounds
  /-- Nothing reached in the last round can lead to a better way to the destination. -/
  | destinationPruned
  /-- The time limit ran out before a round; what was found until then is kept. -/
  | deadline
deriving DecidableEq, Repr

def Termination.name : Termination → String
  | fixedPoint => "FixedPoint"
  | maxRounds => "MaxRounds"
  | destinationPruned => "DestinationPruned"
  | deadline => "Deadline"

/-- A search over all its rounds. The list holds the number of patterns scanned in each. -/
structure Completed (State : Type) where
  state : State
  scanned : List Nat
  termination : Termination

/-- A search given up in its last round. -/
structure Interrupted (State : Type) where
  fault : Fault
  state : State
  scanned : List Nat

namespace Strategy

variable {State : Type}

def scanAll (strategy : Strategy State) (network : Network) :
    List Nat → State → Except (Stopped State) State
  | [], state => .ok state
  | pattern :: rest, state =>
    match network.tripTable pattern with
    | .error fault => .error ⟨fault, state⟩
    | .ok table =>
      if table.numStops = 0 then .error ⟨.integrity (.emptyPattern pattern), state⟩
      else
        match strategy.scan table state with
        | .error stopped => .error stopped
        | .ok state => strategy.scanAll network rest state

/-- The patterns to scan, once a round has begun. -/
def patterns (strategy : Strategy State) (day : DayTimetable) (state : State) : List Nat :=
  day.patternsTouching (strategy.frontier state)

/-- Run further rounds, at most a given number, after those whose scanned patterns are
listed. By the number of rounds run it is told before each whether it is too late for it. -/
def rounds (strategy : Strategy State) (day : DayTimetable) (late : Nat → Bool) :
    (left : Nat) → (scanned : List Nat) → State →
      Except (Interrupted State) (Completed State)
  | 0, scanned, state => .ok ⟨state, scanned, .maxRounds⟩
  | left + 1, scanned, state =>
    if late scanned.length then .ok ⟨state, scanned, .deadline⟩
    else
      let state := strategy.beginRound (scanned.length + 1) state
      let patterns := strategy.patterns day state
      let scanned := scanned ++ [patterns.length]
      match strategy.scanAll day.network patterns state with
      | .error stopped => .error ⟨stopped.fault, stopped.state, scanned⟩
      | .ok state =>
        let state := strategy.finish (strategy.walk state)
        if !strategy.hasProgressed state then .ok ⟨state, scanned, .fixedPoint⟩
        else if strategy.isSettled state then .ok ⟨state, scanned, .destinationPruned⟩
        else strategy.rounds day late left scanned state

end Strategy

structure Run where
  time : Int
  direction : Direction
  found : Found
  scanned : List Nat
  termination : Termination

namespace Run

def rounds (run : Run) : Nat := run.scanned.length

def timedOut (run : Run) : Bool := run.termination == .deadline

/-- The best time at which a stop was reached, over all rounds run. -/
def bestTimeAt? (run : Run) (stop : Nat) : Option Int :=
  run.found.arrivals.bestTimeAt? run.direction stop

end Run

structure BrokenRun where
  fault : Fault
  found : Found
  scanned : List Nat

/-- A search for one request, to be run at a departure or arrival time. -/
structure Planner where
  problem : Problem
  profile : Profile
  maxRounds : Nat
  timeLimit : Option Nat

namespace Planner

/-- The search for a request, if the request can be searched. -/
def ofRequest (day : DayTimetable) (request : Request) (config : SearchConfig) :
    Except RequestError Planner :=
  match request.validate day.numStops config with
  | .error error => .error error
  | .ok () =>
    .ok { problem := Problem.ofRequest day request config
          profile := request.profile
          maxRounds := request.maxRounds
          timeLimit := request.timeLimit }

/-- Search for one departure or arrival time by a strategy, with a watch to look at. -/
def runWith {State : Type} (planner : Planner) (strategy : Strategy State) (time : Int)
    (watch : Stopwatch) : Except BrokenRun Run :=
  match strategy.rounds planner.problem.day (watch.isPast planner.timeLimit) planner.maxRounds []
      (strategy.start time) with
  | .error stopped => .error ⟨stopped.fault, strategy.found stopped.state, stopped.scanned⟩
  | .ok ended =>
    .ok { time, direction := planner.problem.direction
          found := strategy.found ended.state
          scanned := ended.scanned
          termination := ended.termination }

def run (planner : Planner) (time : Int) (watch : Stopwatch := .stopped) : Except BrokenRun Run :=
  match planner.profile with
  | .standard | .bestTime => planner.runWith (Standard.strategy planner.problem) time watch
  | .multiCriteria => planner.runWith (MultiCriteria.strategy planner.problem) time watch

/-- Search for several times. Each run has a watch of its own, as runs may be made at once. -/
def runAll (planner : Planner) (times : List Int) (watches : Nat → Stopwatch) :
    List (Except BrokenRun Run) :=
  times.zipIdx.map fun entry => planner.run entry.1 (watches entry.2)

end Planner

end JourneyPlanner.Search
