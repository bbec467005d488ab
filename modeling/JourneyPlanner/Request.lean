import JourneyPlanner.Arrival

namespace JourneyPlanner

/-!
What a traveller asks for, and the settings shared by many requests. A request is checked as
a whole before anything is searched; the first fault found is the one reported.

The generalized cost of a journey weighs its seconds by how they are spent. Costs are in
hundredths of a second; a reluctance is a percentage, so a walk reluctance of 200 makes a
second of walking cost as much as two seconds at 100.
-/

structure CostRates where
  /-- Seconds added for every boarding. -/
  boardCost : Int
  walkReluctance : Int
  waitReluctance : Int
  transitReluctance : Int
deriving DecidableEq, Repr

namespace CostRates

/-- A minute for every boarding, and walking twice as costly as waiting or riding. -/
def standard : CostRates :=
  { boardCost := 60, walkReluctance := 200, waitReluctance := 100, transitReluctance := 100 }

def walkCost (rates : CostRates) (duration : Int) : Int :=
  duration * rates.walkReluctance

def waitCost (rates : CostRates) (duration : Int) : Int :=
  duration * rates.waitReluctance

def boardingCost (rates : CostRates) : Int :=
  rates.boardCost * 100

/-- The cost of riding up to a time, counted from a fixed origin. The cost of a ride is the
difference of its ends, so two boardings of one trip compare before either is left. -/
def transitCostAt (rates : CostRates) (timeCriterion : Int) : Int :=
  timeCriterion * rates.transitReluctance

end CostRates

inductive Profile where
  /-- The best time for every number of transfers. -/
  | standard
  /-- The best compromises between time, transfers and generalized cost. -/
  | multiCriteria
  /-- The best time only. -/
  | bestTime
deriving DecidableEq, Repr

def Profile.name : Profile → String
  | standard => "Standard"
  | multiCriteria => "MultiCriteria"
  | bestTime => "BestTime"

structure Tracing where
  /-- The stops of which every arrival is put on record. -/
  stops : List Nat
  /-- Whether every journey found is put on record. -/
  journeys : Bool
deriving DecidableEq, Repr

structure Request where
  /-- The earliest departure, or the latest arrival. -/
  time : Int
  arriveBy : Bool
  /-- Seconds after that departure, or before that arrival, within which a journey may also
  start, or end. -/
  searchWindow : Int
  maxTransfers : Nat
  profile : Profile
  access : List WalkLeg
  egress : List WalkLeg
  /-- Seconds kept free before every boarding but one straight from an access leg. -/
  boardSlack : Int
  /-- Milliseconds after the request is made, from which on no further round is begun. -/
  timeLimit : Option Nat
  tracing : Tracing
deriving DecidableEq, Repr

/-- The watch of a run. It is started when the request is made and looked at before every round;
how it goes is not up to the search, so nothing is assumed of what it shows. -/
structure Stopwatch where
  /-- The milliseconds it shows after so many rounds. -/
  reading : (rounds : Nat) → Nat

namespace Stopwatch

/-- A watch that stands still. To evaluate a search takes no time that it could tell. -/
def stopped : Stopwatch := ⟨fun _ => 0⟩

/-- Whether a time limit has run out after so many rounds. -/
def isPast (watch : Stopwatch) (limit : Option Nat) (rounds : Nat) : Bool :=
  limit.any fun limit => decide (limit ≤ watch.reading rounds)

@[simp]
theorem isPast_none (watch : Stopwatch) : watch.isPast none = fun _ => false := rfl

end Stopwatch

structure SearchConfig where
  /-- Seconds between the times of the window that are searched. -/
  iterationStep : Int
  /-- Whether the times of a window may be searched at once. The runs are independent and
  merged in order, so the answer is the same. -/
  parallel : Bool
  cost : CostRates
  /-- Journeys whose costs differ by no more than this compare as equal on cost. -/
  costSlack : Int
deriving DecidableEq, Repr

namespace Request

def maxSupportedTransfers : Nat := 32

def direction (request : Request) : Direction :=
  if request.arriveBy then .reverse else .forward

/-- The number of rounds of a search, one for each ride. -/
def maxRounds (request : Request) : Nat :=
  min request.maxTransfers maxSupportedTransfers + 1

def startLegs (request : Request) : List WalkLeg :=
  if request.arriveBy then request.egress else request.access

def endLegs (request : Request) : List WalkLeg :=
  if request.arriveBy then request.access else request.egress

/-- The times of the window that are searched, a step apart, from the time of the request
on in the direction of the search. -/
def iterationTimes (request : Request) (step : Int) : List Int :=
  if request.searchWindow < 0 then []
  else
    let stride := (max step 1).toNat
    (List.range (request.searchWindow.toNat / stride + 1)).map fun n : Nat =>
      request.direction.plus request.time (n * stride : Nat)

def legError? (numStops : Nat) : List WalkLeg → Option RequestError
  | [] => none
  | leg :: rest =>
    if numStops ≤ leg.stop then some (.unknownStop leg.stop)
    else if leg.duration < 0 then some (.negativeLegDuration leg.stop leg.duration)
    else legError? numStops rest

/-- Check a request against a timetable with this many stops. -/
def validate (request : Request) (numStops : Nat) (config : SearchConfig) :
    Except RequestError Unit :=
  if request.searchWindow < 0 then .error (.negativeSearchWindow request.searchWindow)
  else if config.iterationStep ≤ 0 then .error (.invalidIterationStep config.iterationStep)
  else if maxSupportedTransfers < request.maxTransfers then
    .error (.tooManyTransfers request.maxTransfers maxSupportedTransfers)
  else if request.access.isEmpty then .error .noAccessLegs
  else if request.egress.isEmpty then .error .noEgressLegs
  else
    match legError? numStops (request.access ++ request.egress) with
    | some error => .error error
    | none => .ok ()

end Request

end JourneyPlanner
