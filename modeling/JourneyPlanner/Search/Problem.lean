import JourneyPlanner.DayTimetable
import JourneyPlanner.Request

namespace JourneyPlanner.Search

/-!
The problem a search reads and never changes, and the arrivals that walking adds to it.
-/

structure Problem where
  day : DayTimetable
  direction : Direction
  boardSlack : Int
  cost : CostRates
  costSlack : Int
  startLegs : List WalkLeg
  /-- Ordered by stop, then by duration. -/
  endLegs : List WalkLeg

namespace Problem

/-- Legs are put in order of their stop, and at one stop the shorter first. -/
def legBefore (a b : WalkLeg) : Bool :=
  decide (a.stop < b.stop ∨ a.stop = b.stop ∧ a.duration ≤ b.duration)

def ofRequest (day : DayTimetable) (request : Request) (config : SearchConfig) : Problem :=
  { day
    direction := request.direction
    boardSlack := request.boardSlack
    cost := config.cost
    costSlack := config.costSlack
    startLegs := request.startLegs
    endLegs := request.endLegs.mergeSort legBefore }

def endLegsAt (problem : Problem) (stop : Nat) : List WalkLeg :=
  problem.endLegs.filter fun leg => leg.stop == stop

def numStops (problem : Problem) : Nat := problem.day.numStops

/-- The slack before boarding from an arrival: none straight from an access leg, which is
what the arrivals of round 0 are. -/
def slackAfter (problem : Problem) (round : Nat) : Int :=
  if round = 0 then 0 else problem.boardSlack

/-- The walks along which the search goes on from a stop. -/
def transfersAt (problem : Problem) (stop : Nat) : List Transfer :=
  problem.direction.transfers problem.day.network stop

/-- The cost of getting on a trip after an arrival, with the wait before it. -/
def costOnBoard (problem : Problem) (arrival : Arrival) (boardTime : Int) : Int :=
  arrival.cost + problem.cost.waitCost (problem.direction.duration arrival.time boardTime) +
    problem.cost.boardingCost

def rideCostAt (problem : Problem) (time : Int) : Int :=
  problem.cost.transitCostAt (problem.direction.timeCriterion time)

def accessArrival (problem : Problem) (time : Int) (leg : WalkLeg) : Arrival :=
  { stop := leg.stop
    round := 0
    time := problem.direction.plus time leg.duration
    cost := problem.cost.walkCost leg.duration
    approach := .access leg.duration
    predecessor := none }

def walkArrival (problem : Problem) (round id : Nat) (source : Arrival) (walk : Transfer) :
    Arrival :=
  { stop := problem.direction.transferTarget walk
    round
    time := problem.direction.plus source.time walk.duration
    cost := source.cost + problem.cost.walkCost walk.duration
    approach := .transfer source.stop walk.duration
    predecessor := some id }

/-- The end of the search reached from an arrival by a leg. -/
def destinationArrival (problem : Problem) (round id : Nat) (source : Arrival)
    (leg : WalkLeg) : DestinationArrival :=
  { arrival := id
    egress := leg
    time := problem.direction.plus source.time leg.duration
    round
    cost := source.cost + problem.cost.walkCost leg.duration }

end Problem

end JourneyPlanner.Search
