import JourneyPlanner.Direction
import JourneyPlanner.IndexSet

namespace JourneyPlanner.Search

/-!
The best time known for every stop, over all rounds, and the stops at which it improved in
the current round and in the one before. Arrivals by transit are also kept on their own: a
stop reached by transit can be walked on from, even when a walk got there first.
-/

/-- The best times of a search. A stop never reached has the worst time. -/
structure BestTimes where
  times : IndexTable Int
  transitTimes : IndexTable Int
  reachedCurrent : IndexSet
  reachedLast : IndexSet
  reachedByTransit : IndexSet

namespace BestTimes

def initial (numStops : Nat) (direction : Direction) : BestTimes :=
  { times := IndexTable.uniform numStops direction.unreached
    transitTimes := IndexTable.uniform numStops direction.unreached
    reachedCurrent := IndexSet.empty numStops
    reachedLast := IndexSet.empty numStops
    reachedByTransit := IndexSet.empty numStops }

def time (best : BestTimes) (stop : Nat) : Int := best.times.get stop

def transitTime (best : BestTimes) (stop : Nat) : Int := best.transitTimes.get stop

def numStops (best : BestTimes) : Nat := best.times.cells.size

def isReached (best : BestTimes) (direction : Direction) (stop : Nat) : Bool :=
  best.time stop != direction.unreached

/-- Begin a round: what was reached in the current round was now reached in the last one. -/
def prepareRound (best : BestTimes) : BestTimes :=
  { best with
    reachedCurrent := best.reachedLast.clear
    reachedLast := best.reachedCurrent
    reachedByTransit := best.reachedByTransit.clear }

/-- The times after reaching a stop, if that beats its best time. -/
def improve? (best : BestTimes) (direction : Direction) (stop : Nat) (time : Int) :
    Option BestTimes :=
  if direction.isBetter time (best.time stop) then
    some { best with
      times := best.times.set stop time
      reachedCurrent := best.reachedCurrent.insert stop }
  else none

/-- The times after reaching a stop by transit, if that beats its best time by transit. -/
def improveTransit? (best : BestTimes) (direction : Direction) (stop : Nat) (time : Int) :
    Option BestTimes :=
  if direction.isBetter time (best.transitTime stop) then
    some { best with
      transitTimes := best.transitTimes.set stop time
      reachedByTransit := best.reachedByTransit.insert stop }
  else none

inductive Call where
  | offer (stop : Nat) (time : Int)
  | offerTransit (stop : Nat) (time : Int)
  | prepareRound
  | ask (stop : Nat)
deriving DecidableEq, Repr

inductive Answer where
  | improved (yes : Bool)
  | time (value : Int)
  | done
deriving DecidableEq, Repr

def Call.stop? : Call → Option Nat
  | offer stop _ => some stop
  | offerTransit stop _ => some stop
  | prepareRound => none
  | ask stop => some stop

def perform (best : BestTimes) (direction : Direction) : Call → Answer × BestTimes
  | .offer stop time =>
    match best.improve? direction stop time with
    | some better => (.improved true, better)
    | none => (.improved false, best)
  | .offerTransit stop time =>
    match best.improveTransit? direction stop time with
    | some better => (.improved true, better)
    | none => (.improved false, best)
  | .prepareRound => (.done, best.prepareRound)
  | .ask stop => (.time (best.time stop), best)

/-- Carry out a call, unless it is about an unknown stop. -/
def call (best : BestTimes) (direction : Direction) (c : Call) : Checked (Answer × BestTimes) :=
  match c.stop? with
  | some stop =>
    if stop < best.numStops then .ok (best.perform direction c) else .error .outOfRange
  | none => .ok (best.perform direction c)

def reached (best : BestTimes) (direction : Direction) : List Nat :=
  (List.range best.numStops).filter (best.isReached direction)

end BestTimes

end JourneyPlanner.Search
