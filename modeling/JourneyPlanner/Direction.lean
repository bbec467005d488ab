import JourneyPlanner.Network

namespace JourneyPlanner

/-!
A search runs forward in time from a departure, or in reverse from an arrival. Both are the
same search once "better", "further along" and the two ends of things are read in the
direction of the search.
-/

inductive Direction where
  | forward
  | reverse
deriving DecidableEq, Repr

namespace Direction

def isForward : Direction → Bool
  | forward => true
  | reverse => false

/-- A time that no other is worse than. -/
def unreached : Direction → Int
  | forward => Clock.latest
  | reverse => Clock.earliest

/-- Whether one time comes strictly before another along the search. -/
def isBetter : Direction → (time than : Int) → Bool
  | forward, time, than => decide (time < than)
  | reverse, time, than => decide (than < time)

/-- A time as a value of which less is better. -/
def timeCriterion : Direction → Int → Int
  | forward, time => time
  | reverse, time => -time

theorem isBetter_irrefl (direction : Direction) (time : Int) :
    direction.isBetter time time = false := by
  cases direction <;> simp [isBetter]

/-- Less of the time criterion is what being better means. -/
theorem isBetter_eq_timeCriterion_lt (direction : Direction) (time than : Int) :
    direction.isBetter time than =
      decide (direction.timeCriterion time < direction.timeCriterion than) := by
  cases direction
  · rfl
  · simp [isBetter, timeCriterion]

/-- Move a time along the search, to the last time that can be told at most. -/
def plus : Direction → (time duration : Int) → Int
  | forward, time, duration => Clock.clamp (time + duration)
  | reverse, time, duration => Clock.clamp (time - duration)

def minus (direction : Direction) (time duration : Int) : Int :=
  direction.plus time (-duration)

def duration : Direction → (start finish : Int) → Int
  | forward, start, finish => finish - start
  | reverse, start, finish => start - finish

/-- The place of a trip in its pattern as a value of which less is better. -/
def tripCriterion : Direction → Nat → Int
  | forward, trip => trip
  | reverse, trip => -trip

/-- The positions of a pattern in the order in which the search passes them. -/
def positions : Direction → Nat → List Nat
  | forward, numStops => List.range numStops
  | reverse, numStops => (List.range numStops).reverse

def transferTarget : Direction → Transfer → Nat
  | forward, transfer => transfer.target
  | reverse, transfer => transfer.origin

def transfers : Direction → Network → (stop : Nat) → List Transfer
  | forward, network, stop => network.transfersFrom stop
  | reverse, network, stop => network.transfersTo stop

def boardTime : Direction → StopTime → Int
  | forward, time => time.departure
  | reverse, time => time.arrival

def alightTime : Direction → StopTime → Int
  | forward, time => time.arrival
  | reverse, time => time.departure

end Direction

end JourneyPlanner
