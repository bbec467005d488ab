import JourneyPlanner.Direction

namespace JourneyPlanner

/-!
The records of a search. Whenever the search reaches a stop it records when, in which
round, how and from which earlier record, and never changes a record again; so a journey is
read off by following the records back. Times and ends are those of the search: a reverse
search starts at the destination, gets on where a traveller gets off, and its times run
backwards.
-/

/-- A walk between a stop and the place where a journey starts or ends. -/
structure WalkLeg where
  stop : Nat
  duration : Int
deriving DecidableEq, Repr

/-- How a stop was reached: on foot from the start, by a trip, or on foot from another
stop. -/
inductive Approach where
  | access (duration : Int)
  | transit (boardStop : Nat) (boardTime : Int) (pattern trip : Nat)
  | transfer (origin : Nat) (duration : Int)
deriving DecidableEq, Repr

namespace Approach

def isTransit : Approach → Bool
  | transit .. => true
  | _ => false

def isAccess : Approach → Bool
  | access _ => true
  | _ => false

def name : Approach → String
  | access _ => "access"
  | transit .. => "transit"
  | transfer .. => "transfer"

end Approach

/-- A stop reached by the search. The predecessor is the number of the record from which it
was reached. -/
structure Arrival where
  stop : Nat
  round : Nat
  time : Int
  cost : Int
  approach : Approach
  predecessor : Option Nat
deriving DecidableEq, Repr

def Arrival.isTransit (arrival : Arrival) : Bool := arrival.approach.isTransit

/-- The records of a search, numbered from 0 in the order in which they were made. -/
structure Arrivals where
  records : Array Arrival

namespace Arrivals

def empty : Arrivals := ⟨#[]⟩

def size (arrivals : Arrivals) : Nat := arrivals.records.size

def isEmpty (arrivals : Arrivals) : Bool := arrivals.records.isEmpty

def toList (arrivals : Arrivals) : List Arrival := arrivals.records.toList

def push (arrivals : Arrivals) (arrival : Arrival) : Arrivals :=
  ⟨arrivals.records.push arrival⟩

def get? (arrivals : Arrivals) (id : Nat) : Option Arrival := arrivals.records[id]?

@[simp]
theorem size_push (arrivals : Arrivals) (arrival : Arrival) :
    (arrivals.push arrival).size = arrivals.size + 1 := by
  simp [push, size]

/-- A new record stands last, so the records before it keep their numbers. -/
@[simp]
theorem toList_push (arrivals : Arrivals) (arrival : Arrival) :
    (arrivals.push arrival).toList = arrivals.toList ++ [arrival] := by
  simp [push, toList]

/-- A new record takes the next number and changes none of those before it. -/
theorem get?_push (arrivals : Arrivals) (arrival : Arrival) (id : Nat) :
    (arrivals.push arrival).get? id =
      if id = arrivals.size then some arrival else arrivals.get? id :=
  Array.getElem?_push

def numbered (arrivals : Arrivals) (ids : List Nat) : List (Nat × Arrival) :=
  ids.filterMap fun id => (arrivals.get? id).map fun arrival => (id, arrival)

/-- The record and those it was reached from, last one first. A record is only reached from
earlier ones, so the numbers decrease along the chain. -/
def chain (arrivals : Arrivals) (id : Nat) : List Arrival :=
  match arrivals.get? id with
  | none => []
  | some arrival =>
    match arrival.predecessor with
    | none => [arrival]
    | some previous =>
      if _ : previous < id then arrival :: arrivals.chain previous else [arrival]
termination_by id

def bestTimeAt? (arrivals : Arrivals) (direction : Direction) (stop : Nat) : Option Int :=
  (arrivals.toList.filter fun arrival => arrival.stop == stop).foldl
    (fun best arrival =>
      match best with
      | none => some arrival.time
      | some time =>
        if direction.isBetter arrival.time time then some arrival.time else some time)
    none

end Arrivals

/-- The end of the search reached by walking from a record at a stop. -/
structure DestinationArrival where
  arrival : Nat
  egress : WalkLeg
  time : Int
  round : Nat
  cost : Int
deriving DecidableEq, Repr

end JourneyPlanner
