namespace JourneyPlanner

/-!
The modes of transport a line may run by, and sets of them.
-/

inductive Mode where
  | bus | tram | rail | subway | ferry | cable | other
deriving DecidableEq, Repr

def Mode.all : List Mode := [bus, tram, rail, subway, ferry, cable, other]

/-- A set of modes, given by its membership test. -/
structure ModeSet where
  contains : Mode → Bool

namespace ModeSet

def full : ModeSet := ⟨fun _ => true⟩

def empty : ModeSet := ⟨fun _ => false⟩

def insert (modes : ModeSet) (mode : Mode) : ModeSet :=
  ⟨fun member => member == mode || modes.contains member⟩

def erase (modes : ModeSet) (mode : Mode) : ModeSet :=
  ⟨fun member => member != mode && modes.contains member⟩

def ofList (modes : List Mode) : ModeSet :=
  modes.foldl insert empty

def toList (modes : ModeSet) : List Mode :=
  Mode.all.filter modes.contains

def isFull (modes : ModeSet) : Bool :=
  Mode.all.all modes.contains

end ModeSet

end JourneyPlanner
