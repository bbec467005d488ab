import JourneyPlanner.Proofs.Network.Catching
import JourneyPlanner.Proofs.Search.Riding

/-! Riding along a pattern by trying every boarding on its own. At each position a trip is got on
after every arrival there, whatever trips are there already, and left at every later position. Main
statement: on a sound table nothing goes wrong, and what is tried is left in turn. -/
namespace JourneyPlanner.Search

structure Manner (State : Type) where
  /-- The arrivals at a stop after which trips are got on. -/
  sources : State → Nat → List (Nat × Arrival)
  /-- Leave a ride at a stop at a time. -/
  leave : Nat → Ride → Int → State → State

section Scan

variable {State : Type} (problem : Problem) (table : TripTable) (manner : Manner State)

def leaveEach (ride : Ride) : List Nat → State → Checked State
  | [], state => .ok state
  | position :: rest, state => do
    let stop ← table.stopAt position
    let time ← ride.alightTime problem table position
    leaveEach ride rest (manner.leave stop ride time state)

/-- Get on a trip after each of some arrivals at a position, the best there is for it, and leave it
at each later position. -/
def boardEach (position stop : Nat) (later : List Nat) :
    List (Nat × Arrival) → State → Checked State
  | [], state => .ok state
  | (id, arrival) :: rest, state => do
    match ← board? problem table position stop id arrival none with
    | none => boardEach position stop later rest state
    | some ride =>
      let state ← leaveEach problem table manner ride later state
      boardEach position stop later rest state

def scanEach : List Nat → State → Checked State
  | [], state => .ok state
  | position :: rest, state => do
    let stop ← table.stopAt position
    let state ← boardEach problem table manner position stop rest (manner.sources state stop) state
    scanEach rest state

end Scan

structure Alighting where
  stop : Nat
  ride : Ride
  time : Int

def Manner.leaveAll {State : Type} (manner : Manner State) (alightings : List Alighting)
    (state : State) : State :=
  alightings.foldl
    (fun state alighting => manner.leave alighting.stop alighting.ride alighting.time state) state

def Ride.LeftAt (problem : Problem) (table : TripTable) (ride : Ride) (positions : List Nat)
    (alighting : Alighting) : Prop :=
  alighting.ride = ride ∧ ∃ position ∈ positions, table.stopAt position = .ok alighting.stop ∧
    ride.alightTime problem table position = .ok alighting.time

/-- A ride is got on at one of some positions and left at a later one. -/
inductive Tried (problem : Problem) (table : TripTable) (sources : Nat → List (Nat × Arrival)) :
    List Nat → Alighting → Prop where
  | here {first stop : Nat} {later : List Nat} {source : Nat × Arrival} {ride : Ride}
      {alighting : Alighting} (hStop : table.stopAt first = .ok stop)
      (hSource : source ∈ sources stop)
      (hBoard : board? problem table first stop source.1 source.2 none = .ok (some ride))
      (hLeft : ride.LeftAt problem table later alighting) :
      Tried problem table sources (first :: later) alighting
  | later {first : Nat} {rest : List Nat} {alighting : Alighting}
      (h : Tried problem table sources rest alighting) :
      Tried problem table sources (first :: rest) alighting

variable {State : Type} {problem : Problem} {table : TripTable} {manner : Manner State}
  {positions : List Nat}

/-- A ride is only left where the pattern stops. -/
theorem Tried.exists_stopAt {sources : Nat → List (Nat × Arrival)} {alighting : Alighting}
    (h : Tried problem table sources positions alighting) :
    ∃ position, table.stopAt position = .ok alighting.stop := by
  induction h with
  | here hStop hSource hBoard hLeft =>
      obtain ⟨-, position, -, hAt, -⟩ := hLeft
      exact ⟨position, hAt⟩
  | later h ih => exact ih

section Rides

variable {position stop id : Nat} {arrival : Arrival} {bound : Option Nat} {ride : Ride}

/-- The trip got on that comes before a bound is the one got on without it. -/
theorem board?_unbounded (sound : table.Sound) (hPosition : position < table.numStops)
    (h : board? problem table position stop id arrival bound = .ok (some ride)) :
    board? problem table position stop id arrival none = .ok (some ride) := by
  obtain ⟨trip, time, hTrip, hTime, rfl⟩ := board?_eq_some_iff.mp h
  have hCatch := sound.of_boardable hPosition hTrip
  obtain ⟨found, hFound⟩ := sound.exists_boardable problem.day.isActive problem.direction
    (problem.readyAfter arrival) none hPosition (by simp)
  obtain ⟨first, rfl, hFirst⟩ := sound.boardable_least hPosition hFound
    ⟨hCatch.runs, hCatch.inTime, by simp⟩
  have hCatchFirst := sound.of_boardable hPosition hFound
  obtain ⟨same, hSame, hBack⟩ := sound.boardable_least hPosition hTrip
    ⟨hCatchFirst.runs, hCatchFirst.inTime, fun limit hLimit =>
      Int.lt_of_le_of_lt hFirst (hCatch.before limit hLimit)⟩
  cases hSame
  obtain rfl := Direction.tripCriterion_injective (Int.le_antisymm hFirst hBack)
  exact board?_eq_some_iff.mpr ⟨first, time, hFound, hTime, rfl⟩

/-- On a sound table a ride can be left at every later position. -/
theorem exists_alightTime_of_board? (sound : table.Sound)
    (h : board? problem table position stop id arrival bound = .ok (some ride)) {second : Nat}
    (hOrder : problem.direction.Precedes position second) (hPosition : position < table.numStops)
    (hSecond : second < table.numStops) :
    ∃ left, ride.alightTime problem table second = .ok left := by
  have hBoarded := boarded_of_board? h
  obtain ⟨time, hTime, hRide⟩ := hBoarded.time
  obtain ⟨later, hLater⟩ := sound.exists_timeAt hBoarded.runs.lt_numTrips hSecond
  refine ⟨_, Ride.alightTime_eq_ok_iff.mpr ⟨later, hLater, rfl, ?_⟩⟩
  rw [hRide]
  exact sound.boardTime_le_alightTime hOrder hPosition hSecond hTime hLater

end Rides

namespace Manner

theorem leaveAll_append (manner : Manner State) (first second : List Alighting) (state : State) :
    manner.leaveAll (first ++ second) state =
      manner.leaveAll second (manner.leaveAll first state) :=
  List.foldl_append

/-- What leaving each of some rides keeps, leaving them in turn keeps. -/
theorem leaveAll_induction {Inv : State → Prop} {alightings : List Alighting} {state : State}
    (hLeave : ∀ alighting ∈ alightings, ∀ next, Inv next →
      Inv (manner.leave alighting.stop alighting.ride alighting.time next))
    (hState : Inv state) : Inv (manner.leaveAll alightings state) :=
  List.foldlRecOn (motive := Inv) _ _ hState fun next hNext alighting hMem =>
    hLeave alighting hMem next hNext

end Manner

/-- A ride that can be left at all positions is left at each. -/
theorem exists_leaveEach (manner : Manner State) {ride : Ride} (state : State)
    (hLeft : ∀ position ∈ positions, ∃ stop left, table.stopAt position = .ok stop ∧
      ride.alightTime problem table position = .ok left) :
    ∃ alightings,
      leaveEach problem table manner ride positions state =
        .ok (manner.leaveAll alightings state) ∧
      ∀ alighting, alighting ∈ alightings ↔ ride.LeftAt problem table positions alighting := by
  induction positions generalizing state with
  | nil => exact ⟨[], rfl, by simp [Ride.LeftAt]⟩
  | cons position rest ih =>
      obtain ⟨⟨stop, left, hStop, hTime⟩, hRest⟩ := List.forall_mem_cons.mp hLeft
      obtain ⟨alightings, hLeave, hMem⟩ := ih (manner.leave stop ride left state) hRest
      refine ⟨⟨stop, ride, left⟩ :: alightings, ?_, fun alighting => ?_⟩
      · rw [leaveEach, hStop, hTime]
        exact hLeave
      · rw [List.mem_cons, hMem]
        constructor
        · rintro (rfl | ⟨hRide, later, hLater, hAt⟩)
          · exact ⟨rfl, position, List.mem_cons_self .., hStop, hTime⟩
          · exact ⟨hRide, later, List.mem_cons_of_mem _ hLater, hAt⟩
        · rintro ⟨rfl, later, hLater, hAt, hAtTime⟩
          rcases List.mem_cons.mp hLater with rfl | hLater
          · rw [hStop, Except.ok.injEq] at hAt
            rw [hTime, Except.ok.injEq] at hAtTime
            subst hAt hAtTime
            exact Or.inl rfl
          · exact Or.inr ⟨rfl, later, hLater, hAt, hAtTime⟩

section Sound

variable (sound : table.Sound) (manner : Manner State)

include sound

/-- At one position every ride that is got on is left at each later one. -/
theorem exists_boardEach {position : Nat} {later : List Nat} (hPosition : position < table.numStops)
    (hOrder : ∀ second ∈ later, problem.direction.Precedes position second)
    (hInside : ∀ second ∈ later, second < table.numStops) (stop : Nat)
    (sources : List (Nat × Arrival)) (state : State) :
    ∃ alightings,
      boardEach problem table manner position stop later sources state =
        .ok (manner.leaveAll alightings state) ∧
      ∀ alighting, alighting ∈ alightings ↔ ∃ source ∈ sources, ∃ ride,
        board? problem table position stop source.1 source.2 none = .ok (some ride) ∧
          ride.LeftAt problem table later alighting := by
  induction sources generalizing state with
  | nil => exact ⟨[], rfl, by simp⟩
  | cons source rest ih =>
      obtain ⟨result, hResult⟩ := exists_board? problem stop source.1 source.2 none sound.toShaped
        hPosition (by simp)
      cases result with
      | none =>
          obtain ⟨alightings, hBoard, hMem⟩ := ih state
          refine ⟨alightings, ?_, fun alighting => ?_⟩
          · rw [boardEach]
            exact Checked.bind_eq_ok_iff.mpr ⟨none, hResult, hBoard⟩
          · simp [hMem, hResult]
      | some ride =>
          obtain ⟨first, hFirst, hMemFirst⟩ := exists_leaveEach manner state
            fun second hSecond => by
              obtain ⟨target, hTarget⟩ := TripTable.exists_stopAt (hInside second hSecond)
              obtain ⟨left, hLeft⟩ := exists_alightTime_of_board? sound hResult
                (hOrder second hSecond) hPosition (hInside second hSecond)
              exact ⟨target, left, hTarget, hLeft⟩
          obtain ⟨others, hBoard, hMem⟩ := ih (manner.leaveAll first state)
          refine ⟨first ++ others, ?_, fun alighting => ?_⟩
          · rw [boardEach, Manner.leaveAll_append]
            exact Checked.bind_eq_ok_iff.mpr ⟨some ride, hResult,
              Checked.bind_eq_ok_iff.mpr ⟨_, hFirst, hBoard⟩⟩
          · simp only [List.mem_append, hMemFirst, hMem, List.mem_cons, exists_eq_or_imp, hResult,
              Except.ok.injEq, Option.some.injEq, exists_eq_left']

/-- Trying every boarding is leaving, in turn, each ride that is got on at each later position.
Leaving a ride adds nothing to the arrivals to go on from, so those at a later stop are still the
ones that the pass began with. -/
theorem exists_scanEach {Inv : State → Prop} {sources : Nat → List (Nat × Arrival)}
    (hSources : ∀ next, Inv next → manner.sources next = sources)
    (hOrder : positions.Pairwise problem.direction.Precedes)
    (hInside : ∀ position ∈ positions, position < table.numStops)
    (hLeave : ∀ alighting, Tried problem table sources positions alighting → ∀ next, Inv next →
      Inv (manner.leave alighting.stop alighting.ride alighting.time next)) {state : State}
    (hState : Inv state) :
    ∃ alightings,
      scanEach problem table manner positions state = .ok (manner.leaveAll alightings state) ∧
      ∀ alighting, alighting ∈ alightings ↔ Tried problem table sources positions alighting := by
  induction positions generalizing state with
  | nil =>
      refine ⟨[], rfl, fun alighting => ?_⟩
      simp only [List.not_mem_nil, false_iff]
      intro h
      cases h
  | cons position rest ih =>
      obtain ⟨hFirst, hOrder⟩ := List.pairwise_cons.mp hOrder
      obtain ⟨hPosition, hInside⟩ := List.forall_mem_cons.mp hInside
      obtain ⟨stop, hStop⟩ := TripTable.exists_stopAt hPosition
      obtain ⟨here, hHere, hMemHere⟩ := exists_boardEach sound manner hPosition hFirst hInside stop
        (sources stop) state
      have hNext : Inv (manner.leaveAll here state) := by
        refine Manner.leaveAll_induction (fun alighting hMem => ?_) hState
        obtain ⟨source, hSource, ride, hBoard, hLeft⟩ := (hMemHere alighting).mp hMem
        exact hLeave alighting (.here hStop hSource hBoard hLeft)
      obtain ⟨others, hOthers, hMem⟩ := ih hOrder hInside
        (fun alighting hTried => hLeave alighting hTried.later) hNext
      refine ⟨here ++ others, ?_, fun alighting => ?_⟩
      · rw [scanEach, Manner.leaveAll_append]
        refine Checked.bind_eq_ok_iff.mpr ⟨stop, hStop, ?_⟩
        rw [hSources state hState]
        exact Checked.bind_eq_ok_iff.mpr ⟨_, hHere, hOthers⟩
      · rw [List.mem_append, hMemHere, hMem]
        constructor
        · rintro (⟨source, hSource, ride, hBoard, hLeft⟩ | hLater)
          · exact .here hStop hSource hBoard hLeft
          · exact hLater.later
        · intro h
          cases h with
          | here hAt hSource hBoard hLeft =>
              rw [hStop, Except.ok.injEq] at hAt
              subst hAt
              exact Or.inl ⟨_, hSource, _, hBoard, hLeft⟩
          | later hLater => exact Or.inr hLater

end Sound

end JourneyPlanner.Search
