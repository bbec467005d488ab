import JourneyPlanner.Proofs.Mirror.DayTimetable
import JourneyPlanner.Proofs.Search.Records

/-! A reverse search against the forward one on the mirror image of its timetable. Main statements:
what one makes of a record by riding or walking is the image of what the other makes of its
image, as long as no time meets the limits of the clock. -/
namespace JourneyPlanner

/-- A time on a clock that runs backwards. The earliest time is the latest one there, though they
are not the negatives of each other. -/
def Clock.turn (time : Int) : Int := Clock.clamp (-time)

/-- Away from the sentinels, the clock is turned by negation. -/
theorem Clock.turn_eq_neg {time : Int} (h : Clock.Within 2147483646 time) :
    Clock.turn time = -time := by
  apply Clock.clamp_eq
  simp only [Clock.Within] at h ⊢
  omega

namespace Direction

/-- Unreached in one direction is turned to unreached in the other. -/
theorem turn_unreached : Clock.turn reverse.unreached = forward.unreached := rfl

/-- Being better means the same on both clocks. -/
theorem isBetter_turn {time than : Int} (hTime : Clock.Within 2147483646 time)
    (hThan : than = reverse.unreached ∨ Clock.Within 2147483646 than) :
    forward.isBetter (-time) (Clock.turn than) = reverse.isBetter time than := by
  rcases hThan with rfl | hThan
  · have hUnreached := latest_le_timeCriterion_unreached reverse
    rw [turn_unreached, Bool.eq_iff_iff, isBetter_iff, isBetter_iff]
    simp only [Clock.Within, timeCriterion, unreached, Clock.latest, Clock.earliest] at *
    omega
  · rw [Clock.turn_eq_neg hThan]
    simp only [isBetter]
    exact decide_eq_decide.mpr (by omega)

/-- Adding on the negated clock is subtracting, unless it saturates. -/
theorem plus_forward_neg {time duration : Int}
    (h : Clock.Within 2147483646 (reverse.along time duration)) :
    forward.plus (-time) duration = -reverse.plus time duration := by
  simp only [Clock.Within, along] at h
  rw [plus_eq_along (by simp only [Clock.Within, along]; omega),
    plus_eq_along (by simp only [Clock.Within, along]; omega)]
  simp only [along]
  omega

end Direction

def Network.numTripsOf (network : Network) (pattern : Nat) : Nat :=
  (network.patterns[pattern]?.map Pattern.numTrips).getD 0

theorem Network.numTrips_of_tripTable {network : Network} {index : Nat} {table : TripTable}
    (h : network.tripTable index = .ok table) : table.numTrips = network.numTripsOf index := by
  obtain ⟨pattern, hPattern, h⟩ := Checked.bind_eq_ok_iff.mp h
  obtain ⟨stops, -, h⟩ := Checked.bind_eq_ok_iff.mp h
  obtain ⟨times, -, h⟩ := Checked.bind_eq_ok_iff.mp h
  obtain ⟨services, hServices, h⟩ := Checked.bind_eq_ok_iff.mp h
  rw [Checked.lookup_eq_ok_iff] at hPattern hServices
  obtain ⟨hInside, rfl⟩ := slice?_eq_some_iff.mp hServices
  cases h
  simp [TripTable.numTrips, numTripsOf, hPattern]
  omega

/-- A way to a stop in the image of a network: rides are on the image of their trip. -/
def Approach.mirror (network : Network) : Approach → Approach
  | access duration => access duration
  | transit boardStop boardTime pattern trip =>
    transit boardStop (-boardTime) pattern (network.numTripsOf pattern - 1 - trip)
  | transfer origin duration => transfer origin duration

def Arrival.mirror (network : Network) (arrival : Arrival) : Arrival :=
  { arrival with time := -arrival.time, approach := arrival.approach.mirror network }

def Arrivals.mirror (network : Network) (arrivals : Arrivals) : Arrivals :=
  ⟨arrivals.records.map (Arrival.mirror network)⟩

def DestinationArrival.mirror (destination : DestinationArrival) : DestinationArrival :=
  { destination with time := -destination.time }

/-- A ride on the image of its trip, in a pattern with so many trips. -/
def Search.Ride.mirror (numTrips : Nat) (ride : Ride) : Ride :=
  { ride with trip := numTrips - 1 - ride.trip, time := -ride.time }

section Records

variable (network : Network)

@[simp]
theorem Arrival.isTransit_mirror (arrival : Arrival) :
    (arrival.mirror network).isTransit = arrival.isTransit := by
  cases h : arrival.approach <;> simp [mirror, isTransit, h, Approach.mirror, Approach.isTransit]

namespace Arrivals

variable (arrivals : Arrivals)

theorem empty_mirror : empty.mirror network = empty := by
  simp [mirror, empty]

@[simp]
theorem size_mirror : (arrivals.mirror network).size = arrivals.size := by
  simp [mirror, size]

theorem push_mirror (arrival : Arrival) :
    (arrivals.mirror network).push (arrival.mirror network) =
      (arrivals.push arrival).mirror network := by
  simp [mirror, push]

@[simp]
theorem get?_mirror (id : Nat) :
    (arrivals.mirror network).get? id = (arrivals.get? id).map (Arrival.mirror network) := by
  simp [mirror, get?]

theorem numbered_mirror (ids : List Nat) :
    (arrivals.mirror network).numbered ids =
      (arrivals.numbered ids).map (Prod.map id (Arrival.mirror network)) := by
  simp only [numbered, get?_mirror, List.map_filterMap, Option.map_map]
  rfl

end Arrivals

end Records

namespace Search

structure Problem.Mirrors (problem image : Problem) : Prop where
  day : problem.day.Mirrors image.day
  direction : problem.direction = .reverse
  imageDirection : image.direction = .forward
  boardSlack : image.boardSlack = problem.boardSlack
  cost : image.cost = problem.cost
  costSlack : image.costSlack = problem.costSlack
  startLegs : image.startLegs = problem.startLegs
  endLegs : image.endLegs = problem.endLegs

namespace Problem.Mirrors

variable {problem image : Problem} (mirrors : problem.Mirrors image)

include mirrors

theorem numStops : image.numStops = problem.numStops := mirrors.day.numStops

theorem transfersAt (stop : Nat) :
    image.transfersAt stop = (problem.transfersAt stop).map Transfer.mirror := by
  simp only [Problem.transfersAt, mirrors.direction, mirrors.imageDirection, Direction.transfers]
  exact mirrors.day.transfersFrom stop

theorem endLegsAt (stop : Nat) : image.endLegsAt stop = problem.endLegsAt stop := by
  simp only [Problem.endLegsAt, mirrors.endLegs]

theorem slackAfter (round : Nat) : image.slackAfter round = problem.slackAfter round := by
  simp only [Problem.slackAfter, mirrors.boardSlack]

/-- The access arrivals of the mirrored problem are the mirrored access arrivals. -/
theorem accessArrival {time : Int} {leg : WalkLeg}
    (h : Clock.Within 2147483646 (problem.direction.along time leg.duration)) :
    image.accessArrival (-time) leg =
      (problem.accessArrival time leg).mirror problem.day.network := by
  rw [mirrors.direction] at h
  simp only [Problem.accessArrival, Arrival.mirror, Approach.mirror, mirrors.direction,
    mirrors.imageDirection, mirrors.cost, Direction.plus_forward_neg h]

/-- The walks of the mirrored problem are the mirrored walks. -/
theorem walkArrival {round id : Nat} {source : Arrival} {transfer : Transfer}
    (h : Clock.Within 2147483646 (problem.direction.along source.time transfer.duration)) :
    image.walkArrival round id (source.mirror problem.day.network) transfer.mirror =
      (problem.walkArrival round id source transfer).mirror problem.day.network := by
  rw [mirrors.direction] at h
  simp only [Problem.walkArrival, Arrival.mirror, Approach.mirror, mirrors.direction,
    mirrors.imageDirection, mirrors.cost, Transfer.mirror, Direction.transferTarget,
    Direction.plus_forward_neg h]

/-- The egresses of the mirrored problem are the mirrored egresses. -/
theorem destinationArrival {round id : Nat} {source : Arrival} {leg : WalkLeg}
    (h : Clock.Within 2147483646 (problem.direction.along source.time leg.duration)) :
    image.destinationArrival round id (source.mirror problem.day.network) leg =
      (problem.destinationArrival round id source leg).mirror := by
  rw [mirrors.direction] at h
  simp only [Problem.destinationArrival, Arrival.mirror, DestinationArrival.mirror,
    mirrors.direction, mirrors.imageDirection, mirrors.cost, Direction.plus_forward_neg h]

theorem rideCostAt (time : Int) : image.rideCostAt (-time) = problem.rideCostAt time := by
  simp only [Problem.rideCostAt, mirrors.cost, mirrors.direction, mirrors.imageDirection,
    Direction.timeCriterion]

/-- Boarding costs the same in the mirror. -/
theorem costOnBoard (source : Arrival) (boardTime : Int) :
    image.costOnBoard (source.mirror problem.day.network) (-boardTime) =
      problem.costOnBoard source boardTime := by
  simp only [Problem.costOnBoard, Arrival.mirror, mirrors.cost, mirrors.direction,
    mirrors.imageDirection, Direction.duration]
  rw [show -boardTime - -source.time = source.time - boardTime by omega]

/-- The arrival made by leaving a ride of a pattern. -/
theorem rideArrival {table : TripTable} {pattern : Nat}
    (hTable : problem.day.network.tripTable pattern = .ok table) (ride : Ride) (round stop : Nat)
    (left : Int) :
    (ride.mirror table.numTrips).arrival image round table.pattern stop (-left) =
      (ride.arrival problem round table.pattern stop left).mirror problem.day.network := by
  simp only [Ride.arrival, Ride.mirror, Arrival.mirror, Approach.mirror, mirrors.rideCostAt,
    Network.pattern_of_tripTable hTable, Network.numTrips_of_tripTable hTable]

section Table

variable {table other : TripTable} (tables : table.Mirrors other) {position : Nat}
  (hPosition : position < table.numStops)

include tables hPosition

/-- Both problems board the same trip, counted from opposite ends of the table. -/
theorem board? (sound : table.Sound) (otherSound : other.Sound) {stop id : Nat} {source : Arrival}
    {bound : Option Nat} {result : Option Ride}
    (hSource : Clock.Within 2147483646
      (problem.direction.along source.time (problem.slackAfter source.round)))
    (hBound : ∀ limit, bound = some limit → limit < table.numTrips)
    (h : Search.board? problem table position stop id source bound = .ok result) :
    Search.board? image other (table.numStops - 1 - position) stop id
        (source.mirror problem.day.network) (bound.map (table.numTrips - 1 - ·)) =
      .ok (result.map (Ride.mirror table.numTrips)) := by
  obtain ⟨trip, hTrip, h⟩ := Checked.bind_eq_ok_iff.mp h
  rw [mirrors.direction] at hSource
  rw [DayTimetable.boardable, mirrors.direction] at hTrip
  have hImage := tables.boardable sound otherSound hPosition hBound hTrip
  rw [← Direction.plus_forward_neg hSource, ← mirrors.day.isActive] at hImage
  unfold Search.board?
  rw [Checked.bind_eq_ok_iff]
  refine ⟨trip.map (table.numTrips - 1 - ·), ?_, ?_⟩
  · rw [mirrors.imageDirection, mirrors.slackAfter]
    exact hImage
  · cases trip with
    | none =>
        cases h
        rfl
    | some trip =>
        obtain ⟨time, hTime, h⟩ := Checked.bind_eq_ok_iff.mp h
        have hRuns := TripTable.runs_of_boardable hTrip
        rw [Option.map_some]
        refine Checked.bind_eq_ok_iff.mpr
          ⟨time.mirror, tables.timeAt hRuns.lt_numTrips hPosition hTime, ?_⟩
        cases h
        have hBoard : image.direction.boardTime time.mirror =
            -problem.direction.boardTime time := by
          rw [mirrors.direction, mirrors.imageDirection]
          rfl
        simp only [hBoard, mirrors.costOnBoard, mirrors.rideCostAt]
        rfl

/-- Both rides alight at mirrored times. -/
theorem alightTime {ride : Ride} (hTrip : ride.trip < table.numTrips) {left : Int}
    (h : ride.alightTime problem table position = .ok left) :
    (ride.mirror table.numTrips).alightTime image other (table.numStops - 1 - position) =
      .ok (-left) := by
  obtain ⟨time, hTime, rfl, hLe⟩ := Ride.alightTime_eq_ok_iff.mp h
  refine Ride.alightTime_eq_ok_iff.mpr ⟨time.mirror, tables.timeAt hTrip hPosition hTime, ?_, ?_⟩
  · rw [mirrors.direction, mirrors.imageDirection]
    rfl
  · rw [mirrors.direction] at hLe ⊢
    rw [mirrors.imageDirection]
    simpa only [Direction.timeCriterion, Ride.mirror] using hLe

end Table

end Problem.Mirrors

end Search

end JourneyPlanner
