import JourneyPlanner.Proofs.DayTimetable
import JourneyPlanner.Search.Rounds

/-! What a search is asked for, said without the search. A journey is described step by step:
an access leg, then rides and walks in any number, then an egress leg. Each step says at which
stop, in which round and at what time the traveller is, all read in the direction of the
search, and no time is cut off at the limits of the clock. -/
namespace JourneyPlanner

/-- In the timetable of a date and some modes, a trip takes a search from one stop to another:
it is boarded at some position of its pattern and left at a later one. -/
inductive Network.Carries (network : Network) (date : Date) (modes : ModeSet)
    (direction : Direction) (pattern trip : Nat) :
    (origin target : Nat) → (boarded left : Int) → Prop where
  | ride {table : TripTable} {service first second origin target : Nat} {time later : StopTime}
      (hTable : network.tripTable pattern = .ok table)
      (hMode : modes.contains table.mode = true)
      (hService : table.services[trip]? = some service)
      (hRuns : network.calendar.runsOn service date = true)
      (hOrder : direction.Precedes first second)
      (hOrigin : table.stopAt first = .ok origin)
      (hTarget : table.stopAt second = .ok target)
      (hTime : table.timeAt trip first = .ok time)
      (hLater : table.timeAt trip second = .ok later) :
      Carries network date modes direction pattern trip origin target
        (direction.boardTime time) (direction.alightTime later)

/-- On a sound network nothing is left before it was boarded. -/
theorem Network.Carries.boarded_le_left {network : Network} (sound : network.Sound) {date : Date}
    {modes : ModeSet} {direction : Direction} {pattern trip origin target : Nat}
    {boarded left : Int}
    (ride : network.Carries date modes direction pattern trip origin target boarded left) :
    direction.timeCriterion boarded ≤ direction.timeCriterion left := by
  cases ride with
  | ride hTable _ _ _ hOrder hOrigin hTarget hTime hLater =>
      exact (sound.table hTable).boardTime_le_alightTime hOrder
        (TripTable.lt_numStops_of_stopAt hOrigin) (TripTable.lt_numStops_of_stopAt hTarget)
        hTime hLater

structure Query where
  network : Network
  date : Date
  modes : ModeSet
  request : Request

namespace Query

def direction (query : Query) : Direction := query.request.direction

/-- The time kept free before boarding after an arrival of a round. Only the stops of access
legs are arrivals of round 0. -/
def slackAfter (query : Query) (round : Nat) : Int :=
  if round = 0 then 0 else query.request.boardSlack

inductive Manner where
  | access
  | ride
  | walk
deriving DecidableEq

/-- The round in which a journey is after walking on. A walk belongs to the round of the ride
before it; one that follows no ride takes a round of its own. -/
def Manner.roundOnFoot : Manner → (round : Nat) → Nat
  | ride, round => round
  | access, round => round + 1
  | walk, round => round + 1

/-- Where journeys can be that start at a time: after an access leg, a ride or a walk, in a
round, at a stop, at a time. -/
inductive Reaches (query : Query) (time : Int) :
    Manner → (round stop : Nat) → (reached : Int) → Prop where
  | access {leg : WalkLeg} (hLeg : leg ∈ query.request.startLegs) :
      Reaches query time .access 0 leg.stop (query.direction.along time leg.duration)
  | ride {manner : Manner} {round origin target pattern trip : Nat} {reached boarded left : Int}
      (before : Reaches query time manner round origin reached)
      (hRide : query.network.Carries query.date query.modes query.direction pattern trip
        origin target boarded left)
      (hReady : query.direction.isBetter boarded
        (query.direction.along reached (query.slackAfter round)) = false) :
      Reaches query time .ride (round + 1) target left
  | walk {manner : Manner} {round stop : Nat} {reached : Int} {transfer : Transfer}
      (before : Reaches query time manner round stop reached)
      (hWalk : transfer ∈ query.direction.transfers query.network stop) :
      Reaches query time .walk (manner.roundOnFoot round)
        (query.direction.transferTarget transfer)
        (query.direction.along reached transfer.duration)

/-- The rounds and times with which journeys end: by an egress leg from a ride. -/
inductive Ends (query : Query) (time : Int) : (round : Nat) → (finish : Int) → Prop where
  | egress {round : Nat} {leg : WalkLeg} {reached : Int}
      (last : Reaches query time .ride round leg.stop reached)
      (hLeg : leg ∈ query.request.endLegs) :
      Ends query time round (query.direction.along reached leg.duration)

/-- The best time with which a journey of at most so many rounds ends. -/
def IsBest (query : Query) (time : Int) (rounds : Nat) (finish : Int) : Prop :=
  (∃ round ≤ rounds, query.Ends time round finish) ∧
    ∀ round ≤ rounds, ∀ other, query.Ends time round other →
      query.direction.isBetter other finish = false

end Query

/-- A network with times and durations far from the limits of the clock. -/
structure Network.Modest (network : Network) : Prop where
  times : ∀ time ∈ network.stopTimes,
    Clock.Within Clock.modest time.arrival ∧ Clock.Within Clock.modest time.departure
  walks : ∀ stop, ∀ transfer ∈ network.transfersFrom stop ++ network.transfersTo stop,
    Clock.Within Clock.modest transfer.duration

structure Request.Modest (request : Request) : Prop where
  time : Clock.Within Clock.modest request.time
  searchWindow : Clock.Within Clock.modest request.searchWindow
  boardSlack : Clock.Within Clock.modest request.boardSlack
  legs : ∀ leg ∈ request.access ++ request.egress, Clock.Within Clock.modest leg.duration

theorem Network.Modest.timeAt {network : Network} (modest : network.Modest) {index : Nat}
    {table : TripTable} (hTable : network.tripTable index = .ok table) {trip position : Nat}
    {time : StopTime} (hTime : table.timeAt trip position = .ok time) :
    Clock.Within Clock.modest time.arrival ∧ Clock.Within Clock.modest time.departure := by
  obtain ⟨pattern, -, hTable⟩ := Checked.bind_eq_ok_iff.mp hTable
  obtain ⟨stops, -, hTable⟩ := Checked.bind_eq_ok_iff.mp hTable
  obtain ⟨times, hTimes, hTable⟩ := Checked.bind_eq_ok_iff.mp hTable
  obtain ⟨services, -, hTable⟩ := Checked.bind_eq_ok_iff.mp hTable
  rw [Checked.lookup_eq_ok_iff] at hTimes
  obtain ⟨-, rfl⟩ := slice?_eq_some_iff.mp hTimes
  cases hTable
  rw [TripTable.timeAt_eq_ok_iff, Array.getElem?_extract] at hTime
  split at hTime
  · exact modest.times time (Array.mem_of_getElem? hTime)
  · cases hTime

theorem Network.Modest.transfers {network : Network} (modest : network.Modest)
    {direction : Direction} {stop : Nat} {transfer : Transfer}
    (h : transfer ∈ direction.transfers network stop) :
    Clock.Within Clock.modest transfer.duration := by
  cases direction with
  | forward => exact modest.walks stop transfer (List.mem_append_left _ h)
  | reverse => exact modest.walks stop transfer (List.mem_append_right _ h)

structure Draft.Modest (draft : Draft) : Prop where
  times : ∀ pattern ∈ draft.patterns, ∀ trip ∈ pattern.trips, ∀ time ∈ trip.times,
    Clock.Within Clock.modest time.arrival ∧ Clock.Within Clock.modest time.departure
  walks : ∀ transfer ∈ draft.transfers, Clock.Within Clock.modest transfer.duration

/-- A modest draft makes a modest network. -/
theorem Draft.Modest.pack {draft : Draft} (modest : draft.Modest) :
    (draft.pack draft.arranged).Modest := by
  constructor
  · intro time hTime
    obtain ⟨pattern, hPattern, hTime⟩ := List.mem_flatMap.mp (List.mem_toArray.mp hTime)
    obtain ⟨trip, hTrip, hRow⟩ := List.mem_flatMap.mp hTime
    obtain ⟨original, hOriginal, rfl⟩ := List.mem_map.mp hPattern
    exact modest.times original hOriginal trip (PatternDraft.mem_trips_sorted.mp hTrip) time hRow
  · intro stop transfer hTransfer
    rw [transfersFrom_pack, transfersTo_pack] at hTransfer
    split at hTransfer
    · rcases List.mem_append.mp hTransfer with hFrom | hTo
      · exact modest.walks transfer (mem_transfersFrom.mp hFrom).1
      · exact modest.walks transfer (mem_transfersTo.mp hTo).1
    · cases hTransfer

end JourneyPlanner
