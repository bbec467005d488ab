import JourneyPlanner.Proofs.Search.Riding

/-! The records of a search and how each comes from earlier ones, for any strategy. Main
statement: the time of every record is far from the limits of the clock. -/
namespace JourneyPlanner

namespace Arrivals

def Extends (later earlier : Arrivals) : Prop :=
  ∀ id arrival, earlier.get? id = some arrival → later.get? id = some arrival

@[simp]
theorem Extends.refl (arrivals : Arrivals) : arrivals.Extends arrivals := fun _ _ h => h

theorem Extends.trans {last later earlier : Arrivals} (hLast : last.Extends later)
    (hLater : later.Extends earlier) : last.Extends earlier :=
  fun id arrival h => hLast id arrival (hLater id arrival h)

theorem lt_size_of_get? {arrivals : Arrivals} {id : Nat} {arrival : Arrival}
    (h : arrivals.get? id = some arrival) : id < arrivals.size :=
  (Array.getElem?_eq_some_iff.mp h).1

theorem extends_push (arrivals : Arrivals) (arrival : Arrival) :
    (arrivals.push arrival).Extends arrivals := by
  intro id found h
  rw [get?_push, if_neg (Nat.ne_of_lt (lt_size_of_get? h)), h]

@[simp]
theorem get?_push_size (arrivals : Arrivals) (arrival : Arrival) :
    (arrivals.push arrival).get? arrivals.size = some arrival := by
  rw [get?_push, if_pos rfl]

/-- A record is in the list exactly if it stands under some number. -/
theorem mem_toList_iff {arrivals : Arrivals} {arrival : Arrival} :
    arrival ∈ arrivals.toList ↔ ∃ id, arrivals.get? id = some arrival := by
  rw [toList, Array.mem_toList_iff]
  exact Array.mem_iff_getElem?

theorem mem_toList_of_get? {arrivals : Arrivals} {id : Nat} {arrival : Arrival}
    (h : arrivals.get? id = some arrival) : arrival ∈ arrivals.toList :=
  mem_toList_iff.mpr ⟨id, h⟩

/-- Records that were made are still there later. -/
theorem Extends.mem_toList {later earlier : Arrivals} (h : later.Extends earlier)
    {arrival : Arrival} (hMem : arrival ∈ earlier.toList) : arrival ∈ later.toList := by
  obtain ⟨id, hId⟩ := mem_toList_iff.mp hMem
  exact mem_toList_of_get? (h id arrival hId)

theorem mem_push {arrivals : Arrivals} {arrival other : Arrival} :
    other ∈ (arrivals.push arrival).toList ↔ other ∈ arrivals.toList ∨ other = arrival := by
  simp

theorem mem_numbered {arrivals : Arrivals} {ids : List Nat} {id : Nat} {arrival : Arrival} :
    (id, arrival) ∈ arrivals.numbered ids ↔ id ∈ ids ∧ arrivals.get? id = some arrival := by
  simp only [numbered, List.mem_filterMap, Option.map_eq_some_iff, Prod.mk.injEq]
  constructor
  · rintro ⟨id, hId, arrival, hArrival, rfl, rfl⟩
    exact ⟨hId, hArrival⟩
  · rintro ⟨hId, hArrival⟩
    exact ⟨id, hId, arrival, hArrival, rfl, rfl⟩

end Arrivals

namespace Arrival

def manner (arrival : Arrival) : Query.Manner :=
  match arrival.approach with
  | .access _ => .access
  | .transit .. => .ride
  | .transfer .. => .walk

def roundOnFoot (arrival : Arrival) : Nat :=
  if arrival.isTransit then arrival.round else arrival.round + 1

theorem isTransit_iff {arrival : Arrival} : arrival.isTransit = true ↔ arrival.manner = .ride := by
  cases h : arrival.approach <;> simp [isTransit, manner, Approach.isTransit, h]

theorem roundOnFoot_manner (arrival : Arrival) :
    arrival.manner.roundOnFoot arrival.round = arrival.roundOnFoot := by
  cases h : arrival.approach <;>
    simp [roundOnFoot, manner, Query.Manner.roundOnFoot, isTransit, Approach.isTransit, h]

theorem round_le_roundOnFoot (arrival : Arrival) : arrival.round ≤ arrival.roundOnFoot := by
  unfold roundOnFoot
  split <;> omega

theorem roundOnFoot_le (arrival : Arrival) : arrival.roundOnFoot ≤ arrival.round + 1 := by
  unfold roundOnFoot
  split <;> omega

end Arrival

namespace Search

/-- How a record may come from those made before it. -/
inductive Problem.Derives (problem : Problem) (time : Int) (arrivals : Arrivals) :
    Arrival → Prop where
  | access {leg : WalkLeg} (hLeg : leg ∈ problem.startLegs) :
      Derives problem time arrivals (problem.accessArrival time leg)
  | ride {pattern first second id target : Nat} {table : TripTable} {source : Arrival}
      {bound : Option Nat} {ride : Ride} {left : Int}
      (hSource : arrivals.get? id = some source)
      (hTable : problem.day.network.tripTable pattern = .ok table)
      (hActive : problem.day.activePatterns.contains pattern = true)
      (hOrder : problem.direction.Precedes first second)
      (hOrigin : table.stopAt first = .ok source.stop)
      (hTarget : table.stopAt second = .ok target)
      (hBoard : board? problem table first source.stop id source bound = .ok (some ride))
      (hLeft : ride.alightTime problem table second = .ok left) :
      Derives problem time arrivals
        (ride.arrival problem (source.round + 1) table.pattern target left)
  | walk {id : Nat} {source : Arrival} {transfer : Transfer}
      (hSource : arrivals.get? id = some source)
      (hWalk : transfer ∈ problem.transfersAt source.stop) :
      Derives problem time arrivals
        (problem.walkArrival source.roundOnFoot id source transfer)

/-- Records each of which comes from those before it. -/
inductive Records (problem : Problem) (time : Int) : Arrivals → Prop where
  | empty : Records problem time Arrivals.empty
  | push {arrivals : Arrivals} {arrival : Arrival} (before : Records problem time arrivals)
      (hDerives : problem.Derives time arrivals arrival) :
      Records problem time (arrivals.push arrival)

/-- How a way to the destination may come from the records. -/
inductive Problem.Finishes (problem : Problem) (arrivals : Arrivals) :
    DestinationArrival → Prop where
  | egress {id : Nat} {source : Arrival} {leg : WalkLeg}
      (hSource : arrivals.get? id = some source) (hRide : source.isTransit = true)
      (hLeg : leg ∈ problem.endLegsAt source.stop) :
      Finishes problem arrivals (problem.destinationArrival source.round id source leg)

variable {problem : Problem} {time : Int} {arrivals : Arrivals}

theorem Problem.Derives.mono {later : Arrivals} (hExtends : later.Extends arrivals)
    {arrival : Arrival} (h : problem.Derives time arrivals arrival) :
    problem.Derives time later arrival := by
  cases h with
  | access hLeg => exact .access hLeg
  | ride hSource hTable hActive hOrder hOrigin hTarget hBoard hLeft =>
      exact .ride (hExtends _ _ hSource) hTable hActive hOrder hOrigin hTarget hBoard hLeft
  | walk hSource hWalk => exact .walk (hExtends _ _ hSource) hWalk

/-- The search got on a ride after a record of the round before, ahead of all these positions. -/
def OnBoard (problem : Problem) (table : TripTable) (arrivals : Arrivals) (round : Nat)
    (positions : List Nat) (ride : Ride) : Prop :=
  ∃ first id source bound, table.stopAt first = .ok source.stop ∧
    arrivals.get? id = some source ∧ source.round + 1 = round ∧
    board? problem table first source.stop id source bound = .ok (some ride) ∧
    ∀ position ∈ positions, problem.direction.Precedes first position

namespace OnBoard

variable {table : TripTable} {round : Nat} {positions : List Nat} {ride : Ride}

theorem mono {later : Arrivals} (hExtends : later.Extends arrivals)
    (h : OnBoard problem table arrivals round positions ride) :
    OnBoard problem table later round positions ride := by
  obtain ⟨first, id, source, bound, hStop, hSource, hRest⟩ := h
  exact ⟨first, id, source, bound, hStop, hExtends _ _ hSource, hRest⟩

theorem tail {position : Nat} (h : OnBoard problem table arrivals round (position :: positions) ride) :
    OnBoard problem table arrivals round positions ride := by
  obtain ⟨first, id, source, bound, hStop, hSource, hRound, hBoard, hOrder⟩ := h
  exact ⟨first, id, source, bound, hStop, hSource, hRound, hBoard,
    fun later hLater => hOrder later (List.mem_cons_of_mem _ hLater)⟩

theorem lt_numTrips (h : OnBoard problem table arrivals round positions ride) :
    ride.trip < table.numTrips := by
  obtain ⟨first, id, source, bound, hStop, hSource, hRound, hBoard, hOrder⟩ := h
  exact (boarded_of_board? hBoard).runs.lt_numTrips

section Leave

variable {pattern position stop : Nat}
  (hTable : problem.day.network.tripTable pattern = .ok table)
  (hActive : problem.day.activePatterns.contains pattern = true)
  (hPosition : position ∈ positions) (hStop : table.stopAt position = .ok stop)

include hTable hActive hPosition hStop

/-- Leaving the ride at any of the positions makes a record, unless its trip goes back in time. -/
theorem alightTime_yields (h : OnBoard problem table arrivals round positions ride) (time : Int)
    (linked : problem.day.network.Linked) :
    Yields
      (fun left =>
        problem.Derives time arrivals (ride.arrival problem round table.pattern stop left))
      (problem.day.network.GoesBack problem.direction)
      (ride.alightTime problem table position) := by
  obtain ⟨first, id, source, bound, hOrigin, hSource, rfl, hBoard, hOrder⟩ := h
  have hLeave := Ride.alightTime_yields hTable (linked.shaped hTable) (boarded_of_board? hBoard)
    (hOrder position hPosition) (TripTable.lt_numStops_of_stopAt hOrigin)
    (TripTable.lt_numStops_of_stopAt hStop)
  cases hLeft : ride.alightTime problem table position with
  | error fault =>
      rw [hLeft] at hLeave
      exact hLeave
  | ok left =>
      exact .ride hSource hTable hActive (hOrder position hPosition) hOrigin hStop hBoard hLeft

/-- On a sound network the ride can be left at any of the positions, which makes a record. -/
theorem exists_alightTime (h : OnBoard problem table arrivals round positions ride) (time : Int)
    (sound : problem.day.network.Sound) :
    ∃ left, ride.alightTime problem table position = .ok left ∧
      problem.Derives time arrivals (ride.arrival problem round table.pattern stop left) :=
  (h.alightTime_yields hTable hActive hPosition hStop time sound.toLinked).exists_ok
    sound.not_goesBack

end Leave

end OnBoard

theorem Problem.Finishes.mono {later : Arrivals} (hExtends : later.Extends arrivals)
    {destination : DestinationArrival} (h : problem.Finishes arrivals destination) :
    problem.Finishes later destination := by
  cases h with
  | egress hSource hRide hLeg => exact .egress (hExtends _ _ hSource) hRide hLeg

/-- A record is made at a stop of the network. -/
theorem Problem.Derives.stop_lt (linked : problem.day.network.Linked) (legs : problem.KnownLegs)
    {arrival : Arrival} (h : problem.Derives time arrivals arrival) :
    arrival.stop < problem.numStops := by
  cases h with
  | access hLeg => exact (legs _ (Or.inl hLeg)).1
  | ride hSource hTable hActive hOrder hOrigin hTarget hBoard hLeft =>
      exact linked.stop_lt hTable hTarget
  | walk hSource hWalk => exact (linked.transfers hWalk).1

theorem Problem.Modest.slackAfter (modest : problem.Modest) (round : Nat) :
    Clock.Within Clock.modest (problem.slackAfter round) := by
  unfold Problem.slackAfter
  split
  · exact ⟨by decide, by decide⟩
  · exact modest.boardSlack

/-- What lets a search at a time run to its end: a sound network, known legs, and no number so
large that a sum would meet the limits of the clock. -/
structure Problem.Regular (problem : Problem) (time : Int) : Prop where
  sound : problem.day.network.Sound
  legs : problem.KnownLegs
  modest : problem.Modest
  time : Clock.Within (2 * Clock.modest) time

namespace Records

/-- What follows for a record from the same of all records before it, holds of all records. -/
theorem induction {P : Arrival → Prop} (records : Records problem time arrivals)
    (step : ∀ before arrival, Records problem time before → (∀ earlier ∈ before.toList, P earlier) →
      problem.Derives time before arrival → P arrival) :
    ∀ arrival ∈ arrivals.toList, P arrival := by
  induction records with
  | empty => simp [Arrivals.empty, Arrivals.toList]
  | push records hDerives ih =>
      intro arrival hMem
      rcases Arrivals.mem_push.mp hMem with hBefore | rfl
      · exact ih arrival hBefore
      · exact step _ _ records ih hDerives

/-- Only a record on foot can be of round 0. -/
theorem round_pos_of_isTransit (records : Records problem time arrivals) {arrival : Arrival}
    (hMem : arrival ∈ arrivals.toList) (hRide : arrival.isTransit = true) : 0 < arrival.round := by
  refine records.induction (P := fun arrival => arrival.isTransit = true → 0 < arrival.round)
    ?_ arrival hMem hRide
  intro before arrival _ _ hDerives hRide
  cases hDerives with
  | access hLeg => cases hRide
  | ride => exact Nat.succ_pos _
  | walk hSource hWalk => cases hRide

/-- Before the first round nothing was ridden. -/
theorem isTransit_eq_false (records : Records problem time arrivals) {arrival : Arrival}
    (hMem : arrival ∈ arrivals.toList) (hRound : arrival.round ≤ 0) :
    arrival.isTransit = false := by
  refine Bool.eq_false_iff.mpr fun hRide => ?_
  have := records.round_pos_of_isTransit hMem hRide
  omega

section Modest

variable (modest : problem.Modest) (hTime : Clock.Within (2 * Clock.modest) time)

include modest hTime

/-- A ride brings the time back near the timetable, so only the walks of one round after the
other move it away from there. -/
theorem within_time (records : Records problem time arrivals) {arrival : Arrival}
    (hMem : arrival ∈ arrivals.toList) (hRound : arrival.round ≤ Request.maxSupportedTransfers + 1) :
    Clock.Within ((arrival.roundOnFoot + 2) * Clock.modest) arrival.time := by
  refine records.induction (P := fun arrival =>
    arrival.round ≤ Request.maxSupportedTransfers + 1 →
      Clock.Within ((arrival.roundOnFoot + 2) * Clock.modest) arrival.time) ?_ arrival hMem hRound
  intro before arrival _ ih hDerives hRound
  rw [← problem.direction.within_timeCriterion] at hTime ⊢
  cases hDerives with
  | @access leg hLeg =>
      have hDuration := modest.legs leg (Or.inl hLeg)
      have hFoot : (problem.accessArrival time leg).roundOnFoot = 1 := rfl
      simp only [Clock.Within, Clock.modest, hFoot] at hTime hDuration ⊢
      simp only [Problem.accessArrival]
      rw [Direction.timeCriterion_plus (by simp only [Clock.Within]; omega)]
      omega
  | ride hSource hTable hActive hOrder hOrigin hTarget hBoard hLeft =>
      obtain ⟨later, hLater, rfl, -⟩ := Ride.alightTime_eq_ok_iff.mp hLeft
      have hTimes := modest.network.timeAt hTable hLater
      simp only [Ride.arrival]
      cases problem.direction <;>
        simp only [Direction.alightTime, Direction.timeCriterion, Clock.Within, Clock.modest]
          at hTimes ⊢ <;> omega
  | @walk id source transfer hSource hWalk =>
      have hDuration := modest.network.transfers hWalk
      have hRounds := source.round_le_roundOnFoot
      have hFoot := source.roundOnFoot_le
      have hWalked : (problem.walkArrival source.roundOnFoot id source transfer).roundOnFoot =
          source.roundOnFoot + 1 := rfl
      simp only [Problem.walkArrival, Request.maxSupportedTransfers] at hRound
      have hBefore := ih source (Arrivals.mem_toList_of_get? hSource)
        (by simp only [Request.maxSupportedTransfers]; omega)
      rw [← problem.direction.within_timeCriterion] at hBefore
      simp only [Clock.Within, Clock.modest, hWalked] at hBefore hDuration ⊢
      simp only [Problem.walkArrival]
      rw [Direction.timeCriterion_plus (by simp only [Clock.Within]; omega)]
      omega

theorem within_startLeg {leg : WalkLeg} (hLeg : leg ∈ problem.startLegs) :
    Clock.Within 2147483646 (problem.direction.along time leg.duration) := by
  have hDuration := modest.legs leg (Or.inl hLeg)
  rw [← problem.direction.within_timeCriterion] at hTime ⊢
  rw [Direction.timeCriterion_along]
  simp only [Clock.Within, Clock.modest] at hTime hDuration ⊢
  omega

theorem plus_startLeg {leg : WalkLeg} (hLeg : leg ∈ problem.startLegs) :
    problem.direction.plus time leg.duration = problem.direction.along time leg.duration := by
  have hWithin := within_startLeg modest hTime hLeg
  apply Direction.plus_eq_along
  simp only [Clock.Within] at hWithin ⊢
  omega

/-- Moving along from a record by a modest duration stays clear of the limits of the clock. -/
theorem within_along (records : Records problem time arrivals) {arrival : Arrival}
    (hMem : arrival ∈ arrivals.toList) (hRound : arrival.round ≤ Request.maxSupportedTransfers + 1)
    {duration : Int} (hDuration : Clock.Within Clock.modest duration) :
    Clock.Within 2147483646 (problem.direction.along arrival.time duration) := by
  have hWithin := records.within_time modest hTime hMem hRound
  have hFoot := arrival.roundOnFoot_le
  simp only [Request.maxSupportedTransfers] at hRound
  rw [← problem.direction.within_timeCriterion] at hWithin ⊢
  rw [Direction.timeCriterion_along]
  simp only [Clock.Within, Clock.modest] at hWithin hDuration ⊢
  omega

/-- Times of records are far enough from the limits to add without saturating. -/
theorem plus_eq_along (records : Records problem time arrivals) {arrival : Arrival}
    (hMem : arrival ∈ arrivals.toList) (hRound : arrival.round ≤ Request.maxSupportedTransfers + 1)
    {duration : Int} (hDuration : Clock.Within Clock.modest duration) :
    problem.direction.plus arrival.time duration =
      problem.direction.along arrival.time duration := by
  have hWithin := records.within_along modest hTime hMem hRound hDuration
  apply Direction.plus_eq_along
  simp only [Clock.Within] at hWithin ⊢
  omega

theorem along_lt_unreached (records : Records problem time arrivals) {arrival : Arrival}
    (hMem : arrival ∈ arrivals.toList) (hRound : arrival.round ≤ Request.maxSupportedTransfers + 1)
    {duration : Int} (hDuration : Clock.Within Clock.modest duration) :
    problem.direction.timeCriterion arrival.time + duration <
      problem.direction.timeCriterion problem.direction.unreached := by
  have hWithin := records.within_along modest hTime hMem hRound hDuration
  have hUnreached := Direction.latest_le_timeCriterion_unreached problem.direction
  rw [← problem.direction.within_timeCriterion,
    Direction.timeCriterion_along] at hWithin
  simp only [Clock.Within] at hWithin
  omega

/-- The time of a record is one the clock can tell. -/
theorem within_of_mem (records : Records problem time arrivals) {arrival : Arrival}
    (hMem : arrival ∈ arrivals.toList) (hRound : arrival.round ≤ Request.maxSupportedTransfers + 1) :
    Clock.Within 2147483646 arrival.time := by
  have hWithin := records.within_along modest hTime hMem hRound
    (show Clock.Within Clock.modest 0 from ⟨by decide, by decide⟩)
  rwa [← problem.direction.within_timeCriterion,
    Direction.timeCriterion_along, Int.add_zero, Direction.within_timeCriterion] at hWithin

theorem within_of_derives (records : Records problem time arrivals) {arrival : Arrival}
    (hDerives : problem.Derives time arrivals arrival)
    (hRound : arrival.round ≤ Request.maxSupportedTransfers + 1) :
    Clock.Within 2147483646 arrival.time :=
  (records.push hDerives).within_of_mem modest hTime (Arrivals.mem_push.mpr (Or.inr rfl)) hRound

theorem within_of_finishes (records : Records problem time arrivals)
    {destination : DestinationArrival} (hFinishes : problem.Finishes arrivals destination)
    (hRound : destination.round ≤ Request.maxSupportedTransfers + 1) :
    Clock.Within 2147483646 destination.time := by
  cases hFinishes with
  | egress hSource hRide hLeg =>
      have hMem := Arrivals.mem_toList_of_get? hSource
      have hDuration := modest.legs _ (Or.inr (Problem.mem_endLegsAt.mp hLeg).1)
      rw [Problem.destinationArrival, records.plus_eq_along modest hTime hMem hRound hDuration]
      exact records.within_along modest hTime hMem hRound hDuration

/-- No record is made as late as a stop that is not reached. -/
theorem lt_unreached (records : Records problem time arrivals) {arrival : Arrival}
    (hDerives : problem.Derives time arrivals arrival)
    (hRound : arrival.round ≤ Request.maxSupportedTransfers + 1) :
    problem.direction.timeCriterion arrival.time <
      problem.direction.timeCriterion problem.direction.unreached := by
  have hLt := (records.push hDerives).along_lt_unreached modest hTime
    (Arrivals.mem_push.mpr (Or.inr rfl)) hRound
    (show Clock.Within Clock.modest 0 from ⟨by decide, by decide⟩)
  omega

/-- A trip can be got on as soon as the slack after an arrival has passed. -/
theorem readyAfter_eq_along (records : Records problem time arrivals) {arrival : Arrival}
    (hMem : arrival ∈ arrivals.toList)
    (hRound : arrival.round ≤ Request.maxSupportedTransfers + 1) :
    problem.readyAfter arrival =
      problem.direction.along arrival.time (problem.slackAfter arrival.round) :=
  records.plus_eq_along modest hTime hMem hRound (modest.slackAfter _)

end Modest

/-- The record of a number was made when there were as many records as that. -/
theorem derives_of_get? (records : Records problem time arrivals) {id : Nat} {arrival : Arrival}
    (h : arrivals.get? id = some arrival) :
    ∃ before, arrivals.Extends before ∧ before.size = id ∧
      problem.Derives time before arrival := by
  induction records with
  | empty => simp [Arrivals.empty, Arrivals.get?] at h
  | @push earlier last records hDerives ih =>
      rw [Arrivals.get?_push] at h
      split at h
      · rename_i hLast
        cases h
        exact ⟨earlier, Arrivals.extends_push _ _, hLast.symm, hDerives⟩
      · obtain ⟨before, hExtends, hSize, hEarlier⟩ := ih h
        exact ⟨before, (Arrivals.extends_push _ _).trans hExtends, hSize, hEarlier⟩

end Records

end Search

end JourneyPlanner
