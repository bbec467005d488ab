import JourneyPlanner.Proofs.Search.Itinerary

/-! Journeys from records of which nothing is known, except that each was made from an earlier one.
Main statement: the records behind a way to the destination become a journey just if they are
consistent; otherwise the first of them that is not is reported. -/
namespace JourneyPlanner

namespace Arrivals

/-- Records made one after the other, each from none or from one that was there. -/
inductive Filled : Arrivals → Prop where
  | empty : Filled .empty
  | push {arrivals : Arrivals} {arrival : Arrival} (before : Filled arrivals)
      (hPredecessor : ∀ previous, arrival.predecessor = some previous → previous < arrivals.size) :
      Filled (arrivals.push arrival)

/-- A record, by number, with the record from which it was made, the one from which that was made,
and so on until one that was made from none. -/
inductive Behind (arrivals : Arrivals) : Nat → List Arrival → Prop where
  | first {id : Nat} {arrival : Arrival} (h : arrivals.get? id = some arrival)
      (hFirst : arrival.predecessor = none) : Behind arrivals id [arrival]
  | next {id previous : Nat} {arrival : Arrival} {rest : List Arrival}
      (h : arrivals.get? id = some arrival) (hPredecessor : arrival.predecessor = some previous)
      (behind : Behind arrivals previous rest) : Behind arrivals id (arrival :: rest)

variable {arrivals : Arrivals} {id : Nat} {arrival : Arrival}

/-- A record's predecessor is always an earlier record. -/
theorem Filled.previous_lt (filled : arrivals.Filled) (h : arrivals.get? id = some arrival)
    {previous : Nat} (hPredecessor : arrival.predecessor = some previous) : previous < id := by
  induction filled with
  | empty => cases h
  | push before hBefore ih =>
      rw [get?_push] at h
      split at h
      · next hLast =>
          cases h
          exact hLast ▸ hBefore previous hPredecessor
      · exact ih h

/-- Numbers decrease along the chain of a record, so it comes to an end. -/
theorem Filled.exists_chain (filled : arrivals.Filled) (h : arrivals.get? id = some arrival) :
    ∃ rest, arrivals.Behind id (arrival :: rest) ∧ arrivals.chain id = arrival :: rest := by
  induction id using Nat.strongRecOn generalizing arrival with
  | ind id ih =>
      cases hPredecessor : arrival.predecessor with
      | none => exact ⟨[], .first h hPredecessor, chain_of_none h hPredecessor⟩
      | some previous =>
          have hLt := filled.previous_lt h hPredecessor
          have hInside : previous < arrivals.size := Nat.lt_trans hLt (lt_size_of_get? h)
          obtain ⟨rest, behind, hChain⟩ := ih previous hLt (Array.getElem?_eq_getElem hInside)
          exact ⟨_, .next h hPredecessor behind, hChain ▸ chain_of_some h hPredecessor hLt⟩

/-- Only one chain of records stands behind a record. -/
theorem Behind.unique {chain other : List Arrival} (behind : arrivals.Behind id chain)
    (hOther : arrivals.Behind id other) : chain = other := by
  induction behind generalizing other with
  | first h hFirst =>
      cases hOther with
      | first h' => rw [Option.some.inj (h.symm.trans h')]
      | next h' hPredecessor =>
          cases Option.some.inj (h.symm.trans h')
          cases hFirst.symm.trans hPredecessor
  | next h hPredecessor behind ih =>
      cases hOther with
      | first h' hFirst =>
          cases Option.some.inj (h.symm.trans h')
          cases hFirst.symm.trans hPredecessor
      | next h' hPredecessor' behind' =>
          cases Option.some.inj (h.symm.trans h')
          cases Option.some.inj (hPredecessor.symm.trans hPredecessor')
          rw [ih behind']

end Arrivals

/-- How rounds go on from the record behind another one: a ride takes a round, and needs a place to
be boarded; nothing else goes back a round. -/
structure Arrival.Fits (arrival : Arrival) (behind? : Option Arrival) : Prop where
  ride : arrival.isTransit = true → ∃ behind ∈ behind?, behind.round < arrival.round
  walk : arrival.isTransit = false → ∀ behind ∈ behind?, behind.round ≤ arrival.round

/-- A record fits on another exactly when it can follow it. -/
theorem Arrival.fits_some_iff {arrival behind : Arrival} :
    arrival.Fits (some behind) ↔ arrival.canFollow behind = true := by
  cases hRide : arrival.isTransit with
  | true =>
      simp only [canFollow, hRide, if_true, decide_eq_true_eq]
      exact ⟨fun fits => by simpa using fits.ride hRide,
        fun h => ⟨fun _ => ⟨behind, rfl, h⟩, fun hWalk => by simp [hRide] at hWalk⟩⟩
  | false =>
      simp only [canFollow, hRide, Bool.false_eq_true, if_false, decide_eq_true_eq]
      exact ⟨fun fits => fits.walk hRide behind rfl,
        fun h => ⟨fun hTransit => by simp [hRide] at hTransit, fun _ _ hMem => by
          cases hMem
          exact h⟩⟩

/-- A record fits at the start of a chain exactly when no ride brought it there. -/
theorem Arrival.fits_none_iff {arrival : Arrival} :
    arrival.Fits none ↔ arrival.isTransit = false := by
  refine ⟨fun fits => Bool.eq_false_iff.mpr fun hRide => ?_, fun hWalk => ⟨?_, by simp⟩⟩
  · obtain ⟨_, hMem, -⟩ := fits.ride hRide
    cases hMem
  · simp [hWalk]

namespace Journey

/-- Each record of a chain, given from its end, fits at its place. -/
def Fits (chain : List Arrival) : Prop :=
  ∀ (place : Nat) (arrival : Arrival), chain[place]? = some arrival →
    arrival.Fits chain[place + 1]?

/-- A chain that can be travelled: every record fits, and it starts with a walk from the start. -/
structure Consistent (chain : List Arrival) : Prop where
  fits : Fits chain
  start : ∃ first, chain.getLast? = some first ∧ first.approach.isAccess = true

/-- Where a chain goes wrong: the first record from its end that does not fit, or if all do, its
last one that is no walk from the start. -/
inductive BreaksAt (chain : List Arrival) (broken : Arrival) : Prop where
  | place (place : Nat) (hBroken : chain[place]? = some broken)
      (hUnfit : ¬ broken.Fits chain[place + 1]?)
      (hBefore : ∀ earlier < place, ∀ arrival, chain[earlier]? = some arrival →
        arrival.Fits chain[earlier + 1]?)
  | start (hFits : Fits chain) (hLast : chain.getLast? = some broken)
      (hStart : broken.approach.isAccess = false)

variable {arrival previous broken : Arrival} {rest chain : List Arrival}

theorem fits_cons_iff : Fits (arrival :: previous :: rest) ↔
    arrival.canFollow previous = true ∧ Fits (previous :: rest) := by
  constructor
  · exact fun h => ⟨Arrival.fits_some_iff.mp (h 0 arrival rfl), fun place => h (place + 1)⟩
  · rintro ⟨hFollow, hRest⟩ (_ | place) found hFound
    · cases hFound
      exact Arrival.fits_some_iff.mpr hFollow
    · exact hRest place found hFound

theorem fits_singleton_iff : Fits [arrival] ↔ arrival.isTransit = false := by
  rw [← Arrival.fits_none_iff]
  constructor
  · exact fun h => h 0 arrival rfl
  · rintro h (_ | place) found hFound
    · cases hFound
      exact h
    · cases hFound

/-- A chain is consistent link by link. -/
theorem consistent_cons_iff : Consistent (arrival :: previous :: rest) ↔
    arrival.canFollow previous = true ∧ Consistent (previous :: rest) := by
  constructor
  · rintro ⟨hFits, hStart⟩
    exact ⟨(fits_cons_iff.mp hFits).1, (fits_cons_iff.mp hFits).2, hStart⟩
  · rintro ⟨hFollow, hFits, hStart⟩
    exact ⟨fits_cons_iff.mpr ⟨hFollow, hFits⟩, hStart⟩

/-- A single record is a consistent chain exactly when it is an access. -/
theorem consistent_singleton_iff :
    Consistent [arrival] ↔ arrival.approach.isAccess = true := by
  constructor
  · rintro ⟨-, first, hFirst, hStart⟩
    cases hFirst
    exact hStart
  · refine fun h => ⟨fits_singleton_iff.mpr ?_, arrival, rfl, h⟩
    cases hApproach : arrival.approach <;>
      simp_all [Approach.isAccess, Arrival.isTransit, Approach.isTransit]

/-- What is wrong further back is found only if the first record fits. -/
theorem BreaksAt.cons (breaks : BreaksAt (previous :: rest) broken)
    (hFollow : arrival.canFollow previous = true) :
    BreaksAt (arrival :: previous :: rest) broken := by
  cases breaks with
  | place place hBroken hUnfit hBefore =>
      refine .place (place + 1) hBroken hUnfit ?_
      rintro (_ | earlier) hEarlier found hFound
      · cases hFound
        exact Arrival.fits_some_iff.mpr hFollow
      · exact hBefore earlier (Nat.lt_of_succ_lt_succ hEarlier) found hFound
  | start hFits hLast hStart => exact .start (fits_cons_iff.mpr ⟨hFollow, hFits⟩) hLast hStart

/-- No break is reported exactly when the chain is consistent. -/
theorem brokenAt?_eq_none_iff (hChain : chain ≠ []) :
    brokenAt? chain = none ↔ Consistent chain := by
  induction chain using brokenAt?.induct with
  | case1 => exact absurd rfl hChain
  | case2 first hStart => simpa [brokenAt?, hStart] using consistent_singleton_iff.mpr hStart
  | case3 first hStart => simpa [brokenAt?, hStart] using consistent_singleton_iff.not.mpr hStart
  | case4 arrival previous rest hFollow ih =>
      rw [brokenAt?, if_pos hFollow, ih (List.cons_ne_nil _ _), consistent_cons_iff,
        and_iff_right hFollow]
  | case5 arrival previous rest hFollow =>
      simp [brokenAt?, hFollow, consistent_cons_iff]

/-- The record reported is the first whose link is broken. -/
theorem breaksAt_of_brokenAt? (h : brokenAt? chain = some broken) : BreaksAt chain broken := by
  induction chain using brokenAt?.induct with
  | case1 => cases h
  | case2 first hStart => simp [brokenAt?, hStart] at h
  | case3 first hStart =>
      obtain rfl : first = broken := by simpa [brokenAt?, hStart] using h
      cases hRide : first.isTransit with
      | true =>
          refine .place 0 rfl ?_ (fun _ hLt => absurd hLt (Nat.not_lt_zero _))
          exact Arrival.fits_none_iff.not.mpr (by simp [hRide])
      | false => exact .start (fits_singleton_iff.mpr hRide) rfl (by simpa using hStart)
  | case4 arrival previous rest hFollow ih =>
      rw [brokenAt?, if_pos hFollow] at h
      exact (ih h).cons hFollow
  | case5 arrival previous rest hFollow =>
      obtain rfl : arrival = broken := by simpa [brokenAt?, hFollow] using h
      exact .place 0 rfl (Arrival.fits_some_iff.not.mpr hFollow)
        fun _ hLt => absurd hLt (Nat.not_lt_zero _)

/-- Only rides are sure to take a round, so there are no more rides than rounds. -/
theorem Consistent.countP_isTransit_le (consistent : Consistent (arrival :: rest)) :
    (arrival :: rest).countP Arrival.isTransit ≤ arrival.round := by
  induction rest generalizing arrival with
  | nil =>
      have hWalk := fits_singleton_iff.mp consistent.fits
      simp [hWalk]
  | cons previous rest ih =>
      obtain ⟨hFollow, hBefore⟩ := consistent_cons_iff.mp consistent
      have hLe := ih hBefore
      rw [List.countP_cons]
      cases hRide : arrival.isTransit with
      | true =>
          have hLt : previous.round < arrival.round := by
            simpa [Arrival.canFollow, hRide] using hFollow
          simp only [if_true]
          omega
      | false =>
          have hRound : previous.round ≤ arrival.round := by
            simpa [Arrival.canFollow, hRide] using hFollow
          simp only [Bool.false_eq_true, if_false]
          omega

end Journey

def Arrival.Within (bound : Int) (arrival : Arrival) : Prop :=
  Clock.Within bound arrival.time ∧
    match arrival.approach with
    | .access duration => Clock.Within bound duration
    | .transit _ boardTime _ _ => Clock.Within bound boardTime
    | .transfer _ duration => Clock.Within bound duration

structure DestinationArrival.Within (bound : Int) (destination : DestinationArrival) : Prop where
  time : Clock.Within bound destination.time
  duration : Clock.Within bound destination.egress.duration

structure Leg.Within (bound : Int) (leg : Leg) : Prop where
  departure : Clock.Within bound leg.departure
  arrival : Clock.Within bound leg.arrival

/-- The leg of a record within some bound stays within twice that bound. -/
theorem Arrival.Within.leg {bound : Int} {arrival : Arrival} (within : arrival.Within bound)
    (direction : Direction) : (arrival.leg direction).Within (2 * bound) := by
  obtain ⟨hTime, hApproach⟩ := within
  cases h : arrival.approach <;> rw [h] at hApproach <;> cases direction <;>
    simp only [Clock.Within] at hTime hApproach <;>
    constructor <;>
    simp only [Arrival.leg, forwardLeg, reverseLeg, h, Leg.departure, Leg.arrival,
      Clock.Within] <;> omega

theorem DestinationArrival.Within.leg {bound : Int} {destination : DestinationArrival}
    (within : destination.Within bound) (direction : Direction) :
    (destination.leg direction).Within (2 * bound) := by
  obtain ⟨hTime, hDuration⟩ := within
  cases direction <;> simp only [Clock.Within] at hTime hDuration <;> constructor <;>
    simp only [DestinationArrival.leg, Leg.departure, Leg.arrival, Clock.Within] <;> omega

namespace Journey

variable {arrival broken : Arrival} {rest chain : List Arrival}

/-- The direction of travel only decides the order of the legs. -/
theorem length_travelOrder (direction : Direction) (legs : List Leg) :
    (direction.travelOrder legs).length = legs.length := by
  cases direction with
  | forward => exact List.length_reverse
  | reverse => rfl

variable {arrivals : Arrivals} {destination : DestinationArrival}

/-- A consistent chain is read off as its legs, at the destination's cost. -/
theorem ofDestination_eq_ok (direction : Direction)
    (hChain : arrivals.chain destination.arrival = arrival :: rest)
    (consistent : Consistent (arrival :: rest)) :
    ofDestination arrivals direction destination =
      .ok (ofLegs (legsOf direction (arrival :: rest) destination) destination.cost) := by
  simp only [ofDestination, hChain, (brokenAt?_eq_none_iff (List.cons_ne_nil _ _)).mpr consistent]

/-- An inconsistent chain is refused with the stop and the round of its break. -/
theorem exists_breaksAt (direction : Direction)
    (hChain : arrivals.chain destination.arrival = arrival :: rest)
    (hBroken : ¬ Consistent (arrival :: rest)) :
    ∃ broken, BreaksAt (arrival :: rest) broken ∧
      ofDestination arrivals direction destination =
        .error (.integrity (.brokenArrivalChain broken.stop broken.round)) := by
  have hSome := (brokenAt?_eq_none_iff (List.cons_ne_nil _ _)).not.mpr hBroken
  obtain ⟨broken, hAt⟩ := Option.ne_none_iff_exists'.mp hSome
  refine ⟨broken, breaksAt_of_brokenAt? hAt, ?_⟩
  simp only [ofDestination, hChain, hAt]

theorem mem_travelOrder {direction : Direction} {legs : List Leg} {leg : Leg} :
    leg ∈ direction.travelOrder legs ↔ leg ∈ legs := by
  cases direction with
  | forward => exact List.mem_reverse
  | reverse => exact Iff.rfl

/-- Records within some bound make legs within twice that bound. -/
theorem within_legsOf {bound : Int} (hArrivals : ∀ arrival ∈ chain, arrival.Within bound)
    (hDestination : destination.Within bound) (direction : Direction) {leg : Leg}
    (hLeg : leg ∈ legsOf direction chain destination) : leg.Within (2 * bound) := by
  rw [legsOf_eq, mem_travelOrder, List.mem_cons, List.mem_map] at hLeg
  rcases hLeg with rfl | ⟨arrival, hArrival, rfl⟩
  · exact hDestination.leg direction
  · exact (hArrivals arrival hArrival).leg direction

/-- Following records of any kind back from a destination comes to an end. If what is behind it is
consistent, it is turned into a journey that has the leg of each record and one more in the order of
travel, no more rides than the last record has rounds, and no time that cannot be told. Otherwise the
record at which it breaks is reported. -/
theorem unbroken_or_reported (filled : arrivals.Filled)
    (hInside : destination.arrival < arrivals.size) (direction : Direction) :
    ∃ arrival rest, arrivals.get? destination.arrival = some arrival ∧
      arrivals.Behind destination.arrival (arrival :: rest) ∧
      ((Consistent (arrival :: rest) ∧ ∃ journey,
          ofDestination arrivals direction destination = .ok journey ∧
          journey.legs = direction.travelOrder
            (destination.leg direction :: (arrival :: rest).map (Arrival.leg · direction)) ∧
          journey.legs.length = (arrival :: rest).length + 1 ∧
          journey.numRides ≤ arrival.round ∧ journey.transfers = journey.numRides - 1 ∧
          ((∀ record ∈ arrival :: rest, record.Within Clock.modest) →
            destination.Within Clock.modest →
            ∀ leg ∈ journey.legs, leg.Within (2 * Clock.modest))) ∨
        (¬ Consistent (arrival :: rest) ∧ ∃ broken, BreaksAt (arrival :: rest) broken ∧
          ofDestination arrivals direction destination =
            .error (.integrity (.brokenArrivalChain broken.stop broken.round)))) := by
  have hFound := Array.getElem?_eq_getElem hInside
  obtain ⟨rest, behind, hChain⟩ := filled.exists_chain hFound
  refine ⟨_, rest, hFound, behind, ?_⟩
  by_cases hConsistent : Consistent (arrivals.records[destination.arrival] :: rest)
  · refine .inl ⟨hConsistent, _, ofDestination_eq_ok direction hChain hConsistent,
      legsOf_eq .., ?_, ?_, rfl,
      fun hArrivals hDestination _ => within_legsOf hArrivals hDestination direction⟩
    · simp only [ofLegs, legsOf_eq, length_travelOrder, List.length_cons, List.length_map]
    · rw [numRides, ofLegs, Query.countP_isTransit_legsOf]
      exact hConsistent.countP_isTransit_le
  · exact .inr ⟨hConsistent, exists_breaksAt direction hChain hConsistent⟩

/-- A walk, a ride and a walk to a second ride, of the round of the first one. -/
def detour : Arrivals :=
  (((Arrivals.empty.push ⟨0, 0, 60, 0, .access 60, none⟩).push
    ⟨1, 1, 300, 0, .transit 0 120 0 0, some 0⟩).push
      ⟨2, 1, 420, 0, .transfer 1 120, some 1⟩).push ⟨3, 1, 600, 0, .transit 2 480 1 0, some 2⟩

theorem filled_detour : detour.Filled := by
  refine .push (.push (.push (.push .empty ?_) ?_) ?_) ?_ <;> rintro _ ⟨⟩ <;> decide

theorem unbroken_or_reported_detour :
    (∃ journey, ofDestination detour .reverse ⟨2, ⟨2, 60⟩, 480, 1, 0⟩ = .ok journey ∧
      journey.legs.length = 4 ∧ journey.numRides ≤ 1) ∧
    ofDestination detour .forward ⟨3, ⟨3, 60⟩, 660, 1, 0⟩ =
      .error (.integrity (.brokenArrivalChain 3 1)) := by
  have hBehind : detour.Behind 2 _ := .next rfl rfl (.next rfl rfl (.first rfl rfl))
  constructor
  · obtain ⟨_, _, -, behind, hAnswer⟩ :=
      @unbroken_or_reported _ ⟨2, ⟨2, 60⟩, 480, 1, 0⟩ filled_detour (by decide) .reverse
    cases behind.unique hBehind
    rcases hAnswer with ⟨-, journey, hJourney, -, hLength, hRides, -⟩ | ⟨hBroken, -⟩
    · exact ⟨journey, hJourney, hLength, hRides⟩
    · exact absurd ((brokenAt?_eq_none_iff (List.cons_ne_nil _ _)).mp rfl) hBroken
  · obtain ⟨_, _, -, behind, hAnswer⟩ :=
      @unbroken_or_reported _ ⟨3, ⟨3, 60⟩, 660, 1, 0⟩ filled_detour (by decide) .forward
    cases behind.unique (.next rfl rfl hBehind)
    rcases hAnswer with ⟨hConsistent, -⟩ | ⟨-, broken, breaks, hAnswer⟩
    · exact absurd (consistent_cons_iff.mp hConsistent).1 (by decide)
    · cases breaks with
      | place place hBroken hUnfit hBefore =>
          cases place with
          | zero =>
              cases hBroken
              exact hAnswer
          | succ place =>
              exact absurd (Arrival.fits_some_iff.mp (hBefore 0 (Nat.succ_pos _) _ rfl)) (by decide)
      | start hFits => exact absurd (fits_cons_iff.mp hFits).1 (by decide)

end Journey

end JourneyPlanner
