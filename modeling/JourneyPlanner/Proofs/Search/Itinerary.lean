import JourneyPlanner.Proofs.Search.Answer
import Mathlib.Data.List.Chain

/-! The journeys of an answer as a traveller makes them, whichever way the search for them ran. Main
statement: every journey of an answer can be travelled and is one that was asked for. -/
namespace JourneyPlanner

namespace Leg

def isAccess : Leg → Bool
  | access .. => true
  | _ => false

def isEgress : Leg → Bool
  | egress .. => true
  | _ => false

end Leg

namespace Query

/-- The rides and walks that a traveller can make between access and egress. -/
inductive Offers (query : Query) : Leg → Prop where
  | transit {origin target pattern trip : Nat} {departure arrival : Int}
      (hRide : query.network.Carries query.date query.modes .forward pattern trip origin target
        departure arrival) :
      Offers query (.transit origin target departure arrival pattern trip)
  | transfer {transfer : Transfer} {departure arrival : Int}
      (hWalk : transfer ∈ query.network.transfersFrom transfer.origin)
      (hArrival : arrival = departure + transfer.duration) :
      Offers query (.transfer transfer.origin transfer.target departure arrival)

/-- The time kept free between a ride and the leg next to it on the side from which the search
came: none next to the walk with which it started. -/
def slackBetween (query : Query) (leg next : Leg) : Int :=
  if leg.isAccess || next.isEgress then 0 else query.request.boardSlack

/-- How a journey goes on from one leg to the next, at the same stop. If a forward search found it,
a walk starts as soon as the leg before ends, and what is waited for are rides; if a reverse one
did, a walk ends just when the next leg starts, and the wait comes after rides. -/
def Joins (query : Query) (leg next : Leg) : Prop :=
  leg.arrivalStop? = next.departureStop? ∧
    match query.direction with
    | .forward =>
      if next.isTransit then leg.arrival + query.slackBetween leg next ≤ next.departure
      else leg.arrival = next.departure
    | .reverse =>
      if leg.isTransit then leg.arrival + query.slackBetween leg next ≤ next.departure
      else leg.arrival = next.departure

end Query

/-- When a journey starts along a search: the departure of a forward search, the arrival of a
reverse one. -/
def Journey.start (journey : Journey) : Direction → Int
  | .forward => journey.departure
  | .reverse => journey.arrival

/-- A journey that a traveller can make and has asked for, found by a search from a time. -/
structure Query.Itinerary (query : Query) (time : Int) (journey : Journey) : Prop where
  /-- An access leg, then rides and walks of the timetable, then an egress leg. -/
  legs : ∃ first ∈ query.request.access, ∃ last ∈ query.request.egress, ∃ departure middle final,
    journey.legs = .access first.stop departure (departure + first.duration) ::
      (middle ++ [.egress last.stop final (final + last.duration)]) ∧
    ∀ leg ∈ middle, query.Offers leg
  joined : journey.legs.IsChain query.Joins
  numRides_pos : 0 < journey.numRides
  numRides_le : journey.numRides ≤ query.request.maxTransfers + 1
  transfers : journey.transfers = journey.numRides - 1
  departure : journey.legs.head?.map Leg.departure = some journey.departure
  arrival : journey.legs.getLast?.map Leg.arrival = some journey.arrival
  start : journey.start query.direction = time

/-- A ride against the search is a ride the other way along. -/
theorem Network.Carries.forward {network : Network} {date : Date} {modes : ModeSet}
    {pattern trip origin target : Nat} {boarded left : Int}
    (h : network.Carries date modes .reverse pattern trip origin target boarded left) :
    network.Carries date modes .forward pattern trip target origin left boarded := by
  obtain ⟨hTable, hMode, hService, hRuns, hOrder, hOrigin, hTarget, hTime, hLater⟩ := h
  exact .ride hTable hMode hService hRuns hOrder hTarget hOrigin hLater hTime

def Arrival.leg (arrival : Arrival) : Direction → Leg
  | .forward => arrival.forwardLeg
  | .reverse => arrival.reverseLeg

namespace Arrival

variable (arrival : Arrival)

theorem arrival_leg_forward : (arrival.leg .forward).arrival = arrival.time := by
  cases h : arrival.approach <;> simp [leg, forwardLeg, h, Leg.arrival]

theorem arrivalStop?_leg_forward : (arrival.leg .forward).arrivalStop? = some arrival.stop := by
  cases h : arrival.approach <;> simp [leg, forwardLeg, h, Leg.arrivalStop?]

theorem isAccess_leg_forward : (arrival.leg .forward).isAccess = arrival.approach.isAccess := by
  cases h : arrival.approach <;> simp [leg, forwardLeg, h, Leg.isAccess, Approach.isAccess]

theorem departure_leg_reverse : (arrival.leg .reverse).departure = arrival.time := by
  cases h : arrival.approach <;> simp [leg, reverseLeg, h, Leg.departure]

theorem departureStop?_leg_reverse : (arrival.leg .reverse).departureStop? = some arrival.stop := by
  cases h : arrival.approach <;> simp [leg, reverseLeg, h, Leg.departureStop?]

theorem isEgress_leg_reverse : (arrival.leg .reverse).isEgress = arrival.approach.isAccess := by
  cases h : arrival.approach <;> simp [leg, reverseLeg, h, Leg.isEgress, Approach.isAccess]

theorem isTransit_leg (direction : Direction) :
    (arrival.leg direction).isTransit = arrival.isTransit := by
  cases direction <;> cases h : arrival.approach <;>
    simp [leg, forwardLeg, reverseLeg, isTransit, Approach.isTransit, h, Leg.isTransit]

end Arrival

/-- The leg that joins a stop with the destination, as the traveller makes it. -/
def DestinationArrival.leg (destination : DestinationArrival) : Direction → Leg
  | .forward =>
    .egress destination.egress.stop (destination.time - destination.egress.duration)
      destination.time
  | .reverse =>
    .access destination.egress.stop destination.time
      (destination.time + destination.egress.duration)

def Direction.travelOrder : Direction → List Leg → List Leg
  | forward, legs => legs.reverse
  | reverse, legs => legs

/-- The legs of a journey are those of its records and the egress, in travel order. -/
theorem Journey.legsOf_eq (direction : Direction) (chain : List Arrival)
    (destination : DestinationArrival) :
    legsOf direction chain destination =
      direction.travelOrder (destination.leg direction :: chain.map (Arrival.leg · direction)) := by
  cases direction with
  | forward =>
      simp only [legsOf, Direction.travelOrder, List.reverse_cons, List.map_reverse]
      rfl
  | reverse => rfl

theorem Journey.getLast?_legs (first last : Leg) (middle : List Leg) :
    (first :: (middle ++ [last])).getLast? = some last := by
  rw [← List.cons_append, List.getLast?_concat]

/-- A journey arrives with its last leg. -/
theorem Journey.arrival_ofLegs (first last : Leg) (middle : List Leg) (cost : Int) :
    (ofLegs (first :: (middle ++ [last])) cost).arrival = last.arrival := by
  simp [ofLegs, getLast?_legs]

/-- What holds of two legs in the order of travel, said of the one that the search found later and
the one it found before. -/
def Direction.InOrder : Direction → (Leg → Leg → Prop) → (later earlier : Leg) → Prop
  | forward, joins, later, earlier => joins earlier later
  | reverse, joins, later, earlier => joins later earlier

/-- Legs join in travel order exactly when they do so as the search made them. -/
theorem Direction.isChain_travelOrder {direction : Direction} {joins : Leg → Leg → Prop}
    {legs : List Leg} :
    (direction.travelOrder legs).IsChain joins ↔ legs.IsChain (direction.InOrder joins) := by
  cases direction with
  | forward => exact List.isChain_reverse
  | reverse => exact Iff.rfl

namespace Query

variable {query : Query} {time : Int} {arrival source : Arrival} {rest chain : List Arrival}
  {destination : DestinationArrival}

theorem startLegs_forward (h : query.direction = .forward) :
    query.request.startLegs = query.request.access := by
  simp_all [direction, Request.direction, Request.startLegs]

theorem startLegs_reverse (h : query.direction = .reverse) :
    query.request.startLegs = query.request.egress := by
  simp_all [direction, Request.direction, Request.startLegs]

theorem endLegs_forward (h : query.direction = .forward) :
    query.request.endLegs = query.request.egress := by
  simp_all [direction, Request.direction, Request.endLegs]

theorem endLegs_reverse (h : query.direction = .reverse) :
    query.request.endLegs = query.request.access := by
  simp_all [direction, Request.direction, Request.endLegs]

/-- What a record adds to a journey is on offer. -/
theorem Follows.offers (hFollows : query.Follows source arrival) (linked : query.network.Linked) :
    query.Offers (arrival.leg query.direction) := by
  cases hFollows with
  | ride hRide hReady =>
      cases hDirection : query.direction with
      | forward => exact .transit (hDirection ▸ hRide)
      | reverse => exact .transit (hDirection ▸ hRide).forward
  | @walk id cost transfer hWalk =>
      cases hDirection : query.direction with
      | forward =>
          rw [hDirection] at hWalk
          have hOrigin := (linked.transfersFrom hWalk).1
          simp only [Arrival.leg, Arrival.forwardLeg, Direction.transferTarget, ← hOrigin]
          exact .transfer (hOrigin ▸ hWalk) (by omega)
      | reverse =>
          rw [hDirection] at hWalk
          obtain ⟨hTarget, hFrom⟩ := linked.transfersTo.mp hWalk
          simp only [Arrival.leg, Arrival.reverseLeg, Direction.transferTarget, ← hTarget]
          exact .transfer hFrom rfl

/-- The leg of a record fits the leg of the one before it. -/
theorem Follows.joins (hFollows : query.Follows source arrival)
    (hFirst : source.round = 0 ↔ source.approach.isAccess = true) :
    query.direction.InOrder query.Joins (arrival.leg query.direction)
      (source.leg query.direction) := by
  have hSlack : query.slackAfter source.round =
      if source.approach.isAccess then 0 else query.request.boardSlack := by
    simp only [slackAfter, hFirst]
  cases hDirection : query.direction with
  | forward =>
      rw [Direction.InOrder, Joins, hDirection, source.arrivalStop?_leg_forward,
        source.arrival_leg_forward]
      cases hFollows with
      | ride hRide hReady =>
          rw [hDirection, Direction.isBetter_eq_false_iff, hSlack] at hReady
          refine ⟨rfl, ?_⟩
          simp only [slackBetween, source.isAccess_leg_forward]
          simpa [Arrival.leg, Arrival.forwardLeg, Leg.isTransit, Leg.isEgress, Leg.departure,
            Direction.timeCriterion, Direction.along] using hReady
      | walk hWalk =>
          refine ⟨rfl, ?_⟩
          simp [Arrival.leg, Arrival.forwardLeg, Leg.isTransit, Leg.departure, hDirection,
            Direction.along]
  | reverse =>
      rw [Direction.InOrder, Joins, hDirection, source.departureStop?_leg_reverse,
        source.departure_leg_reverse]
      cases hFollows with
      | ride hRide hReady =>
          rw [hDirection, Direction.isBetter_eq_false_iff, hSlack] at hReady
          refine ⟨rfl, ?_⟩
          simp only [slackBetween, source.isEgress_leg_reverse]
          simp only [Arrival.leg, Arrival.reverseLeg, Leg.isTransit, Leg.isAccess, Leg.arrival,
            Direction.timeCriterion, Direction.along, Bool.false_or, if_true] at hReady ⊢
          omega
      | walk hWalk =>
          refine ⟨rfl, ?_⟩
          simp [Arrival.leg, Arrival.reverseLeg, Leg.isTransit, Leg.arrival, hDirection,
            Direction.along]

/-- Only the first record of a trail is of round 0. -/
theorem Trail.round_eq_zero_iff (trail : query.Trail time (arrival :: rest)) :
    arrival.round = 0 ↔ arrival.approach.isAccess = true := by
  generalize hChain : arrival :: rest = chain at trail
  induction trail generalizing arrival rest with
  | access hLeg =>
      cases hChain
      simp [Approach.isAccess]
  | @follow later source rest before hFollows ih =>
      cases hChain
      cases hFollows with
      | ride => simp [Approach.isAccess]
      | walk =>
          have hSource := ih rfl
          cases hApproach : source.approach <;>
            simp_all [Arrival.roundOnFoot, Arrival.isTransit, Approach.isAccess,
              Approach.isTransit]

/-- The legs of a trail fit together. -/
theorem Trail.isChain_legs (trail : query.Trail time chain) :
    (chain.map (Arrival.leg · query.direction)).IsChain
      (query.direction.InOrder query.Joins) := by
  induction trail with
  | access hLeg => exact List.isChain_singleton _
  | follow before hFollows ih =>
      rw [List.map_cons, List.map_cons, List.isChain_cons_cons]
      exact ⟨hFollows.joins before.round_eq_zero_iff, ih⟩

/-- A trail starts with a walk from the start of the search; all that follows is on offer. -/
theorem Trail.exists_first (trail : query.Trail time chain) (linked : query.network.Linked) :
    ∃ later first leg, chain = later ++ [first] ∧ leg ∈ query.request.startLegs ∧
      first.stop = leg.stop ∧ first.time = query.direction.along time leg.duration ∧
      first.approach = .access leg.duration ∧
      ∀ arrival ∈ later, query.Offers (arrival.leg query.direction) := by
  induction trail with
  | access hLeg => exact ⟨[], _, _, rfl, hLeg, rfl, rfl, rfl, by simp⟩
  | @follow arrival source rest before hFollows ih =>
      obtain ⟨later, first, leg, hChain, hLeg, hStop, hTime, hApproach, hOffers⟩ := ih
      exact ⟨arrival :: later, first, leg, by rw [hChain, List.cons_append], hLeg, hStop, hTime,
        hApproach, List.forall_mem_cons.mpr ⟨hFollows.offers linked, hOffers⟩⟩

/-- A trail of a round has no more rides than that. -/
theorem Trail.countP_isTransit_le (trail : query.Trail time (arrival :: rest)) :
    (arrival :: rest).countP Arrival.isTransit ≤ arrival.round := by
  induction rest generalizing arrival with
  | nil =>
      cases trail with
      | access => exact Nat.le_refl _
  | cons source rest ih =>
      cases trail with
      | follow before hFollows =>
          have hBefore := ih before
          cases hFollows with
          | ride =>
              rw [List.countP_cons_of_pos (by rfl)]
              exact Nat.succ_le_succ hBefore
          | walk =>
              rw [List.countP_cons_of_neg (by simp [Arrival.isTransit, Approach.isTransit])]
              exact Nat.le_trans hBefore source.round_le_roundOnFoot

/-- The leg to the destination fits the last record of its trail. -/
theorem Ending.joins (ending : query.Ending time source rest destination) :
    query.direction.InOrder query.Joins (destination.leg query.direction)
      (source.leg query.direction) := by
  have hTime := ending.time
  cases hDirection : query.direction with
  | forward =>
      rw [Direction.InOrder, Joins, hDirection, source.arrivalStop?_leg_forward,
        source.arrival_leg_forward]
      refine ⟨congrArg some ending.stop.symm, ?_⟩
      rw [hDirection] at hTime
      simp [DestinationArrival.leg, Leg.isTransit, Leg.departure, hTime, Direction.along]
  | reverse =>
      rw [Direction.InOrder, Joins, hDirection, source.departureStop?_leg_reverse,
        source.departure_leg_reverse]
      refine ⟨congrArg some ending.stop, ?_⟩
      rw [hDirection] at hTime
      simp [DestinationArrival.leg, Leg.isTransit, Leg.arrival, hTime, Direction.along]

/-- The legs of a trail with its ending, and when they start along the search. -/
theorem Ending.exists_legs (ending : query.Ending time source rest destination)
    (linked : query.network.Linked) :
    ∃ first ∈ query.request.access, ∃ last ∈ query.request.egress, ∃ departure middle final,
      Journey.legsOf query.direction (source :: rest) destination =
        .access first.stop departure (departure + first.duration) ::
          (middle ++ [.egress last.stop final (final + last.duration)]) ∧
      (∀ leg ∈ middle, query.Offers leg) ∧
      time = match query.direction with
        | .forward => departure
        | .reverse => final + last.duration := by
  obtain ⟨later, first, leg, hChain, hLeg, hStop, hTime, hApproach, hOffers⟩ :=
    ending.trail.exists_first linked
  have hEnd := ending.leg
  cases hDirection : query.direction with
  | forward =>
      rw [Query.startLegs_forward hDirection] at hLeg
      rw [Query.endLegs_forward hDirection] at hEnd
      rw [hDirection] at hTime hOffers
      refine ⟨leg, hLeg, destination.egress, hEnd, time, later.reverse.map Arrival.forwardLeg,
        destination.time - destination.egress.duration, ?_, ?_, rfl⟩
      · simp [Journey.legsOf, hChain, Arrival.forwardLeg, hApproach, hStop, hTime,
          Direction.along]
      · simpa [Arrival.leg] using hOffers
  | reverse =>
      rw [Query.startLegs_reverse hDirection] at hLeg
      rw [Query.endLegs_reverse hDirection] at hEnd
      rw [hDirection] at hTime hOffers
      refine ⟨destination.egress, hEnd, leg, hLeg, destination.time, later.map Arrival.reverseLeg,
        first.time, ?_, ?_, ?_⟩
      · simp [Journey.legsOf, hChain, Arrival.reverseLeg, hApproach, hStop]
      · simpa [Arrival.leg] using hOffers
      · simp [hTime, Direction.along]

/-- A journey has as many rides as its trail. -/
theorem countP_isTransit_legsOf (direction : Direction) (chain : List Arrival)
    (destination : DestinationArrival) :
    (Journey.legsOf direction chain destination).countP Leg.isTransit =
      chain.countP Arrival.isTransit := by
  have hLegs : Leg.isTransit ∘ (Arrival.leg · direction) = Arrival.isTransit :=
    funext fun arrival => arrival.isTransit_leg direction
  rw [Journey.legsOf_eq]
  cases direction <;>
    simp [Direction.travelOrder, List.countP_map, hLegs,
      DestinationArrival.leg, Leg.isTransit]

/-- A journey that follows a trail to the destination can be travelled. -/
theorem Traced.itinerary {journey : Journey} (traced : query.Traced time journey)
    (linked : query.network.Linked) : query.Itinerary time journey := by
  obtain ⟨source, rest, destination, ending, hRound, rfl⟩ := traced
  obtain ⟨first, hFirst, last, hLast, departure, middle, final, hLegs, hOffers, hStart⟩ :=
    ending.exists_legs linked
  have hJoined : (Journey.legsOf query.direction (source :: rest) destination).IsChain
      query.Joins := by
    rw [Journey.legsOf_eq, Direction.isChain_travelOrder, List.map_cons, List.isChain_cons_cons]
    exact ⟨ending.joins, ending.trail.isChain_legs⟩
  have hRides := countP_isTransit_legsOf query.direction (source :: rest) destination
  have hPos : 0 < (source :: rest).countP Arrival.isTransit :=
    List.countP_pos_iff.mpr ⟨source, List.mem_cons_self .., ending.isTransit⟩
  have hLe := ending.trail.countP_isTransit_le
  have hRound := ending.round ▸ hRound
  refine ⟨⟨first, hFirst, last, hLast, departure, middle, final, hLegs, hOffers⟩, hJoined,
    ?_, ?_, rfl, ?_, ?_, ?_⟩
  · rwa [Journey.numRides, Journey.ofLegs, hRides]
  · rw [Journey.numRides, Journey.ofLegs, hRides]
    omega
  · rw [hLegs]
    rfl
  · rw [hLegs, Journey.arrival_ofLegs]
    simp only [Journey.ofLegs, Journey.getLast?_legs, Option.map_some]
  · rw [hStart, hLegs]
    cases query.direction with
    | forward => rfl
    | reverse => exact Journey.arrival_ofLegs ..

end Query

variable {draft : Draft} {query : Query} {day : DayTimetable} {config : SearchConfig}

/-- A valid request is answered, and every journey of the answer is one that can be travelled,
found from a time of the window, whichever runs the time limit cuts off and when. -/
theorem Search.journeys_can_be_travelled (hBuild : draft.build = .ok query.network)
    (hDay : query.network.onDate query.date query.modes = .ok day)
    (hValid : query.request.validate day.numStops config = .ok ())
    (hNetwork : query.network.Modest) (hRequest : query.request.Modest)
    (watches : Nat → Stopwatch) :
    ∃ response, search day query.request config watches = .ok response ∧
      ∀ journey ∈ response.journeys,
        ∃ time ∈ query.request.iterationTimes config.iterationStep,
          query.Itinerary time journey := by
  have sound := Network.Sound.of_build hBuild
  obtain ⟨response, hResponse, hTraced, -⟩ :=
    exists_response sound hDay hValid hNetwork hRequest watches
  refine ⟨response, hResponse, fun journey hJourney => ?_⟩
  obtain ⟨time, hTime, traced⟩ := hTraced journey hJourney
  exact ⟨time, hTime, traced.itinerary sound.toLinked⟩

theorem Search.journeys_can_be_travelled_hurried :
    ∃ response, Draft.connection.build = .ok Query.hurried.network ∧
      search DayTimetable.connection Query.hurried.request SearchConfig.shuttle .ofPlace =
        .ok response ∧
      response.timedOut = true ∧ (response.journeys.map Journey.arrival).Perm [2030, 1930, 2430] ∧
      ∀ journey ∈ response.journeys, ∃ time ∈ Query.hurried.request.iterationTimes 900,
        Query.hurried.Itinerary time journey := by
  obtain ⟨response, hResponse, hJourneys⟩ :=
    @Search.journeys_can_be_travelled Draft.connection Query.hurried _ SearchConfig.shuttle
      Draft.build_connection Query.onDate_connection
      (Request.validate_eq_ok_iff.mpr Query.valid_hurried) Network.modest_connection
      Query.modest_hurried .ofPlace
  obtain ⟨hCut, -, hArrivals⟩ := Search.response_hurried hResponse
  exact ⟨response, Draft.build_connection, hResponse, hCut, hArrivals, hJourneys⟩

end JourneyPlanner
