import JourneyPlanner.Proofs.Mirror.Problem
import JourneyPlanner.Search.Range

/-! Journeys read off the records of a reverse search and those read off their image. Main
statement: the journeys of the image are the images of the journeys, whatever the records are. -/
namespace JourneyPlanner

variable {network : Network}

def Leg.mirror (network : Network) : Leg → Leg
  | access stop departure arrival => egress stop (-arrival) (-departure)
  | transit origin target departure arrival pattern trip =>
    transit target origin (-arrival) (-departure) pattern (network.numTripsOf pattern - 1 - trip)
  | transfer origin target departure arrival => transfer target origin (-arrival) (-departure)
  | egress stop departure arrival => access stop (-arrival) (-departure)

/-- A journey travelled backwards, in the image of a network. -/
def Journey.mirror (network : Network) (journey : Journey) : Journey :=
  { journey with
    legs := (journey.legs.map (Leg.mirror network)).reverse
    departure := -journey.arrival
    arrival := -journey.departure }

namespace Leg

variable (leg : Leg)

/-- The mirrored leg leaves when the leg arrives, on the negated clock. -/
@[simp]
theorem departure_mirror : (leg.mirror network).departure = -leg.arrival := by
  cases leg <;> rfl

@[simp]
theorem arrival_mirror : (leg.mirror network).arrival = -leg.departure := by
  cases leg <;> rfl

@[simp]
theorem isTransit_mirror : (leg.mirror network).isTransit = leg.isTransit := by
  cases leg <;> rfl

end Leg

/-- A forward search makes of the image of a record the image of the leg that a reverse search
makes of the record. -/
theorem Arrival.forwardLeg_mirror (arrival : Arrival) :
    (arrival.mirror network).forwardLeg = arrival.reverseLeg.mirror network := by
  have hBack : ∀ duration : Int, -arrival.time - duration = -(arrival.time + duration) := by
    intro duration
    omega
  cases hApproach : arrival.approach <;>
    simp [forwardLeg, reverseLeg, mirror, Approach.mirror, Leg.mirror, hApproach, hBack]

/-- Records follow each other exactly when their mirror images do. -/
theorem Arrival.canFollow_mirror (arrival previous : Arrival) :
    (arrival.mirror network).canFollow (previous.mirror network) = arrival.canFollow previous := by
  rw [canFollow, canFollow, isTransit_mirror]
  rfl

/-- Records are followed back alike. -/
theorem Arrivals.chain_mirror (arrivals : Arrivals) (id : Nat) :
    (arrivals.mirror network).chain id = (arrivals.chain id).map (Arrival.mirror network) := by
  induction id using Nat.strongRecOn with
  | ind id ih =>
      rw [chain, chain, get?_mirror]
      cases arrivals.get? id with
      | none => rfl
      | some arrival =>
          rw [Option.map_some]
          simp only [show (arrival.mirror network).predecessor = arrival.predecessor from rfl]
          cases arrival.predecessor with
          | none => rfl
          | some previous =>
              by_cases hBefore : previous < id
              · simp only [dif_pos hBefore, ih previous hBefore, List.map_cons]
              · simp only [dif_neg hBefore, List.map_cons, List.map_nil]

namespace Journey

/-- A chain breaks where its mirror image does. -/
theorem brokenAt?_mirror (network : Network) (chain : List Arrival) :
    brokenAt? (chain.map (Arrival.mirror network)) =
      (brokenAt? chain).map (Arrival.mirror network) := by
  induction chain with
  | nil => rfl
  | cons arrival rest ih =>
      cases rest with
      | nil =>
          have hAccess : (arrival.mirror network).approach.isAccess =
              arrival.approach.isAccess := by
            cases h : arrival.approach <;>
              simp [Arrival.mirror, Approach.mirror, Approach.isAccess, h]
          simp only [List.map_cons, List.map_nil, brokenAt?, hAccess]
          split <;> rfl
      | cons previous rest =>
          rw [List.map_cons] at ih
          rw [List.map_cons, List.map_cons, brokenAt?, brokenAt?, Arrival.canFollow_mirror, ih]
          split <;> rfl

/-- The legs of a mirrored chain are the mirrored legs, in the opposite order. -/
theorem legsOf_mirror (network : Network) (chain : List Arrival)
    (destination : DestinationArrival) :
    legsOf .forward (chain.map (Arrival.mirror network)) destination.mirror =
      ((legsOf .reverse chain destination).map (Leg.mirror network)).reverse := by
  have hLegs : Arrival.forwardLeg ∘ Arrival.mirror network =
      Leg.mirror network ∘ Arrival.reverseLeg := funext Arrival.forwardLeg_mirror
  have hBack : -destination.time - destination.egress.duration =
      -(destination.time + destination.egress.duration) := by
    omega
  simp only [legsOf, List.map_cons, List.reverse_cons, List.map_reverse, List.map_map, hLegs,
    DestinationArrival.mirror, Leg.mirror, hBack]

/-- The mirrored legs make the mirrored journey. -/
theorem ofLegs_mirror (legs : List Leg) (cost : Int) :
    ofLegs (legs.map (Leg.mirror network)).reverse cost = (ofLegs legs cost).mirror network := by
  have hTransit : Leg.isTransit ∘ Leg.mirror network = Leg.isTransit :=
    funext Leg.isTransit_mirror
  simp only [ofLegs, mirror, List.head?_reverse, List.getLast?_reverse, List.countP_reverse,
    List.countP_map, hTransit]
  congr 1
  · rw [List.getLast?_map]
    cases legs.getLast? <;> simp
  · rw [List.head?_map]
    cases legs.head? <;> simp

/-- The journey behind the image of a way to the destination is the image of the journey, and if
the records do not make one then their images fail to in the same way. -/
theorem ofDestination_mirror (arrivals : Arrivals) (destination : DestinationArrival) :
    ofDestination (arrivals.mirror network) .forward destination.mirror =
      (ofDestination arrivals .reverse destination).map (mirror network) := by
  rw [ofDestination, ofDestination, DestinationArrival.mirror, Arrivals.chain_mirror]
  cases hChain : arrivals.chain destination.arrival with
  | nil => rfl
  | cons arrival rest =>
      have hBroken := brokenAt?_mirror network (arrival :: rest)
      have hLegs := legsOf_mirror network (arrival :: rest) destination
      rw [List.map_cons] at hBroken hLegs ⊢
      simp only [hBroken]
      cases brokenAt? (arrival :: rest) with
      | some broken => rfl
      | none =>
          rw [DestinationArrival.mirror] at hLegs
          simp only [Option.map_none, hLegs, ofLegs_mirror, Except.map]

/-- The journeys read off mirrored records are the mirrored journeys. -/
theorem ofDestinations_mirror (arrivals : Arrivals) (destinations : List DestinationArrival) :
    ofDestinations (arrivals.mirror network) .forward
        (destinations.map DestinationArrival.mirror) =
      (ofDestinations arrivals .reverse destinations).map (List.map (mirror network)) := by
  induction destinations with
  | nil => rfl
  | cons first rest ih =>
      rw [List.map_cons, ofDestinations, ofDestinations, ofDestination_mirror, ih]
      cases ofDestination arrivals .reverse first with
      | error fault => rfl
      | ok journey =>
          cases ofDestinations arrivals .reverse rest <;> rfl

end Journey

namespace Search

def Found.mirror (network : Network) (found : Found) : Found :=
  { arrivals := found.arrivals.mirror network
    destinations := found.destinations.map DestinationArrival.mirror
    accepted := found.accepted.map DestinationArrival.mirror }

def Run.mirror (network : Network) (run : Run) : Run :=
  { run with
    time := -run.time
    direction := .forward
    found := run.found.mirror network }

/-- The journeys of the image of a reverse run are the images of its journeys. -/
theorem Run.journeys_mirror {run : Run} (hDirection : run.direction = .reverse) :
    (run.mirror network).journeys = run.journeys.map (List.map (Journey.mirror network)) := by
  rw [journeys, journeys, hDirection]
  exact Journey.ofDestinations_mirror run.found.arrivals run.found.destinations

end Search

end JourneyPlanner
