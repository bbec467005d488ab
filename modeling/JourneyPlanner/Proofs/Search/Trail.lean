import JourneyPlanner.Journey.Chain
import JourneyPlanner.Proofs.Search.Records

/-! The way a traveller took to a record, as the records before it tell it. Main statements: from
every record of a search such a way leads back to its start, so each way to the destination is a
journey that can be read off. -/
namespace JourneyPlanner

namespace Query

/-- How a record may follow another one: by a ride that can be caught there, or on foot. -/
inductive Follows (query : Query) (source : Arrival) : Arrival → Prop where
  | ride {target pattern trip id : Nat} {boarded left cost : Int}
      (hRide : query.network.Carries query.date query.modes query.direction pattern trip
        source.stop target boarded left)
      (hReady : query.direction.isBetter boarded
        (query.direction.along source.time (query.slackAfter source.round)) = false) :
      Follows query source
        { stop := target, round := source.round + 1, time := left, cost
          approach := .transit source.stop boarded pattern trip
          predecessor := some id }
  | walk {id : Nat} {cost : Int} {transfer : Transfer}
      (hWalk : transfer ∈ query.direction.transfers query.network source.stop) :
      Follows query source
        { stop := query.direction.transferTarget transfer
          round := source.roundOnFoot
          time := query.direction.along source.time transfer.duration
          cost
          approach := .transfer source.stop transfer.duration
          predecessor := some id }

/-- The records along which a journey came, the last one first. -/
inductive Trail (query : Query) (time : Int) : List Arrival → Prop where
  | access {leg : WalkLeg} {cost : Int} (hLeg : leg ∈ query.request.startLegs) :
      Trail query time
        [{ stop := leg.stop, round := 0, time := query.direction.along time leg.duration, cost
           approach := .access leg.duration
           predecessor := none }]
  | follow {arrival source : Arrival} {rest : List Arrival}
      (before : Trail query time (source :: rest)) (hFollows : query.Follows source arrival) :
      Trail query time (arrival :: source :: rest)

variable {query : Query} {time : Int} {arrival source : Arrival} {rest : List Arrival}

/-- The last record of a trail is a place that a journey can reach. -/
theorem Trail.reaches (trail : query.Trail time (arrival :: rest)) :
    query.Reaches time arrival.manner arrival.round arrival.stop arrival.time := by
  induction rest generalizing arrival with
  | nil =>
      cases trail with
      | access hLeg => exact .access hLeg
  | cons source rest ih =>
      cases trail with
      | follow before hFollows =>
          cases hFollows with
          | ride hRide hReady => exact .ride (ih before) hRide hReady
          | walk hWalk => exact source.roundOnFoot_manner ▸ .walk (ih before) hWalk

/-- Every record of a trail can follow the one before it, and the first one starts it. -/
theorem Trail.brokenAt?_eq_none {chain : List Arrival} (trail : query.Trail time chain) :
    Journey.brokenAt? chain = none := by
  induction trail with
  | access hLeg => rfl
  | @follow arrival source rest before hFollows ih =>
      have hFollow : arrival.canFollow source = true := by
        cases hFollows with
        | ride => exact decide_eq_true (Nat.lt_succ_self _)
        | walk => exact decide_eq_true source.round_le_roundOnFoot
      rw [Journey.brokenAt?, hFollow, if_pos rfl, ih]

end Query

namespace Arrivals

variable {arrivals : Arrivals} {id previous : Nat} {arrival : Arrival}

theorem chain_of_none (h : arrivals.get? id = some arrival) (hFirst : arrival.predecessor = none) :
    arrivals.chain id = [arrival] := by
  rw [chain, h]
  simp only [hFirst]

/-- The chain of a record is the record and the chain of its predecessor. -/
theorem chain_of_some (h : arrivals.get? id = some arrival)
    (hPrevious : arrival.predecessor = some previous) (hLt : previous < id) :
    arrivals.chain id = arrival :: arrivals.chain previous := by
  rw [chain, h]
  simp only [hPrevious, dif_pos hLt]

end Arrivals

namespace Search.Records

variable {problem : Problem} {time : Int} {arrivals : Arrivals} {query : Query}
  (modest : problem.Modest) (hTime : Clock.Within (2 * Clock.modest) time)
  (posed : query.Posed problem) (sound : query.network.Sound)

include modest hTime posed sound

/-- Following the records back from one of them gives its trail. -/
theorem exists_trail (records : Records problem time arrivals) {id : Nat} {arrival : Arrival}
    (h : arrivals.get? id = some arrival)
    (hRound : arrival.round ≤ Request.maxSupportedTransfers + 1) :
    ∃ rest, arrivals.chain id = arrival :: rest ∧ query.Trail time (arrival :: rest) := by
  induction id using Nat.strongRecOn generalizing arrival with
  | ind id ih =>
      obtain ⟨before, hExtends, rfl, hDerives⟩ := records.derives_of_get? h
      cases hDerives with
      | @access leg hLeg =>
          refine ⟨[], Arrivals.chain_of_none h rfl, ?_⟩
          rw [Problem.accessArrival, plus_startLeg modest hTime hLeg, posed.direction]
          exact .access (posed.startLegs ▸ hLeg)
      | @ride pattern first second id target table source bound ride left hSource hTable hActive
          hOrder hOrigin hTarget hBoard hLeft =>
          have boarded := boarded_of_board? hBoard
          have hMem := Arrivals.mem_toList_of_get? (hExtends _ _ hSource)
          have hSourceRound : source.round ≤ Request.maxSupportedTransfers + 1 :=
            Nat.le_of_succ_le hRound
          obtain ⟨rest, hChain, trail⟩ :=
            ih id (Arrivals.lt_size_of_get? hSource) (hExtends _ _ hSource) hSourceRound
          have hRide := posed.carries_iff.mpr ⟨table, first, second, hTable, hActive, hOrigin,
            hTarget, Ride.passage_of_alightTime boarded hOrder hLeft⟩
          have hReady := readyAfter_le_of_board? (sound.table (posed.network ▸ hTable))
            (TripTable.lt_numStops_of_stopAt hOrigin) hBoard
          rw [records.readyAfter_eq_along modest hTime hMem hSourceRound, posed.slackAfter,
            posed.direction, ← Direction.isBetter_eq_false_iff] at hReady
          refine ⟨source :: rest, ?_, ?_⟩
          · rw [Arrivals.chain_of_some h (congrArg some boarded.predecessor_eq)
              (Arrivals.lt_size_of_get? hSource), hChain]
          · rw [Ride.arrival, boarded.stop_eq, Network.pattern_of_tripTable hTable]
            exact .follow trail (.ride hRide hReady)
      | @walk id source transfer hSource hWalk =>
          have hMem := Arrivals.mem_toList_of_get? (hExtends _ _ hSource)
          have hSourceRound : source.round ≤ Request.maxSupportedTransfers + 1 :=
            Nat.le_trans source.round_le_roundOnFoot hRound
          obtain ⟨rest, hChain, trail⟩ :=
            ih id (Arrivals.lt_size_of_get? hSource) (hExtends _ _ hSource) hSourceRound
          refine ⟨source :: rest, ?_, ?_⟩
          · rw [Arrivals.chain_of_some h rfl (Arrivals.lt_size_of_get? hSource), hChain]
          · rw [Problem.walkArrival, records.plus_eq_along modest hTime hMem hSourceRound
              (modest.network.transfers hWalk), posed.direction]
            exact .follow trail (.walk (posed.transfersAt source.stop ▸ hWalk))

/-- Every record is a place that a journey can reach. -/
theorem reaches (records : Records problem time arrivals) {arrival : Arrival}
    (hMem : arrival ∈ arrivals.toList)
    (hRound : arrival.round ≤ Request.maxSupportedTransfers + 1) :
    query.Reaches time arrival.manner arrival.round arrival.stop arrival.time := by
  obtain ⟨id, hId⟩ := Arrivals.mem_toList_iff.mp hMem
  obtain ⟨rest, -, trail⟩ := records.exists_trail modest hTime posed sound hId hRound
  exact trail.reaches

end Search.Records

namespace Query

structure Ending (query : Query) (time : Int) (source : Arrival) (rest : List Arrival)
    (destination : DestinationArrival) : Prop where
  trail : query.Trail time (source :: rest)
  isTransit : source.isTransit = true
  round : destination.round = source.round
  leg : destination.egress ∈ query.request.endLegs
  stop : destination.egress.stop = source.stop
  time : destination.time = query.direction.along source.time destination.egress.duration

variable {query : Query} {time : Int} {source : Arrival} {rest : List Arrival}
  {destination : DestinationArrival}

/-- A trail with an egress after its last ride is a journey. -/
theorem Ending.ends (ending : query.Ending time source rest destination) :
    query.Ends time destination.round destination.time := by
  have hReach := ending.trail.reaches
  rw [Arrival.isTransit_iff.mp ending.isTransit, ← ending.stop] at hReach
  rw [ending.round, ending.time]
  exact .egress hReach ending.leg

end Query

namespace Search.Records

variable {problem : Problem} {time : Int} {arrivals : Arrivals} {query : Query}

/-- The journey behind a way to the destination can be read off the records. -/
theorem exists_ending (records : Records problem time arrivals) (modest : problem.Modest)
    (hTime : Clock.Within (2 * Clock.modest) time) (posed : query.Posed problem)
    (sound : query.network.Sound) {destination : DestinationArrival}
    (hFinishes : problem.Finishes arrivals destination)
    (hRound : destination.round ≤ Request.maxSupportedTransfers + 1) :
    ∃ source rest, query.Ending time source rest destination ∧
      Journey.ofDestination arrivals query.direction destination =
        .ok (Journey.ofLegs (Journey.legsOf query.direction (source :: rest) destination)
          destination.cost) := by
  cases hFinishes with
  | @egress id source leg hSource hRide hLeg =>
      obtain ⟨rest, hChain, trail⟩ :=
        records.exists_trail modest hTime posed sound hSource hRound
      obtain ⟨hLeg, hStop⟩ := Problem.mem_endLegsAt.mp hLeg
      refine ⟨source, rest, ⟨trail, hRide, rfl, posed.endLegs.mp hLeg, hStop, ?_⟩, ?_⟩
      · rw [← posed.direction]
        exact records.plus_eq_along modest hTime (Arrivals.mem_toList_of_get? hSource) hRound
          (modest.legs leg (Or.inr hLeg))
      · rw [Journey.ofDestination]
        simp only [Problem.destinationArrival, hChain, trail.brokenAt?_eq_none]

end Search.Records

end JourneyPlanner
