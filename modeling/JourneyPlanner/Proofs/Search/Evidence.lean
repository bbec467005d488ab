import JourneyPlanner.Proofs.Network.Retiming
import JourneyPlanner.Proofs.Search.Completion
import JourneyPlanner.Proofs.Search.Prices

/-! What the records of a run attest when nothing is known of the stop times, not even that trips
keep their order. Which trip is boarded then means nothing, but every record still tells how its
stop was reached. Main statement: a run is given up at a trip that goes back in time, or the query
and earlier records vouch for all its records. -/
namespace JourneyPlanner

namespace Query

/-- A record is vouched for by a leg from which the search starts, or by an earlier record and a
ride or a walk that goes on from it. A ride takes a round. A walk belongs to the round of the ride
before it, and takes one if there is none. -/
inductive Vouches (query : Query) (rates : CostRates) (time : Int) (arrivals : Arrivals)
    (id : Nat) : Arrival → Prop where
  | access {leg : WalkLeg} (hLeg : leg ∈ query.request.startLegs) :
      Vouches query rates time arrivals id
        { stop := leg.stop
          round := 0
          time := query.direction.along time leg.duration
          cost := rates.walkCost leg.duration
          approach := .access leg.duration
          predecessor := none }
  | ride {previous pattern trip target : Nat} {source : Arrival} {boarded left : Int}
      (hEarlier : previous < id) (hSource : arrivals.get? previous = some source)
      (hRide : query.network.Carries query.date query.modes query.direction pattern trip
        source.stop target boarded left)
      (hForth : query.direction.isBetter left boarded = false) :
      Vouches query rates time arrivals id
        { stop := target
          round := source.round + 1
          time := left
          cost := source.cost + rates.waitCost (query.direction.duration source.time boarded) +
            rates.boardingCost + rates.transitCostAt (query.direction.duration boarded left)
          approach := .transit source.stop boarded pattern trip
          predecessor := some previous }
  | walk {previous : Nat} {source : Arrival} {transfer : Transfer}
      (hEarlier : previous < id) (hSource : arrivals.get? previous = some source)
      (hRound : 0 < source.roundOnFoot)
      (hWalk : transfer ∈ query.direction.transfers query.network source.stop) :
      Vouches query rates time arrivals id
        { stop := query.direction.transferTarget transfer
          round := source.roundOnFoot
          time := query.direction.along source.time transfer.duration
          cost := source.cost + rates.walkCost transfer.duration
          approach := .transfer source.stop transfer.duration
          predecessor := some previous }

/-- A way to the destination is vouched for by the record of a ride and a leg that ends the search
from its stop. -/
inductive VouchesEnd (query : Query) (rates : CostRates) (arrivals : Arrivals) :
    DestinationArrival → Prop where
  | egress {id : Nat} {source : Arrival} {leg : WalkLeg}
      (hSource : arrivals.get? id = some source) (hRide : source.isTransit = true)
      (hLeg : leg ∈ query.request.endLegs) (hStop : leg.stop = source.stop) :
      VouchesEnd query rates arrivals
        { arrival := id
          egress := leg
          time := query.direction.along source.time leg.duration
          round := source.round
          cost := source.cost + rates.walkCost leg.duration }

/-- Records and ways to the destination that are all vouched for. -/
structure Attested (query : Query) (rates : CostRates) (time : Int) (found : Search.Found) :
    Prop where
  records : ∀ {id arrival}, found.arrivals.get? id = some arrival →
    query.Vouches rates time found.arrivals id arrival
  destinations : ∀ destination ∈ found.destinations,
    query.VouchesEnd rates found.arrivals destination
  round_le : ∀ arrival ∈ found.arrivals.toList, arrival.round ≤ query.request.maxTransfers + 1

end Query

namespace Search

variable {query : Query} {problem : Problem} {time : Int} {arrivals : Arrivals}

/-- A walk from a record belongs to a round of its own or to that of a ride, which is not
round 0. -/
theorem Records.roundOnFoot_pos (records : Records problem time arrivals) {arrival : Arrival}
    (hMem : arrival ∈ arrivals.toList) : 0 < arrival.roundOnFoot := by
  unfold Arrival.roundOnFoot
  split
  · rename_i hRide
    exact records.round_pos_of_isTransit hMem hRide
  · exact Nat.succ_pos _

/-- The record made by leaving a ride tells where and when it was boarded, and what it costs to
wait, to board and to ride. -/
theorem arrival_of_board? {table : TripTable} {position pattern stop id round target : Nat}
    {source : Arrival} {bound : Option Nat} {ride : Ride} {left : Int}
    (hTable : problem.day.network.tripTable pattern = .ok table)
    (hBoard : board? problem table position stop id source bound = .ok (some ride)) :
    ride.arrival problem round table.pattern target left =
      { stop := target
        round
        time := left
        cost := source.cost +
          problem.cost.waitCost (problem.direction.duration source.time ride.time) +
          problem.cost.boardingCost +
          problem.cost.transitCostAt (problem.direction.duration ride.time left)
        approach := .transit stop ride.time pattern ride.trip
        predecessor := some id } := by
  have boarded := boarded_of_board? hBoard
  have hCost : (ride.arrival problem round table.pattern target left).cost = _ :=
    cost_of_board? hBoard
  rw [Direction.duration_eq, Direction.duration_eq, ← hCost]
  simp only [Ride.arrival, boarded.stop_eq, boarded.predecessor_eq,
    Network.pattern_of_tripTable hTable]

section Posed

variable (posed : query.Posed problem) (modest : problem.Modest)
  (hTime : Clock.Within (2 * Clock.modest) time)

include posed modest hTime

/-- Each record of a search is vouched for. -/
theorem Records.vouches (records : Records problem time arrivals) {id : Nat} {arrival : Arrival}
    (h : arrivals.get? id = some arrival)
    (hRound : arrival.round ≤ Request.maxSupportedTransfers + 1) :
    query.Vouches problem.cost time arrivals id arrival := by
  obtain ⟨before, hExtends, rfl, hDerives⟩ := records.derives_of_get? h
  cases hDerives with
  | @access leg hLeg =>
      rw [Problem.accessArrival, plus_startLeg modest hTime hLeg, posed.direction]
      exact .access (posed.startLegs ▸ hLeg)
  | @ride pattern first second previous target table source bound ride left hSource hTable hActive
      hOrder hOrigin hTarget hBoard hLeft =>
      have boarded := boarded_of_board? hBoard
      have hRide := posed.carries_iff.mpr ⟨table, first, second, hTable, hActive, hOrigin, hTarget,
        Ride.passage_of_alightTime boarded hOrder hLeft⟩
      obtain ⟨_, -, -, hForth⟩ := Ride.alightTime_eq_ok_iff.mp hLeft
      rw [posed.direction, ← Direction.isBetter_eq_false_iff] at hForth
      rw [arrival_of_board? hTable hBoard, posed.direction]
      exact .ride (Arrivals.lt_size_of_get? hSource) (hExtends _ _ hSource) hRide hForth
  | @walk previous source transfer hSource hWalk =>
      have hMem := Arrivals.mem_toList_of_get? (hExtends _ _ hSource)
      rw [Problem.walkArrival, records.plus_eq_along modest hTime hMem
        (Nat.le_trans source.round_le_roundOnFoot hRound) (modest.network.transfers hWalk),
        posed.direction]
      exact .walk (Arrivals.lt_size_of_get? hSource) (hExtends _ _ hSource)
        (records.roundOnFoot_pos hMem) (posed.transfersAt source.stop ▸ hWalk)

/-- So is each way to the destination. -/
theorem Records.vouchesEnd (records : Records problem time arrivals)
    {destination : DestinationArrival} (hFinishes : problem.Finishes arrivals destination)
    (hRound : destination.round ≤ Request.maxSupportedTransfers + 1) :
    query.VouchesEnd problem.cost arrivals destination := by
  cases hFinishes with
  | @egress id source leg hSource hRide hLeg =>
      obtain ⟨hEnd, hStop⟩ := Problem.mem_endLegsAt.mp hLeg
      rw [Problem.destinationArrival, records.plus_eq_along modest hTime
        (Arrivals.mem_toList_of_get? hSource) hRound (modest.legs leg (Or.inr hEnd)),
        posed.direction]
      exact .egress hSource hRide (posed.endLegs.mp hEnd) hStop

/-- What was found in a run is attested. -/
theorem Found.Complete.attested {found : Found} (complete : found.Complete problem time
      (query.request.maxTransfers + 1))
    (hTransfers : query.request.maxTransfers ≤ Request.maxSupportedTransfers) :
    query.Attested problem.cost time found := by
  have hRounds : query.request.maxTransfers + 1 ≤ Request.maxSupportedTransfers + 1 :=
    Nat.succ_le_succ hTransfers
  constructor
  · intro id arrival h
    exact complete.records.vouches posed modest hTime h
      ((complete.round_le arrival (Arrivals.mem_toList_of_get? h)).trans hRounds)
  · intro destination hMem
    exact complete.records.vouchesEnd posed modest hTime (complete.finishes destination hMem)
      ((complete.round_le_of_mem hMem).trans hRounds)
  · exact complete.round_le

end Posed

/-- A run on a linked network is attested, unless a trip goes back in time. -/
theorem Planner.run_yields_attested {day : DayTimetable} {config : SearchConfig} {planner : Planner}
    (linked : query.network.Linked)
    (hDay : query.network.onDate query.date query.modes = .ok day)
    (hPlanner : Planner.ofRequest day query.request config = .ok planner)
    (hNetwork : query.network.Modest) (hRequest : query.request.Modest)
    (hTime : Clock.Within (2 * Clock.modest) time) (watch : Stopwatch) :
    Yields
      (fun run => run.direction = query.direction ∧
        query.Attested config.cost time run.found)
      (fun broken => query.network.GoesBack query.direction broken.fault)
      (planner.run time watch) := by
  obtain ⟨valid, rfl⟩ := Planner.ofRequest_eq_ok_iff.mp hPlanner
  have posed := Query.posed_ofRequest hDay config
  have hYields := Planner.run_yields
    { problem := Problem.ofRequest day query.request config
      profile := query.request.profile
      maxRounds := query.request.maxRounds
      timeLimit := query.request.timeLimit }
    (posed.network ▸ linked) (posed.knownLegs valid) time watch
  rw [posed.network, posed.direction] at hYields
  apply hYields.imp
  rintro run ⟨hDirection, complete⟩
  rw [valid.maxRounds_eq] at complete
  exact ⟨hDirection, complete.attested posed (posed.modest hNetwork hRequest) hTime
    valid.maxTransfers_le⟩

end Search

variable {draft : Draft} {network : Network} {times : Array StopTime} {query : Query}
  {day : DayTimetable} {config : SearchConfig} {planner : Search.Planner} {time : Int}

/-- Whatever stands in place of the stop times of a network that was built, a run for a valid
request is given up at a trip that goes back in time, or the query and earlier records vouch for
all its records. -/
theorem Search.Planner.run_is_attested (hBuild : draft.build = .ok network)
    (hSize : times.size = network.stopTimes.size)
    (hTimes : query.network = network.withTimes times)
    (hDay : query.network.onDate query.date query.modes = .ok day)
    (hPlanner : Planner.ofRequest day query.request config = .ok planner)
    (hNetwork : query.network.Modest) (hRequest : query.request.Modest)
    (hTime : Clock.Within Clock.modest time) (watch : Stopwatch) :
    (∃ broken, planner.run time watch = .error broken ∧
      query.network.GoesBack query.direction broken.fault) ∨
    ∃ run, planner.run time watch = .ok run ∧ query.Attested config.cost time run.found := by
  have linked : query.network.Linked :=
    hTimes ▸ (Network.Sound.of_build hBuild).toLinked.withTimes hSize
  have hYields := Planner.run_yields_attested linked hDay hPlanner hNetwork hRequest
    (Clock.Within.double hTime) watch
  cases hRun : planner.run time watch with
  | error broken =>
      rw [hRun] at hYields
      exact Or.inl ⟨broken, rfl, hYields⟩
  | ok run =>
      rw [hRun] at hYields
      exact Or.inr ⟨run, rfl, hYields.2⟩

/-- The connection once two of its times are replaced: the first train gets to its last stop before
it has left, and the slow bus waits where it starts. -/
def Query.derailed : Query :=
  { hurried with
    network := hurried.network.withTimes
      ((hurried.network.stopTimes.set! 7 ⟨1500, 1500⟩).set! 10 ⟨30, 10⟩) }

theorem Network.modest_derailed : Query.derailed.network.Modest where
  times := by
    simp [Query.derailed, Network.withTimes, Query.hurried, Query.connection, Draft.pack,
      Draft.connection, Clock.Within, Clock.modest]
  walks := Network.modest_connection.walks

/-- A run in time is given up at the train; one that is cut off before it has changed trains is
not, and ends with the slow bus. -/
theorem Search.Planner.run_is_attested_derailed :
    ∃ day planner broken run,
      Query.derailed.network.onDate Query.derailed.date Query.derailed.modes = .ok day ∧
      Planner.ofRequest day Query.derailed.request SearchConfig.shuttle = .ok planner ∧
      planner.run (-60) = .error broken ∧
      Query.derailed.network.GoesBack .forward broken.fault ∧
      planner.run (-60) (.ofPlace 1) = .ok run ∧ run.termination = .deadline ∧
      run.found.arrivals.size = 3 ∧
      Query.derailed.Attested CostRates.standard (-60) run.found := by
  obtain ⟨day, planner, hDay, hPlanner, hBroken, run, hRun, hCut⟩ : ∃ day planner,
      Query.derailed.network.onDate Query.derailed.date Query.derailed.modes = .ok day ∧
      Planner.ofRequest day Query.derailed.request SearchConfig.shuttle = .ok planner ∧
      (planner.run (-60)).isOk = false ∧ ∃ run, planner.run (-60) (.ofPlace 1) = .ok run ∧
        decide (run.termination = .deadline ∧ run.found.arrivals.size = 3) = true :=
    ⟨_, _, rfl, Planner.ofRequest_eq_ok_iff.mpr ⟨Query.valid_hurried, rfl⟩, by decide +kernel,
      Planner.exists_run_of_any (by decide +kernel)⟩
  have hAttested := @Search.Planner.run_is_attested Draft.connection Query.hurried.network _
    Query.derailed _ SearchConfig.shuttle _ (-60) Draft.build_connection (by decide +kernel) rfl
    hDay hPlanner Network.modest_derailed Query.modest_hurried ⟨by decide, by decide⟩
  obtain ⟨broken, hError, hBack⟩ := (hAttested .stopped).resolve_right fun ⟨other, hOther, _⟩ => by
    rw [hOther] at hBroken
    cases hBroken
  obtain ⟨other, hOther, attested⟩ := (hAttested (.ofPlace 1)).resolve_left fun ⟨_, hError, _⟩ => by
    rw [hRun] at hError
    cases hError
  rw [hRun, Except.ok.injEq] at hOther
  obtain ⟨hDeadline, hSize⟩ := of_decide_eq_true hCut
  exact ⟨day, planner, broken, run, hDay, hPlanner, hError, hBack, hRun, hDeadline, hSize,
    hOther ▸ attested⟩

end JourneyPlanner
