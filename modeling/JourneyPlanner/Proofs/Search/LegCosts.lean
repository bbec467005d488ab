import JourneyPlanner.Proofs.Search.Evidence
import JourneyPlanner.Proofs.Search.Itinerary
import Mathlib.Tactic.Ring

/-! What a journey costs, said of its legs alone. A search prices a record when it makes it, and a
ride from a fixed origin, in the direction of the search; a traveller adds up walks, rides,
boardings and the waits between them. Main statement: the two agree on every journey of a
completed run, whatever the stop times are. -/
namespace JourneyPlanner

namespace Leg

def walkingTime (legs : List Leg) : Int :=
  ((legs.filter fun leg => !leg.isTransit).map duration).sum

def ridingTime (legs : List Leg) : Int :=
  ((legs.filter isTransit).map duration).sum

/-- The seconds between the end of each leg and the start of the next one. -/
def waitingTime (legs : List Leg) : Int :=
  ((legs.zip legs.tail).map fun pair => pair.2.departure - pair.1.arrival).sum

@[simp]
theorem waitingTime_cons_cons (first next : Leg) (rest : List Leg) :
    waitingTime (first :: next :: rest) =
      next.departure - first.arrival + waitingTime (next :: rest) := by
  simp [waitingTime]

/-- One more leg adds the wait before it. -/
theorem waitingTime_concat (legs : List Leg) (previous last : Leg) :
    waitingTime (legs ++ [previous, last]) =
      waitingTime (legs ++ [previous]) + (last.departure - previous.arrival) := by
  induction legs with
  | nil => simp [waitingTime]
  | cons first rest ih =>
      cases rest with
      | nil => simp [waitingTime]
      | cons next rest =>
          simp only [List.cons_append, waitingTime_cons_cons] at ih ⊢
          rw [ih, Int.add_assoc]

end Leg

namespace CostRates

variable (rates : CostRates)

/-- What some legs cost, with the waits between them. -/
def legsCost (legs : List Leg) : Int :=
  rates.walkReluctance * Leg.walkingTime legs +
    rates.transitReluctance * Leg.ridingTime legs +
    rates.waitReluctance * Leg.waitingTime legs +
    100 * rates.boardCost * legs.countP Leg.isTransit

def legCost (leg : Leg) : Int :=
  if leg.isTransit then rates.boardingCost + leg.duration * rates.transitReluctance
  else rates.walkCost leg.duration

/-- Legs cost what each of them does and what the waits between them do. -/
theorem legsCost_eq_sum (legs : List Leg) :
    rates.legsCost legs =
      (legs.map rates.legCost).sum + rates.waitCost (Leg.waitingTime legs) := by
  have hLegs : (legs.map rates.legCost).sum = rates.walkReluctance * Leg.walkingTime legs +
      rates.transitReluctance * Leg.ridingTime legs +
      100 * rates.boardCost * legs.countP Leg.isTransit := by
    induction legs with
    | nil => simp [Leg.walkingTime, Leg.ridingTime]
    | cons leg rest ih =>
        rw [List.map_cons, List.sum_cons, ih]
        cases hRide : leg.isTransit <;>
          simp only [legCost, walkCost, boardingCost, Leg.walkingTime, Leg.ridingTime,
            List.filter_cons, List.countP_cons, hRide, Bool.not_true, Bool.not_false, if_true,
            if_false, Bool.false_eq_true, List.map_cons, List.sum_cons, Nat.cast_add,
            Nat.cast_one, Nat.cast_zero] <;>
          ring
  rw [hLegs, legsCost, waitCost]
  ring

end CostRates

/-- The wait between two legs, the one that a search found later and the one it found before. -/
def Direction.wait : Direction → (later earlier : Leg) → Int
  | forward, later, earlier => later.departure - earlier.arrival
  | reverse, later, earlier => earlier.departure - later.arrival

/-- One more leg along the search adds its own cost and that of the wait before or after it. -/
theorem CostRates.legsCost_travelOrder (rates : CostRates) (direction : Direction)
    (later earlier : Leg) (rest : List Leg) :
    rates.legsCost (direction.travelOrder (later :: earlier :: rest)) =
      rates.legsCost (direction.travelOrder (earlier :: rest)) +
        rates.waitCost (direction.wait later earlier) + rates.legCost later := by
  cases direction with
  | forward =>
      simp only [Direction.travelOrder, legsCost_eq_sum, List.reverse_cons, List.append_assoc,
        List.cons_append, List.nil_append, Leg.waitingTime_concat, List.map_append, List.map_cons,
        List.map_nil, List.sum_append, List.sum_cons, List.sum_nil, Direction.wait, waitCost]
      ring
  | reverse =>
      simp only [Direction.travelOrder, legsCost_eq_sum, Leg.waitingTime_cons_cons, List.map_cons,
        List.sum_cons, Direction.wait, waitCost]
      ring

theorem CostRates.legsCost_singleton (rates : CostRates) (direction : Direction) (leg : Leg) :
    rates.legsCost (direction.travelOrder [leg]) = rates.legCost leg := by
  cases direction <;>
    simp [Direction.travelOrder, legsCost_eq_sum, Leg.waitingTime, waitCost]

def Leg.start (leg : Leg) : Direction → Int
  | .forward => leg.departure
  | .reverse => leg.arrival

namespace Arrival

variable (arrival source : Arrival) (direction : Direction)

/-- The wait before a leg lasts from the record before it until the search sets out. -/
theorem wait_leg : direction.wait (arrival.leg direction) (source.leg direction) =
    direction.duration source.time ((arrival.leg direction).start direction) := by
  cases direction with
  | forward =>
      rw [Direction.wait, source.arrival_leg_forward]
      rfl
  | reverse =>
      rw [Direction.wait, source.departure_leg_reverse]
      rfl

/-- The leg itself lasts from then until the time of its record. -/
theorem duration_leg : (arrival.leg direction).duration =
    direction.duration ((arrival.leg direction).start direction) arrival.time := by
  cases direction with
  | forward =>
      rw [Leg.duration, arrival.arrival_leg_forward]
      rfl
  | reverse =>
      rw [Leg.duration, arrival.departure_leg_reverse]
      rfl

variable {arrival direction}

theorem start_leg_ride {boardStop pattern trip : Nat} {boarded : Int}
    (h : arrival.approach = .transit boardStop boarded pattern trip) :
    (arrival.leg direction).start direction = boarded := by
  cases direction <;> simp [leg, forwardLeg, reverseLeg, h, Leg.start, Leg.departure, Leg.arrival]

theorem duration_leg_walk {duration : Int}
    (h : arrival.approach = .access duration ∨
      ∃ origin, arrival.approach = .transfer origin duration) :
    (arrival.leg direction).duration = duration := by
  rcases h with h | ⟨origin, h⟩ <;> cases direction <;>
    simp [leg, forwardLeg, reverseLeg, h, Leg.duration, Leg.departure, Leg.arrival]

end Arrival

namespace Query

variable {query : Query} {rates : CostRates} {time : Int} {arrivals : Arrivals} {id : Nat}
  {arrival source : Arrival}

/-- A record that is vouched for starts the journey or follows an earlier one. It adds the cost of
its leg, and of the wait between the two. -/
theorem Vouches.first_or_follows (vouched : query.Vouches rates time arrivals id arrival) :
    (arrival.predecessor = none ∧ arrival.approach.isAccess = true ∧
      arrival.cost = rates.legCost (arrival.leg query.direction)) ∨
    ∃ previous source, arrival.predecessor = some previous ∧ previous < id ∧
      arrivals.get? previous = some source ∧ arrival.canFollow source = true ∧
      arrival.cost = source.cost +
        rates.waitCost (query.direction.wait (arrival.leg query.direction)
          (source.leg query.direction)) +
        rates.legCost (arrival.leg query.direction) := by
  have hDuration := arrival.duration_leg query.direction
  rw [CostRates.legCost, arrival.isTransit_leg]
  cases vouched with
  | access hLeg =>
      rw [Arrival.duration_leg_walk (Or.inl rfl)]
      exact Or.inl ⟨rfl, rfl, rfl⟩
  | @ride previous pattern trip target source boarded left hEarlier hSource hRide hForth =>
      apply Or.inr
      refine ⟨previous, source, rfl, hEarlier, hSource, decide_eq_true (Nat.lt_succ_self _), ?_⟩
      rw [Arrival.wait_leg, hDuration, Arrival.start_leg_ride rfl]
      simp only [Arrival.isTransit, Approach.isTransit, if_true, CostRates.transitCostAt]
      omega
  | @walk previous source transfer hEarlier hSource hRound hWalk =>
      apply Or.inr
      refine ⟨previous, source, rfl, hEarlier, hSource, decide_eq_true source.round_le_roundOnFoot,
        ?_⟩
      rw [Arrival.duration_leg_walk (Or.inr ⟨source.stop, rfl⟩)] at hDuration ⊢
      -- a walk is not waited for, since it starts when the record before it was made
      rw [Direction.duration_eq, Direction.timeCriterion_along] at hDuration
      rw [Arrival.wait_leg, Direction.duration_eq, CostRates.waitCost,
        Int.sub_eq_zero_of_eq (by omega), Int.zero_mul, Int.add_zero]
      rfl

/-- Following the records back from one of them ends at the start of the search, and the legs on the
way together cost what the record says. -/
theorem Attested.exists_chain {found : Search.Found} (attested : query.Attested rates time found)
    (h : found.arrivals.get? id = some arrival) :
    ∃ rest, found.arrivals.chain id = arrival :: rest ∧
      Journey.brokenAt? (arrival :: rest) = none ∧
      arrival.cost = rates.legsCost (query.direction.travelOrder
        ((arrival :: rest).map (Arrival.leg · query.direction))) := by
  induction id using Nat.strongRecOn generalizing arrival with
  | ind id ih =>
      rcases (attested.records h).first_or_follows with
        ⟨hFirst, hAccess, hCost⟩ | ⟨previous, source, hPrevious, hLt, hSource, hFollow, hCost⟩
      · refine ⟨[], Arrivals.chain_of_none h hFirst, if_pos hAccess, ?_⟩
        rw [hCost, List.map_cons, List.map_nil, CostRates.legsCost_singleton]
      · obtain ⟨rest, hChain, hSound, hBefore⟩ := ih previous hLt hSource
        refine ⟨source :: rest, ?_, ?_, ?_⟩
        · rw [Arrivals.chain_of_some h hPrevious hLt, hChain]
        · rw [Journey.brokenAt?, if_pos hFollow, hSound]
        · rw [hCost, hBefore, List.map_cons, List.map_cons, List.map_cons,
            CostRates.legsCost_travelOrder]

/-- The leg to the destination is not waited for. -/
theorem cost_egress {source : Arrival} {destination : DestinationArrival} (direction : Direction)
    (hTime : destination.time = direction.along source.time destination.egress.duration) :
    rates.waitCost (direction.wait (destination.leg direction) (source.leg direction)) +
        rates.legCost (destination.leg direction) =
      rates.walkCost destination.egress.duration := by
  cases direction with
  | forward =>
      rw [Direction.wait, source.arrival_leg_forward]
      simp [DestinationArrival.leg, Leg.departure, Leg.arrival, Leg.duration, Leg.isTransit,
        CostRates.legCost, CostRates.waitCost, hTime, Direction.along]
  | reverse =>
      rw [Direction.wait, source.departure_leg_reverse]
      simp [DestinationArrival.leg, Leg.departure, Leg.arrival, Leg.duration, Leg.isTransit,
        CostRates.legCost, CostRates.waitCost, hTime, Direction.along]

/-- The journey of a way to the destination costs what its legs do. -/
theorem Attested.exists_journey {found : Search.Found} (attested : query.Attested rates time found)
    {destination : DestinationArrival} (hMem : destination ∈ found.destinations) :
    ∃ journey, Journey.ofDestination found.arrivals query.direction destination = .ok journey ∧
      journey.cost = rates.legsCost journey.legs := by
  cases attested.destinations destination hMem with
  | @egress id source leg hSource hRide hLeg hStop =>
      obtain ⟨rest, hChain, hSound, hCost⟩ := attested.exists_chain hSource
      rw [Journey.ofDestination]
      simp only [hChain, hSound]
      refine ⟨_, rfl, ?_⟩
      simp only [Journey.ofLegs]
      rw [Journey.legsOf_eq, List.map_cons, CostRates.legsCost_travelOrder, Int.add_assoc,
        cost_egress query.direction rfl, hCost, List.map_cons]

end Query

variable {draft : Draft} {network : Network} {times : Array StopTime} {query : Query}
  {day : DayTimetable} {config : SearchConfig} {planner : Search.Planner} {run : Search.Run}
  {time : Int} {watch : Stopwatch}

/-- Whatever stands in place of the stop times of a network that was built, the journeys of a
completed run can be read off, and each costs what its legs and the waits between them do. -/
theorem Search.Planner.journeys_cost_their_legs (hBuild : draft.build = .ok network)
    (hSize : times.size = network.stopTimes.size)
    (hTimes : query.network = network.withTimes times)
    (hDay : query.network.onDate query.date query.modes = .ok day)
    (hPlanner : Planner.ofRequest day query.request config = .ok planner)
    (hNetwork : query.network.Modest) (hRequest : query.request.Modest)
    (hTime : Clock.Within Clock.modest time) (hRun : planner.run time watch = .ok run) :
    ∃ journeys, run.journeys = .ok journeys ∧
      ∀ journey ∈ journeys, journey.cost = config.cost.legsCost journey.legs := by
  have linked : query.network.Linked :=
    hTimes ▸ (Network.Sound.of_build hBuild).toLinked.withTimes hSize
  have hYields := Planner.run_yields_attested linked hDay hPlanner hNetwork hRequest
    (Clock.Within.double hTime) watch
  rw [hRun] at hYields
  obtain ⟨hDirection, attested⟩ := hYields
  obtain ⟨journeys, hJourneys, hMem⟩ := exists_ofDestinations fun destination hDestination =>
    (attested.exists_journey hDestination).imp fun _ h => h.1
  refine ⟨journeys, by rw [Run.journeys, hDirection, hJourneys], fun journey hJourney => ?_⟩
  obtain ⟨destination, hDestination, hOf⟩ := (hMem journey).mp hJourney
  obtain ⟨other, hOther, hCost⟩ := attested.exists_journey hDestination
  rw [hOf, Except.ok.injEq] at hOther
  exact hOther ▸ hCost

/-- The journey by the slow bus after its times were replaced, with ten seconds of waiting. -/
def derailedJourney : Journey :=
  .ofLegs [.access 0 (-60) 0, .transit 0 2 10 2000 2 0, .egress 2 2000 2030] 224000

/-- The run is cut off before the trip that goes back in time would make it fail. -/
theorem Search.Planner.journeys_cost_their_legs_derailed :
    ∃ day planner run,
      Query.derailed.network.onDate Query.derailed.date Query.derailed.modes = .ok day ∧
      Planner.ofRequest day Query.derailed.request SearchConfig.shuttle = .ok planner ∧
      planner.run (-60) (.ofPlace 1) = .ok run ∧ run.termination = .deadline ∧
      run.journeys = .ok [derailedJourney] ∧
      derailedJourney.cost = CostRates.standard.legsCost derailedJourney.legs := by
  obtain ⟨day, planner, hDay, hPlanner, run, hRun, hFound⟩ : ∃ day planner,
      Query.derailed.network.onDate Query.derailed.date Query.derailed.modes = .ok day ∧
      Planner.ofRequest day Query.derailed.request SearchConfig.shuttle = .ok planner ∧
      ∃ run, planner.run (-60) (.ofPlace 1) = .ok run ∧
        decide (run.termination = .deadline ∧ run.journeys = .ok [derailedJourney]) = true :=
    ⟨_, _, rfl, Planner.ofRequest_eq_ok_iff.mpr ⟨Query.valid_hurried, rfl⟩,
      Planner.exists_run_of_any (by decide +kernel)⟩
  obtain ⟨journeys, hJourneys, hCost⟩ := @Search.Planner.journeys_cost_their_legs Draft.connection
    Query.hurried.network _ Query.derailed _ SearchConfig.shuttle _ _ (-60) _
    Draft.build_connection (by decide +kernel) rfl hDay hPlanner Network.modest_derailed
    Query.modest_hurried ⟨by decide, by decide⟩ hRun
  obtain ⟨hDeadline, hOnly⟩ := of_decide_eq_true hFound
  rw [hOnly, Except.ok.injEq] at hJourneys
  exact ⟨day, planner, run, hDay, hPlanner, hRun, hDeadline, hOnly,
    hCost _ (hJourneys ▸ List.mem_singleton_self _)⟩

end JourneyPlanner
