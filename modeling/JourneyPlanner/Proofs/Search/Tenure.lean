import JourneyPlanner.Proofs.Search.Compromises
import JourneyPlanner.Proofs.Search.MultiCriteria.Census
import JourneyPlanner.Proofs.Search.MultiCriteria.Moments

/-! How long a record stays in the front of its stop. Main statement: at every moment of a search for
the best compromises its fronts are those of its records, and what an ended round has left there, or
an arrival or a ride was made from, stays there to the end. -/
namespace JourneyPlanner.Search.MultiCriteria

namespace Doing

def rides : Doing → List Ride
  | recording _ (.ride riding _ _) => riding.rides.items
  | passing riding => riding.rides.items
  | boarding riding rest => riding.rides.items ++ rest
  | _ => []

def Underway : Doing → Prop
  | recording _ .start => False
  | ending _ => False
  | _ => True

/-- Nothing still to be recorded in the round can be better than a record. Walks are not compared
with rides, and after them nothing is recorded. -/
def Spares : Doing → Arrival → Prop
  | recording _ .walk, arrival => arrival.isTransit = true
  | ending _, _ => True
  | _, _ => False

end Doing

namespace Moment

def HasEnded (moment : Moment) (round : Nat) : Prop :=
  round < moment.state.round ∨ round = moment.state.round ∧ moment.doing = .ending []

/-- A record is made use of: an arrival or a ride has been made from it. -/
inductive Uses (moment : Moment) (id : Nat) : Prop where
  | record {arrival : Arrival} (hMem : arrival ∈ moment.state.arrivals.toList)
      (hPredecessor : arrival.predecessor = some id)
  | pending {arrival : Arrival} (hMem : arrival ∈ moment.doing.pending)
      (hPredecessor : arrival.predecessor = some id)
  | ride {ride : Ride} (hMem : ride ∈ moment.doing.rides) (hPredecessor : ride.predecessor = id)

/-- A record holds its place in the front of its stop, and nothing that comes can take it. -/
structure Secures (problem : Problem) (moment : Moment) (id : Nat) (arrival : Arrival) : Prop where
  found : moment.state.arrivals.get? id = some arrival
  undominated : Undominated problem.direction moment.state.arrivals arrival
  spared : arrival.round < moment.state.round ∨ moment.doing.Spares arrival

/-- What holds between any two operations. -/
structure Orderly (problem : Problem) (moment : Moment) : Prop where
  census : moment.state.Census problem
  round_pos : moment.doing.Underway → 0 < moment.state.round
  pending_round : ∀ arrival ∈ moment.doing.pending, arrival.round = moment.state.round
  pending_walk : ∀ rest, moment.doing = .recording rest .walk →
    ∀ arrival ∈ rest, arrival.isTransit = false
  secures : ∀ id, moment.Uses id → ∃ arrival, moment.Secures problem id arrival

end Moment

variable {planner : Planner} {problem : Problem} {moment next later : Moment} {state : State}
  {arrival other : Arrival} {id : Nat}

theorem State.arrivals_offerDestination (problem : Problem) (state : State)
    (destination : DestinationArrival) :
    (state.offerDestination problem destination).arrivals = state.arrivals := by
  unfold offerDestination
  split <;> rfl

/-- An arrival of a later round is not better, and neither is a walk better than a ride. -/
theorem not_dominates_of_spared (direction : Direction) {doing : Doing} {round : Nat}
    (hRound : arrival.round = round)
    (hWalk : doing.Spares other → other.isTransit = true ∧ arrival.isTransit = false)
    (spared : other.round < round ∨ doing.Spares other) :
    stopRules.dominates (stopCriteria direction arrival) (stopCriteria direction other) = false := by
  refine Bool.eq_false_iff.mpr fun h => ?_
  obtain ⟨-, hLe, -, hSame⟩ := covers_stopCriteria_iff.mp (Rules.covers_of_dominates h)
  rcases spared with hLt | hSpared
  · omega
  · obtain ⟨hRide, hFoot⟩ := hWalk hSpared
    rw [hRide, hFoot] at hSame
    cases hSame

/-- Whatever the next operation is, a record that holds its place goes on to hold it. -/
theorem Step.secures (step : Step planner moment next) (orderly : moment.Orderly planner.problem)
    (secures : moment.Secures planner.problem id arrival) :
    next.Secures planner.problem id arrival := by
  obtain ⟨hFound, hBest, hSpared⟩ := secures
  cases step with
  | @record new rest cause state hStop =>
      have hNot := not_dominates_of_spared planner.problem.direction
        (orderly.pending_round new (List.mem_cons_self ..))
        (fun hSpares => by
          cases cause with
          | walk => exact ⟨hSpares, orderly.pending_walk _ rfl new (List.mem_cons_self ..)⟩
          | start => exact hSpares.elim
          | ride => exact hSpares.elim) hSpared
      refine ⟨?_, hBest.add hNot, ?_⟩
      · rcases state.add_eq_or planner.problem new with hSame | ⟨front, -, hAdd⟩
        · rwa [hSame]
        · rw [hAdd]
          exact Arrivals.extends_push _ _ _ _ hFound
      · rw [State.round_add]
        exact hSpared.imp_right fun hSpares => by cases cause <;> exact hSpares
  | started => exact ⟨hFound, hBest, Or.inr trivial⟩
  | turn =>
      have hLe := orderly.census.round_le arrival (Arrivals.mem_toList_of_get? hFound)
      exact ⟨hFound, hBest, Or.inl (Nat.lt_succ_of_le hLe)⟩
  | scan | leave | board | keepUp | goOn | arrive | walk =>
      exact ⟨hFound, hBest, Or.inl (hSpared.resolve_right fun h => h)⟩
  | finish => exact ⟨hFound, hBest, Or.inr trivial⟩
  | @reach destination rest state =>
      refine ⟨?_, ?_, Or.inr trivial⟩
      · exact (State.arrivals_offerDestination ..).symm ▸ hFound
      · exact (State.arrivals_offerDestination ..).symm ▸ hBest

/-- A record is kept of the round from which rides start, which is over. -/
theorem Moment.exists_secures_of_board {riding : Riding} {position stop : Nat} {boarded : List Ride}
    {doing : Doing} (census : state.Census problem) (hRound : 0 < state.round)
    (hBoarded : state.boardingsAt problem riding.table position stop = .ok boarded) {ride : Ride}
    (hRide : ride ∈ boarded) :
    ∃ arrival, Moment.Secures problem ⟨doing, state⟩ ride.predecessor arrival := by
  unfold State.boardingsAt at hBoarded
  split at hBoarded
  · obtain ⟨source, hSource, hBoard⟩ := (mem_of_boardings hBoarded).mp hRide
    obtain ⟨hFound, hBefore, hBest⟩ := census.of_mem_arrivalsAt hSource
    rw [(boarded_of_board? hBoard).predecessor_eq]
    exact ⟨source.2, hFound, hBest, Or.inl (show source.2.round < state.round by omega)⟩
  · cases hBoarded
    cases hRide

/-- Walks start from rides, or from places on foot of the round before. -/
theorem Moment.exists_secures_of_walk {rest : List Arrival} (census : state.Census problem)
    (hRound : 0 < state.round) (hMem : arrival ∈ walkOffers problem state)
    (hPredecessor : arrival.predecessor = some id) :
    ∃ source, Moment.Secures problem ⟨.recording rest .walk, state⟩ id source := by
  obtain ⟨source, hSource, hWalk⟩ := List.mem_flatMap.mp hMem
  obtain ⟨transfer, -, rfl⟩ := List.mem_map.mp hWalk
  cases hPredecessor
  rcases List.mem_append.mp hSource with hRide | hFoot
  · obtain ⟨stop, -, hAt⟩ := List.mem_flatMap.mp hRide
    obtain ⟨hAt, hTransit⟩ := List.mem_filter.mp hAt
    obtain ⟨hFound, -, hBest⟩ := census.of_mem_arrivalsAt hAt
    exact ⟨source.2, hFound, hBest, Or.inr hTransit⟩
  · obtain ⟨stop, -, hAt⟩ := List.mem_flatMap.mp hFoot
    obtain ⟨hFound, hBefore, hBest⟩ := census.of_mem_arrivalsAt (List.mem_filter.mp hAt).1
    exact ⟨source.2, hFound, hBest, Or.inl (show source.2.round < state.round by omega)⟩

/-- What is made use of was so before, or is a record that holds its place. -/
theorem Step.uses (step : Step planner moment next) (orderly : moment.Orderly planner.problem)
    (uses : next.Uses id) :
    moment.Uses id ∨ ∃ arrival, next.Secures planner.problem id arrival := by
  cases step with
  | @record new rest cause state hStop =>
      left
      cases uses with
      | record hMem hPredecessor =>
          rcases State.mem_of_mem_add hMem with hBefore | rfl
          · exact .record hBefore hPredecessor
          · exact .pending (List.mem_cons_self ..) hPredecessor
      | pending hMem hPredecessor => exact .pending (List.mem_cons_of_mem _ hMem) hPredecessor
      | ride hMem hPredecessor =>
          refine .ride ?_ hPredecessor
          cases cause <;> exact hMem
  | started | turn | scan | arrive | finish =>
      cases uses with
      | record hMem hPredecessor => exact Or.inl (.record hMem hPredecessor)
      | pending hMem => cases hMem
      | ride hMem => cases hMem
  | leave hStop hArrivals =>
      left
      cases uses with
      | record hMem hPredecessor => exact .record hMem hPredecessor
      | pending hMem hPredecessor =>
          obtain ⟨ride, hRide, left, -, rfl⟩ := (mem_of_alightings hArrivals).mp hMem
          exact .ride hRide (Option.some.inj hPredecessor)
      | ride hMem hPredecessor => exact .ride hMem hPredecessor
  | board hBoarded =>
      cases uses with
      | record hMem hPredecessor => exact Or.inl (.record hMem hPredecessor)
      | pending hMem => cases hMem
      | ride hMem hPredecessor =>
          rcases List.mem_append.mp hMem with hBefore | hNew
          · exact Or.inl (.ride hBefore hPredecessor)
          · exact Or.inr (hPredecessor ▸ Moment.exists_secures_of_board orderly.census
              (orderly.round_pos trivial) hBoarded hNew)
  | @keepUp riding ride rest state =>
      left
      cases uses with
      | record hMem hPredecessor => exact .record hMem hPredecessor
      | pending hMem => cases hMem
      | ride hMem hPredecessor =>
          refine .ride ?_ hPredecessor
          rcases List.mem_append.mp hMem with hOn | hRest
          · obtain ⟨entry, hEntry, rfl⟩ := List.mem_map.mp hOn
            rcases Front.mem_of_mem_offer hEntry with hBefore | rfl
            · exact List.mem_append_left _ (List.mem_map_of_mem hBefore)
            · exact List.mem_append_right _ (List.mem_cons_self ..)
          · exact List.mem_append_right _ (List.mem_cons_of_mem _ hRest)
  | goOn =>
      left
      cases uses with
      | record hMem hPredecessor => exact .record hMem hPredecessor
      | pending hMem => cases hMem
      | ride hMem hPredecessor => exact .ride (List.mem_append_left _ hMem) hPredecessor
  | walk =>
      cases uses with
      | record hMem hPredecessor => exact Or.inl (.record hMem hPredecessor)
      | pending hMem hPredecessor =>
          exact Or.inr (Moment.exists_secures_of_walk orderly.census
            (orderly.round_pos trivial) hMem hPredecessor)
      | ride hMem => cases hMem
  | reach =>
      cases uses with
      | record hMem hPredecessor =>
          exact Or.inl (.record (State.arrivals_offerDestination .. ▸ hMem) hPredecessor)
      | pending hMem => cases hMem
      | ride hMem => cases hMem

theorem Moment.orderly_first (planner : Planner) (time : Int) :
    (Moment.first planner time).Orderly planner.problem := by
  have hStart : ∀ arrival ∈ (Moment.first planner time).doing.pending,
      arrival.round = 0 ∧ arrival.predecessor = none := by
    intro arrival hMem
    obtain ⟨leg, -, rfl⟩ := List.mem_map.mp hMem
    exact ⟨rfl, rfl⟩
  refine ⟨.initial _, fun h => h.elim, fun arrival hMem => (hStart arrival hMem).1,
    (fun _ hWalk => by cases hWalk), fun id uses => ?_⟩
  cases uses with
  | record hMem => cases hMem
  | pending hMem hPredecessor =>
      rw [(hStart _ hMem).2] at hPredecessor
      cases hPredecessor
  | ride hMem => cases hMem

/-- Every operation keeps the fronts and marks in step with the records. -/
theorem Step.census (step : Step planner moment next) (orderly : moment.Orderly planner.problem) :
    next.state.Census planner.problem := by
  cases step with
  | record hStop =>
      exact orderly.census.add hStop (orderly.pending_round _ (List.mem_cons_self ..))
  | turn => exact orderly.census.beginRound
  | reach => exact orderly.census.offerDestination _
  | started | scan | leave | board | keepUp | goOn | arrive | walk | finish =>
      exact orderly.census

/-- Every operation keeps things in order. -/
theorem Step.orderly (step : Step planner moment next) (orderly : moment.Orderly planner.problem) :
    next.Orderly planner.problem := by
  have hSecures : ∀ id, next.Uses id → ∃ arrival, next.Secures planner.problem id arrival := by
    intro id uses
    rcases step.uses orderly uses with hBefore | hNew
    · obtain ⟨arrival, secures⟩ := orderly.secures id hBefore
      exact ⟨arrival, step.secures orderly secures⟩
    · exact hNew
  refine ⟨step.census orderly, ?_, ?_, ?_, hSecures⟩
  · cases step with
    | @record new rest cause state hStop =>
        rw [State.round_add]
        exact fun h => orderly.round_pos (by cases cause <;> exact h)
    | turn => exact fun _ => Nat.succ_pos _
    | started | finish | reach => exact fun h => h.elim
    | scan | leave | board | keepUp | goOn | arrive | walk =>
        exact fun _ => orderly.round_pos trivial
  · cases step with
    | record hStop =>
        rw [State.round_add]
        exact fun arrival hMem => orderly.pending_round arrival (List.mem_cons_of_mem _ hMem)
    | leave hStop hArrivals =>
        intro arrival hMem
        obtain ⟨ride, -, left, -, rfl⟩ := (mem_of_alightings hArrivals).mp hMem
        rfl
    | walk =>
        intro arrival hMem
        obtain ⟨source, -, hWalk⟩ := List.mem_flatMap.mp hMem
        obtain ⟨transfer, -, rfl⟩ := List.mem_map.mp hWalk
        rfl
    | started | turn | scan | board | keepUp | goOn | arrive | finish | reach =>
        exact List.forall_mem_nil _
  · cases step with
    | record hStop =>
        rintro _ ⟨⟩ arrival hMem
        exact orderly.pending_walk _ rfl arrival (List.mem_cons_of_mem _ hMem)
    | walk =>
        rintro _ ⟨⟩ arrival hMem
        obtain ⟨source, -, hWalk⟩ := List.mem_flatMap.mp hMem
        obtain ⟨transfer, -, rfl⟩ := List.mem_map.mp hWalk
        rfl
    | started | turn | scan | leave | board | keepUp | goOn | arrive | finish | reach =>
        rintro _ ⟨⟩

/-- Things are in order at every moment of a run. -/
theorem Moment.orderly_of_steps {time : Int} (steps : Steps planner (.first planner time) moment) :
    moment.Orderly planner.problem := by
  induction steps with
  | refl => exact orderly_first planner time
  | tail _ step ih => exact step.orderly ih

/-- A record that holds its place holds it from then on. -/
theorem Moment.Secures.of_steps (secures : moment.Secures planner.problem id arrival)
    (orderly : moment.Orderly planner.problem) (steps : Steps planner moment later) :
    later.Secures planner.problem id arrival := by
  have hBoth : later.Orderly planner.problem ∧ later.Secures planner.problem id arrival := by
    induction steps with
    | refl => exact ⟨orderly, secures⟩
    | tail _ step ih => exact ⟨step.orderly ih.1, step.secures ih.1 ih.2⟩
  exact hBoth.2

/-- What an ended round has left in a front holds its place. -/
theorem Moment.Orderly.secures_of_hasEnded (orderly : moment.Orderly problem) {stop : Nat}
    (hFound : moment.state.arrivals.get? id = some arrival)
    (hItem : id ∈ (moment.state.fronts.get stop).items) (hEnded : moment.HasEnded arrival.round) :
    arrival.stop = stop ∧ moment.Secures problem id arrival := by
  obtain ⟨held, hHeld, hStop, hBest⟩ := orderly.census.mem_items_iff.mp hItem
  rw [hFound, Option.some.injEq] at hHeld
  subst hHeld
  refine ⟨hStop, hFound, hBest, hEnded.imp_right fun h => ?_⟩
  rw [h.2]
  trivial

/-- A record that holds its place is in the front of its stop. -/
theorem Moment.Secures.mem_items (secures : moment.Secures problem id arrival)
    (census : moment.state.Census problem) :
    id ∈ (moment.state.fronts.get arrival.stop).items :=
  census.mem_items_iff.mpr ⟨arrival, secures.found, rfl, secures.undominated⟩

end JourneyPlanner.Search.MultiCriteria

namespace JourneyPlanner

open Search.MultiCriteria

variable {day : DayTimetable} {request : Request} {config : SearchConfig}
  {planner : Search.Planner}

/-- At every moment of a search for the best compromises, on whatever timetable, the fronts and marks
are those of its records. From then on no record leaves its front that is of a round that is over, or
from which an arrival or a ride was made. Such a moment is what a run is read from, unless it comes to
a stop that the timetable does not have. -/
theorem Search.Planner.fronts_follow_records
    (hPlanner : Planner.ofRequest day request config = .ok planner)
    (hProfile : request.profile = .multiCriteria) (time : Int) (watch : Stopwatch) :
    (∀ moment, Steps planner (.first planner time) moment →
      moment.state.Census planner.problem ∧
      ∀ later, Steps planner moment later →
        (∀ stop id arrival, id ∈ (moment.state.fronts.get stop).items →
          moment.state.arrivals.get? id = some arrival → moment.HasEnded arrival.round →
          later.state.arrivals.get? id = some arrival ∧
            id ∈ (later.state.fronts.get stop).items) ∧
        ∀ id, moment.Uses id → ∃ arrival, later.state.arrivals.get? id = some arrival ∧
          id ∈ (later.state.fronts.get arrival.stop).items) ∧
    (∃ moment, Steps planner (.first planner time) moment ∧
      (moment.Known planner → moment.Concludes (planner.run time watch))) ∧
    (day.KnowsStops → ∀ moment, Steps planner (.first planner time) moment →
      moment.Known planner) := by
  obtain ⟨valid, hFields⟩ := Planner.ofRequest_eq_ok_iff.mp hPlanner
  have hProblem : planner.problem = Problem.ofRequest day request config := by rw [hFields]
  have hDay : planner.problem.day = day := by rw [hProblem, Problem.ofRequest]
  have legs : planner.problem.KnownLegs := hProblem ▸ Problem.knownLegs_ofRequest valid
  have hRun : planner.run time watch =
      planner.runWith (strategy planner.problem) time watch := by
    rw [Planner.run, show planner.profile = .multiCriteria by rw [hFields, hProfile]]
  refine ⟨fun moment hMoment => ?_, ?_, fun knows moment hMoment =>
    known_of_steps (hDay.symm ▸ knows) legs hMoment⟩
  · have orderly := Moment.orderly_of_steps hMoment
    refine ⟨orderly.census, fun later hLater => ?_⟩
    have census := (Moment.orderly_of_steps (hMoment.trans hLater)).census
    refine ⟨fun stop id arrival hItem hFound hEnded => ?_, fun id uses => ?_⟩
    · obtain ⟨rfl, secures⟩ := orderly.secures_of_hasEnded hFound hItem hEnded
      have hHeld := secures.of_steps orderly hLater
      exact ⟨hHeld.found, hHeld.mem_items census⟩
    · obtain ⟨arrival, secures⟩ := orderly.secures id uses
      have hHeld := secures.of_steps orderly hLater
      exact ⟨arrival, hHeld.found, hHeld.mem_items census⟩
  · rw [hRun]
    by_cases safe : (Moment.first planner time).Safe planner
    · obtain ⟨moment, hMoment, concludes⟩ := exists_concludes safe watch
      exact ⟨moment, hMoment, fun _ => concludes⟩
    · obtain ⟨moment, hMoment, hUnknown⟩ := not_forall₂.mp safe
      exact ⟨moment, hMoment, fun hKnown => absurd hKnown hUnknown⟩

theorem Search.Planner.fronts_follow_records_feeders :
    ∃ day planner moment,
      Query.feeders.network.onDate Query.feeders.date Query.feeders.modes = .ok day ∧
      Planner.ofRequest day Query.feeders.request SearchConfig.shuttle = .ok planner ∧
      Steps planner (.first planner 0) moment ∧ moment.Concludes (planner.run 0) ∧
      moment.state.Census planner.problem := by
  obtain ⟨day, hDay⟩ : ∃ day,
      Query.feeders.network.onDate Query.feeders.date Query.feeders.modes = .ok day := ⟨_, rfl⟩
  have hNetwork := DayTimetable.network_onDate hDay
  have hStops : day.numStops = 4 := by
    rw [DayTimetable.numStops, hNetwork]
    rfl
  have hPlanner := Planner.ofRequest_eq_ok_iff.mpr ⟨hStops ▸ Query.valid_feeders, rfl⟩
  obtain ⟨hMoments, ⟨moment, hMoment, concludes⟩, hKnown⟩ :=
    Search.Planner.fronts_follow_records hPlanner rfl 0 .stopped
  have linked : day.network.Linked :=
    hNetwork ▸ (Network.Sound.of_build Draft.build_feeders).toLinked
  exact ⟨day, _, moment, hDay, hPlanner, hMoment, concludes (hKnown linked.knowsStops _ hMoment),
    (hMoments moment hMoment).1⟩

end JourneyPlanner
