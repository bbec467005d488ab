import JourneyPlanner.Proofs.Search.Closure
import JourneyPlanner.Proofs.Search.Trail

/-! What it means that a run is exact: each way to the destination it found is a journey, and each
journey ends no better than some way it found. Main statements: what was found then has the
best time for every bound on the rounds, and a run that has missed nothing is exact. -/
namespace JourneyPlanner

namespace Search

namespace Found

def IsBest (found : Found) (direction : Direction) (rounds : Nat) (finish : Int) : Prop :=
  (∃ destination ∈ found.destinations, destination.round ≤ rounds ∧ destination.time = finish) ∧
    ∀ destination ∈ found.destinations, destination.round ≤ rounds →
      direction.isBetter destination.time finish = false

/-- What was found are journeys, and no journey of so many rounds is better than what was found. -/
structure Exact (found : Found) (query : Query) (time : Int) (rounds : Nat) : Prop where
  ends : ∀ destination ∈ found.destinations, 0 < destination.round ∧ destination.round ≤ rounds ∧
    query.Ends time destination.round destination.time
  ended : ∀ {round finish}, query.Ends time round finish → round ≤ rounds →
    found.Ended query.direction round (query.direction.timeCriterion finish)

variable {found : Found} {query : Query} {time : Int} {rounds : Nat}

/-- The best time found is the best time of a journey, for every bound on the rounds. -/
theorem Exact.isBest_iff (exact : found.Exact query time rounds) {bound : Nat}
    (hBound : bound ≤ rounds) {finish : Int} :
    found.IsBest query.direction bound finish ↔ query.IsBest time bound finish := by
  constructor
  · rintro ⟨⟨destination, hMem, hRound, rfl⟩, hBest⟩
    refine ⟨⟨destination.round, hRound, (exact.ends destination hMem).2.2⟩, ?_⟩
    intro round hLe other hEnds
    obtain ⟨better, hBetter, hBetterRound, hTime⟩ := exact.ended hEnds (hLe.trans hBound)
    have hLeast := hBest better hBetter (hBetterRound.trans hLe)
    rw [Direction.isBetter_eq_false_iff] at hLeast ⊢
    omega
  · rintro ⟨⟨round, hLe, hEnds⟩, hBest⟩
    have hNoneBetter : ∀ destination ∈ found.destinations, destination.round ≤ bound →
        query.direction.isBetter destination.time finish = false := fun destination hMem hRound =>
      hBest destination.round hRound _ (exact.ends destination hMem).2.2
    obtain ⟨destination, hMem, hRound, hTime⟩ := exact.ended hEnds (hLe.trans hBound)
    have hLeast := hNoneBetter destination hMem (hRound.trans hLe)
    rw [Direction.isBetter_eq_false_iff] at hLeast
    exact ⟨⟨destination, hMem, hRound.trans hLe,
      Direction.timeCriterion_injective (Int.le_antisymm hTime hLeast)⟩, hNoneBetter⟩

/-- Nothing was found in so many rounds exactly if there is no journey of so many. -/
theorem Exact.none_iff (exact : found.Exact query time rounds) {bound : Nat}
    (hBound : bound ≤ rounds) :
    (∀ destination ∈ found.destinations, bound < destination.round) ↔
      ∀ round ≤ bound, ∀ finish, ¬ query.Ends time round finish := by
  constructor
  · intro hNone round hLe finish hEnds
    obtain ⟨destination, hMem, hRound, -⟩ := exact.ended hEnds (hLe.trans hBound)
    have := hNone destination hMem
    omega
  · intro hNone destination hMem
    refine Nat.lt_of_not_le fun hLe => ?_
    exact hNone _ hLe _ (exact.ends destination hMem).2.2

variable {problem : Problem}

/-- What is known of the records of a completed run, whatever the strategy. -/
structure Complete (found : Found) (problem : Problem) (time : Int) (rounds : Nat) : Prop where
  records : Records problem time found.arrivals
  round_le : ∀ arrival ∈ found.arrivals.toList, arrival.round ≤ rounds
  finishes : ∀ destination ∈ found.destinations, problem.Finishes found.arrivals destination

/-- No journey of a completed run takes more rounds than the run made. -/
theorem Complete.round_le_of_mem (complete : found.Complete problem time rounds)
    {destination : DestinationArrival} (hMem : destination ∈ found.destinations) :
    destination.round ≤ rounds := by
  cases complete.finishes destination hMem with
  | egress hSource hRide hLeg => exact complete.round_le _ (Arrivals.mem_toList_of_get? hSource)

/-- A completed run that has missed nothing is exact. -/
theorem Complete.exact (complete : found.Complete problem time rounds)
    (closed : problem.Closed time rounds found) (posed : query.Posed problem)
    (sound : query.network.Sound) (hSlack : 0 ≤ query.request.boardSlack)
    (regular : problem.Regular time) (hRounds : rounds ≤ Request.maxSupportedTransfers + 1) :
    found.Exact query time rounds := by
  constructor
  · intro destination hMem
    have hFinishes := complete.finishes destination hMem
    have hRound := complete.round_le_of_mem hMem
    obtain ⟨source, rest, ending, -⟩ := complete.records.exists_ending regular.modest regular.time
      posed sound hFinishes (hRound.trans hRounds)
    refine ⟨?_, hRound, ending.ends⟩
    cases hFinishes with
    | egress hSource hRide hLeg =>
        exact complete.records.round_pos_of_isTransit (Arrivals.mem_toList_of_get? hSource) hRide
  · intro round finish hEnds hLe
    exact posed.direction ▸ closed.ended posed sound hSlack regular.legs hEnds hLe

end Found

/-- The problem of a modest, valid request on a network that was built is regular. -/
theorem Problem.regular_ofRequest {query : Query} {day : DayTimetable} {config : SearchConfig}
    {time : Int} (sound : query.network.Sound)
    (hDay : query.network.onDate query.date query.modes = .ok day)
    (valid : query.request.Valid day.numStops config) (hNetwork : query.network.Modest)
    (hRequest : query.request.Modest) (hTime : Clock.Within (2 * Clock.modest) time) :
    (Problem.ofRequest day query.request config).Regular time := by
  have posed := Query.posed_ofRequest hDay config
  exact ⟨posed.network ▸ sound, posed.knownLegs valid, posed.modest hNetwork hRequest, hTime⟩

/-- So is the problem of a search set up for such a request, and its rounds are those asked for. -/
theorem Planner.regular_ofRequest {query : Query} {day : DayTimetable} {config : SearchConfig}
    {planner : Planner} {time : Int} (sound : query.network.Sound)
    (hDay : query.network.onDate query.date query.modes = .ok day)
    (hPlanner : Planner.ofRequest day query.request config = .ok planner)
    (hNetwork : query.network.Modest) (hRequest : query.request.Modest)
    (hTime : Clock.Within (2 * Clock.modest) time) :
    planner.problem.Regular time ∧ planner.maxRounds = query.request.maxTransfers + 1 ∧
      planner.maxRounds ≤ Request.maxSupportedTransfers + 1 := by
  obtain ⟨valid, rfl⟩ := Planner.ofRequest_eq_ok_iff.mp hPlanner
  have hRounds := valid.maxRounds_eq
  exact ⟨Problem.regular_ofRequest sound hDay valid hNetwork hRequest hTime, hRounds,
    hRounds ▸ Nat.succ_le_succ valid.maxTransfers_le⟩

end Search

end JourneyPlanner
