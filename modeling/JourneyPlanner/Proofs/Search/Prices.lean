import JourneyPlanner.Proofs.Pareto.Orderly
import JourneyPlanner.Proofs.Search.Records

/-! What records cost. A ride is priced when it is boarded, from a fixed origin; the differences
make up the wait, the boarding and the ride. Main statement: with modest rates the costs of a search
stay within the limits between which costs compare. -/
namespace JourneyPlanner

/-- Durations are differences of the time criterion, in either direction. -/
theorem Direction.duration_eq (direction : Direction) (start finish : Int) :
    direction.duration start finish =
      direction.timeCriterion finish - direction.timeCriterion start := by
  cases direction with
  | forward => rfl
  | reverse =>
      simp only [duration, timeCriterion]
      omega

theorem Clock.Within.mul {bound other value factor : Int} (hValue : Clock.Within bound value)
    (hFactor : Clock.Within other factor) : Clock.Within (bound * other) (value * factor) := by
  obtain ⟨hLow, hHigh⟩ := hValue
  obtain ⟨hLowFactor, hHighFactor⟩ := hFactor
  have hSame := Int.mul_nonneg (show 0 ≤ bound - value by omega) (show 0 ≤ other + factor by omega)
  have hMixed := Int.mul_nonneg (show 0 ≤ bound + value by omega) (show 0 ≤ other - factor by omega)
  have hBelow := Int.mul_nonneg (show 0 ≤ bound - value by omega) (show 0 ≤ other - factor by omega)
  have hAbove := Int.mul_nonneg (show 0 ≤ bound + value by omega) (show 0 ≤ other + factor by omega)
  simp only [Int.sub_mul, Int.mul_sub, Int.add_mul, Int.mul_add] at hSame hMixed hBelow hAbove
  constructor <;> omega

structure CostRates.Modest (rates : CostRates) : Prop where
  boardCost : Clock.Within Clock.modest rates.boardCost
  walkReluctance : Clock.Within Clock.modest rates.walkReluctance
  waitReluctance : Clock.Within Clock.modest rates.waitReluctance
  transitReluctance : Clock.Within Clock.modest rates.transitReluctance

theorem CostRates.modest_standard : CostRates.standard.Modest := by
  constructor <;> exact ⟨by decide, by decide⟩

namespace Search

variable {problem : Problem} {time : Int} {arrivals : Arrivals}

section Ride

variable {table : TripTable} {position stop id : Nat} {source : Arrival} {bound : Option Nat}
  {ride : Ride}

/-- The cost of a ride is the wait for it and the boarding, less what riding has cost up to there.
-/
theorem relativeCost_of_board?
    (h : board? problem table position stop id source bound = .ok (some ride)) :
    ride.relativeCost = source.cost +
      problem.cost.waitCost (problem.direction.timeCriterion ride.time -
        problem.direction.timeCriterion source.time) +
      problem.cost.boardingCost - problem.rideCostAt ride.time := by
  obtain ⟨trip, time, -, -, rfl⟩ := board?_eq_some_iff.mp h
  simp only [Problem.costOnBoard, Direction.duration_eq]

/-- Leaving a ride costs the wait for it, the boarding and the ride itself. -/
theorem cost_of_board? (h : board? problem table position stop id source bound = .ok (some ride))
    {round pattern target : Nat} {left : Int} :
    (ride.arrival problem round pattern target left).cost = source.cost +
      problem.cost.waitCost (problem.direction.timeCriterion ride.time -
        problem.direction.timeCriterion source.time) +
      problem.cost.boardingCost +
      problem.cost.transitCostAt (problem.direction.timeCriterion left -
        problem.direction.timeCriterion ride.time) := by
  simp only [Ride.arrival, relativeCost_of_board? h, Problem.rideCostAt, CostRates.transitCostAt,
    Int.sub_mul]
  omega

/-- Rides are got on and left at modest times. -/
theorem within_ride (modest : problem.Modest) {pattern second : Nat} {left : Int}
    (hTable : problem.day.network.tripTable pattern = .ok table)
    (hBoard : board? problem table position stop id source bound = .ok (some ride))
    (hLeft : ride.alightTime problem table second = .ok left) :
    Clock.Within Clock.modest (problem.direction.timeCriterion ride.time) ∧
      Clock.Within Clock.modest (problem.direction.timeCriterion left) := by
  obtain ⟨time, hTime, hRide⟩ := (boarded_of_board? hBoard).time
  obtain ⟨later, hLater, rfl, -⟩ := Ride.alightTime_eq_ok_iff.mp hLeft
  have hBoarded := modest.network.timeAt hTable hTime
  have hAlighted := modest.network.timeAt hTable hLater
  rw [hRide, Direction.within_timeCriterion, Direction.within_timeCriterion]
  cases problem.direction with
  | forward => exact ⟨hBoarded.2, hAlighted.1⟩
  | reverse => exact ⟨hBoarded.1, hAlighted.2⟩

end Ride

namespace Records

/-- What a step of a search can add to a cost at most. -/
def costStep : Int := 40 * Clock.modest * Clock.modest

section Modest

variable (modest : problem.Modest) (hTime : Clock.Within (2 * Clock.modest) time)
  (hRates : problem.cost.Modest)

include modest hTime hRates

/-- Every record adds no more than one step to the cost of the record it comes from. -/
theorem within_cost (records : Records problem time arrivals) {arrival : Arrival}
    (hMem : arrival ∈ arrivals.toList)
    (hRound : arrival.round ≤ Request.maxSupportedTransfers + 1) :
    Clock.Within ((arrival.round + arrival.roundOnFoot) * costStep) arrival.cost := by
  refine records.induction (P := fun arrival =>
    arrival.round ≤ Request.maxSupportedTransfers + 1 →
      Clock.Within ((arrival.round + arrival.roundOnFoot) * costStep) arrival.cost)
    ?_ arrival hMem hRound
  intro before arrival recordsBefore ih hDerives hRound
  cases hDerives with
  | @access leg hLeg =>
      have hWalk := (modest.legs leg (Or.inl hLeg)).mul hRates.walkReluctance
      have hRounds : ((problem.accessArrival time leg).round : Int) +
          (problem.accessArrival time leg).roundOnFoot = 1 := rfl
      rw [hRounds]
      simp only [Problem.accessArrival, CostRates.walkCost, Clock.Within, Clock.modest,
        costStep] at hWalk ⊢
      omega
  | @ride pattern first second id target table source bound ride left hSource hTable hActive hOrder
      hOrigin hTarget hBoard hLeft =>
      have hMem := Arrivals.mem_toList_of_get? hSource
      have hNext : source.round + 1 ≤ Request.maxSupportedTransfers + 1 := hRound
      have hSourceRound := Nat.le_of_succ_le hNext
      have hBefore := ih source hMem hSourceRound
      have hFoot := source.roundOnFoot_le
      have hStart := recordsBefore.within_time modest hTime hMem hSourceRound
      rw [← problem.direction.within_timeCriterion] at hStart
      obtain ⟨hBoarded, hAlighted⟩ := within_ride modest hTable hBoard hLeft
      have hRounds :
          ((ride.arrival problem (source.round + 1) table.pattern target left).round : Int) +
            (ride.arrival problem (source.round + 1) table.pattern target left).roundOnFoot =
              2 * source.round + 2 := by
        simp only [Ride.arrival, Arrival.roundOnFoot, Arrival.isTransit, Approach.isTransit,
          if_true]
        omega
      have hWait : Clock.Within (36 * Clock.modest)
          (problem.direction.timeCriterion ride.time -
            problem.direction.timeCriterion source.time) := by
        simp only [Clock.Within, Clock.modest, Request.maxSupportedTransfers]
          at hNext hStart hBoarded ⊢
        omega
      have hRide : Clock.Within (2 * Clock.modest)
          (problem.direction.timeCriterion left -
            problem.direction.timeCriterion ride.time) := by
        simp only [Clock.Within, Clock.modest] at hBoarded hAlighted ⊢
        omega
      have hWaitCost := hWait.mul hRates.waitReluctance
      have hRideCost := hRide.mul hRates.transitReluctance
      have hBoardCost := hRates.boardCost
      rw [hRounds, cost_of_board? hBoard]
      simp only [CostRates.waitCost, CostRates.transitCostAt, CostRates.boardingCost, Clock.Within,
        Clock.modest, costStep] at hBefore hWaitCost hRideCost hBoardCost ⊢
      omega
  | @walk id source transfer hSource hWalk =>
      have hBefore := ih source (Arrivals.mem_toList_of_get? hSource)
        (Nat.le_trans source.round_le_roundOnFoot hRound)
      have hAdded := (modest.network.transfers hWalk).mul hRates.walkReluctance
      have hFoot := source.round_le_roundOnFoot
      have hRounds : ((problem.walkArrival source.roundOnFoot id source transfer).round : Int) +
          (problem.walkArrival source.roundOnFoot id source transfer).roundOnFoot =
            2 * source.roundOnFoot + 1 := by
        simp only [Problem.walkArrival, Arrival.roundOnFoot, Arrival.isTransit, Approach.isTransit,
          Bool.false_eq_true, if_false]
        omega
      rw [hRounds]
      simp only [Problem.walkArrival, CostRates.walkCost, Clock.Within, Clock.modest,
        costStep] at hBefore hAdded ⊢
      omega

/-- So do ways to the destination, and their costs stay within the limits. -/
theorem within_cost_of_finishes (records : Records problem time arrivals)
    {destination : DestinationArrival} (hFinishes : problem.Finishes arrivals destination)
    (hRound : destination.round ≤ Request.maxSupportedTransfers + 1) :
    Criterion.lowest ≤ destination.cost ∧ destination.cost ≤ Criterion.highest := by
  cases hFinishes with
  | @egress id source leg hSource hRide hLeg =>
      have hBefore := records.within_cost modest hTime hRates (Arrivals.mem_toList_of_get? hSource)
        hRound
      have hFoot := source.roundOnFoot_le
      have hAdded := (modest.legs leg (Or.inr (Problem.mem_endLegsAt.mp hLeg).1)).mul
        hRates.walkReluctance
      simp only [Problem.destinationArrival, CostRates.walkCost, Clock.Within, Clock.modest,
        costStep, Request.maxSupportedTransfers, Criterion.lowest, Criterion.highest]
        at hRound hBefore hAdded ⊢
      omega

end Modest

end Records

end Search

end JourneyPlanner
