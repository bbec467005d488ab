import JourneyPlanner.Proofs.Search.Prices
import JourneyPlanner.Proofs.Search.Trail

/-! How a search moves on. A ride is boarded no earlier than the slack allows and left no earlier
than it was boarded, and no walk takes less than no time. Main statement: no record is earlier, of
fewer rounds or, unless time can be a gain, cheaper than any record on its way. -/
namespace JourneyPlanner

/-- Rates at which nothing that takes time is a gain. -/
structure CostRates.Nonneg (rates : CostRates) : Prop where
  boardCost : 0 ≤ rates.boardCost
  walkReluctance : 0 ≤ rates.walkReluctance
  waitReluctance : 0 ≤ rates.waitReluctance
  transitReluctance : 0 ≤ rates.transitReluctance

theorem CostRates.nonneg_standard : CostRates.standard.Nonneg := by
  constructor <;> decide

namespace Arrivals

variable {arrivals : Arrivals}

/-- The records of a chain stand among all records in the opposite order. -/
theorem reverse_chain_sublist (arrivals : Arrivals) (id : Nat) :
    (arrivals.chain id).reverse.Sublist (arrivals.toList.take (id + 1)) := by
  induction id using Nat.strongRecOn with
  | ind id ih =>
      rw [chain]
      split
      · exact List.nil_sublist _
      · rename_i arrival hArrival
        have hTake : arrivals.toList.take (id + 1) = arrivals.toList.take id ++ [arrival] := by
          rw [List.take_add_one, toList, Array.getElem?_toList, show arrivals.records[id]? =
            some arrival from hArrival, Option.toList_some]
        have hAlone : [arrival].Sublist (arrivals.toList.take (id + 1)) :=
          hTake ▸ List.sublist_append_right ..
        split
        · exact hAlone
        · rename_i previous hPrevious
          split
          · rename_i hLt
            rw [List.reverse_cons, hTake]
            exact ((ih previous hLt).trans (List.take_sublist_take_left hLt)).append_right _
          · exact hAlone

/-- What is true from record to record and carries on is true all along a chain. -/
theorem chain_pairwise {Along : Arrival → Arrival → Prop}
    (hTrans : ∀ first second third, Along first second → Along second third → Along first third)
    (hStep : ∀ id previous arrival source, arrivals.get? id = some arrival →
      arrival.predecessor = some previous → arrivals.get? previous = some source →
      Along source arrival) (id : Nat) :
    (arrivals.chain id).Pairwise fun later earlier => Along earlier later := by
  -- at the head of a chain stands the record asked for
  suffices h : ∀ id, ((arrivals.chain id).Pairwise fun later earlier => Along earlier later) ∧
      ∀ arrival, arrivals.get? id = some arrival →
        ∀ earlier ∈ arrivals.chain id, earlier = arrival ∨ Along earlier arrival from (h id).1
  intro id
  induction id using Nat.strongRecOn with
  | ind id ih =>
      rw [chain]
      split
      · exact ⟨List.Pairwise.nil, fun _ _ _ h => by cases h⟩
      · rename_i arrival hArrival
        have hAlone : ([arrival].Pairwise fun later earlier => Along earlier later) ∧
            ∀ other, arrivals.get? id = some other →
              ∀ earlier ∈ [arrival], earlier = other ∨ Along earlier other := by
          refine ⟨List.pairwise_singleton .., fun other hOther earlier hEarlier => Or.inl ?_⟩
          rw [hArrival, Option.some.injEq] at hOther
          exact (List.mem_singleton.mp hEarlier).trans hOther
        split
        · exact hAlone
        · rename_i previous hPrevious
          split
          · rename_i hLt
            obtain ⟨hPairwise, hHead⟩ := ih previous hLt
            have hBefore : ∀ earlier ∈ arrivals.chain previous, Along earlier arrival := by
              intro earlier hEarlier
              cases hSource : arrivals.get? previous with
              | none =>
                  rw [chain, hSource] at hEarlier
                  cases hEarlier
              | some source =>
                  have hLast := hStep id previous arrival source hArrival hPrevious hSource
                  rcases hHead source hSource earlier hEarlier with rfl | hAlong
                  · exact hLast
                  · exact hTrans _ _ _ hAlong hLast
            refine ⟨List.pairwise_cons.mpr ⟨hBefore, hPairwise⟩, fun other hOther => ?_⟩
            rw [hArrival, Option.some.injEq] at hOther
            rw [← hOther, List.forall_mem_cons]
            exact ⟨Or.inl rfl, fun earlier hEarlier => Or.inr (hBefore earlier hEarlier)⟩
          · exact hAlone

end Arrivals

namespace Search

/-- A record that is no earlier, of no fewer rounds and, unless time can be a gain, no cheaper than
another one. -/
structure Problem.Advances (problem : Problem) (source arrival : Arrival) : Prop where
  time : problem.direction.timeCriterion source.time ≤
    problem.direction.timeCriterion arrival.time
  round : source.round ≤ arrival.round
  cost : problem.cost.Nonneg → source.cost ≤ arrival.cost

/-- Progress can be chained. -/
theorem Problem.Advances.trans {problem : Problem} {first second third : Arrival}
    (hFirst : problem.Advances first second) (hSecond : problem.Advances second third) :
    problem.Advances first third :=
  ⟨Int.le_trans hFirst.time hSecond.time, Nat.le_trans hFirst.round hSecond.round,
    fun hRates => Int.le_trans (hFirst.cost hRates) (hSecond.cost hRates)⟩

namespace Records

variable {problem : Problem} {time : Int} {arrivals : Arrivals} {source : Arrival}

/-- With a slack that is not negative a ride is boarded no earlier than its source was reached. -/
theorem timeCriterion_le_of_board? (records : Records problem time arrivals)
    (regular : problem.Regular time) (hSlack : 0 ≤ problem.boardSlack)
    (hMem : source ∈ arrivals.toList)
    (hRound : source.round ≤ Request.maxSupportedTransfers + 1) {table : TripTable}
    {pattern position stop id : Nat} {bound : Option Nat} {ride : Ride}
    (hTable : problem.day.network.tripTable pattern = .ok table)
    (hPosition : position < table.numStops)
    (hBoard : board? problem table position stop id source bound = .ok (some ride)) :
    problem.direction.timeCriterion source.time ≤ problem.direction.timeCriterion ride.time := by
  have hReady := readyAfter_le_of_board? (regular.sound.table hTable) hPosition hBoard
  rw [records.readyAfter_eq_along regular.modest regular.time hMem hRound,
    Direction.timeCriterion_along] at hReady
  have hNonneg : 0 ≤ problem.slackAfter source.round := by
    unfold Problem.slackAfter
    split <;> omega
  omega

/-- A ride advances from its source to where it is left. -/
theorem advances_ride (records : Records problem time arrivals)
    (regular : problem.Regular time) (hSlack : 0 ≤ problem.boardSlack)
    (hMem : source ∈ arrivals.toList)
    (hRound : source.round ≤ Request.maxSupportedTransfers + 1) {table : TripTable}
    {pattern position stop second target id : Nat} {bound : Option Nat} {ride : Ride} {left : Int}
    (hTable : problem.day.network.tripTable pattern = .ok table)
    (hPosition : position < table.numStops)
    (hBoard : board? problem table position stop id source bound = .ok (some ride))
    (hLeft : ride.alightTime problem table second = .ok left) :
    problem.Advances source
      (ride.arrival problem (source.round + 1) table.pattern target left) := by
  have hBoarded := records.timeCriterion_le_of_board? regular hSlack hMem hRound hTable hPosition
    hBoard
  obtain ⟨-, -, -, hAlighted⟩ := Ride.alightTime_eq_ok_iff.mp hLeft
  refine ⟨Int.le_trans hBoarded hAlighted, Nat.le_succ _, fun hRates => ?_⟩
  have hWait := Int.mul_nonneg (Int.sub_nonneg_of_le hBoarded) hRates.waitReluctance
  have hRide := Int.mul_nonneg (Int.sub_nonneg_of_le hAlighted) hRates.transitReluctance
  have hBoardCost := hRates.boardCost
  rw [cost_of_board? hBoard, CostRates.waitCost, CostRates.transitCostAt, CostRates.boardingCost]
  omega

/-- A walk advances from its source to its other end. -/
theorem advances_walk (records : Records problem time arrivals) (regular : problem.Regular time)
    (hMem : source ∈ arrivals.toList)
    (hRound : source.round ≤ Request.maxSupportedTransfers + 1) {id : Nat} {transfer : Transfer}
    (hWalk : transfer ∈ problem.transfersAt source.stop) :
    problem.Advances source (problem.walkArrival source.roundOnFoot id source transfer) := by
  have hDuration := (regular.sound.transfers hWalk).2
  refine ⟨?_, source.round_le_roundOnFoot, fun hRates => ?_⟩
  · rw [Problem.walkArrival, records.plus_eq_along regular.modest regular.time hMem hRound
      (regular.modest.network.transfers hWalk), Direction.timeCriterion_along]
    omega
  · have hCost := Int.mul_nonneg hDuration hRates.walkReluctance
    simp only [Problem.walkArrival, CostRates.walkCost]
    omega

/-- Every record advances from the one it was reached from. -/
theorem advances (records : Records problem time arrivals) (regular : problem.Regular time)
    (hSlack : 0 ≤ problem.boardSlack)
    (hRounds : ∀ arrival ∈ arrivals.toList, arrival.round ≤ Request.maxSupportedTransfers + 1)
    {id previous : Nat} {arrival : Arrival} (hArrival : arrivals.get? id = some arrival)
    (hPrevious : arrival.predecessor = some previous)
    (hSource : arrivals.get? previous = some source) : problem.Advances source arrival := by
  obtain ⟨before, hExtends, -, hDerives⟩ := records.derives_of_get? hArrival
  have hMem := Arrivals.mem_toList_of_get? hSource
  have hRound := hRounds source hMem
  cases hDerives with
  | access hLeg => cases hPrevious
  | @ride pattern first second id target table origin bound ride left hOrigin hTable hActive hOrder
      hBoardStop hTarget hBoard hLeft =>
      have hSame : ride.predecessor = previous := Option.some.inj hPrevious
      rw [← hSame, (boarded_of_board? hBoard).predecessor_eq, hExtends _ _ hOrigin,
        Option.some.injEq] at hSource
      subst hSource
      exact records.advances_ride regular hSlack hMem hRound hTable
        (TripTable.lt_numStops_of_stopAt hBoardStop) hBoard hLeft
  | @walk id origin transfer hOrigin hWalk =>
      have hSame : id = previous := Option.some.inj hPrevious
      rw [← hSame, hExtends _ _ hOrigin, Option.some.injEq] at hSource
      subst hSource
      exact records.advances_walk regular hMem hRound hWalk

/-- Records advance all along a chain. -/
theorem chain_advances (records : Records problem time arrivals) (regular : problem.Regular time)
    (hSlack : 0 ≤ problem.boardSlack)
    (hRounds : ∀ arrival ∈ arrivals.toList, arrival.round ≤ Request.maxSupportedTransfers + 1)
    (id : Nat) : (arrivals.chain id).Pairwise fun later earlier => problem.Advances earlier later :=
  Arrivals.chain_pairwise (fun _ _ _ hFirst hSecond => hFirst.trans hSecond)
    (fun _ _ _ _ hArrival hPrevious hSource =>
      records.advances regular hSlack hRounds hArrival hPrevious hSource) id

end Records

end Search

end JourneyPlanner
