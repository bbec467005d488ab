import JourneyPlanner.Proofs.Circles.MultiCriteria
import JourneyPlanner.Proofs.Circles.Standard
import JourneyPlanner.Proofs.Search.Compromises
import JourneyPlanner.Proofs.Search.Progress
import JourneyPlanner.Proofs.Search.Runs
import Mathlib.Data.List.Perm.Subperm
import Mathlib.Data.List.ProdSigma

/-! Whether a search goes in circles. Nothing looks for circles, but a record that came back to a stop
would be no better than the one with which it was there before. Main statement: on the way to a
record each stop is reached by transit once at most and on foot once at most. -/
namespace JourneyPlanner

/-- There are at most two records for each stop if no two reached one in the same manner. -/
theorem Arrival.length_le_of_apart {chain : List Arrival} {numStops : Nat}
    (hStops : ∀ arrival ∈ chain, arrival.stop < numStops)
    (hApart : chain.Pairwise fun later earlier =>
      later.stop = earlier.stop → later.isTransit ≠ earlier.isTransit) :
    chain.length ≤ 2 * numStops := by
  have hNodup : (chain.map fun arrival => (arrival.stop, arrival.isTransit)).Nodup := by
    refine List.pairwise_map.mpr (hApart.imp fun {later earlier} hManners hSame => ?_)
    obtain ⟨hStop, hManner⟩ := Prod.mk.inj hSame
    exact hManners hStop hManner
  have hPlaces : (chain.map fun arrival => (arrival.stop, arrival.isTransit)) ⊆
      List.range numStops ×ˢ [false, true] := by
    intro place hPlace
    obtain ⟨arrival, hArrival, rfl⟩ := List.mem_map.mp hPlace
    exact List.mem_product.mpr ⟨List.mem_range.mpr (hStops arrival hArrival), by simp⟩
  have hLength := (List.Nodup.subperm hNodup hPlaces).length_le
  rw [List.length_map, List.length_product, List.length_range] at hLength
  exact Nat.mul_comm .. ▸ hLength

/-- What holds of any earlier and any later record holds along every chain. -/
theorem Arrivals.pairwise_chain {arrivals : Arrivals} {relation : Arrival → Arrival → Prop}
    (h : arrivals.toList.Pairwise relation) (id : Nat) :
    (arrivals.chain id).Pairwise fun later earlier => relation earlier later :=
  List.pairwise_reverse.mp
    (h.sublist ((arrivals.reverse_chain_sublist id).trans (List.take_sublist ..)))

namespace Search

section Records

variable {problem : Problem} {time : Int} {arrivals : Arrivals}

/-- A search that records nothing that is covered by an earlier record of its stop does not come back
to a stop in the same manner. -/
theorem Records.isTransit_ne_of_fresh (records : Records problem time arrivals)
    (regular : problem.Regular time) (hSlack : 0 ≤ problem.boardSlack)
    (hRounds : ∀ arrival ∈ arrivals.toList, arrival.round ≤ Request.maxSupportedTransfers + 1)
    (hRates : problem.cost.Nonneg) (fresh : MultiCriteria.Fresh problem.direction arrivals)
    (id : Nat) :
    (arrivals.chain id).Pairwise fun later earlier =>
      later.stop = earlier.stop → later.isTransit ≠ earlier.isTransit := by
  have hAdvances := records.chain_advances regular hSlack hRounds id
  refine hAdvances.imp₂ (fun later earlier advances hNew hStop hManner => ?_)
    (Arrivals.pairwise_chain fresh id)
  have hCovers := MultiCriteria.covers_stopCriteria_iff.mpr
    ⟨advances.time, advances.round, advances.cost hRates, hManner.symm⟩
  rw [hNew hStop] at hCovers
  cases hCovers

/-- A search each of whose records improves on the earlier ones comes back to a stop only with the
first ride there. -/
theorem Records.isTransit_of_improving (records : Records problem time arrivals)
    (regular : problem.Regular time) (hSlack : 0 ≤ problem.boardSlack)
    (hRounds : ∀ arrival ∈ arrivals.toList, arrival.round ≤ Request.maxSupportedTransfers + 1)
    (improving : arrivals.toList.Pairwise (Standard.Improves problem.direction)) (id : Nat) :
    (arrivals.chain id).Pairwise fun later earlier =>
      later.stop = earlier.stop → earlier.isTransit = false ∧ later.isTransit = true := by
  have hAdvances := records.chain_advances regular hSlack hRounds id
  refine hAdvances.imp₂ (fun later earlier advances hImproves hStop => ?_)
    (Arrivals.pairwise_chain improving id)
  have hNot : ¬ (later.isTransit = true → earlier.isTransit = true) := fun hRides =>
    absurd advances.time (Int.not_le.mpr (hImproves hStop hRides))
  cases hEarlier : earlier.isTransit <;> cases hLater : later.isTransit <;>
    simp [hEarlier, hLater] at hNot ⊢

end Records

variable {draft : Draft} {query : Query} {day : DayTimetable} {config : SearchConfig}
  {planner : Planner} {time : Int} {watch : Stopwatch} {run : Run}

/-- However early the watch stops it, a MultiCriteria run leaves fresh records. -/
theorem Planner.fresh_of_run (regular : planner.problem.Regular time)
    (hProfile : planner.profile = .multiCriteria) (hRun : planner.run time watch = .ok run) :
    MultiCriteria.Fresh planner.problem.direction run.found.arrivals := by
  rw [Planner.run, hProfile] at hRun
  obtain ⟨other, hOther, fresh⟩ :=
    MultiCriteria.exists_run_fresh time watch regular.sound regular.legs
  rw [hOther, Except.ok.injEq] at hRun
  exact hRun ▸ fresh

/-- However early the watch stops it, a Standard run only records improvements. -/
theorem Planner.improving_of_run (regular : planner.problem.Regular time)
    (hProfile : planner.profile ≠ .multiCriteria) (hRun : planner.run time watch = .ok run) :
    run.found.arrivals.toList.Pairwise (Standard.Improves planner.problem.direction) := by
  have hStandard : planner.runWith (Standard.strategy planner.problem) time watch = .ok run := by
    rw [Planner.run] at hRun
    cases hCase : planner.profile with
    | multiCriteria => exact absurd hCase hProfile
    | standard => simpa only [hCase] using hRun
    | bestTime => simpa only [hCase] using hRun
  exact Standard.improving_of_run regular.sound.toLinked regular.legs hStandard

/-- On the way to a record no stop is reached twice by transit or twice on foot, so the way is no
longer than two records for each stop; and a search for the best time comes back to a stop only by
transit, after it was there on foot. -/
theorem Planner.chains_do_not_circle (hBuild : draft.build = .ok query.network)
    (hDay : query.network.onDate query.date query.modes = .ok day)
    (hPlanner : Planner.ofRequest day query.request config = .ok planner)
    (hSlack : 0 ≤ query.request.boardSlack)
    (hRates : query.request.profile = .multiCriteria → config.cost.Nonneg)
    (hNetwork : query.network.Modest) (hRequest : query.request.Modest)
    (hTime : Clock.Within Clock.modest time) (watch : Stopwatch) :
    ∃ run, planner.run time watch = .ok run ∧ ∀ id,
      ((run.found.arrivals.chain id).Pairwise fun later earlier =>
        later.stop = earlier.stop → later.isTransit ≠ earlier.isTransit) ∧
      (run.found.arrivals.chain id).length ≤ 2 * query.network.numStops ∧
      (query.request.profile ≠ .multiCriteria →
        (run.found.arrivals.chain id).Pairwise fun later earlier =>
          later.stop = earlier.stop → earlier.isTransit = false ∧ later.isTransit = true) := by
  obtain ⟨regular, -, hTransfers⟩ := Planner.regular_ofRequest (.of_build hBuild) hDay hPlanner
    hNetwork hRequest hTime.double
  obtain ⟨run, hRun, -, complete, -, -⟩ := Planner.exists_run regular hTransfers watch
  obtain ⟨-, rfl⟩ := Planner.ofRequest_eq_ok_iff.mp hPlanner
  have posed := Query.posed_ofRequest hDay config
  have hRounds := fun arrival hMem => (complete.round_le arrival hMem).trans hTransfers
  have hStops : ∀ id, ∀ arrival ∈ run.found.arrivals.chain id,
      arrival.stop < query.network.numStops := by
    intro id arrival hArrival
    rw [← posed.network]
    exact complete.records.induction (P := fun arrival => arrival.stop < _)
      (fun _ _ _ _ hDerives => hDerives.stop_lt regular.sound.toLinked regular.legs) arrival
      (((run.found.arrivals.reverse_chain_sublist id).trans (List.take_sublist ..)).subset
        (List.mem_reverse.mpr hArrival))
  have hFirstRide : query.request.profile ≠ .multiCriteria → ∀ id,
      (run.found.arrivals.chain id).Pairwise fun later earlier =>
        later.stop = earlier.stop → earlier.isTransit = false ∧ later.isTransit = true :=
    fun hProfile => complete.records.isTransit_of_improving regular hSlack hRounds
      (Planner.improving_of_run regular hProfile hRun)
  have hApart : ∀ id, (run.found.arrivals.chain id).Pairwise fun later earlier =>
      later.stop = earlier.stop → later.isTransit ≠ earlier.isTransit := by
    intro id
    by_cases hProfile : query.request.profile = .multiCriteria
    · exact complete.records.isTransit_ne_of_fresh regular hSlack hRounds (hRates hProfile)
        (Planner.fresh_of_run regular hProfile hRun) id
    · refine (hFirstRide hProfile id).imp fun hManners hStop => ?_
      obtain ⟨hFoot, hRide⟩ := hManners hStop
      rw [hFoot, hRide]
      exact Bool.noConfusion
  exact ⟨run, hRun, fun id => ⟨hApart id, Arrival.length_le_of_apart (hStops id) (hApart id),
    fun hProfile => hFirstRide hProfile id⟩⟩

/-- With four stops, no way to a record is longer than eight records, also not in a run with a
second to make it in, where each of its rounds takes as long. -/
theorem Planner.chains_do_not_circle_feeders :
    ∃ day planner run,
      Query.feeders.network.onDate Query.feeders.date Query.feeders.modes = .ok day ∧
      Planner.ofRequest day { Query.feeders.request with timeLimit := some 1000 }
        SearchConfig.shuttle = .ok planner ∧
      planner.run 0 (.ofPlace 0) = .ok run ∧ run.termination = .deadline ∧ run.rounds = 1 ∧
      ∀ id, (run.found.arrivals.chain id).length ≤ 8 ∧
        (run.found.arrivals.chain id).Pairwise fun later earlier =>
          later.stop = earlier.stop → later.isTransit ≠ earlier.isTransit := by
  obtain ⟨day, planner, hDay, hPlanner, other, hOther, hCut⟩ : ∃ day planner,
      Query.feeders.network.onDate Query.feeders.date Query.feeders.modes = .ok day ∧
      Planner.ofRequest day { Query.feeders.request with timeLimit := some 1000 }
        SearchConfig.shuttle = .ok planner ∧
      ∃ run, planner.run 0 (.ofPlace 0) = .ok run ∧
        decide (run.termination = .deadline ∧ run.rounds = 1) = true :=
    ⟨_, _, rfl, Planner.ofRequest_eq_ok_iff.mpr ⟨{ Query.valid_feeders with }, rfl⟩,
      Planner.exists_run_of_any (by decide +kernel)⟩
  obtain ⟨run, hRun, hChains⟩ := @Planner.chains_do_not_circle Draft.feeders
    { Query.feeders with request := { Query.feeders.request with timeLimit := some 1000 } } _
    SearchConfig.shuttle _ 0 Draft.build_feeders hDay hPlanner (by decide)
    (fun _ => CostRates.nonneg_standard) Network.modest_feeders { Query.modest_feeders with }
    ⟨by decide, by decide⟩ (.ofPlace 0)
  rw [hOther, Except.ok.injEq] at hRun
  obtain ⟨hDeadline, hRounds⟩ := of_decide_eq_true hCut
  exact ⟨day, planner, other, hDay, hPlanner, hOther, hDeadline, hRounds,
    fun id => hRun ▸ ⟨(hChains id).2.1, (hChains id).1⟩⟩

end Search

end JourneyPlanner
