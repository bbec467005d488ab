import JourneyPlanner.Proofs.Extension.States

/-! Searches with more transfers. Main statement: whatever the timetable, allowing more transfers
leaves all that was found in its place, with nothing but further finds behind it, and changes nothing
at all if the search had come to an end by itself. -/
namespace JourneyPlanner

namespace Arrivals

variable {earlier later : Arrivals} {direction : Direction} {stop : Nat} {best : Int}

/-- Records that extend others list them first. -/
theorem Extends.toList (h : later.Extends earlier) : earlier.toList <+: later.toList := by
  refine List.prefix_iff_getElem?.mpr fun id hId => ?_
  have hRecord := List.getElem?_eq_getElem hId
  simp only [Arrivals.toList, Array.getElem?_toList] at hRecord ⊢
  exact h id _ hRecord

/-- More records make the best time at a stop no worse. -/
theorem exists_bestTimeAt?_of_extends (hExtends : later.Extends earlier)
    (h : earlier.bestTimeAt? direction stop = some best) :
    ∃ better, later.bestTimeAt? direction stop = some better ∧
      direction.isBetter best better = false := by
  obtain ⟨new, hNew⟩ := hExtends.toList
  rw [bestTimeAt?] at h
  rw [bestTimeAt?, ← hNew, List.filter_append, List.foldl_append, h]
  refine List.foldlRecOn (motive := fun found : Option Int => ∃ better, found = some better ∧
    direction.isBetter best better = false) _ _ ⟨best, rfl, direction.isBetter_irrefl best⟩ ?_
  rintro found ⟨better, rfl, hBetter⟩ arrival -
  dsimp only
  split
  · refine ⟨arrival.time, rfl, ?_⟩
    simp only [Direction.isBetter_eq_timeCriterion_lt, decide_eq_true_eq,
      decide_eq_false_iff_not] at *
    omega
  · exact ⟨better, rfl, hBetter⟩

end Arrivals

namespace Search.Planner

variable {day : DayTimetable} {request : Request} {config : SearchConfig} {planner other : Planner}
  {time : Int} {watch : Stopwatch} {longer : Run}

/-- A run of more rounds continues the run of fewer, whatever the profile. -/
theorem run_continuedBy {more : Nat}
    (hLonger : { planner with maxRounds := planner.maxRounds + more }.run time watch =
      .ok longer) :
    ∃ run, planner.run time watch = .ok run ∧ longer.direction = run.direction ∧
      run.direction = planner.problem.direction ∧ run.found.ContinuedBy longer.found ∧
      run.rounds ≤ planner.maxRounds ∧ longer.rounds ≤ planner.maxRounds + more ∧
      (run.termination ≠ .maxRounds → longer = run) := by
  rw [run] at hLonger ⊢
  cases hProfile : planner.profile with
  | multiCriteria =>
      simp only [hProfile] at hLonger
      exact runWith_continuedBy (MultiCriteria.State.DatedUpTo planner.problem)
        (MultiCriteria.State.datedUpTo_start planner.problem time)
        (fun _ _ _ hDated hRound => MultiCriteria.continuedBy_of_round hDated hRound) hLonger
  | standard =>
      simp only [hProfile] at hLonger
      exact runWith_continuedBy (fun _ _ => True) trivial
        (fun _ _ _ _ hRound => ⟨trivial, Standard.continuedBy_of_round hRound⟩) hLonger
  | bestTime =>
      simp only [hProfile] at hLonger
      exact runWith_continuedBy (fun _ _ => True) trivial
        (fun _ _ _ _ hRound => ⟨trivial, Standard.continuedBy_of_round hRound⟩) hLonger

/-- A request for more transfers is searched in more rounds and otherwise alike. -/
theorem ofRequest_more_transfers {more : Nat}
    (hPlanner : Planner.ofRequest day request config = .ok planner)
    (hOther : Planner.ofRequest day
      { request with maxTransfers := request.maxTransfers + more } config = .ok other) :
    other = { planner with maxRounds := planner.maxRounds + more } ∧
      planner.maxRounds = request.maxTransfers + 1 ∧
      planner.problem.direction = request.direction := by
  obtain ⟨valid, rfl⟩ := Planner.ofRequest_eq_ok_iff.mp hPlanner
  obtain ⟨otherValid, rfl⟩ := Planner.ofRequest_eq_ok_iff.mp hOther
  refine ⟨?_, valid.maxRounds_eq, rfl⟩
  rw [Planner.mk.injEq]
  refine ⟨rfl, rfl, ?_, rfl⟩
  rw [otherValid.maxRounds_eq, valid.maxRounds_eq]
  exact Nat.add_right_comm ..

/-- Allowing more transfers only continues a run: what is recorded and the ways to the destination
stay where they are, no stop is reached later, and a run that came to an end by itself is the
same. -/
theorem run_continued_by_more_transfers {more : Nat}
    (hPlanner : Planner.ofRequest day request config = .ok planner)
    (hOther : Planner.ofRequest day { request with maxTransfers := more } config = .ok other)
    (hMore : request.maxTransfers ≤ more) (hLonger : other.run time watch = .ok longer) :
    ∃ run, planner.run time watch = .ok run ∧
      run.found.arrivals.toList <+: longer.found.arrivals.toList ∧
      run.found.destinations <+: longer.found.destinations ∧
      (∀ stop best, run.bestTimeAt? stop = some best → ∃ better,
        longer.bestTimeAt? stop = some better ∧ request.direction.isBetter best better = false) ∧
      run.rounds ≤ request.maxTransfers + 1 ∧ longer.rounds ≤ more + 1 ∧
      (run.termination ≠ .maxRounds → longer = run) := by
  obtain ⟨further, rfl⟩ := Nat.exists_eq_add_of_le hMore
  obtain ⟨rfl, hRounds, hDirection⟩ := ofRequest_more_transfers hPlanner hOther
  obtain ⟨run, hRun, hSame, hAlong, hContinued, hCount, hLength, hEnded⟩ := run_continuedBy hLonger
  refine ⟨run, hRun, hContinued.arrivals.toList, hContinued.destinations, fun stop best hBest => ?_,
    by omega, by omega, hEnded⟩
  rw [Run.bestTimeAt?, hSame]
  exact hDirection ▸ hAlong ▸ Arrivals.exists_bestTimeAt?_of_extends hContinued.arrivals hBest

/-- There is only one ride on the shuttle. A search for one ride ends for want of rounds, one for
more finds in its second round that nothing is left to find. -/
theorem run_continued_by_more_transfers_shuttle :
    ∃ day planner other run longer,
      Query.shuttle.network.onDate Query.shuttle.date Query.shuttle.modes = .ok day ∧
      Planner.ofRequest day Query.shuttle.request SearchConfig.shuttle = .ok planner ∧
      Planner.ofRequest day { Query.shuttle.request with maxTransfers := 4 }
        SearchConfig.shuttle = .ok other ∧
      planner.run (-60) = .ok run ∧ other.run (-60) = .ok longer ∧ longer.rounds = 2 ∧
      run.rounds ≤ 1 ∧ run.found.arrivals.toList <+: longer.found.arrivals.toList ∧
      run.found.destinations <+: longer.found.destinations := by
  have hValid : { Query.shuttle.request with maxTransfers := 4 }.Valid 2 SearchConfig.shuttle :=
    ⟨by decide, by decide, by decide, by decide, by decide, Query.valid_shuttle.legs⟩
  obtain ⟨day, planner, other, hDay, hPlanner, hOther, longer, hLonger, hRounds⟩ :
      ∃ day planner other,
        Query.shuttle.network.onDate Query.shuttle.date Query.shuttle.modes = .ok day ∧
        Planner.ofRequest day Query.shuttle.request SearchConfig.shuttle = .ok planner ∧
        Planner.ofRequest day { Query.shuttle.request with maxTransfers := 4 }
          SearchConfig.shuttle = .ok other ∧
        ∃ longer, other.run (-60) = .ok longer ∧ decide (longer.rounds = 2) = true :=
    ⟨_, _, _, rfl, Planner.ofRequest_eq_ok_iff.mpr ⟨Query.valid_shuttle, rfl⟩,
      Planner.ofRequest_eq_ok_iff.mpr ⟨hValid, rfl⟩, Planner.exists_run_of_any (by decide +kernel)⟩
  obtain ⟨run, hRun, hArrivals, hDestinations, -, hCount, -, -⟩ :=
    run_continued_by_more_transfers hPlanner hOther (by decide) hLonger
  exact ⟨day, planner, other, run, longer, hDay, hPlanner, hOther, hRun, hLonger,
    of_decide_eq_true hRounds, hCount, hArrivals, hDestinations⟩

end Search.Planner

end JourneyPlanner
