import JourneyPlanner.Proofs.Search.MultiCriteria.Course

/-! What a search for the best compromises records is new. A front drops a record only for one that
covers it, so what an entry does not cover, no record made before does. Main statement: no record is
covered by an earlier one of its stop. -/
namespace JourneyPlanner.Search.MultiCriteria

/-- No record is covered by an earlier one of its stop. -/
def Fresh (direction : Direction) (arrivals : Arrivals) : Prop :=
  arrivals.toList.Pairwise fun earlier later => later.stop = earlier.stop →
    stopRules.covers (stopCriteria direction earlier) (stopCriteria direction later) = false

variable {problem : Problem} {time : Int} {state : State}

/-- What an earlier record covers is not recorded. -/
theorem Books.fresh_add (books : Books problem time state)
    (fresh : Fresh problem.direction state.arrivals) (arrival : Arrival) :
    Fresh problem.direction (state.add problem arrival).arrivals := by
  rcases state.add_eq_or problem arrival with hSame | ⟨front, hFront, hAdd⟩
  · rwa [hSame]
  · rw [hAdd, Fresh, Arrivals.toList_push, List.pairwise_append]
    refine ⟨fresh, List.pairwise_singleton .., fun earlier hEarlier other hOther hStop => ?_⟩
    rw [List.mem_singleton.mp hOther] at hStop ⊢
    obtain ⟨held, hHeld, hCovers⟩ := books.kept earlier hEarlier
    refine Bool.eq_false_iff.mpr fun hCovered => ?_
    have hBoth := (stopRules_entails problem.direction).trans (books.shape hHeld) ⟨earlier, rfl⟩
      ⟨arrival, rfl⟩ hCovers hCovered
    have hTurned : (state.fronts.get arrival.stop).offer? stopRules
        { item := state.arrivals.size
          criteria := stopCriteria problem.direction arrival } = none :=
      Front.offer?_eq_none_iff.mpr (List.any_eq_true.mpr ⟨held, hStop ▸ hHeld, hBoth⟩)
    rw [hTurned] at hFront
    cases hFront

/-- The arrivals offered in one phase of a round keep the records fresh. -/
theorem Books.fresh_foldl (books : Books problem time state)
    (fresh : Fresh problem.direction state.arrivals) {offers : List Arrival}
    (hOffers : ∀ arrival ∈ offers, Offered problem time state arrival) :
    Fresh problem.direction (offers.foldl (State.add problem) state).arrivals := by
  induction offers generalizing state with
  | nil => exact fresh
  | cons first rest ih =>
      obtain ⟨hFirst, hRest⟩ := List.forall_mem_cons.mp hOffers
      obtain ⟨hBooks, hSteady⟩ := books.steady_add hFirst
      exact ih hBooks (books.fresh_add fresh first) fun arrival hArrival =>
        (hRest arrival hArrival).mono hSteady.toOnward

/-- What is recorded in a round is new. -/
theorem Course.fresh {rides : List Arrival} {scanned walked : State}
    (course : Course problem time state rides scanned walked)
    (fresh : Fresh problem.direction state.arrivals) :
    Fresh problem.direction (walked.finish problem).arrivals := by
  have hScanned : Fresh problem.direction scanned.arrivals :=
    course.scanned_eq ▸ course.begun.fresh_foldl fresh course.offered
  have hWalked : Fresh problem.direction walked.arrivals :=
    course.walked_eq ▸ course.scan.fresh_foldl hScanned course.walks
  have hArrivals : (walked.finish problem).arrivals = walked.arrivals := by
    obtain ⟨accepted, hFinish⟩ :=
      State.foldl_offerDestination problem (walked.candidates problem) walked
    rw [State.finish, hFinish]
  rw [hArrivals]
  exact hWalked

/-- On a sound network every run is completed, and what it recorded is new. -/
theorem exists_run_fresh {planner : Planner} (time : Int) (watch : Stopwatch)
    (sound : planner.problem.day.network.Sound) (legs : planner.problem.KnownLegs) :
    ∃ run, planner.runWith (strategy planner.problem) time watch = .ok run ∧
      Fresh planner.problem.direction run.found.arrivals := by
  obtain ⟨run, state, hRun, -, hFound, -, -, fresh, -⟩ := exists_run_of_course time watch sound
    legs (fun state => Fresh planner.problem.direction state.arrivals)
    ((Books.initial planner.problem time).fresh_foldl (by simp [Fresh, State.initial,
      Arrivals.empty, Arrivals.toList]) (offered_start time sound.toLinked legs))
    (fun _ _ _ _ _ _ course fresh => course.fresh fresh)
  exact ⟨run, hRun, hFound ▸ fresh⟩

end JourneyPlanner.Search.MultiCriteria
