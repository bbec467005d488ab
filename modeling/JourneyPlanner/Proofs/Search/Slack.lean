import JourneyPlanner.Proofs.Pareto.History
import JourneyPlanner.Proofs.Search.Compromises

/-! What a search for the best compromises gives up for the slack on costs. A way to the destination
may take the place of one that costs a slack less, and others may take its place in turn. Main
statement: with every way that is accepted no more than one slack is lost. That one slack is not
enough is shown by three alternatives. -/
namespace JourneyPlanner

/-- Setting out later is never arriving earlier. -/
theorem Direction.timeCriterion_plus_le {direction : Direction} {time later : Int}
    (h : direction.timeCriterion time ≤ direction.timeCriterion later) (duration : Int) :
    direction.timeCriterion (direction.plus time duration) ≤
      direction.timeCriterion (direction.plus later duration) := by
  cases direction <;>
    simp only [timeCriterion, plus, Clock.clamp, Clock.earliest, Clock.latest] at * <;> omega

namespace Search

/-- Going on from a record to the destination costs no more and no less than the limits between
which costs compare. -/
def Problem.CostsFit (problem : Problem) (arrivals : Arrivals) : Prop :=
  ∀ source ∈ arrivals.toList, ∀ leg ∈ problem.endLegsAt source.stop,
    Criterion.lowest ≤ source.cost + problem.cost.walkCost leg.duration ∧
      source.cost + problem.cost.walkCost leg.duration ≤ Criterion.highest

instance (problem : Problem) (arrivals : Arrivals) : Decidable (problem.CostsFit arrivals) :=
  inferInstanceAs (Decidable (∀ source ∈ arrivals.toList, ∀ leg ∈ problem.endLegsAt source.stop,
    Criterion.lowest ≤ source.cost + problem.cost.walkCost leg.duration ∧
      source.cost + problem.cost.walkCost leg.duration ≤ Criterion.highest))

theorem Problem.CostsFit.mono {problem : Problem} {arrivals later : Arrivals}
    (hExtends : later.Extends arrivals) (h : problem.CostsFit later) : problem.CostsFit arrivals :=
  fun source hSource => h source (hExtends.mem_toList hSource)

theorem Problem.CostsFit.of_finishes {problem : Problem} {arrivals : Arrivals}
    (h : problem.CostsFit arrivals) {destination : DestinationArrival}
    (hFinishes : problem.Finishes arrivals destination) :
    Criterion.lowest ≤ destination.cost ∧ destination.cost ≤ Criterion.highest := by
  cases hFinishes with
  | egress hSource hRide hLeg => exact h _ (Arrivals.mem_toList_of_get? hSource) _ hLeg

/-- A way to the destination is kept that is no later, of no more rounds, and no dearer but for an
allowance. -/
def Found.MakesUpFor (found : Found) (direction : Direction) (allowance : Int)
    (destination : DestinationArrival) : Prop :=
  ∃ kept ∈ found.destinations,
    direction.timeCriterion kept.time ≤ direction.timeCriterion destination.time ∧
      kept.round ≤ destination.round ∧ kept.cost ≤ destination.cost + allowance

namespace MultiCriteria

variable {problem : Problem} {time : Int} {state : State}

theorem within_destinationEntry_iff {direction : Direction} {costSlack : Int} {slacks : Nat}
    {destination other : DestinationArrival} :
    Rules.Within slacks (destinationRules costSlack).criteria
        (destinationEntry direction destination).criteria
        (destinationEntry direction other).criteria ↔
      direction.timeCriterion destination.time ≤ direction.timeCriterion other.time ∧
        destination.round ≤ other.round ∧ destination.cost ≤ other.cost + slacks * costSlack := by
  simp [destinationRules, destinationEntry, travelCriteria, Rules.Within, Criterion.Within,
    Criterion.slack]

/-- No way to the destination is compared with negative slack. -/
theorem slack_destinationRules {costSlack : Int} (hSlack : 0 ≤ costSlack) :
    ∀ criterion ∈ (destinationRules costSlack).criteria, 0 ≤ criterion.slack := by
  simp [destinationRules, Criterion.slack, hSlack]

/-- Of the ways to the destination accepted, each is still served but for a slack for every one
accepted after it, and so are others but for a slack for each one accepted. -/
structure Accounted (problem : Problem) (others : DestinationArrival → Prop) (state : State) :
    Prop where
  fitting : state.destinations.Fitting (destinationRules problem.costSlack)
  begun : state.destinations.entries ≠ [] → state.accepted ≠ []
  accepted : ∀ {earlier destination later}, state.accepted = earlier ++ destination :: later →
    state.destinations.Serves (destinationRules problem.costSlack) later.length
      (destinationEntry problem.direction destination).criteria
  others : ∀ destination, others destination →
    state.destinations.Serves (destinationRules problem.costSlack) state.accepted.length
      (destinationEntry problem.direction destination).criteria

namespace Accounted

variable {others : DestinationArrival → Prop}

/-- A way to the destination that is offered is accounted for from then on. -/
theorem offerDestination (accounted : Accounted problem others state)
    (hSlack : 0 ≤ problem.costSlack) {candidate : DestinationArrival}
    (hCost : Criterion.lowest ≤ candidate.cost ∧ candidate.cost ≤ Criterion.highest) :
    Accounted problem (fun destination => others destination ∨ destination = candidate)
      (state.offerDestination problem candidate) := by
  have hSlacks := slack_destinationRules hSlack
  have hFits : Rules.Fits (destinationRules problem.costSlack).criteria
      (destinationEntry problem.direction candidate).criteria := fits_destinationEntry _ hCost
  have hServed := Front.serves_offer hSlacks accounted.fitting hFits
  unfold State.offerDestination
  split
  · rename_i hNone
    have hCovers := Front.offer?_eq_none_iff.mp hNone
    rw [Front.offer_eq_of_none hNone, hCovers] at hServed
    have hSome : 1 ≤ state.accepted.length := by
      obtain ⟨held, hHeld, -⟩ := List.any_eq_true.mp hCovers
      exact List.length_pos_iff.mpr (accounted.begun (List.ne_nil_of_mem hHeld))
    refine ⟨accounted.fitting, accounted.begun, accounted.accepted, ?_⟩
    rintro destination (hOther | rfl)
    · exact accounted.others destination hOther
    · exact hServed.mono hSlacks hSome
  · rename_i front hSome
    have hCovers : state.destinations.covers (destinationRules problem.costSlack)
        (destinationEntry problem.direction candidate).criteria = false := by
      rw [← Bool.not_eq_true, ← Front.offer?_eq_none_iff, hSome]
      simp
    have hKeeps : ∀ {slacks values},
        state.destinations.Serves (destinationRules problem.costSlack) slacks values →
          front.Serves (destinationRules problem.costSlack) (slacks + 1) values := by
      intro slacks values h
      rw [← Front.offer_eq_of_some hSome]
      exact (h.offer hSlacks accounted.fitting hFits).mono hSlacks
        (Nat.add_le_add_left (Bool.toNat_le _) slacks)
    rw [Front.offer_eq_of_some hSome, hCovers] at hServed
    refine ⟨?_, fun _ => by simp, ?_, ?_⟩
    · rw [← Front.offer_eq_of_some hSome]
      exact accounted.fitting.offer hFits
    · intro earlier destination later hSplit
      dsimp only at hSplit ⊢
      rcases List.eq_nil_or_concat' later with rfl | ⟨between, last, rfl⟩
      · obtain ⟨-, hSame⟩ := List.append_inj' hSplit rfl
        cases hSame
        exact hServed
      · have hBefore : state.accepted ++ [candidate] =
            (earlier ++ destination :: between) ++ [last] := by simpa using hSplit
        rw [List.length_append]
        exact hKeeps (accounted.accepted (List.append_inj' hBefore rfl).1)
    · rintro destination (hOther | rfl)
      · rw [List.length_append]
        exact hKeeps (accounted.others destination hOther)
      · exact hServed.mono hSlacks (Nat.zero_le _)

/-- Walking to the destination accounts for all candidates. -/
theorem foldl_offerDestination (accounted : Accounted problem others state)
    (hSlack : 0 ≤ problem.costSlack) {candidates : List DestinationArrival}
    (hCosts : ∀ candidate ∈ candidates,
      Criterion.lowest ≤ candidate.cost ∧ candidate.cost ≤ Criterion.highest) :
    Accounted problem (fun destination => others destination ∨ destination ∈ candidates)
      (candidates.foldl (State.offerDestination problem) state) := by
  induction candidates generalizing others state with
  | nil => simpa using accounted
  | cons first rest ih =>
      obtain ⟨hFirst, hRest⟩ := List.forall_mem_cons.mp hCosts
      have hRest := ih (accounted.offerDestination hSlack hFirst) hRest
      simpa only [List.foldl_cons, List.mem_cons, or_assoc] using hRest

end Accounted

variable {rides : List Arrival} {scanned walked : State}

/-- Whatever of a round leads to the destination is served by a candidate or a way that was found in
a round before. -/
theorem Course.exists_within (course : Course problem time state rides scanned walked)
    {destination : DestinationArrival} (hFinishes : problem.Finishes walked.arrivals destination) :
    ∃ other, (problem.Finishes state.arrivals other ∨ other ∈ walked.candidates problem) ∧
      problem.direction.timeCriterion other.time ≤
        problem.direction.timeCriterion destination.time ∧
      other.round ≤ destination.round ∧ other.cost ≤ destination.cost := by
  cases hFinishes with
  | @egress id source leg hSource hRide hLeg =>
      obtain ⟨entry, hEntry, hCovers⟩ :=
        course.walk.kept source (Arrivals.mem_toList_of_get? hSource)
      obtain ⟨best, hBest, hStop, hCriteria⟩ := course.walk.entry hEntry
      rw [hCriteria, covers_stopCriteria_iff] at hCovers
      obtain ⟨hTime, hRound, hCost, hSame⟩ := hCovers
      rw [← hStop] at hLeg
      have hRide : best.isTransit = true := hSame.trans hRide
      have hLater := Direction.timeCriterion_plus_le hTime leg.duration
      have hDearer := Int.add_le_add_right hCost (problem.cost.walkCost leg.duration)
      rcases course.steady.new best (Arrivals.mem_toList_of_get? hBest) with hOld | hNew
      · obtain ⟨place, hPlace⟩ := Arrivals.mem_toList_iff.mp hOld
        exact ⟨_, Or.inl (.egress hPlace hRide hLeg), hLater, hRound, hDearer⟩
      · have hNow : best.round = walked.round := hNew.trans course.steady.round.symm
        have hAt : (entry.item, best) ∈ walked.arrivalsAt best.stop walked.round :=
          List.mem_filter.mpr ⟨Arrivals.mem_numbered.mpr
            ⟨List.mem_map_of_mem (hStop ▸ hEntry), hBest⟩, beq_iff_eq.mpr hNow⟩
        exact ⟨_, Or.inr (course.walk.mem_candidates hAt hRide hLeg), hLater, hNow ▸ hRound,
          hDearer⟩

/-- A round accounts for all ways to the destination that can be told from its records. -/
theorem Accounted.finish (accounted : Accounted problem (problem.Finishes state.arrivals) state)
    (course : Course problem time state rides scanned walked) (hSlack : 0 ≤ problem.costSlack)
    (hCosts : problem.CostsFit walked.arrivals) :
    Accounted problem (problem.Finishes (walked.finish problem).arrivals)
      (walked.finish problem) := by
  obtain ⟨-, -, hArrivals, -⟩ := course.walk.ended
  have hDestinations : walked.destinations = state.destinations := course.steady.destinations
  have hAccepted : walked.accepted = state.accepted := by
    rw [course.walked_eq, State.accepted_foldl_add, course.scanned_eq, State.accepted_foldl_add]
    rfl
  have hWalked : Accounted problem (problem.Finishes state.arrivals) walked := by
    constructor
    all_goals simp only [hDestinations, hAccepted]
    exacts [accounted.fitting, accounted.begun, accounted.accepted, accounted.others]
  have hOffered := hWalked.foldl_offerDestination hSlack fun candidate hCandidate =>
    hCosts.of_finishes (course.walk.of_mem_candidates hCandidate).1
  refine ⟨hOffered.fitting, hOffered.begun, hOffered.accepted, fun destination hFinishes => ?_⟩
  rw [hArrivals] at hFinishes
  obtain ⟨other, hOther, hTime, hRound, hCost⟩ := course.exists_within hFinishes
  obtain ⟨held, hHeld, hWithin⟩ := hOffered.others other hOther
  have hReal : problem.Finishes walked.arrivals other := by
    rcases hOther with hOld | hNew
    · exact hOld.mono course.steady.arrivals
    · exact (course.walk.of_mem_candidates hNew).1
  have hNoWorse : Rules.Within 0 (destinationRules problem.costSlack).criteria
      (destinationEntry problem.direction other).criteria
      (destinationEntry problem.direction destination).criteria :=
    within_destinationEntry_iff.mpr ⟨hTime, hRound, by simpa using hCost⟩
  exact ⟨held, hHeld, hWithin.trans (fits_destinationEntry _ (hCosts.of_finishes hReal)) hNoWorse⟩

theorem Accounted.start (time : Int) (linked : problem.day.network.Linked)
    (legs : problem.KnownLegs) :
    Accounted problem (problem.Finishes ((strategy problem).start time).arrivals)
      ((strategy problem).start time) := by
  obtain ⟨books, hSteady⟩ := Books.start_of_known time linked legs
  have hNone : ((strategy problem).start time).destinations = Front.empty :=
    State.destinations_foldl_add problem _ _
  have hAccepted : ((strategy problem).start time).accepted = [] :=
    State.accepted_foldl_add problem _ _
  refine ⟨?_, ?_, ?_, ?_⟩
  · rw [hNone]
    exact List.forall_mem_nil _
  · simp [hNone, Front.empty]
  · intro earlier destination later hSplit
    simp [hAccepted] at hSplit
  · rintro _ ⟨hSource, hRide, -⟩
    have hMem := Arrivals.mem_toList_of_get? hSource
    have hPos := books.records.round_pos_of_isTransit hMem hRide
    have hLe := books.round_le _ hMem
    have hRound : ((strategy problem).start time).round = 0 := hSteady.round
    omega

/-- What fronts serve, found ways to the destination make up for. -/
theorem Books.makesUpFor (books : Books problem time state) {slacks : Nat}
    {destination : DestinationArrival}
    (h : state.destinations.Serves (destinationRules problem.costSlack) slacks
      (destinationEntry problem.direction destination).criteria) :
    state.found.MakesUpFor problem.direction (slacks * problem.costSlack) destination := by
  obtain ⟨held, hHeld, hWithin⟩ := h
  rw [books.destinations_entry held hHeld, within_destinationEntry_iff] at hWithin
  exact ⟨held.item, List.mem_map_of_mem hHeld, hWithin⟩

/-- On a sound network a search that is completed gives up no more than one slack for every way to
the destination that it accepts. -/
theorem exists_run_accounted {planner : Planner} (time : Int) (watch : Stopwatch)
    (sound : planner.problem.day.network.Sound) (legs : planner.problem.KnownLegs)
    (hSlack : 0 ≤ planner.problem.costSlack) :
    ∃ run, planner.runWith (strategy planner.problem) time watch = .ok run ∧
      (planner.problem.CostsFit run.found.arrivals →
        (∀ {earlier destination later}, run.found.accepted = earlier ++ destination :: later →
          run.found.MakesUpFor planner.problem.direction
            (later.length * planner.problem.costSlack) destination) ∧
        ∀ {destination}, planner.problem.Finishes run.found.arrivals destination →
          run.found.MakesUpFor planner.problem.direction
            (run.found.accepted.length * planner.problem.costSlack) destination) := by
  obtain ⟨run, state, hRun, -, hFound, books, -, hAccounted, -⟩ :=
    exists_run_of_course time watch sound legs
      (fun state => planner.problem.CostsFit state.arrivals →
        Accounted planner.problem (planner.problem.Finishes state.arrivals) state)
      (fun _ => .start time sound.toLinked legs)
      (by
        intro state rides scanned walked _ _ course hBefore hCosts
        obtain ⟨-, -, hArrivals, -⟩ := course.walk.ended
        rw [hArrivals] at hCosts
        exact (hBefore (hCosts.mono course.steady.arrivals)).finish course hSlack hCosts)
  refine ⟨run, hRun, fun hCosts => ?_⟩
  rw [hFound] at hCosts ⊢
  have accounted := hAccounted hCosts
  exact ⟨fun hSplit => books.makesUpFor (accounted.accepted hSplit),
    fun hFinishes => books.makesUpFor (accounted.others _ hFinishes)⟩

end MultiCriteria

end Search

/-- With slacks on some criteria, some entry of a front is no worse than what was ever offered to
it, but for one slack if that was turned away and one for each later offer that took out entries.
So a search for the best compromises makes up for each way to the destination that it accepted, but
for one slack on the cost for each one accepted later, and for each way that can be told from its
records, but for one slack for each one accepted. -/
theorem Search.slacks_add_up :
    (∀ {α : Type} (rules : Rules) (earlier later : List (Entry α)) (entry : Entry α),
      (∀ criterion ∈ rules.criteria, 0 ≤ criterion.slack) →
      (∀ offered ∈ earlier ++ entry :: later, rules.Measures offered.criteria) →
      (Front.empty.offerAll rules (earlier ++ entry :: later)).Serves rules
        (((Front.empty.offerAll rules earlier).covers rules entry.criteria).toNat +
          ((Front.empty.offerAll rules earlier).offer rules entry).numEvicting rules later)
        entry.criteria) ∧
    ∀ (draft : Draft) (query : Query) (day : DayTimetable) (config : SearchConfig)
      (planner : Planner) (time : Int) (watch : Stopwatch), draft.build = .ok query.network →
      query.network.onDate query.date query.modes = .ok day →
      Planner.ofRequest day query.request config = .ok planner →
      query.request.profile = .multiCriteria → 0 ≤ config.costSlack →
      ∃ run, planner.run time watch = .ok run ∧ (planner.problem.CostsFit run.found.arrivals →
        (∀ earlier destination later, run.found.accepted = earlier ++ destination :: later →
          run.found.MakesUpFor query.direction (later.length * config.costSlack) destination) ∧
        ∀ destination, planner.problem.Finishes run.found.arrivals destination →
          run.found.MakesUpFor query.direction (run.found.accepted.length * config.costSlack)
            destination) := by
  constructor
  · intro α rules earlier later entry hSlacks hEntries
    exact Front.serves_offerAll hSlacks fun offered hOffered => (hEntries offered hOffered).fits
  · intro draft query day config planner time watch hBuild hDay hPlanner hProfile hSlack
    obtain ⟨valid, hFields⟩ := Planner.ofRequest_eq_ok_iff.mp hPlanner
    have hProblem : planner.problem = Problem.ofRequest day query.request config := by
      rw [hFields]
    have posed : query.Posed planner.problem := hProblem ▸ Query.posed_ofRequest hDay config
    have legs : planner.problem.KnownLegs := hProblem ▸
      (Query.posed_ofRequest hDay config).knownLegs valid
    have sound : planner.problem.day.network.Sound := posed.network ▸ .of_build hBuild
    have hCostSlack : planner.problem.costSlack = config.costSlack := by
      rw [hProblem]
      rfl
    obtain ⟨run, hRun, hAccounted⟩ := MultiCriteria.exists_run_accounted time watch sound
      legs (hCostSlack ▸ hSlack)
    rw [posed.direction, hCostSlack] at hAccounted
    refine ⟨run, ?_, fun hCosts => ⟨fun _ _ _ => (hAccounted hCosts).1,
      fun _ => (hAccounted hCosts).2⟩⟩
    rw [Planner.run, show planner.profile = .multiCriteria by rw [hFields, hProfile]]
    exact hRun

/-- The second alternative takes out the first, and the third takes out the second. -/
def Front.chain : List (Entry Nat) := [⟨0, [3, 0]⟩, ⟨1, [2, 10]⟩, ⟨2, [1, 20]⟩]

/-- What is left costs two slacks more than the first alternative, so one does not do. -/
theorem Front.two_slacks_lost :
    ∃ rules : Rules, rules.criteria = [.less, .lessWithSlack 10] ∧
      (∀ offered ∈ Front.chain, rules.Measures offered.criteria) ∧
      (Front.empty.offerAll rules Front.chain).items = [2] ∧
      ¬ (Front.empty.offerAll rules Front.chain).Serves rules 1 [3, 0] :=
  ⟨⟨[.less, .lessWithSlack 10], by decide⟩, rfl, by decide, by decide +kernel, by decide +kernel⟩

/-- Two buses to one stop, the later and cheaper one scanned first. -/
def Draft.rivals : Draft := { Draft.feeders with patterns := Draft.feeders.patterns.reverse }

/-- A ride by one of the buses alone. -/
def Query.rivals : Query :=
  { Query.feeders with
    network := Draft.rivals.pack Draft.rivals.patterns
    request := { Query.feeders.request with maxTransfers := 0, egress := [⟨2, 0⟩] } }

/-- Riding costs half as much as else, and costs that differ by 10000 count as equal. -/
def SearchConfig.rivals : SearchConfig :=
  { SearchConfig.shuttle with
    cost := { CostRates.standard with transitReluctance := 50 }
    costSlack := 10000 }

theorem Draft.build_rivals : Draft.rivals.build = .ok Query.rivals.network :=
  Draft.build_of_pairwise (by decide +kernel) rfl

/-- Of the alternatives above two slacks are lost. Of the buses the cheaper one is accepted first,
and gives way to one that is dearer by less than the slack. -/
theorem Search.slacks_add_up_rivals :
    (∃ rules : Rules, rules.criteria = [.less, .lessWithSlack 10] ∧
      (Front.empty.offerAll rules Front.chain).Serves rules 2 [3, 0]) ∧
    ∃ day planner run destination,
      Query.rivals.network.onDate Query.rivals.date Query.rivals.modes = .ok day ∧
      Planner.ofRequest day Query.rivals.request SearchConfig.rivals = .ok planner ∧
      planner.run 0 = .ok run ∧ destination ∈ run.found.accepted ∧ destination.cost = 18500 ∧
      run.found.destinations.map DestinationArrival.cost = [26500] ∧
      run.found.MakesUpFor .forward 10000 destination := by
  constructor
  · have hServes := slacks_add_up.1 ⟨[.less, .lessWithSlack 10], by decide⟩ []
      [⟨1, [2, 10]⟩, ⟨2, [1, 20]⟩] (⟨0, [3, 0]⟩ : Entry Nat) (by decide) (by decide)
    exact ⟨_, rfl, hServes⟩
  · have valid : Query.rivals.request.Valid 4 SearchConfig.rivals := by
      constructor <;> simp [Query.rivals, Query.feeders, SearchConfig.rivals, SearchConfig.shuttle,
        Request.maxSupportedTransfers]
    obtain ⟨day, planner, hDay, hPlanner, run, hRun, hTest⟩ : ∃ day planner,
        Query.rivals.network.onDate Query.rivals.date Query.rivals.modes = .ok day ∧
        Planner.ofRequest day Query.rivals.request SearchConfig.rivals = .ok planner ∧
        ∃ run, planner.run 0 = .ok run ∧ decide (planner.problem.CostsFit run.found.arrivals ∧
          run.found.accepted.map DestinationArrival.cost = [18500, 26500] ∧
          run.found.destinations.map DestinationArrival.cost = [26500]) = true :=
      ⟨_, _, rfl, Planner.ofRequest_eq_ok_iff.mpr ⟨valid, rfl⟩,
        Planner.exists_run_of_any (by decide +kernel)⟩
    obtain ⟨hCosts, hAccepted, hKept⟩ := of_decide_eq_true hTest
    obtain ⟨other, hOther, hAccounted⟩ := slacks_add_up.2 Draft.rivals Query.rivals day
      SearchConfig.rivals planner 0 .stopped Draft.build_rivals hDay hPlanner rfl (by decide)
    rw [hRun, Except.ok.injEq] at hOther
    subst hOther
    obtain ⟨destination, rest, hSplit, hCost, hRest⟩ := List.map_eq_cons_iff.mp hAccepted
    have hLater : rest.length = 1 := by simpa using congrArg List.length hRest
    have hMade := (hAccounted hCosts).1 [] destination rest hSplit
    rw [hLater] at hMade
    exact ⟨day, planner, run, destination, hDay, hPlanner, hRun, by simp [hSplit], hCost, hKept,
      hMade⟩

end JourneyPlanner
