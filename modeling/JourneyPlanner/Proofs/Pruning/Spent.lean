import JourneyPlanner.Proofs.Pruning.Offers
import JourneyPlanner.Proofs.Search.MultiCriteria.Course

/-! Searches for the best compromises that have nothing to go on from. Main statement: where all that
the last round brought is covered, or where it brought nothing, the next round brings nothing. -/
namespace JourneyPlanner.Search.MultiCriteria

variable {problem : Problem} {time : Int} {state : State}

/-- A way to the destination covers whatever the last round brought. -/
def Spent (problem : Problem) (state : State) : Prop :=
  ∀ stop, ∀ source ∈ state.arrivalsAt stop state.round,
    state.isCovered (stopCriteria problem.direction source.2) = true

/-- Arrivals that are covered change nothing. -/
theorem State.foldl_add_of_covered {offers : List Arrival}
    (h : ∀ arrival ∈ offers, state.isCovered (stopCriteria problem.direction arrival) = true) :
    offers.foldl (State.add problem) state = state := by
  induction offers with
  | nil => rfl
  | cons first rest ih =>
      obtain ⟨hFirst, hRest⟩ := List.forall_mem_cons.mp h
      rw [List.foldl_cons, State.add, if_pos hFirst]
      exact ih hRest

/-- A search that ends for want of new arrivals, or of any that are not covered, is spent. -/
theorem Books.spent (books : Books problem time state) (tally : Tally problem state)
    (h : (strategy problem).hasProgressed state = false ∨
      (strategy problem).isSettled state = true) : Spent problem state := by
  rcases h with hStill | hSettled
  · intro stop source hSource
    have hProgressed := (tally.hasProgressed_iff books).mpr ⟨stop, List.ne_nil_of_mem hSource⟩
    rw [hStill] at hProgressed
    cases hProgressed
  · exact (books.isSettled_iff.mp hSettled).2

/-- When a round begins there is nothing of it. -/
theorem Books.arrivalsAt_beginRound (books : Books problem time state) (stop : Nat) :
    (state.beginRound (state.round + 1)).arrivalsAt stop (state.round + 1) = [] := by
  refine List.eq_nil_iff_forall_not_mem.mpr fun source hSource => ?_
  obtain ⟨hId, -, hRound⟩ := books.beginRound.of_mem_arrivalsAt hSource
  have hLe := books.round_le _ (Arrivals.mem_toList_of_get? hId)
  omega

theorem Books.spent_beginRound (books : Books problem time state) :
    Spent problem (state.beginRound (state.round + 1)) := by
  intro stop source hSource
  have hNone := books.arrivalsAt_beginRound stop
  exact absurd hSource (hNone ▸ List.not_mem_nil)

namespace Spent

variable (spent : Spent problem state) (regular : problem.Regular time)
  (hRates : problem.cost.Nonneg) (hRounds : state.round ≤ Request.maxSupportedTransfers + 1)
  {rides : List Arrival} {scanned walked : State}
  (course : Course problem time state rides scanned walked)

include spent regular hRates hRounds course

/-- Riding on from a spent state offers what is covered. -/
theorem scanned_eq (hSlack : 0 ≤ problem.boardSlack) :
    scanned = state.beginRound (state.round + 1) := by
  rw [course.scanned_eq]
  refine State.foldl_add_of_covered fun arrival hMem => Bool.not_eq_false _ ▸ fun hOpen => ?_
  obtain ⟨_, -, _, _, stop, source, -, -, -, hSource, hSourceOpen⟩ :=
    course.begun.exists_source_of_rideOffers regular hSlack (Nat.succ_pos _)
      (Nat.succ_le_succ hRounds) (course.begun.lasting hRates) course.rideOffers hMem hOpen
  rw [course.begun.sources_eq (Nat.succ_pos _)] at hSource
  have hCovered := spent stop source hSource
  exact Bool.eq_false_iff.mp hSourceOpen hCovered

/-- So does walking on. -/
theorem walked_eq (books : Books problem time state) (hSlack : 0 ≤ problem.boardSlack) :
    walked = state.beginRound (state.round + 1) := by
  have hScanned := spent.scanned_eq regular hRates hRounds course hSlack
  rw [course.walked_eq, hScanned]
  refine State.foldl_add_of_covered fun arrival hMem => ?_
  obtain ⟨source, hSource, hMem⟩ := List.mem_flatMap.mp hMem
  obtain ⟨transfer, hWalk, rfl⟩ := List.mem_map.mp hMem
  obtain ⟨hAt, hFoot⟩ := (course.begun.mem_walkSources_iff (Nat.succ_pos _)).mp hSource
  obtain ⟨hId, -⟩ := course.begun.of_mem_arrivalsAt hAt
  have hKnown := Arrivals.mem_toList_of_get? hId
  have hLe : source.2.round ≤ state.round := books.round_le _ hKnown
  have hFoot : source.2.roundOnFoot = state.round + 1 := hFoot
  -- nothing of the round is recorded, so the walk follows one of the round before
  have hRound : source.2.round = state.round := by
    have hLater := hFoot
    unfold Arrival.roundOnFoot at hLater
    split at hLater <;> omega
  have advances : problem.Advances source.2
      (problem.walkArrival (state.round + 1) source.1 source.2 transfer) :=
    hFoot ▸ course.begun.records.advances_walk regular hKnown (hLe.trans hRounds) hWalk
  exact course.begun.lasting hRates advances (spent _ source (hRound ▸ hAt))

/-- A round from a spent state only begins. -/
theorem round_eq (books : Books problem time state) (hSlack : 0 ≤ problem.boardSlack) :
    walked.finish problem = state.beginRound (state.round + 1) := by
  have hNone : (state.beginRound (state.round + 1)).candidates problem = [] := by
    refine List.eq_nil_iff_forall_not_mem.mpr fun candidate hMem => ?_
    obtain ⟨stop, source, hSource, -⟩ := course.begun.mem_candidates_iff.mp hMem
    exact List.not_mem_nil (books.arrivalsAt_beginRound stop ▸ hSource)
  rw [spent.walked_eq regular hRates hRounds course books hSlack, State.finish, hNone, List.foldl_nil]

end Spent

end JourneyPlanner.Search.MultiCriteria
