import JourneyPlanner.Proofs.Extension.Rounds
import JourneyPlanner.Proofs.Search.MultiCriteria.Offers

/-! What a search found is only ever continued, whatever the timetable and the slack. A search for the
best time puts records behind those there are, and so it does with the way to the destination that a
round may end with. In a search for the best compromises ways to the destination of a later round take
more rides, so they are never better than those of an earlier one and take out none of them. -/
namespace JourneyPlanner.Search

namespace Standard

variable {problem : Problem} {state : State}

namespace State

/-- Settling a record erases nothing that was found. -/
theorem continuedBy_settle (problem : Problem) (state : State) (arrival : Arrival) :
    state.found.ContinuedBy (state.settle problem arrival).found := by
  unfold settle
  split
  · exact .refl _
  · exact ⟨Arrivals.extends_push _ _, List.prefix_rfl⟩

/-- Alighting erases nothing that was found. -/
theorem continuedBy_alight (problem : Problem) (pattern stop : Nat) (ride : Ride) (time : Int)
    (state : State) : state.found.ContinuedBy (state.alight problem pattern stop ride time).found := by
  unfold alight
  split
  · split
    · exact .refl _
    · dsimp only
      split <;> exact ⟨Arrivals.extends_push _ _, List.prefix_rfl⟩
  · exact .refl _

/-- Walking to the destination erases nothing that was found. -/
theorem continuedBy_finish (problem : Problem) (state : State) :
    state.found.ContinuedBy (state.finish problem).found := by
  unfold finish
  split
  · exact ⟨Arrivals.Extends.refl _, List.prefix_append ..⟩
  · exact .refl _

end State

/-- A round continues what was found before it. -/
theorem continuedBy_of_round {count : Nat} {before after : State}
    (h : (strategy problem).Round problem.day (count + 1) before after) :
    before.found.ContinuedBy after.found :=
  round_induction (fun next : State => before.found.ContinuedBy next.found) (.refl _)
    (fun _ _ _ _ _ _ _ _ _ hNext => hNext.trans (State.continuedBy_alight ..))
    (fun _ _ _ _ hNext => hNext.trans (State.continuedBy_settle ..))
    (fun _ hNext => hNext.trans (State.continuedBy_finish ..)) h

end Standard

namespace MultiCriteria

variable {problem : Problem} {state : State}

/-- Between walks to the destination a state gains records and nothing else that is reported. -/
structure Gains (before after : State) : Prop where
  round : after.round = before.round
  destinations : after.destinations = before.destinations
  arrivals : after.arrivals.Extends before.arrivals

namespace Gains

variable {first second third : State}

theorem refl (state : State) : Gains state state := ⟨rfl, rfl, Arrivals.Extends.refl _⟩

theorem trans (hFirst : Gains first second) (hSecond : Gains second third) : Gains first third :=
  ⟨hSecond.round.trans hFirst.round, hSecond.destinations.trans hFirst.destinations,
    hSecond.arrivals.trans hFirst.arrivals⟩

/-- An arrival that is offered only adds to the records. -/
theorem add (problem : Problem) (state : State) (arrival : Arrival) :
    Gains state (state.add problem arrival) := by
  rcases state.add_eq_or problem arrival with hSame | ⟨front, -, hAdd⟩
  · rw [hSame]
    exact .refl _
  · rw [hAdd]
    exact ⟨rfl, rfl, Arrivals.extends_push _ _⟩

end Gains

/-- A way to the destination of more rounds is not better. -/
theorem dominates_eq_false_of_round_lt {direction : Direction} {costSlack : Int}
    {destination other : DestinationArrival} (h : other.round < destination.round) :
    (destinationRules costSlack).dominates (destinationEntry direction destination).criteria
      (destinationEntry direction other).criteria = false := by
  rw [Bool.eq_false_iff]
  intro hDominates
  have hNoWorse := Rules.covers_iff.mp (Rules.covers_of_dominates hDominates)
  simp only [destinationRules, destinationEntry, travelCriteria, Rules.NoWorse,
    Criterion.noWorse_less, Int.ofNat_le] at hNoWorse
  omega

/-- The ways to the destination are of no more than some number of rounds. -/
def State.DatedUpTo (problem : Problem) (count : Nat) (state : State) : Prop :=
  ∀ held ∈ state.destinations.entries,
    held = destinationEntry problem.direction held.item ∧ held.item.round ≤ count

/-- A search starts with no way to the destination. -/
theorem State.datedUpTo_start (problem : Problem) (time : Int) :
    ((strategy problem).start time).DatedUpTo problem 0 := by
  intro held hHeld
  have hNone : ((strategy problem).start time).destinations = Front.empty :=
    List.foldlRecOn (motive := fun state : State => state.destinations = Front.empty) _ _ rfl
      fun state hState arrival _ => (Gains.add problem state arrival).destinations.trans hState
  rw [hNone] at hHeld
  cases hHeld

/-- Offering a way of a further round puts it behind all those of earlier ones or turns it away. -/
theorem prefix_offer {earlier front : Front DestinationArrival} {count : Nat}
    {candidate : DestinationArrival}
    (hEarlier : ∀ held ∈ earlier.entries,
      held = destinationEntry problem.direction held.item ∧ held.item.round ≤ count)
    (hCandidate : candidate.round = count + 1) (hFront : earlier.entries <+: front.entries) :
    earlier.entries <+: (front.offer (destinationRules problem.costSlack)
      (destinationEntry problem.direction candidate)).entries := by
  rcases Front.offer_eq_or (destinationRules problem.costSlack) front
    (destinationEntry problem.direction candidate) with ⟨hSame, -⟩ | hInsert
  · rw [hSame]
    exact hFront
  · obtain ⟨new, hNew⟩ := hFront
    have hStay : ∀ held ∈ earlier.entries, (!(destinationRules problem.costSlack).dominates
        (destinationEntry problem.direction candidate).criteria held.criteria) = true := by
      intro held hHeld
      obtain ⟨hEntry, hRound⟩ := hEarlier held hHeld
      rw [hEntry, dominates_eq_false_of_round_lt (by omega), Bool.not_false]
    rw [hInsert, Front.insert, ← hNew, List.filter_append, List.filter_eq_self.mpr hStay,
      List.append_assoc]
    exact List.prefix_append ..

/-- Journeys of a later round never push out those of the rounds before. -/
theorem prefix_offerAll {earlier front : Front DestinationArrival} {count : Nat}
    {candidates : List DestinationArrival}
    (hEarlier : ∀ held ∈ earlier.entries,
      held = destinationEntry problem.direction held.item ∧ held.item.round ≤ count)
    (hCandidates : ∀ candidate ∈ candidates, candidate.round = count + 1)
    (hFront : earlier.entries <+: front.entries) :
    earlier.entries <+: (front.offerAll (destinationRules problem.costSlack)
      (candidates.map (destinationEntry problem.direction))).entries := by
  induction candidates generalizing front with
  | nil => exact hFront
  | cons first rest ih =>
      exact ih (fun candidate h => hCandidates candidate (List.mem_cons_of_mem _ h))
        (prefix_offer hEarlier (hCandidates first (List.mem_cons_self ..)) hFront)

/-- The candidates of a round are of that round. -/
theorem State.round_of_mem_candidates {candidate : DestinationArrival}
    (h : candidate ∈ state.candidates problem) : candidate.round = state.round := by
  obtain ⟨stop, -, hMem⟩ := List.mem_flatMap.mp h
  obtain ⟨source, -, hMem⟩ := List.mem_flatMap.mp hMem
  obtain ⟨leg, -, rfl⟩ := List.mem_map.mp hMem
  rfl

/-- Walking to the destination puts what it finds behind what was found in earlier rounds. -/
theorem continuedBy_finish {count : Nat} (hDated : state.DatedUpTo problem count)
    (hRound : state.round = count + 1) :
    (state.finish problem).DatedUpTo problem (count + 1) ∧
      state.found.ContinuedBy (state.finish problem).found := by
  have hCandidates : ∀ candidate ∈ state.candidates problem, candidate.round = count + 1 :=
    fun _ h => (State.round_of_mem_candidates h).trans hRound
  refine ⟨fun held hHeld => ?_, ?_⟩
  · rw [State.destinations_finish] at hHeld
    rcases Front.mem_of_mem_offerAll hHeld with hOld | hNew
    · obtain ⟨hEntry, hLe⟩ := hDated held hOld
      exact ⟨hEntry, Nat.le_succ_of_le hLe⟩
    · obtain ⟨candidate, hCandidate, rfl⟩ := List.mem_map.mp hNew
      exact ⟨rfl, Nat.le_of_eq (hCandidates candidate hCandidate)⟩
  · obtain ⟨accepted, hFinish⟩ :=
      State.foldl_offerDestination problem (state.candidates problem) state
    rw [State.finish, hFinish]
    exact ⟨Arrivals.Extends.refl _,
      (prefix_offerAll hDated hCandidates List.prefix_rfl).map Entry.item⟩

/-- A round continues what was found before it. -/
theorem continuedBy_of_round {day : DayTimetable} {count : Nat} {before after : State}
    (hDated : before.DatedUpTo problem count)
    (h : (strategy problem).Round day (count + 1) before after) :
    after.DatedUpTo problem (count + 1) ∧ before.found.ContinuedBy after.found := by
  obtain ⟨scanned, hScanned, hAfter⟩ := h
  rw [hAfter, walk_strategy, finish_strategy]
  have hGains : Gains (before.beginRound (count + 1)) (scanned.walk problem (State.add problem)) :=
    walked_induction (Gains (before.beginRound (count + 1)))
      (fun next arrival hNext => hNext.trans (Gains.add problem next arrival)) hScanned (.refl _)
  have hDestinations : (scanned.walk problem (State.add problem)).destinations =
      before.destinations := hGains.destinations
  have hWalkedDated : (scanned.walk problem (State.add problem)).DatedUpTo problem count :=
    fun held hHeld => hDated held (hDestinations ▸ hHeld)
  obtain ⟨hFinished, hContinued⟩ := continuedBy_finish hWalkedDated hGains.round
  have hWalked : before.found.ContinuedBy (scanned.walk problem (State.add problem)).found :=
    ⟨hGains.arrivals, List.prefix_iff_eq_take.mpr (by
      simp only [State.found, hDestinations, List.take_length])⟩
  exact ⟨hFinished, hWalked.trans hContinued⟩

end MultiCriteria

end JourneyPlanner.Search
