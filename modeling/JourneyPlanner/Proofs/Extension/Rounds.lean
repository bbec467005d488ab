import JourneyPlanner.Proofs.Search.Induction
import JourneyPlanner.Proofs.Search.Records

/-! Searches of more rounds. A loop with more rounds to go makes the same rounds first, and goes on
only where the shorter one ended for want of rounds. Main statement: if every round only continues
what was found before, then so does a run of more rounds. -/
namespace JourneyPlanner.Search

/-- What was found earlier stands first in what was found later. -/
structure Found.ContinuedBy (earlier later : Found) : Prop where
  arrivals : later.arrivals.Extends earlier.arrivals
  destinations : earlier.destinations <+: later.destinations

namespace Found.ContinuedBy

variable {first second third : Found}

theorem refl (found : Found) : found.ContinuedBy found :=
  ⟨Arrivals.Extends.refl _, List.prefix_rfl⟩

/-- Continuations can be chained. -/
theorem trans (hFirst : first.ContinuedBy second) (hSecond : second.ContinuedBy third) :
    first.ContinuedBy third :=
  ⟨hSecond.arrivals.trans hFirst.arrivals, hFirst.destinations.trans hSecond.destinations⟩

end Found.ContinuedBy

namespace Strategy

variable {State : Type} {strategy : Strategy State} {day : DayTimetable}

/-- With more rounds to go the loop does the same, and goes on only if it ended for want of
rounds. -/
theorem rounds_add (strategy : Strategy State) (day : DayTimetable) (late : Nat → Bool)
    (left more : Nat) (scanned : List Nat) (state : State) :
    strategy.rounds day late (left + more) scanned state =
      (strategy.rounds day late left scanned state).bind fun completed =>
        if completed.termination = .maxRounds then
          strategy.rounds day late more completed.scanned completed.state
        else .ok completed := by
  induction left generalizing scanned state with
  | zero => simp [rounds, Except.bind]
  | succ left ih =>
      rw [Nat.add_right_comm, rounds, rounds]
      cases late scanned.length with
      | true => simp [Except.bind]
      | false =>
          simp only [Bool.false_eq_true, if_false]
          cases strategy.scanAll day.network
              (strategy.patterns day (strategy.beginRound (scanned.length + 1) state))
              (strategy.beginRound (scanned.length + 1) state) with
          | error stopped => rfl
          | ok after =>
              dsimp only
              cases strategy.hasProgressed (strategy.finish (strategy.walk after)) with
              | false => simp [Except.bind]
              | true =>
                  cases strategy.isSettled (strategy.finish (strategy.walk after)) with
                  | true => simp [Except.bind]
                  | false => simpa using ih _ _

end Strategy

/-- If every round continues what was found before it, so does a run of more rounds; and it is the
same run unless the shorter one ended for want of rounds. -/
theorem Planner.runWith_continuedBy {State : Type} {planner : Planner} {strategy : Strategy State}
    {time : Int} {watch : Stopwatch} {more : Nat} {longer : Run} (Holds : Nat → State → Prop)
    (hStart : Holds 0 (strategy.start time))
    (hRound : ∀ count before after, Holds count before →
      strategy.Round planner.problem.day (count + 1) before after →
      Holds (count + 1) after ∧ (strategy.found before).ContinuedBy (strategy.found after))
    (hLonger : { planner with maxRounds := planner.maxRounds + more }.runWith strategy time
      watch = .ok longer) :
    ∃ run, planner.runWith strategy time watch = .ok run ∧ longer.direction = run.direction ∧
      run.direction = planner.problem.direction ∧ run.found.ContinuedBy longer.found ∧
      run.rounds ≤ planner.maxRounds ∧ longer.rounds ≤ planner.maxRounds + more ∧
      (run.termination ≠ .maxRounds → longer = run) := by
  rw [runWith] at hLonger ⊢
  dsimp only at hLonger
  rw [Strategy.rounds_add] at hLonger
  cases hCompleted : strategy.rounds planner.problem.day (watch.isPast planner.timeLimit)
      planner.maxRounds [] (strategy.start time) with
  | error interrupted =>
      rw [hCompleted] at hLonger
      cases hLonger
  | ok completed =>
      obtain ⟨hHolds, hCount⟩ := Strategy.rounds_induction Holds
        (fun count before after hBefore hNext => (hRound count before after hBefore hNext).1)
        hCompleted hStart
      rw [List.length_nil, Nat.zero_add] at hCount
      rw [hCompleted] at hLonger
      simp only [Except.bind] at hLonger
      refine ⟨_, rfl, ?_⟩
      by_cases hMax : completed.termination = .maxRounds
      · rw [if_pos hMax] at hLonger
        split at hLonger
        · cases hLonger
        · rename_i last hLast
          cases hLonger
          obtain ⟨⟨-, hContinued⟩, hLength⟩ := Strategy.rounds_induction
            (fun count state => Holds count state ∧
              (strategy.found completed.state).ContinuedBy (strategy.found state))
            (fun count before after hBoth hNext =>
              (hRound count before after hBoth.1 hNext).imp id hBoth.2.trans)
            hLast ⟨hHolds, .refl _⟩
          exact ⟨rfl, rfl, hContinued, hCount, hLength.trans (Nat.add_le_add_right hCount more),
            fun hOther => absurd hMax hOther⟩
      · rw [if_neg hMax] at hLonger
        cases hLonger
        exact ⟨rfl, rfl, .refl _, hCount, Nat.le_add_right_of_le hCount, fun _ => rfl⟩

end JourneyPlanner.Search
