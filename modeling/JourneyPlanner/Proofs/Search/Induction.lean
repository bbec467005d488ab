import JourneyPlanner.Proofs.Search.MultiCriteria.Round
import JourneyPlanner.Proofs.Search.Standard.Round

/-! Induction over a search. Where it does not matter that a round can be given up, it is enough to
look at those that are not: what every scan keeps, all scans of a round keep, and what every round
keeps holds of every completed run, whatever the timetable. A round of a search for the best time
leaves rides, records arrivals on foot and at its end walks to the destination; one for the best
compromises rides and walks by recording arrivals, in whatever manner it records them. -/
namespace JourneyPlanner.Search

namespace Strategy

variable {State : Type} {strategy : Strategy State} {day : DayTimetable}

/-- Patterns that are all scanned keep what every scan keeps. -/
theorem scanAll_induction {network : Network} {patterns : List Nat} {state after : State}
    (Holds : State → Prop)
    (hScan : ∀ pattern table before next, network.tripTable pattern = .ok table →
      strategy.scan table before = .ok next → Holds before → Holds next)
    (hAfter : strategy.scanAll network patterns state = .ok after) (hState : Holds state) :
    Holds after := by
  induction patterns generalizing state with
  | nil =>
      rw [scanAll, Except.ok.injEq] at hAfter
      exact hAfter ▸ hState
  | cons pattern rest ih =>
      rw [scanAll] at hAfter
      split at hAfter
      · cases hAfter
      · rename_i table hTable
        split at hAfter
        · cases hAfter
        · split at hAfter
          · cases hAfter
          · rename_i next hNext
            exact ih hAfter (hScan pattern table state next hTable hNext hState)

/-- What every round keeps, the rest of a loop keeps. -/
theorem rounds_induction {late : Nat → Bool} {left : Nat} {scanned : List Nat} {state : State}
    {completed : Completed State} (Holds : Nat → State → Prop)
    (hRound : ∀ count before after, Holds count before →
      strategy.Round day (count + 1) before after → Holds (count + 1) after)
    (hCompleted : strategy.rounds day late left scanned state = .ok completed)
    (hState : Holds scanned.length state) :
    Holds completed.scanned.length completed.state ∧
      completed.scanned.length ≤ scanned.length + left := by
  have hYields := strategy.rounds_yields day late left scanned Holds (fun _ => True)
    (fun count before _ hBefore => by
      rw [scanRound]
      cases hScanned : strategy.scanAll day.network
          (strategy.patterns day (strategy.beginRound (count + 1) before))
          (strategy.beginRound (count + 1) before) with
      | error stopped => exact trivial
      | ok after => exact hRound count before _ hBefore ⟨after, hScanned, rfl⟩)
    hState
  rw [hCompleted] at hYields
  exact ⟨hYields.1, hYields.2.1⟩

end Strategy

/-- What holds at the start and every round keeps, holds of the state from which a run was read. -/
theorem Planner.runWith_induction {State : Type} {planner : Planner} {strategy : Strategy State}
    {time : Int} {watch : Stopwatch} {run : Run} (Holds : Nat → State → Prop)
    (hStart : Holds 0 (strategy.start time))
    (hRound : ∀ count before after, Holds count before →
      strategy.Round planner.problem.day (count + 1) before after → Holds (count + 1) after)
    (hRun : planner.runWith strategy time watch = .ok run) :
    ∃ state, run.found = strategy.found state ∧ Holds run.rounds state ∧
      run.rounds ≤ planner.maxRounds := by
  rw [runWith] at hRun
  split at hRun
  · cases hRun
  · rename_i completed hCompleted
    cases hRun
    obtain ⟨hHolds, hCount⟩ := Strategy.rounds_induction Holds hRound hCompleted hStart
    exact ⟨completed.state, rfl, hHolds, Nat.zero_add planner.maxRounds ▸ hCount⟩

namespace Standard

variable {problem : Problem} {state : State}

namespace State

/-- Passing positions keeps what leaving a ride at the stop of one of them keeps. -/
theorem pass_induction {table : TripTable} {positions : List Nat} {ride : Option Ride}
    {after : State} (Holds : State → Prop)
    (hAlight : ∀ position stop ride left before, table.stopAt position = .ok stop →
      Holds before → Holds (before.alight problem table.pattern stop ride left))
    (hAfter : pass problem table positions ride state = .ok after) (hState : Holds state) :
    Holds after := by
  induction positions generalizing ride state with
  | nil =>
      rw [pass, Except.ok.injEq] at hAfter
      exact hAfter ▸ hState
  | cons position rest ih =>
      rw [pass] at hAfter
      split at hAfter
      · cases hAfter
      · rename_i stop hStop
        split at hAfter
        · cases hAfter
        · rename_i next hNext
          have hHolds : Holds next := by
            cases ride with
            | none =>
                rw [passOnBoard, Except.ok.injEq] at hNext
                exact hNext ▸ hState
            | some on =>
                obtain ⟨left, -, hSame⟩ := Checked.bind_eq_ok_iff.mp hNext
                cases hSame
                exact hAlight position stop on left state hStop hState
          split at hAfter
          · cases hAfter
          · exact ih hAfter hHolds

/-- Walking on keeps what recording the arrival of each walk keeps. -/
theorem walk_induction (Holds : State → Prop)
    (hWalk : ∀ (source : Nat × Arrival) (before : State),
      ∀ transfer ∈ problem.transfersAt source.2.stop,
      Holds before → Holds (before.settle problem
        (problem.walkArrival before.round source.1 source.2 transfer)))
    (hState : Holds state) : Holds (state.walk problem) := by
  refine List.foldlRecOn (motive := Holds) _ _ hState fun next hNext source _ => ?_
  refine List.foldlRecOn (motive := Holds) _ _ hNext fun before hBefore transfer hTransfer => ?_
  rw [walkAlong_eq_settle]
  split
  · exact hWalk source before transfer hTransfer hBefore
  · exact hBefore

end State

/-- A round keeps what its steps keep. -/
theorem round_induction {count : Nat} {after : State} (Holds : State → Prop)
    (hBegin : Holds (state.beginRound count))
    (hAlight : ∀ pattern table position stop ride left before,
      problem.day.network.tripTable pattern = .ok table → table.stopAt position = .ok stop →
      Holds before → Holds (before.alight problem table.pattern stop ride left))
    (hWalk : ∀ (source : Nat × Arrival) (before : State),
      ∀ transfer ∈ problem.transfersAt source.2.stop,
      Holds before → Holds (before.settle problem
        (problem.walkArrival before.round source.1 source.2 transfer)))
    (hFinish : ∀ before, Holds before → Holds (before.finish problem))
    (h : (strategy problem).Round problem.day count state after) : Holds after := by
  obtain ⟨scanned, hScanned, hAfter⟩ := h
  rw [hAfter, walk_strategy, finish_strategy]
  refine hFinish _ (State.walk_induction Holds hWalk ?_)
  exact Strategy.scanAll_induction Holds
    (fun pattern table before next hTable
      (hNext : State.scan problem table before = .ok next) hBefore =>
      State.pass_induction Holds
        (fun position stop ride left before hStop =>
          hAlight pattern table position stop ride left before hTable hStop) hNext hBefore)
    hScanned hBegin

end Standard

namespace MultiCriteria

variable {problem : Problem} {add : State → Arrival → State} {state : State}

namespace State

/-- Passing positions keeps what recording an arrival keeps. -/
theorem pass_induction {table : TripTable} {positions : List Nat} {rides : Front Ride}
    {after : State} (Holds : State → Prop)
    (hAdd : ∀ before arrival, Holds before → Holds (add before arrival))
    (hAfter : pass problem table add positions rides state = .ok after) (hState : Holds state) :
    Holds after := by
  induction positions generalizing rides state with
  | nil =>
      rw [pass, Except.ok.injEq] at hAfter
      exact hAfter ▸ hState
  | cons position rest ih =>
      rw [pass] at hAfter
      split at hAfter
      · cases hAfter
      · split at hAfter
        · cases hAfter
        · dsimp only at hAfter
          split at hAfter
          · cases hAfter
          · exact ih hAfter (List.foldlRecOn (motive := Holds) _ _ hState
              fun before hBefore arrival _ => hAdd before arrival hBefore)

/-- Walking on keeps what recording an arrival keeps. -/
theorem walk_induction (Holds : State → Prop)
    (hAdd : ∀ before arrival, Holds before → Holds (add before arrival)) (hState : Holds state) :
    Holds (state.walk problem add) := by
  refine List.foldlRecOn (motive := Holds) _ _ hState fun next hNext source _ => ?_
  exact List.foldlRecOn (motive := Holds) _ _ hNext fun before hBefore _ _ =>
    hAdd before _ hBefore

end State

/-- Riding and walking in a round keep what recording an arrival keeps. -/
theorem walked_induction {network : Network} {patterns : List Nat} {scanned : State}
    (Holds : State → Prop)
    (hAdd : ∀ before arrival, Holds before → Holds (add before arrival))
    (hScanned : (strategyWith problem add).scanAll network patterns state = .ok scanned)
    (hState : Holds state) : Holds (scanned.walk problem add) :=
  State.walk_induction Holds hAdd <| Strategy.scanAll_induction Holds
    (fun _ table before next _ (hNext : State.scan problem add table before = .ok next) hBefore =>
      State.pass_induction Holds hAdd hNext hBefore)
    hScanned hState

end MultiCriteria

end JourneyPlanner.Search
