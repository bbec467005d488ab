import JourneyPlanner.Proofs.Search.Rounds

/-! The states that a search passes through. A round begins, scans one pattern after the other,
walks on and walks to the destination, and the next one begins if there is something to go on from.
Main statement: a completed run is read from the last state of its last round. -/
namespace JourneyPlanner.Search

inductive Stage where
  /-- These patterns are still to be scanned. -/
  | scanning (rest : List Nat)
  /-- All patterns are scanned, and all walks between stops are made. -/
  | walked
  /-- The round is over. -/
  | ended

namespace Planner

variable {State : Type} {planner : Planner} {strategy : Strategy State} {time : Int}

/-- The states that a search for one departure or arrival time can pass through, with the round and
how far it has come. Round 0 is over when all start legs are entered. A time limit may end the search
before any further round. -/
inductive Visits (planner : Planner) (strategy : Strategy State) (time : Int) :
    (round : Nat) → Stage → State → Prop where
  | start : Visits planner strategy time 0 .ended (strategy.start time)
  | turn {round : Nat} {state : State} (before : Visits planner strategy time round .ended state)
      (hLeft : round < planner.maxRounds)
      (hGoesOn : round = 0 ∨
        strategy.hasProgressed state = true ∧ strategy.isSettled state = false) :
      Visits planner strategy time (round + 1)
        (.scanning (strategy.patterns planner.problem.day (strategy.beginRound (round + 1) state)))
        (strategy.beginRound (round + 1) state)
  | scan {round pattern : Nat} {rest : List Nat} {state after : State} {table : TripTable}
      (before : Visits planner strategy time round (.scanning (pattern :: rest)) state)
      (hTable : planner.problem.day.network.tripTable pattern = .ok table)
      (hStops : table.numStops ≠ 0) (hScan : strategy.scan table state = .ok after) :
      Visits planner strategy time round (.scanning rest) after
  | walk {round : Nat} {state : State}
      (before : Visits planner strategy time round (.scanning []) state) :
      Visits planner strategy time round .walked (strategy.walk state)
  | finish {round : Nat} {state : State}
      (before : Visits planner strategy time round .walked state) :
      Visits planner strategy time round .ended (strategy.finish state)

/-- The first round begins with the patterns that touch the stops of the start legs. -/
theorem Visits.first {patterns : List Nat} (hLeft : 0 < planner.maxRounds)
    (hPatterns : strategy.patterns planner.problem.day
      (strategy.beginRound 1 (strategy.start time)) = patterns) :
    Visits planner strategy time 1 (.scanning patterns)
      (strategy.beginRound 1 (strategy.start time)) :=
  hPatterns ▸ .turn .start hLeft (Or.inl rfl)

/-- Only patterns of which a trip runs on the day are scanned, in rounds after the first. -/
theorem Visits.patterns_known {round : Nat} {patterns : List Nat} {state : State}
    (visits : Visits planner strategy time round (.scanning patterns) state) :
    0 < round ∧ ∀ pattern ∈ patterns,
      planner.problem.day.activePatterns.contains pattern = true ∧
        pattern < planner.problem.day.network.numPatterns := by
  generalize hStage : Stage.scanning patterns = stage at visits
  induction visits generalizing patterns with
  | start => cases hStage
  | turn before hLeft hGoesOn ih =>
      cases hStage
      exact ⟨Nat.succ_pos _, strategy.patterns_known planner.problem.day _⟩
  | scan before hTable hStops hScan ih =>
      cases hStage
      obtain ⟨hRound, hPatterns⟩ := ih rfl
      exact ⟨hRound, (List.forall_mem_cons.mp hPatterns).2⟩
  | walk before ih => cases hStage
  | finish before ih => cases hStage

/-- All patterns are scanned one after the other. -/
theorem Visits.scanAll {round : Nat} {patterns : List Nat} {state after : State}
    (visits : Visits planner strategy time round (.scanning patterns) state)
    (h : strategy.scanAll planner.problem.day.network patterns state = .ok after) :
    Visits planner strategy time round (.scanning []) after := by
  induction patterns generalizing state with
  | nil =>
      rw [Strategy.scanAll, Except.ok.injEq] at h
      exact h ▸ visits
  | cons pattern rest ih =>
      rw [Strategy.scanAll] at h
      split at h
      · cases h
      · rename_i table hTable
        split at h
        · cases h
        · rename_i hStops
          split at h
          · cases h
          · rename_i next hNext
            exact ih (visits.scan hTable hStops hNext) h

/-- From a state that it has come to, the loop goes on to the last one. -/
theorem Visits.rounds {late : Nat → Bool} {left : Nat} {scanned : List Nat} {state : State}
    {completed : Completed State}
    (visits : Visits planner strategy time scanned.length .ended state)
    (hLeft : scanned.length + left = planner.maxRounds)
    (hGoesOn : scanned.length = 0 ∨
      strategy.hasProgressed state = true ∧ strategy.isSettled state = false)
    (h : strategy.rounds planner.problem.day late left scanned state = .ok completed) :
    Visits planner strategy time completed.scanned.length .ended completed.state := by
  induction left generalizing scanned state with
  | zero =>
      cases h
      exact visits
  | succ left ih =>
      rw [Strategy.rounds] at h
      split at h
      · cases h
        exact visits
      · dsimp only at h
        split at h
        · cases h
        · rename_i after hAfter
          have begun := visits.turn (by omega) hGoesOn
          have ended := (begun.scanAll hAfter).walk.finish
          split at h
          · cases h
            simpa using ended
          · rename_i hProgress
            split at h
            · cases h
              simpa using ended
            · rename_i hSettled
              refine ih (by simpa using ended) ?_ (Or.inr ?_) h
              · simp only [List.length_append, List.length_singleton]
                omega
              · exact ⟨by simpa using hProgress, by simpa using hSettled⟩

/-- A completed run is read from the last state of its last round. -/
theorem exists_visits_of_run {watch : Stopwatch} {run : Run}
    (h : planner.runWith strategy time watch = .ok run) :
    ∃ state, run.found = strategy.found state ∧
      Visits planner strategy time run.rounds .ended state := by
  rw [runWith] at h
  split at h
  · cases h
  · rename_i completed hCompleted
    cases h
    have begun : Visits planner strategy time ([] : List Nat).length .ended (strategy.start time) :=
      .start
    exact ⟨completed.state, rfl, begun.rounds (Nat.zero_add _) (Or.inl rfl) hCompleted⟩

end Planner

end JourneyPlanner.Search
