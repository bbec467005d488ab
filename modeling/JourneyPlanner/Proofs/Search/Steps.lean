import JourneyPlanner.Proofs.Search.Closure
import JourneyPlanner.Proofs.Search.Rounds

/-! What both kinds of search have in common. Each starts on foot, scans patterns in turn and walks
on from one record after the other; if every single step is made up for, then so are all. -/
namespace JourneyPlanner.Search.Problem

variable {problem : Problem} {time : Int} {State : Type}

/-- A start that reached the stops of all legs, and any others on foot only, has missed nothing. -/
theorem Closed.of_start {found : Found}
    (hStart : ∀ leg ∈ problem.startLegs, found.Reached problem.direction leg.stop 0
      (problem.direction.timeCriterion time + leg.duration))
    (records : Records problem time found.arrivals)
    (hRound : ∀ arrival ∈ found.arrivals.toList, arrival.round ≤ 0) :
    problem.Closed time 0 found := by
  have hFoot : ∀ arrival ∈ found.arrivals.toList, arrival.isTransit = false :=
    fun arrival hMem => records.isTransit_eq_false hMem (hRound arrival hMem)
  refine ⟨hStart, ?_, ?_, ?_⟩
  · intro arrival _ hRound
    omega
  · intro arrival hMem hRound
    rw [Arrival.roundOnFoot, hFoot arrival hMem] at hRound
    simp at hRound
  · intro arrival hMem hRide
    rw [hFoot arrival hMem] at hRide
    cases hRide

/-- Scanning patterns makes up for every ride along any of them, if scanning one makes up for those
along it. -/
theorem Regular.exists_scanAll (regular : problem.Regular time) (strategy : Strategy State)
    (found : State → Found) (Inv : State → Prop) (Catches : TripTable → Nat → Nat → Prop)
    (round : Nat) {patterns : List Nat} {state : State}
    (hPatterns : ∀ pattern ∈ patterns, problem.day.activePatterns.contains pattern = true ∧
      pattern < problem.day.network.numPatterns)
    (hScan : ∀ {pattern table state}, problem.day.network.tripTable pattern = .ok table →
      problem.day.activePatterns.contains pattern = true → Inv state →
      ∃ after, strategy.scan table state = .ok after ∧ Inv after ∧
        (found after).Extends (found state) problem.direction ∧
        ∀ first second trip, Catches table first trip → problem.direction.Precedes first second →
          second < table.numStops → problem.AlightingCovered (found after) round table trip second)
    (hState : Inv state) :
    ∃ after, strategy.scanAll problem.day.network patterns state = .ok after ∧ Inv after ∧
      ∀ pattern ∈ patterns, ∀ table, problem.day.network.tripTable pattern = .ok table →
        ∀ first second trip, Catches table first trip → problem.direction.Precedes first second →
          second < table.numStops →
            problem.AlightingCovered (found after) round table trip second := by
  obtain ⟨after, hAfter, hInv, hGoals, -⟩ := strategy.exists_scanAll problem.day.network patterns
    state Inv
    (fun pattern next => ∀ table, problem.day.network.tripTable pattern = .ok table →
      ∀ first second trip, Catches table first trip → problem.direction.Precedes first second →
        second < table.numStops →
          problem.AlightingCovered (found next) round table trip second)
    (fun pattern hPattern => by
      obtain ⟨hActive, hKnown⟩ := hPatterns pattern hPattern
      obtain ⟨table, hTable⟩ := regular.sound.exists_table hKnown
      refine ⟨table, hTable, (regular.sound.table hTable).numStops_pos, fun next hNext => ?_⟩
      obtain ⟨after, hAfter, hInv, hExtends, hCovered⟩ := hScan hTable hActive hNext
      refine ⟨after, hAfter, hInv, ?_, ?_⟩
      · intro other hOther
        rw [hTable, Except.ok.injEq] at hOther
        exact hOther ▸ hCovered
      · intro other hBefore table hTable first second trip hCatches hOrder hSecond
        exact (hBefore table hTable first second trip hCatches hOrder hSecond).mono hExtends)
    hState
  exact ⟨after, hAfter, hInv, hGoals⟩

/-- Walk on from every source in turn, where a step says what is made of one walk. -/
def walkAll (problem : Problem) (step : Nat × Arrival → State → Transfer → State)
    (sources : List (Nat × Arrival)) (state : State) : State :=
  sources.foldl
    (fun state source => (problem.transfersAt source.2.stop).foldl (step source) state) state

/-- Walking on makes up for every walk from the sources, if every step makes up for its walk. -/
theorem walkAll_covers (problem : Problem) (step : Nat × Arrival → State → Transfer → State)
    (found : State → Found) (Inv : State → Prop) {sources : List (Nat × Arrival)} {state : State}
    (hStep : ∀ source ∈ sources, ∀ transfer ∈ problem.transfersAt source.2.stop, ∀ state,
      Inv state → Inv (step source state transfer) ∧
        (found (step source state transfer)).Extends (found state) problem.direction ∧
        ((found (step source state transfer)).Reached problem.direction
            (problem.direction.transferTarget transfer) source.2.roundOnFoot
            (problem.direction.timeCriterion source.2.time + transfer.duration) ∨
          (found (step source state transfer)).Ended problem.direction source.2.roundOnFoot
            (problem.direction.timeCriterion source.2.time + transfer.duration)))
    (hState : Inv state) :
    Inv (problem.walkAll step sources state) ∧
      ∀ source ∈ sources,
        problem.WalksCovered (found (problem.walkAll step sources state)) source.2 := by
  obtain ⟨⟨hInv, -⟩, hGoals, -⟩ := Strategy.foldl_covers
    (fun state source => (problem.transfersAt source.2.stop).foldl (step source) state)
    sources state
    (fun next => Inv next ∧ (found next).Extends (found state) problem.direction)
    (fun source next => problem.WalksCovered (found next) source.2)
    (fun source hSource next ⟨hNext, hOnward⟩ => by
      obtain ⟨⟨hInv, hExtends⟩, hGoals, -⟩ := Strategy.foldl_covers (step source)
        (problem.transfersAt source.2.stop) next
        (fun after => Inv after ∧ (found after).Extends (found next) problem.direction)
        (fun transfer after =>
          (found after).Reached problem.direction (problem.direction.transferTarget transfer)
              source.2.roundOnFoot
              (problem.direction.timeCriterion source.2.time + transfer.duration) ∨
            (found after).Ended problem.direction source.2.roundOnFoot
              (problem.direction.timeCriterion source.2.time + transfer.duration))
        (fun transfer hWalk after ⟨hAfter, hLater⟩ => by
          obtain ⟨hInv, hExtends, hCovered⟩ := hStep source hSource transfer hWalk after hAfter
          exact ⟨⟨hInv, hExtends.trans hLater⟩, hCovered,
            fun other hOther => hOther.imp (·.mono hExtends) hExtends.ended⟩)
        ⟨hNext, Found.Extends.refl ..⟩
      exact ⟨⟨hInv, hExtends.trans hOnward⟩, hGoals, fun other hOther => hOther.mono hExtends⟩)
    ⟨hState, Found.Extends.refl ..⟩
  exact ⟨hInv, hGoals⟩

end JourneyPlanner.Search.Problem
