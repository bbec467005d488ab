import JourneyPlanner.Proofs.Search.Problem

/-! A search as a sequence of rounds. The loop returns where this sequence stops, so a fact that
every round keeps is one about the result. -/
namespace JourneyPlanner.Search

namespace Strategy

variable {State : Type} {strategy : Strategy State} {day : DayTimetable}

def scanRound (strategy : Strategy State) (day : DayTimetable) (round : Nat) (state : State) :
    Except (Stopped State) State :=
  strategy.scanAll day.network (strategy.patterns day (strategy.beginRound round state))
    (strategy.beginRound round state)

def Round (strategy : Strategy State) (day : DayTimetable) (round : Nat)
    (before after : State) : Prop :=
  ∃ scanned, strategy.scanAll day.network
      (strategy.patterns day (strategy.beginRound round before))
      (strategy.beginRound round before) = .ok scanned ∧
    after = strategy.finish (strategy.walk scanned)

/-- What holds at the start of the loop and every round keeps, holds of its result, unless a round
is given up; then the fault is one of those that a round can have. The loop ends early only when the
time limit ran out, nothing was reached, or nothing reached can lead to anything better. -/
theorem rounds_yields (strategy : Strategy State) (day : DayTimetable) (late : Nat → Bool)
    (left : Nat) (scanned : List Nat) (Holds : Nat → State → Prop) (Fails : Fault → Prop)
    {state : State}
    (hRound : ∀ count state, count < scanned.length + left → Holds count state →
      Yields (fun after => Holds (count + 1) (strategy.finish (strategy.walk after)))
        (fun stopped => Fails stopped.fault) (strategy.scanRound day (count + 1) state))
    (hState : Holds scanned.length state) :
    Yields
      (fun completed => Holds completed.scanned.length completed.state ∧
        completed.scanned.length ≤ scanned.length + left ∧
        (late completed.scanned.length = true ∨
          completed.scanned.length = scanned.length + left ∨
          strategy.hasProgressed completed.state = false ∨
          strategy.isSettled completed.state = true))
      (fun interrupted => Fails interrupted.fault)
      (strategy.rounds day late left scanned state) := by
  induction left generalizing scanned state with
  | zero => exact ⟨hState, Nat.le_refl _, Or.inr (Or.inl rfl)⟩
  | succ left ih =>
      rw [rounds]
      cases hLate : late scanned.length with
      | true => exact ⟨hState, Nat.le_add_right .., Or.inl hLate⟩
      | false =>
          have hFirst := hRound _ _ (by omega) hState
          rw [scanRound] at hFirst
          rw [if_neg Bool.false_ne_true]
          dsimp only
          cases hAfter : strategy.scanAll day.network
              (strategy.patterns day (strategy.beginRound (scanned.length + 1) state))
              (strategy.beginRound (scanned.length + 1) state) with
          | error stopped =>
              rw [hAfter] at hFirst
              exact hFirst
          | ok after =>
              rw [hAfter] at hFirst
              have hNext : Holds (scanned.length + 1) (strategy.finish (strategy.walk after)) :=
                hFirst
              dsimp only
              cases hProgress : strategy.hasProgressed (strategy.finish (strategy.walk after)) with
              | false =>
                  exact ⟨by simpa using hNext, by simp, Or.inr (Or.inr (Or.inl hProgress))⟩
              | true =>
                  cases hSettled : strategy.isSettled (strategy.finish (strategy.walk after)) with
                  | true =>
                      exact ⟨by simpa using hNext, by simp, Or.inr (Or.inr (Or.inr hSettled))⟩
                  | false =>
                      have hCount : ∀ length : Nat, (scanned ++ [length]).length + left =
                          scanned.length + (left + 1) := by
                        intro length
                        simp only [List.length_append, List.length_singleton]
                        omega
                      have hRest := ih
                        (scanned ++ [(strategy.patterns day
                          (strategy.beginRound (scanned.length + 1) state)).length])
                        (fun count state hLt => hRound count state (hCount _ ▸ hLt))
                        (by simpa using hNext)
                      rw [hCount] at hRest
                      exact hRest

/-- The patterns scanned in a round take part that day. -/
theorem patterns_known (strategy : Strategy State) (day : DayTimetable) (state : State) :
    ∀ pattern ∈ strategy.patterns day state, day.activePatterns.contains pattern = true ∧
      pattern < day.network.numPatterns := fun _ hPattern =>
  ⟨DayTimetable.contains_of_mem_patternsTouching hPattern,
    DayTimetable.lt_numPatterns_of_mem_patternsTouching hPattern⟩

/-- Steps taken for several items keep what every step keeps, and bring about what the step of
each of them brings about and the others keep. -/
theorem foldl_covers {α : Type} (step : State → α → State) (items : List α) (state : State)
    (Inv : State → Prop) (Goal : α → State → Prop)
    (hStep : ∀ item ∈ items, ∀ state, Inv state → Inv (step state item) ∧
      Goal item (step state item) ∧ ∀ other, Goal other state → Goal other (step state item))
    (hState : Inv state) :
    Inv (items.foldl step state) ∧ (∀ item ∈ items, Goal item (items.foldl step state)) ∧
      ∀ other, Goal other state → Goal other (items.foldl step state) := by
  induction items generalizing state with
  | nil => exact ⟨hState, by simp, fun _ h => h⟩
  | cons item rest ih =>
      obtain ⟨hInv, hGoal, hKeep⟩ := hStep item (List.mem_cons_self ..) state hState
      obtain ⟨hLast, hGoals, hKeepRest⟩ :=
        ih _ (fun other hOther => hStep other (List.mem_cons_of_mem _ hOther)) hInv
      exact ⟨hLast, List.forall_mem_cons.mpr ⟨hKeepRest item hGoal, hGoals⟩,
        fun other h => hKeepRest other (hKeep other h)⟩

/-- Scanning several patterns keeps what every scan keeps, until one of them is given up. -/
theorem scanAll_yields (strategy : Strategy State) (network : Network) (Inv : State → Prop)
    (Fails : Fault → Prop) {patterns : List Nat}
    (hScan : ∀ pattern ∈ patterns, ∃ table, network.tripTable pattern = .ok table ∧
      0 < table.numStops ∧ ∀ state, Inv state →
        Yields Inv (fun stopped => Fails stopped.fault) (strategy.scan table state))
    {state : State} (hState : Inv state) :
    Yields Inv (fun stopped => Fails stopped.fault)
      (strategy.scanAll network patterns state) := by
  induction patterns generalizing state with
  | nil => exact hState
  | cons pattern rest ih =>
      obtain ⟨table, hTable, hStops, hOne⟩ := hScan pattern (List.mem_cons_self ..)
      have hFirst := hOne state hState
      rw [scanAll, hTable]
      simp only [if_neg (Nat.ne_of_gt hStops)]
      cases hNext : strategy.scan table state with
      | error stopped =>
          rw [hNext] at hFirst
          exact hFirst
      | ok next =>
          rw [hNext] at hFirst
          exact ih (fun other hOther => hScan other (List.mem_cons_of_mem _ hOther)) hFirst

/-- Scanning several patterns keeps what every scan keeps, and brings about what the scan of each
of them brings about and the others keep. -/
theorem exists_scanAll (strategy : Strategy State) (network : Network) (patterns : List Nat)
    (state : State) (Inv : State → Prop) (Goal : Nat → State → Prop)
    (hScan : ∀ pattern ∈ patterns, ∃ table, network.tripTable pattern = .ok table ∧
      0 < table.numStops ∧ ∀ state, Inv state → ∃ after, strategy.scan table state = .ok after ∧
        Inv after ∧ Goal pattern after ∧ ∀ other, Goal other state → Goal other after)
    (hState : Inv state) :
    ∃ after, strategy.scanAll network patterns state = .ok after ∧ Inv after ∧
      (∀ pattern ∈ patterns, Goal pattern after) ∧ ∀ other, Goal other state → Goal other after := by
  induction patterns generalizing state with
  | nil => exact ⟨state, rfl, hState, by simp, fun _ h => h⟩
  | cons pattern rest ih =>
      obtain ⟨table, hTable, hStops, hOne⟩ := hScan pattern (List.mem_cons_self ..)
      obtain ⟨next, hNext, hInv, hGoal, hKeep⟩ := hOne state hState
      obtain ⟨after, hAfter, hLast, hGoals, hKeepRest⟩ :=
        ih _ (fun other hOther => hScan other (List.mem_cons_of_mem _ hOther)) hInv
      refine ⟨after, ?_, hLast, ?_, fun other h => hKeepRest other (hKeep other h)⟩
      · rw [scanAll, hTable]
        simp only [if_neg (Nat.ne_of_gt hStops), hNext, hAfter]
      · exact List.forall_mem_cons.mpr ⟨hKeepRest pattern hGoal, hGoals⟩

end Strategy

/-- A run by a strategy is completed, and what every round keeps holds of the state it was read from,
unless a round is given up. -/
theorem Planner.runWith_yields {State : Type} (planner : Planner) (strategy : Strategy State)
    (time : Int) (watch : Stopwatch) (Holds : Nat → State → Prop) (Fails : Fault → Prop)
    (hStart : Holds 0 (strategy.start time))
    (hRound : ∀ count state, count < planner.maxRounds → Holds count state →
      Yields (fun after => Holds (count + 1) (strategy.finish (strategy.walk after)))
        (fun stopped => Fails stopped.fault)
        (strategy.scanRound planner.problem.day (count + 1) state)) :
    Yields
      (fun run => run.direction = planner.problem.direction ∧
        ∃ state count, run.found = strategy.found state ∧ Holds count state ∧
          count ≤ planner.maxRounds ∧
          (watch.isPast planner.timeLimit count = true ∨ count = planner.maxRounds ∨
            strategy.hasProgressed state = false ∨ strategy.isSettled state = true))
      (fun broken => Fails broken.fault) (planner.runWith strategy time watch) := by
  have hRounds := strategy.rounds_yields planner.problem.day (watch.isPast planner.timeLimit)
    planner.maxRounds [] Holds Fails
    (fun count state hLt => hRound count state (by simpa using hLt)) hStart
  rw [List.length_nil, Nat.zero_add] at hRounds
  rw [runWith]
  cases hCompleted : strategy.rounds planner.problem.day (watch.isPast planner.timeLimit)
      planner.maxRounds [] (strategy.start time) with
  | error interrupted =>
      rw [hCompleted] at hRounds
      exact hRounds
  | ok completed =>
      rw [hCompleted] at hRounds
      exact ⟨rfl, completed.state, _, rfl, hRounds⟩

/-- A run by a strategy is completed if no round is given up. -/
theorem Planner.exists_runWith {State : Type} (planner : Planner) (strategy : Strategy State)
    (time : Int) (watch : Stopwatch) (Holds : Nat → State → Prop)
    (hStart : Holds 0 (strategy.start time))
    (hRound : ∀ count state, count < planner.maxRounds → Holds count state →
      ∃ next, strategy.Round planner.problem.day (count + 1) state next ∧ Holds (count + 1) next) :
    ∃ run state count, planner.runWith strategy time watch = .ok run ∧
      run.direction = planner.problem.direction ∧ run.found = strategy.found state ∧
      Holds count state ∧ count ≤ planner.maxRounds ∧
      (watch.isPast planner.timeLimit count = true ∨ count = planner.maxRounds ∨
        strategy.hasProgressed state = false ∨ strategy.isSettled state = true) := by
  obtain ⟨run, hRun, hDirection, state, count, hRest⟩ :=
    (planner.runWith_yields strategy time watch Holds (fun _ => False) hStart
      fun count state hLt hHolds => by
        obtain ⟨_, ⟨after, hAfter, rfl⟩, hNext⟩ := hRound count state hLt hHolds
        exact .of_eq_ok hAfter hNext).exists_ok fun _ => id
  exact ⟨run, state, count, hRun, hDirection, hRest⟩

/-- A completed run can be told from what it evaluates to. -/
theorem Planner.exists_run_of_any {planner : Planner} {time : Int} {watch : Stopwatch}
    {test : Run → Bool} (h : (planner.run time watch).toOption.any test = true) :
    ∃ run, planner.run time watch = .ok run ∧ test run = true := by
  cases hRun : planner.run time watch with
  | error fault => simp [hRun, Except.toOption] at h
  | ok run => exact ⟨run, rfl, by simpa [hRun, Except.toOption] using h⟩

end JourneyPlanner.Search
