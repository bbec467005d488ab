import JourneyPlanner.Proofs.Mirror.Problem
import JourneyPlanner.Proofs.Search.Steps

/-! Two searches side by side, the state of one always the image of that of the other. Main
statement: if that is so for every round then the runs end in the same round and for the same
reason. -/
namespace JourneyPlanner.Search

namespace Strategy

variable {State : Type} {strategy image : Strategy State} {day other : DayTimetable}
  {turn : State → State}

/-- Steps that go on side by side for every item go on so for a list of them. -/
theorem foldl_image {α : Type} (turn : State → State) (Inv : State → Prop)
    {step imageStep : State → α → State} {items : List α} {state : State}
    (hStep : ∀ item ∈ items, ∀ state, Inv state →
      Inv (step state item) ∧ imageStep (turn state) item = turn (step state item))
    (hState : Inv state) :
    Inv (items.foldl step state) ∧
      items.foldl imageStep (turn state) = turn (items.foldl step state) := by
  induction items generalizing state with
  | nil => exact ⟨hState, rfl⟩
  | cons item rest ih =>
      obtain ⟨hNext, hSame⟩ := hStep item (List.mem_cons_self ..) state hState
      rw [List.foldl_cons, List.foldl_cons, hSame]
      exact ih (fun other hOther => hStep other (List.mem_cons_of_mem _ hOther)) hNext

/-- Scans that match pattern by pattern match over all the patterns of a round. -/
theorem scanAll_image (strategy image : Strategy State) (network imageNetwork : Network)
    (turn : State → State) (Inv : State → Prop) (patterns : List Nat) (state : State)
    (hScan : ∀ pattern ∈ patterns, ∃ table imageTable, network.tripTable pattern = .ok table ∧
      imageNetwork.tripTable pattern = .ok imageTable ∧ 0 < table.numStops ∧
      0 < imageTable.numStops ∧ ∀ state, Inv state → ∃ after, strategy.scan table state = .ok after ∧
        image.scan imageTable (turn state) = .ok (turn after) ∧ Inv after)
    (hState : Inv state) :
    ∃ after, strategy.scanAll network patterns state = .ok after ∧
      image.scanAll imageNetwork patterns (turn state) = .ok (turn after) ∧ Inv after := by
  induction patterns generalizing state with
  | nil => exact ⟨state, rfl, rfl, hState⟩
  | cons pattern rest ih =>
      obtain ⟨table, imageTable, hTable, hImageTable, hStops, hImageStops, hOne⟩ :=
        hScan pattern (List.mem_cons_self ..)
      obtain ⟨next, hNext, hImageNext, hInv⟩ := hOne state hState
      obtain ⟨after, hAfter, hImageAfter, hLast⟩ :=
        ih _ (fun other hOther => hScan other (List.mem_cons_of_mem _ hOther)) hInv
      refine ⟨after, ?_, ?_, hLast⟩
      · rw [scanAll, hTable]
        simp only [if_neg (Nat.ne_of_gt hStops), hNext, hAfter]
      · rw [scanAll, hImageTable]
        simp only [if_neg (Nat.ne_of_gt hImageStops), hImageNext, hImageAfter]

/-- One round of each search, side by side. -/
def RoundsAlike (strategy image : Strategy State) (day other : DayTimetable) (turn : State → State)
    (round : Nat) (before after : State) : Prop :=
  image.patterns other (image.beginRound round (turn before)) =
      strategy.patterns day (strategy.beginRound round before) ∧
    ∃ scanned, strategy.scanAll day.network
        (strategy.patterns day (strategy.beginRound round before))
        (strategy.beginRound round before) = .ok scanned ∧
      image.scanAll other.network (strategy.patterns day (strategy.beginRound round before))
        (image.beginRound round (turn before)) = .ok (turn scanned) ∧
      after = strategy.finish (strategy.walk scanned) ∧
      image.finish (image.walk (turn scanned)) = turn after

/-- Rounds whose stages match are alike. -/
theorem RoundsAlike.of_round {round : Nat} {before after scanned : State}
    (hRound : strategy.Round day round before after)
    (hPatterns : image.patterns other (image.beginRound round (turn before)) =
      strategy.patterns day (strategy.beginRound round before))
    (hScanned : strategy.scanAll day.network
      (strategy.patterns day (strategy.beginRound round before))
      (strategy.beginRound round before) = .ok scanned)
    (hImage : image.scanAll other.network
      (strategy.patterns day (strategy.beginRound round before))
      (image.beginRound round (turn before)) = .ok (turn scanned))
    (hFinish : image.finish (image.walk (turn scanned)) =
      turn (strategy.finish (strategy.walk scanned))) :
    strategy.RoundsAlike image day other turn round before after := by
  obtain ⟨same, hSame, hAfter⟩ := hRound
  rw [hScanned, Except.ok.injEq] at hSame
  subst hSame hAfter
  exact ⟨hPatterns, scanned, hScanned, hImage, rfl, hFinish⟩

/-- Searches whose rounds are alike end alike. -/
theorem rounds_image (strategy image : Strategy State) (day other : DayTimetable)
    (turn : State → State) (late : Nat → Bool) (left : Nat) (scanned : List Nat)
    (Holds : Nat → State → Prop) {state : State}
    (hRound : ∀ count state, count < scanned.length + left → Holds count state →
      ∃ next, RoundsAlike strategy image day other turn (count + 1) state next ∧
        Holds (count + 1) next)
    (hProgress : ∀ state, image.hasProgressed (turn state) = strategy.hasProgressed state)
    (hSettled : ∀ state, image.isSettled (turn state) = strategy.isSettled state)
    (hState : Holds scanned.length state) :
    ∃ completed, strategy.rounds day late left scanned state = .ok completed ∧
      image.rounds other late left scanned (turn state) =
        .ok ⟨turn completed.state, completed.scanned, completed.termination⟩ := by
  induction left generalizing scanned state with
  | zero => exact ⟨_, rfl, rfl⟩
  | succ left ih =>
      rw [rounds, rounds]
      cases late scanned.length with
      | true => exact ⟨_, rfl, rfl⟩
      | false =>
          obtain ⟨_, ⟨hPatterns, after, hAfter, hImageAfter, rfl, hFinish⟩, hNext⟩ :=
            hRound _ _ (by omega) hState
          simp only [Bool.false_eq_true, if_false, hPatterns, hAfter, hImageAfter, hFinish,
            hProgress, hSettled]
          cases strategy.hasProgressed (strategy.finish (strategy.walk after)) with
          | false => exact ⟨_, rfl, rfl⟩
          | true =>
              cases strategy.isSettled (strategy.finish (strategy.walk after)) with
              | true => exact ⟨_, rfl, rfl⟩
              | false =>
                  refine ih _ (fun count state hLt => hRound count state ?_) (by simpa using hNext)
                  simp only [List.length_append, List.length_singleton] at hLt
                  omega

end Strategy

namespace Problem.Mirrors

variable {State : Type} {problem image : Problem} {time : Int}

/-- The image scans patterns alike, if it scans each of them so. -/
theorem exists_scanAll (mirrors : problem.Mirrors image) (regular : problem.Regular time)
    (strategy other : Strategy State) (turn : State → State) (Inv : State → Prop)
    {patterns : List Nat} {state : State}
    (hPatterns : ∀ pattern ∈ patterns, problem.day.activePatterns.contains pattern = true ∧
      pattern < problem.day.network.numPatterns)
    (hScan : ∀ {pattern table imageTable state},
      problem.day.network.tripTable pattern = .ok table → table.Mirrors imageTable →
      imageTable.Sound → problem.day.activePatterns.contains pattern = true → Inv state →
      ∃ after, strategy.scan table state = .ok after ∧
        other.scan imageTable (turn state) = .ok (turn after) ∧ Inv after)
    (hState : Inv state) :
    ∃ after, strategy.scanAll problem.day.network patterns state = .ok after ∧
      other.scanAll image.day.network patterns (turn state) = .ok (turn after) := by
  obtain ⟨after, hAfter, hImage, -⟩ := strategy.scanAll_image other problem.day.network
    image.day.network turn Inv patterns state
    (fun pattern hPattern => by
      obtain ⟨hActive, hKnown⟩ := hPatterns pattern hPattern
      obtain ⟨table, hTable⟩ := regular.sound.exists_table hKnown
      obtain ⟨imageTable, hImageTable, tables⟩ := mirrors.day.exists_table hTable
      have sound := mirrors.day.imageSound.table hImageTable
      exact ⟨table, imageTable, hTable, hImageTable, (regular.sound.table hTable).numStops_pos,
        sound.numStops_pos, fun _ => hScan hTable tables sound hActive⟩)
    hState
  exact ⟨after, hAfter, hImage⟩

/-- The image walks on alike, if it makes alike of each walk. -/
theorem walkAll_eq (mirrors : problem.Mirrors image) (turn : State → State) (Inv : State → Prop)
    {step other : Nat × Arrival → State → Transfer → State} {sources : List (Nat × Arrival)}
    {state : State}
    (hStep : ∀ source ∈ sources, ∀ transfer ∈ problem.transfersAt source.2.stop, ∀ state,
      Inv state → Inv (step source state transfer) ∧
        other (source.map id (Arrival.mirror problem.day.network)) (turn state) transfer.mirror =
          turn (step source state transfer))
    (hState : Inv state) :
    image.walkAll other (sources.map (Prod.map id (Arrival.mirror problem.day.network)))
        (turn state) =
      turn (problem.walkAll step sources state) := by
  rw [walkAll, List.foldl_map]
  refine (Strategy.foldl_image turn Inv (fun source hSource next hNext => ?_) hState).2
  rw [Prod.map_snd, show (source.2.mirror problem.day.network).stop = source.2.stop from rfl,
    mirrors.transfersAt, List.foldl_map]
  exact Strategy.foldl_image turn Inv (hStep source hSource) hNext

end Problem.Mirrors

/-- Runs whose rounds are alike end alike. -/
theorem Planner.runWith_image {State : Type} {planner other : Planner}
    {strategy image : Strategy State} {turn : State → State} {time imageTime : Int}
    {watch : Stopwatch} {Holds : Nat → State → Prop} (hMax : other.maxRounds = planner.maxRounds)
    (hLimit : other.timeLimit = planner.timeLimit)
    (hStart : Holds 0 (strategy.start time))
    (hImageStart : image.start imageTime = turn (strategy.start time))
    (hRound : ∀ count state, count < planner.maxRounds → Holds count state →
      ∃ next, strategy.RoundsAlike image planner.problem.day other.problem.day turn (count + 1)
        state next ∧ Holds (count + 1) next)
    (hProgress : ∀ state, image.hasProgressed (turn state) = strategy.hasProgressed state)
    (hSettled : ∀ state, image.isSettled (turn state) = strategy.isSettled state) :
    ∃ run state, planner.runWith strategy time watch = .ok run ∧ run.time = time ∧
      run.found = strategy.found state ∧
      other.runWith image imageTime watch = .ok
        { time := imageTime, direction := other.problem.direction
          found := image.found (turn state), scanned := run.scanned
          termination := run.termination } := by
  obtain ⟨completed, hCompleted, hImage⟩ := strategy.rounds_image image planner.problem.day
    other.problem.day turn (watch.isPast planner.timeLimit) planner.maxRounds [] Holds
    (fun count state hLt => hRound count state (by simpa using hLt)) hProgress hSettled hStart
  have hRun : planner.runWith strategy time watch = .ok
      { time, direction := planner.problem.direction
        found := strategy.found completed.state
        scanned := completed.scanned
        termination := completed.termination } := by
    rw [runWith, hCompleted]
  refine ⟨_, completed.state, hRun, rfl, rfl, ?_⟩
  rw [runWith, hMax, hLimit, hImageStart, hImage]

end JourneyPlanner.Search
