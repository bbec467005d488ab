import JourneyPlanner.Proofs.Pruning.Rounds
import JourneyPlanner.Proofs.Pruning.Spent
import JourneyPlanner.Proofs.Relisting.Runs
import JourneyPlanner.Proofs.Search.Compromises

/-! What a search for the best compromises leaves out. Main statement: where time is no gain it
leaves out nothing that would be among the best ways to the destination, neither by looking at the
ways already found nor by ending early, and where it ends early a further round finds nothing. -/
namespace JourneyPlanner

namespace Search

namespace MultiCriteria

variable {problem : Problem} {time : Int} {state full : State}

/-- At the start nothing is covered. -/
theorem Pruned.start (time : Int) (linked : problem.day.network.Linked) (legs : problem.KnownLegs) :
    Pruned problem time ((strategy problem).start time) ((exhaustive problem).start time) := by
  rw [start_exhaustive]
  have hOffered := offered_start time linked legs
  have hBooks := (Books.start_of_known time linked legs).1
  have hTally := (Tally.initial problem).foldl (.initial problem time) hOffered
  exact ⟨hBooks, hBooks, hTally, hTally, rfl, fun _ => .refl _ _, fun _ => Iff.rfl⟩

section Round

variable (regular : problem.Regular time) (hSlack : 0 ≤ problem.boardSlack)
  (hRates : problem.cost.Nonneg)

include regular hSlack hRates

/-- Both searches make a next round, after which they hold the same but for what is covered. -/
theorem Pruned.exists_round (pruned : Pruned problem time state full)
    (hModest : problem.cost.Modest) (hExact : problem.costSlack = 0)
    (hRounds : state.round + 1 ≤ Request.maxSupportedTransfers + 1) :
    ∃ next fullNext, (strategy problem).Round problem.day (state.round + 1) state next ∧
      (exhaustive problem).Round problem.day (state.round + 1) full fullNext ∧
      Pruned problem time next fullNext ∧ next.round = state.round + 1 := by
  obtain ⟨rides, scanned, walked, course⟩ :=
    pruned.books.exists_course regular.sound regular.legs
  obtain ⟨fullRides, fullScanned, fullWalked, fullCourse⟩ :=
    pruned.fullBooks.blind.exists_course regular.sound regular.legs
  exact ⟨_, _, course.round regular.sound, pruned.round ▸ fullCourse.round_exhaustive regular.sound,
    pruned.after_round regular hSlack hRates hRounds course fullCourse hModest hExact,
    course.walk.ended.2.1.trans course.round_walked⟩

/-- From a spent state a round finds nothing, and leaves one that is spent. -/
theorem Spent.exists_round (spent : Spent problem state) (books : Books problem time state)
    (hRounds : state.round ≤ Request.maxSupportedTransfers + 1) :
    ∃ next, (strategy problem).Round problem.day (state.round + 1) state next ∧
      Books problem time next ∧ Spent problem next ∧ next.round = state.round + 1 ∧
      next.found = state.found := by
  obtain ⟨rides, scanned, walked, course⟩ := books.exists_course regular.sound regular.legs
  have hRound := course.round regular.sound
  rw [spent.round_eq regular hRates hRounds course books hSlack] at hRound
  exact ⟨_, hRound, books.beginRound, books.spent_beginRound, rfl, rfl⟩

/-- Nor does any number of rounds. -/
theorem Spent.found_untiring (spent : Spent problem state) (books : Books problem time state)
    {left : Nat} {scanned : List Nat} (hRound : state.round = scanned.length)
    (hRounds : scanned.length + left ≤ Request.maxSupportedTransfers + 1)
    {ended : Completed State}
    (hEnded : (strategy problem).untiring.rounds problem.day (fun _ => false) left scanned state =
      .ok ended) :
    ended.state.found = state.found := by
  obtain ⟨completed, hCompleted, ⟨-, -, -, hFound⟩, -⟩ :=
    (strategy problem).untiring.exists_rounds problem.day (fun _ => false) left scanned
      (fun count next => Books problem time next ∧ Spent problem next ∧ next.round = count ∧
        next.found = state.found)
      (by
        rintro _ before hLt ⟨hBooks, hSpent, rfl, hSame⟩
        obtain ⟨next, hNext, hNextBooks, hNextSpent, hNextRound, hNextFound⟩ :=
          hSpent.exists_round regular hSlack hRates hBooks (by omega)
        exact ⟨next, Strategy.round_untiring.mpr hNext, hNextBooks, hNextSpent, hNextRound,
          hNextFound.trans hSame⟩)
      ⟨books, spent, hRound, rfl⟩
  rw [hCompleted, Except.ok.injEq] at hEnded
  exact hEnded ▸ hFound

end Round

section Planner

variable {planner : Planner} (regular : planner.problem.Regular time)
  (hSlack : 0 ≤ planner.problem.boardSlack) (hRates : planner.problem.cost.Nonneg)
  (hModest : planner.problem.cost.Modest) (hExact : planner.problem.costSlack = 0)
  (hLimit : planner.timeLimit = none)
  (hRounds : planner.maxRounds ≤ Request.maxSupportedTransfers + 1)

include regular hSlack hRates hModest hExact hLimit hRounds

/-- In as many rounds, a search that goes on to the end and one that leaves out nothing find the same
ways to the destination. -/
theorem exists_untiring_exhaustive (watch : Stopwatch) :
    ∃ ended full, (strategy planner.problem).untiring.rounds planner.problem.day (fun _ => false)
        planner.maxRounds [] ((strategy planner.problem).start time) = .ok ended ∧
      planner.runWith (exhaustive planner.problem) time watch = .ok full ∧
      full.rounds = planner.maxRounds ∧
      ∀ finish round cost, full.found.Reports finish round cost ↔
        ended.state.found.Reports finish round cost := by
  have pruned := Pruned.start time regular.sound.toLinked regular.legs
  have hStart : ((strategy planner.problem).start time).round = 0 :=
    (Books.start_of_known time regular.sound.toLinked regular.legs).2.round
  obtain ⟨ended, full, hEnded, hFull, ⟨last, -⟩, -, -⟩ :=
    (strategy planner.problem).untiring.rounds_alongside (exhaustive planner.problem)
      planner.problem.day planner.problem.day (fun _ => false) planner.maxRounds [] [] rfl
      (fun count state full => Pruned planner.problem time state full ∧ state.round = count)
      (by
        rintro _ state full hLt ⟨pruned, rfl⟩
        rw [List.length_nil, Nat.zero_add] at hLt
        obtain ⟨next, fullNext, hNext, hFullNext, hPruned, hRound⟩ :=
          pruned.exists_round regular hSlack hRates hModest hExact (by omega)
        exact ⟨next, fullNext, Strategy.round_untiring.mpr hNext, hFullNext, ⟨hPruned, hRound⟩, rfl,
          rfl⟩)
      ⟨pruned, hStart⟩
  have hLength : full.scanned.length = planner.maxRounds :=
    (Strategy.length_of_untiring hFull).trans (Nat.zero_add _)
  have hRun : planner.runWith (exhaustive planner.problem) time watch = .ok
      { time, direction := planner.problem.direction
        found := full.state.found
        scanned := full.scanned
        termination := full.termination } := by
    rw [Planner.runWith, hLimit, Stopwatch.isPast_none, hFull]
    rfl
  refine ⟨ended, _, hEnded, hRun, hLength, fun finish round cost => ?_⟩
  exact (last.fullBooks.reports_iff.trans (last.destinations _).symm).trans last.books.reports_iff.symm

/-- A search that ends early finds what one finds that goes on to the end, and where it ended a round
more finds nothing. -/
theorem exists_completed (watch : Stopwatch) {ended : Completed State}
    (hEnded : (strategy planner.problem).untiring.rounds planner.problem.day (fun _ => false)
      planner.maxRounds [] ((strategy planner.problem).start time) = .ok ended) :
    ∃ completed, (strategy planner.problem).rounds planner.problem.day
        (watch.isPast planner.timeLimit) planner.maxRounds []
          ((strategy planner.problem).start time) = .ok completed ∧
      ended.state.found = completed.state.found ∧
      (completed.termination ≠ .maxRounds →
        ∃ next, (strategy planner.problem).Round planner.problem.day (completed.scanned.length + 1)
            completed.state next ∧ next.found = completed.state.found) := by
  have hStart : ((strategy planner.problem).start time).round = 0 :=
    (Books.start_of_known time regular.sound.toLinked regular.legs).2.round
  obtain ⟨completed, hCompleted, ⟨⟨full, pruned⟩, hRound⟩, hLe⟩ :=
    (strategy planner.problem).exists_rounds planner.problem.day (fun _ => false)
      planner.maxRounds []
      (fun count state => (∃ full, Pruned planner.problem time state full) ∧ state.round = count)
      (by
        rintro _ state hLt ⟨⟨full, pruned⟩, rfl⟩
        rw [List.length_nil, Nat.zero_add] at hLt
        obtain ⟨next, fullNext, hNext, -, hPruned, hNextRound⟩ :=
          pruned.exists_round regular hSlack hRates hModest hExact (by omega)
        exact ⟨next, hNext, ⟨fullNext, hPruned⟩, hNextRound⟩)
      ⟨⟨_, .start time regular.sound.toLinked regular.legs⟩, hStart⟩
  rw [List.length_nil, Nat.zero_add] at hLe
  have hEnd := Strategy.of_termination hCompleted
  have hSpent : completed.termination ≠ .maxRounds → Spent planner.problem completed.state := by
    intro hEarly
    split at hEnd
    · cases hEnd
    · exact pruned.books.spent pruned.tally (Or.inl hEnd)
    · exact pruned.books.spent pruned.tally (Or.inr hEnd)
    · rename_i hLast
      exact absurd hLast hEarly
  rw [Strategy.rounds_untiring, hCompleted] at hEnded
  simp only [Except.bind, List.length_nil, Nat.zero_add] at hEnded
  refine ⟨completed, by rw [hLimit, Stopwatch.isPast_none, hCompleted], ?_, fun hEarly => ?_⟩
  · by_cases hLast : completed.termination = .maxRounds
    · simp only [hLast, List.length_nil, Nat.zero_add] at hEnd
      rw [hEnd, Nat.sub_self, Strategy.rounds, Except.ok.injEq] at hEnded
      rw [← hEnded]
    · exact (hSpent hLast).found_untiring regular hSlack hRates pruned.books hRound (by omega) hEnded
  · obtain ⟨next, hNext, -, -, -, hFound⟩ := (hSpent hEarly).exists_round regular hSlack hRates
      pruned.books (by omega)
    exact ⟨next, hRound ▸ hNext, hFound⟩

end Planner

end MultiCriteria

end Search

variable {draft : Draft} {query : Query} {day : DayTimetable} {config : SearchConfig} {time : Int}

namespace Search.Planner

variable {planner : Planner}

/-- Where comparing is an order and time is no gain, a search for the best compromises finds the same
times, rounds and costs as one that records arrivals whether or not a way to the destination covers
them and makes all its rounds. Where it ends early, the next round finds nothing. -/
theorem pruning_loses_nothing (hBuild : draft.build = .ok query.network)
    (hDay : query.network.onDate query.date query.modes = .ok day)
    (hPlanner : Planner.ofRequest day query.request config = .ok planner)
    (hProfile : query.request.profile = .multiCriteria) (hSlack : 0 ≤ query.request.boardSlack)
    (hLimit : query.request.timeLimit = none) (hExact : config.costSlack = 0)
    (hRates : config.cost.Nonneg) (hCosts : config.cost.Modest) (hNetwork : query.network.Modest)
    (hRequest : query.request.Modest) (hTime : Clock.Within Clock.modest time)
    (watch : Stopwatch) :
    ∃ run full, planner.run time watch = .ok run ∧
      planner.runWith (MultiCriteria.exhaustive planner.problem) time watch = .ok full ∧
      full.rounds = query.request.maxTransfers + 1 ∧
      (∀ finish round cost,
        full.found.Reports finish round cost ↔ run.found.Reports finish round cost) ∧
      ∃ completed, (MultiCriteria.strategy planner.problem).rounds day
          (watch.isPast planner.timeLimit) planner.maxRounds []
          ((MultiCriteria.strategy planner.problem).start time) = .ok completed ∧
        run.found = (MultiCriteria.strategy planner.problem).found completed.state ∧
        run.scanned = completed.scanned ∧ run.termination = completed.termination ∧
        (run.termination ≠ .maxRounds → ∃ next,
          (MultiCriteria.strategy planner.problem).Round day (run.rounds + 1) completed.state next ∧
          (MultiCriteria.strategy planner.problem).found next = run.found) := by
  obtain ⟨regular, hTransfers, hRounds⟩ := Planner.regular_ofRequest (.of_build hBuild) hDay hPlanner
    hNetwork hRequest hTime.double
  obtain ⟨-, hFields⟩ := Planner.ofRequest_eq_ok_iff.mp hPlanner
  have hSearch : planner.profile = .multiCriteria := by rw [hFields, hProfile]
  have hUnlimited : planner.timeLimit = none := by rw [hFields, hLimit]
  have hSame : planner.problem.day = day := by
    rw [hFields]
    rfl
  have hProblem : 0 ≤ planner.problem.boardSlack ∧ planner.problem.cost.Nonneg ∧
      planner.problem.cost.Modest ∧ planner.problem.costSlack = 0 := by
    rw [hFields]
    exact ⟨hSlack, hRates, hCosts, hExact⟩
  obtain ⟨hBoard, hGain, hModest, hFree⟩ := hProblem
  obtain ⟨ended, full, hEnded, hFull, hLength, hReports⟩ :=
    MultiCriteria.exists_untiring_exhaustive regular hBoard hGain hModest hFree hUnlimited hRounds
      watch
  obtain ⟨completed, hCompleted, hFound, hNext⟩ :=
    MultiCriteria.exists_completed regular hBoard hGain hModest hFree hUnlimited hRounds watch
      hEnded
  rw [hFound] at hReports
  rw [hSame] at hCompleted hNext
  have hRun : planner.run time watch = .ok
      { time, direction := planner.problem.direction
        found := (MultiCriteria.strategy planner.problem).found completed.state
        scanned := completed.scanned
        termination := completed.termination } := by
    rw [Planner.run, hSearch]
    dsimp only
    rw [Planner.runWith, hSame, hCompleted]
  exact ⟨_, full, hRun, hFull, hLength.trans hTransfers, hReports, completed, hCompleted, rfl, rfl,
    rfl, hNext⟩

end Search.Planner

/-- The same compromises with up to four rides. -/
def Query.feedersFurther : Query :=
  { Query.feeders with request := { Query.feeders.request with maxTransfers := 3 } }

/-- The search ends after two of four rounds, and two rounds more find nothing else. -/
theorem Search.Planner.pruning_loses_nothing_feeders :
    ∃ day planner run full,
      Query.feedersFurther.network.onDate Query.feedersFurther.date Query.feedersFurther.modes =
        .ok day ∧
      Planner.ofRequest day Query.feedersFurther.request SearchConfig.shuttle = .ok planner ∧
      planner.run 0 = .ok run ∧ run.rounds = 2 ∧ run.termination = .destinationPruned ∧
      planner.runWith (MultiCriteria.exhaustive planner.problem) 0 .stopped = .ok full ∧
      full.rounds = 4 ∧
      full.found.Reports 400 2 62000 := by
  have valid : Query.feedersFurther.request.Valid 4 SearchConfig.shuttle := by
    constructor <;> simp [Query.feedersFurther, Query.feeders, SearchConfig.shuttle,
      Request.maxSupportedTransfers]
  have modest : Query.feedersFurther.request.Modest := by
    constructor <;> simp [Query.feedersFurther, Query.feeders, Clock.Within, Clock.modest]
  obtain ⟨day, planner, hDay, hPlanner, run, hRun, hTest⟩ : ∃ day planner,
      Query.feedersFurther.network.onDate Query.feedersFurther.date Query.feedersFurther.modes =
        .ok day ∧
      Planner.ofRequest day Query.feedersFurther.request SearchConfig.shuttle = .ok planner ∧
      ∃ run, planner.run 0 = .ok run ∧ (run.rounds = 2 && run.termination = .destinationPruned &&
        run.found.destinations.any (fun destination =>
          destination.time = 400 && destination.round = 2 && destination.cost = 62000)) = true :=
    ⟨_, _, rfl, Planner.ofRequest_eq_ok_iff.mpr ⟨valid, rfl⟩,
      Planner.exists_run_of_any (by decide +kernel)⟩
  simp only [Bool.and_eq_true, decide_eq_true_eq, List.any_eq_true] at hTest
  obtain ⟨⟨hEarly, hSettled⟩, destination, hMem, ⟨hFinish, hRound⟩, hCost⟩ := hTest
  obtain ⟨same, full, hSame, hFull, hLength, hReports, -⟩ :=
    @Search.Planner.pruning_loses_nothing Draft.feeders Query.feedersFurther day SearchConfig.shuttle
      0 planner Draft.build_feeders hDay hPlanner rfl (by decide) rfl rfl CostRates.nonneg_standard
      CostRates.modest_standard Network.modest_feeders modest ⟨by decide, by decide⟩ .stopped
  obtain rfl := Except.ok.inj (hRun.symm.trans hSame)
  exact ⟨day, planner, run, full, hDay, hPlanner, hRun, hEarly, hSettled, hFull, hLength,
    (hReports _ _ _).mpr ⟨destination, hMem, hFinish, hRound, hCost⟩⟩

end JourneyPlanner
