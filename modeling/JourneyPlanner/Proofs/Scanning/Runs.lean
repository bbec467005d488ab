import JourneyPlanner.Proofs.Scanning.MultiCriteria
import JourneyPlanner.Proofs.Scanning.Standard

/-! Scanning in a run. Whatever a run has come to when it turns to a pattern, passing it once, on
the trip or the rides that matter, does as well as trying every boarding on its own. Main statement:
the best times and their marks are the same, and so are the values in the front of every stop. -/
namespace JourneyPlanner

namespace Search.MultiCriteria

variable {planner : Planner} {time : Int}

/-- Every state that a search for the best compromises comes to has its books in order, and its
fronts are such as offers leave them. -/
theorem books_of_visits (sound : planner.problem.day.network.Sound)
    (legs : planner.problem.KnownLegs) {round : Nat} {stage : Stage} {state : State}
    (visits : planner.Visits (strategy planner.problem) time round stage state) :
    Books planner.problem time state ∧ state.round = round ∧ Tally planner.problem state := by
  induction visits with
  | start =>
      obtain ⟨books, steady⟩ := Books.start_of_known time sound.toLinked legs
      exact ⟨books, steady.round, (Tally.initial planner.problem).foldl (Books.initial _ time)
        (offered_start time sound.toLinked legs)⟩
  | turn before hLeft hGoesOn ih =>
      obtain ⟨books, rfl, tally⟩ := ih
      exact ⟨books.beginRound, rfl, tally.beginRound _⟩
  | scan before hTable hStops hScan ih =>
      obtain ⟨books, rfl, tally⟩ := ih
      obtain ⟨hBegun, hPatterns⟩ := before.patterns_known
      obtain ⟨offers, hOffers, hOffered⟩ := books.exists_scanOffers sound legs hBegun hTable
        (hPatterns _ (List.mem_cons_self ..)).1
      have hAfter := (books.pass_eq hBegun hOffers hOffered).symm.trans hScan
      rw [Except.ok.injEq] at hAfter
      obtain ⟨hBooks, hSteady⟩ := books.steady_foldl hOffered
      exact hAfter ▸ ⟨hBooks, hSteady.round, tally.foldl books hOffered⟩
  | walk before ih =>
      obtain ⟨books, rfl, tally⟩ := ih
      have hOffered := fun arrival (hMem : arrival ∈ walkOffers planner.problem _) =>
        books.offered_of_mem_walkOffers sound.toLinked legs before.patterns_known.1 hMem
      obtain ⟨hBooks, hSteady⟩ := books.steady_foldl hOffered
      rw [walk_strategy, State.walk_eq]
      exact ⟨hBooks, hSteady.round, tally.foldl books hOffered⟩
  | finish before ih =>
      obtain ⟨books, rfl, tally⟩ := ih
      exact ⟨books.ended.1, books.ended.2.1, tally.finish books⟩

end Search.MultiCriteria

variable {draft : Draft} {query : Query} {day : DayTimetable} {config : SearchConfig}
  {planner : Search.Planner} {time : Int}

/-- Whenever a run turns to a pattern, it scans it as if it tried every boarding on its own: a
search for the best time is left with the same best times and marks, and one for the best
compromises, if time on board has its price, with the same values in the front of every stop. -/
theorem Search.Planner.scan_agrees_with_each (hBuild : draft.build = .ok query.network)
    (hDay : query.network.onDate query.date query.modes = .ok day)
    (hPlanner : Planner.ofRequest day query.request config = .ok planner) :
    (∀ {round pattern rest state}, planner.Visits (Standard.strategy planner.problem) time round
        (.scanning (pattern :: rest)) state →
      ∃ table after each, planner.problem.day.network.tripTable pattern = .ok table ∧
        (Standard.strategy planner.problem).scan table state = .ok after ∧
        scanEach planner.problem table (Standard.manner planner.problem table)
          (planner.problem.direction.positions table.numStops) state = .ok each ∧
        after.best = each.best) ∧
      (0 ≤ config.cost.transitReluctance →
        ∀ {round pattern rest state}, planner.Visits (MultiCriteria.strategy planner.problem) time
            round (.scanning (pattern :: rest)) state →
          ∃ table after each, planner.problem.day.network.tripTable pattern = .ok table ∧
            (MultiCriteria.strategy planner.problem).scan table state = .ok after ∧
            scanEach planner.problem table (MultiCriteria.manner planner.problem table)
              (planner.problem.direction.positions table.numStops) state = .ok each ∧
            ∀ stop, (after.fronts.get stop).Alike (each.fronts.get stop)) := by
  obtain ⟨valid, rfl⟩ := Planner.ofRequest_eq_ok_iff.mp hPlanner
  have posed := Query.posed_ofRequest hDay config
  have legs := posed.knownLegs valid
  have sound : (Problem.ofRequest day query.request config).day.network.Sound :=
    posed.network ▸ .of_build hBuild
  constructor
  · intro round pattern rest state visits
    obtain ⟨-, hPatterns⟩ := visits.patterns_known
    obtain ⟨table, hTable⟩ := sound.exists_table (hPatterns _ (List.mem_cons_self ..)).2
    obtain ⟨after, each, hScan, hEach, hBest⟩ :=
      (Standard.accounts_of_visits sound.toLinked legs visits).exists_scans (sound.table hTable)
        (sound.toLinked.stop_lt hTable)
    exact ⟨table, after, each, hTable, hScan, hEach, hBest⟩
  · intro hRate round pattern rest state visits
    obtain ⟨hBegun, hPatterns⟩ := visits.patterns_known
    obtain ⟨hActive, hKnown⟩ := hPatterns _ (List.mem_cons_self ..)
    obtain ⟨table, hTable⟩ := sound.exists_table hKnown
    obtain ⟨books, rfl, tally⟩ := MultiCriteria.books_of_visits sound legs visits
    obtain ⟨after, each, hScan, hEach, hFronts⟩ :=
      books.exists_scans tally.fronts sound legs hRate hBegun hTable hActive
    exact ⟨table, after, each, hTable, hScan, hEach, hFronts⟩

/-- A line with two trips. Who gets to its first stop only in time for the second of them still
catches the first by walking ahead to the second stop. -/
def Draft.ahead : Draft :=
  { calendar := Draft.shuttle.calendar
    stops := ["A", "B", "C"]
    patterns :=
      [{ name := "1", mode := .bus, stops := [0, 1, 2]
         trips := [{ service := 0, times := [⟨0, 0⟩, ⟨100, 100⟩, ⟨200, 200⟩] },
                   { service := 0, times := [⟨60, 60⟩, ⟨160, 160⟩, ⟨260, 260⟩] }] }]
    transfers := [] }

def Query.ahead : Query :=
  { Query.shuttle with
    network := Draft.ahead.pack Draft.ahead.patterns
    request := { Query.shuttle.request with
      time := 0, access := [⟨0, 30⟩, ⟨1, 40⟩], egress := [⟨2, 0⟩] } }

theorem Search.Planner.scan_agrees_with_each_ahead :
    ∃ day planner, Query.ahead.network.onDate Query.ahead.date Query.ahead.modes = .ok day ∧
      Planner.ofRequest day Query.ahead.request SearchConfig.shuttle = .ok planner ∧
      (∃ state, planner.Visits (Standard.strategy planner.problem) 0 1 (.scanning [0]) state ∧
        ∃ table after each, planner.problem.day.network.tripTable 0 = .ok table ∧
          (Standard.strategy planner.problem).scan table state = .ok after ∧
          scanEach planner.problem table (Standard.manner planner.problem table)
            (planner.problem.direction.positions table.numStops) state = .ok each ∧
          after.best = each.best) ∧
      ∃ state, planner.Visits (MultiCriteria.strategy planner.problem) 0 1 (.scanning [0]) state ∧
        ∃ table after each, planner.problem.day.network.tripTable 0 = .ok table ∧
          (MultiCriteria.strategy planner.problem).scan table state = .ok after ∧
          scanEach planner.problem table (MultiCriteria.manner planner.problem table)
            (planner.problem.direction.positions table.numStops) state = .ok each ∧
          ∀ stop, (after.fronts.get stop).Alike (each.fronts.get stop) := by
  have valid : Query.ahead.request.Valid 3 SearchConfig.shuttle := by
    constructor <;>
      simp [Query.ahead, Query.shuttle, SearchConfig.shuttle, Request.maxSupportedTransfers]
  obtain ⟨hStandard, hMulti⟩ := @Search.Planner.scan_agrees_with_each Draft.ahead Query.ahead _
    SearchConfig.shuttle _ 0 (Draft.build_of_pairwise (by decide +kernel) rfl) rfl
    (Planner.ofRequest_eq_ok_iff.mpr ⟨valid, rfl⟩)
  refine ⟨_, _, rfl, Planner.ofRequest_eq_ok_iff.mpr ⟨valid, rfl⟩, ?_, ?_⟩
  · exact ⟨_, .first (by decide) (by decide +kernel),
      @hStandard 1 0 [] _ (.first (by decide) (by decide +kernel))⟩
  · exact ⟨_, .first (by decide) (by decide +kernel),
      @hMulti (by decide) 1 0 [] _ (.first (by decide) (by decide +kernel))⟩

end JourneyPlanner
