import JourneyPlanner.Proofs.Lookup.Tables
import JourneyPlanner.Proofs.Search.Rounds

/-! A search in which every lookup is checked. The tables of a search are total: outside of them
they read as blank, and what is written there is lost. A strict search gives up instead. Main
statement: strict steps that agree with the steps of a strategy, as long as something holds that
all of them keep, make up a run that agrees with the one of the strategy, faults included. -/
namespace JourneyPlanner

def Checked.require (condition : Bool) : Checked Unit :=
  if condition then .ok () else .error .outOfRange

theorem Checked.require_eq_ok {condition : Bool} (h : condition = true) :
    Checked.require condition = .ok () :=
  if_pos h

section Lists

variable {ε α β State : Type} {items : List α}

/-- Checked reads that all succeed amount to a plain map. -/
theorem mapM_eq_ok {read : α → Except ε β} {value : α → β}
    (h : ∀ item ∈ items, read item = .ok (value item)) :
    items.mapM read = .ok (items.map value) := by
  induction items with
  | nil => rfl
  | cons item rest ih =>
      obtain ⟨hFirst, hRest⟩ := List.forall_mem_cons.mp h
      rw [List.mapM_cons, hFirst, ih hRest, List.map_cons]
      rfl

theorem mapM_eq_of_map_eq {read : α → Except ε β} {values : List β}
    (h : items.map read = values.map .ok) : items.mapM read = .ok values := by
  induction items generalizing values with
  | nil =>
      cases values with
      | nil => rfl
      | cons => cases h
  | cons item rest ih =>
      cases values with
      | nil => cases h
      | cons value others =>
          rw [List.map_cons, List.map_cons, List.cons.injEq] at h
          rw [List.mapM_cons, h.1, ih h.2]
          rfl

/-- Steps that do not fail as long as something holds that they keep, do what they do without a
check. -/
theorem foldlM_eq_ok {check : State → α → Except ε State} {step : State → α → State}
    {Holds : State → Prop} {state : State} (hState : Holds state)
    (hStep : ∀ item ∈ items, ∀ state, Holds state →
      check state item = .ok (step state item) ∧ Holds (step state item)) :
    items.foldlM check state = .ok (items.foldl step state) ∧ Holds (items.foldl step state) := by
  induction items generalizing state with
  | nil => exact ⟨rfl, hState⟩
  | cons item rest ih =>
      obtain ⟨hFirst, hRest⟩ := List.forall_mem_cons.mp hStep
      obtain ⟨hCheck, hNext⟩ := hFirst state hState
      obtain ⟨hAll, hLast⟩ := ih hNext hRest
      refine ⟨?_, hLast⟩
      rw [List.foldlM_cons, hCheck]
      exact hAll

end Lists

/-- The patterns that take part and visit one of the stops, with the visits read from the tables. -/
def Tables.patternsTouching (tables : Tables) (day : DayTimetable) (stops : List Nat) :
    Checked (List Nat) := do
  let visits ← stops.mapM tables.visitsAt
  let touched := (visits.flatMap (List.map Visit.pattern)).filter day.activePatterns.contains
  return (IndexSet.ofList day.network.numPatterns touched).toList

/-- The patterns touching known stops are read inside the tables. -/
theorem Tables.Hold.patternsTouching {tables : Tables} {day : DayTimetable}
    (hold : tables.Hold day.network) {stops : List Nat}
    (hStops : ∀ stop ∈ stops, stop < day.numStops) :
    tables.patternsTouching day stops = .ok (day.patternsTouching stops) := by
  have hVisits : stops.mapM tables.visitsAt = .ok (stops.map fun stop =>
      (day.network.stops[stop]?.map Stop.visits).getD []) := by
    apply mapM_eq_ok
    intro stop hStop
    have hData := Array.getElem?_eq_getElem (hStops stop hStop)
    rw [hold.visits hData, hData]
    rfl
  have hTouched : (stops.flatMap fun stop =>
      ((day.network.stops[stop]?.map Stop.visits).getD []).map Visit.pattern).filter
        day.activePatterns.contains = stops.flatMap day.patternsAt := by
    rw [List.filter_flatMap]
    apply List.flatMap_congr
    intro stop hStop
    rw [DayTimetable.patternsAt, Array.getElem?_eq_getElem (hStops stop hStop)]
    rfl
  rw [Tables.patternsTouching, hVisits]
  simp only [bind, Except.bind, List.flatMap_map, hTouched]
  rfl

/-- Whether the table has a row of times for every trip. -/
def TripTable.hasRows (table : TripTable) : Bool :=
  (List.range table.numTrips).all fun trip => (table.schedule trip).isOk

theorem TripTable.Shaped.hasRows {table : TripTable} (shaped : table.Shaped) :
    table.hasRows = true := by
  refine List.all_eq_true.mpr fun trip hTrip => ?_
  rw [List.mem_range] at hTrip
  have hEnd : trip * table.numStops + table.numStops ≤ table.times.size := by
    rw [shaped.size_times, ← Nat.succ_mul]
    exact Nat.mul_le_mul_right _ hTrip
  have hRow := slice?_eq_some_iff.mpr ⟨hEnd, rfl⟩
  simp only [schedule, Array.getElem?_eq_getElem hTrip, hRow, Checked.lookup, bind, Except.bind]
  rfl

namespace Search

/-- The steps of a strategy that look something up. Each is given up if that falls outside its
table. -/
structure Strategy.Strict {State : Type} (strategy : Strategy State) where
  start : Int → Checked State
  scan : TripTable → State → Checked State
  walk : State → Checked State
  finish : State → Checked State
  isSettled : State → Checked Bool

namespace Strategy.Strict

variable {State : Type} {strategy : Strategy State}

def scanAll (strict : strategy.Strict) (network : Network) : List Nat → State → Checked State
  | [], state => .ok state
  | pattern :: rest, state => do
    let table ← network.tripTable pattern
    if table.numStops = 0 then .error (.integrity (.emptyPattern pattern))
    else
      let state ← strict.scan table state
      strict.scanAll network rest state

/-- Run further rounds, at most a given number, after those whose scanned patterns are listed. -/
def rounds (strict : strategy.Strict) (tables : Tables) (day : DayTimetable)
    (late : Nat → Bool) : (left : Nat) → (scanned : List Nat) → State → Checked (Completed State)
  | 0, scanned, state => .ok ⟨state, scanned, .maxRounds⟩
  | left + 1, scanned, state =>
    if late scanned.length then .ok ⟨state, scanned, .deadline⟩
    else do
      let state := strategy.beginRound (scanned.length + 1) state
      let patterns ← tables.patternsTouching day (strategy.frontier state)
      let scanned := scanned ++ [patterns.length]
      let state ← strict.scanAll day.network patterns state
      let state ← strict.walk state
      let state ← strict.finish state
      let isSettled ← strict.isSettled state
      if !strategy.hasProgressed state then .ok ⟨state, scanned, .fixedPoint⟩
      else if isSettled then .ok ⟨state, scanned, .destinationPruned⟩
      else strict.rounds tables day late left scanned state

def run (strict : strategy.Strict) (tables : Tables) (planner : Planner) (time : Int)
    (watch : Stopwatch) : Checked Run := do
  let state ← strict.start time
  let ended ← strict.rounds tables planner.problem.day (watch.isPast planner.timeLimit)
    planner.maxRounds [] state
  return { time, direction := planner.problem.direction
           found := strategy.found ended.state
           scanned := ended.scanned
           termination := ended.termination }

/-- As long as something holds that all steps keep, the strict steps do what those of the strategy
do, and no stop to go on from is unknown. -/
structure Agrees (strict : strategy.Strict) (day : DayTimetable) (Holds : State → Prop) : Prop where
  start : ∀ time, strict.start time = .ok (strategy.start time) ∧ Holds (strategy.start time)
  beginRound : ∀ {state} round, Holds state → Holds (strategy.beginRound round state)
  frontier : ∀ {state}, Holds state → ∀ stop ∈ strategy.frontier state, stop < day.numStops
  scan : ∀ {pattern table state}, day.network.tripTable pattern = .ok table → Holds state →
    strict.scan table state = (strategy.scan table state).mapError Stopped.fault ∧
      ∀ after, strategy.scan table state = .ok after → Holds after
  walk : ∀ {state}, Holds state →
    strict.walk state = .ok (strategy.walk state) ∧ Holds (strategy.walk state)
  finish : ∀ {state}, Holds state →
    strict.finish state = .ok (strategy.finish state) ∧ Holds (strategy.finish state)
  isSettled : ∀ {state}, Holds state → strict.isSettled state = .ok (strategy.isSettled state)

namespace Agrees

variable {strict : strategy.Strict} {day : DayTimetable} {Holds : State → Prop} {tables : Tables}

/-- Scans that agree pattern by pattern agree over all the patterns of a round. -/
theorem scanAll (agrees : strict.Agrees day Holds) (patterns : List Nat) {state : State}
    (hState : Holds state) :
    strict.scanAll day.network patterns state =
        (strategy.scanAll day.network patterns state).mapError Stopped.fault ∧
      ∀ after, strategy.scanAll day.network patterns state = .ok after → Holds after := by
  induction patterns generalizing state with
  | nil =>
      refine ⟨rfl, fun after hAfter => ?_⟩
      cases hAfter
      exact hState
  | cons pattern rest ih =>
      rw [Strict.scanAll, Strategy.scanAll]
      cases hTable : day.network.tripTable pattern with
      | error fault => exact ⟨rfl, fun _ h => by cases h⟩
      | ok table =>
          obtain ⟨hScan, hHolds⟩ := agrees.scan hTable hState
          simp only [bind, Except.bind]
          split
          · exact ⟨rfl, fun _ h => by cases h⟩
          · rw [hScan]
            cases hNext : strategy.scan table state with
            | error stopped => exact ⟨rfl, fun _ h => by cases h⟩
            | ok next => exact ih (hHolds next hNext)

/-- The rounds of a strict search are those of the strategy. The induction is on the rounds left. -/
theorem rounds (agrees : strict.Agrees day Holds) (hold : tables.Hold day.network)
    (late : Nat → Bool) (left : Nat) (scanned : List Nat) {state : State} (hState : Holds state) :
    strict.rounds tables day late left scanned state =
      (strategy.rounds day late left scanned state).mapError Interrupted.fault := by
  induction left generalizing scanned state with
  | zero => rfl
  | succ left ih =>
      rw [Strict.rounds, Strategy.rounds]
      cases late scanned.length with
      | true => rfl
      | false =>
          have hBegun := agrees.beginRound (scanned.length + 1) hState
          obtain ⟨hScan, hHolds⟩ := agrees.scanAll
            (strategy.patterns day (strategy.beginRound (scanned.length + 1) state)) hBegun
          rw [if_neg Bool.false_ne_true, if_neg Bool.false_ne_true]
          dsimp only
          rw [hold.patternsTouching (agrees.frontier hBegun), ← Strategy.patterns]
          simp only [bind, Except.bind]
          rw [hScan]
          cases hNext : strategy.scanAll day.network
              (strategy.patterns day (strategy.beginRound (scanned.length + 1) state))
              (strategy.beginRound (scanned.length + 1) state) with
          | error stopped => rfl
          | ok next =>
              obtain ⟨hWalk, hWalked⟩ := agrees.walk (hHolds next hNext)
              obtain ⟨hFinish, hFinished⟩ := agrees.finish hWalked
              simp only [Except.mapError, hWalk, hFinish, agrees.isSettled hFinished]
              split
              · rfl
              · split
                · rfl
                · exact ih _ hFinished

/-- So the strict run is the one by the strategy. -/
theorem run {planner : Planner} (agrees : strict.Agrees planner.problem.day Holds)
    (hold : tables.Hold planner.problem.day.network) (time : Int)
    (watch : Stopwatch) :
    strict.run tables planner time watch =
      (planner.runWith strategy time watch).mapError BrokenRun.fault := by
  obtain ⟨hStart, hHolds⟩ := agrees.start time
  rw [Strict.run, Planner.runWith, hStart]
  simp only [bind, Except.bind]
  rw [agrees.rounds hold (watch.isPast planner.timeLimit) planner.maxRounds [] hHolds]
  cases strategy.rounds planner.problem.day (watch.isPast planner.timeLimit) planner.maxRounds []
    (strategy.start time) <;> rfl

end Agrees

end Strategy.Strict

end Search

end JourneyPlanner
