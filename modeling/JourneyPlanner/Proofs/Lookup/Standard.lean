import JourneyPlanner.Proofs.Lookup.Legs
import JourneyPlanner.Proofs.Lookup.Strategy
import JourneyPlanner.Proofs.Search.Standard.Register

/-! The lookups of a search for the best time. All its tables have a cell for every stop, none of
their cells holds the number of a record that was not made, and no step looks at a stop that
the network does not have. Main statement: the strict steps agree with those of the strategy. -/
namespace JourneyPlanner.Search.Standard

namespace State

def sizes (state : State) : List Nat :=
  [state.best.times.cells.size, state.best.transitTimes.cells.size,
    state.best.reachedCurrent.marks.size, state.best.reachedLast.marks.size,
    state.best.reachedByTransit.marks.size, state.current.cells.size, state.last.cells.size,
    state.byTransit.cells.size]

def covers (state : State) (stop : Nat) : Bool :=
  state.sizes.all fun size => decide (stop < size)

/-- Whether a cell is blank or holds the number of a record. -/
def leads (state : State) (cell : Option Nat) : Bool :=
  cell.all fun id => decide (id < state.arrivals.size)

/-- Whether all stops of a set have cells, and one of the tables leads to records there. -/
def leadsFrom (state : State) (stops : IndexSet) (cells : IndexTable (Option Nat)) : Bool :=
  stops.toList.all fun stop => state.covers stop && state.leads (cells.get stop)

def strictEnter (problem : Problem) (time : Int) (state : State) (leg : WalkLeg) :
    Checked State := do
  Checked.require (state.covers leg.stop)
  return state.enter problem time leg

/-- Pass positions of a pattern in order. Each looks up the best times at its stop, and there the
arrival of the last round. -/
def strictPass (problem : Problem) (table : TripTable) :
    List Nat → Option Ride → State → Checked State
  | [], _, state => .ok state
  | position :: rest, ride, state => do
    let stop ← table.stopAt position
    Checked.require (state.covers stop)
    let state ← state.passOnBoard problem table position stop ride
    Checked.require (state.leads (state.last.get stop))
    let ride ← state.change problem table position stop ride
    strictPass problem table rest ride state

def strictScan (problem : Problem) (table : TripTable) (state : State) : Checked State := do
  Checked.require table.hasRows
  strictPass problem table (problem.direction.positions table.numStops) none state

def strictWalkAlong (problem : Problem) (source : Nat × Arrival) (state : State)
    (transfer : Transfer) : Checked State := do
  Checked.require (state.covers (problem.direction.transferTarget transfer))
  return state.walkAlong problem source transfer

def strictWalkFrom (problem : Problem) (tables : Tables) (state : State) (source : Nat × Arrival) :
    Checked State := do
  let walks ← tables.walksAt problem.direction source.2.stop
  walks.foldlM (strictWalkAlong problem source) state

def strictWalk (problem : Problem) (tables : Tables) (state : State) : Checked State := do
  Checked.require (state.leadsFrom state.best.reachedByTransit state.byTransit)
  Checked.require (state.leadsFrom state.best.reachedLast state.last)
  state.walkSources.foldlM (strictWalkFrom problem tables) state

def strictCandidates (problem : Problem) (state : State) : Checked (List DestinationArrival) := do
  Checked.require (state.leadsFrom state.best.reachedByTransit state.byTransit)
  let sources := state.arrivals.numbered
    (state.best.reachedByTransit.toList.filterMap state.byTransit.get)
  let ways ← sources.mapM fun source => do
    let legs ← problem.readEndLegsAt source.2.stop
    return legs.map (problem.destinationArrival state.round source.1 source.2)
  return ways.flatten

def strictFinish (problem : Problem) (state : State) : Checked State := do
  let candidates ← state.strictCandidates problem
  match bestCandidate problem.direction state.destinationTime candidates with
  | (time, some destination) =>
    return { state with
      destinationTime := time
      destinations := state.destinations ++ [destination] }
  | (_, none) => return state

end State

def strict (problem : Problem) (tables : Tables) : (strategy problem).Strict where
  start time := problem.startLegs.foldlM (State.strictEnter problem time) (State.initial problem)
  scan := State.strictScan problem
  walk := State.strictWalk problem tables
  finish := State.strictFinish problem
  isSettled _ := .ok false

/-- The entries of a table are numbers of records, be they from an earlier round. -/
def Numbers (arrivals : Arrivals) (cells : IndexTable (Option Nat)) : Prop :=
  ∀ stop id, cells.get stop = some id → id < arrivals.size

/-- All tables have a cell for every stop, and lead to records; and these were made at stops of the
network. -/
structure InRange (problem : Problem) (state : State) : Prop where
  sizes : ∀ size ∈ state.sizes, size = problem.numStops
  current : Numbers state.arrivals state.current
  last : Numbers state.arrivals state.last
  byTransit : Numbers state.arrivals state.byTransit
  stop_lt : ∀ arrival ∈ state.arrivals.toList, arrival.stop < problem.numStops

namespace State

variable (problem : Problem) (state : State)

theorem sizes_settle (arrival : Arrival) : (state.settle problem arrival).sizes = state.sizes := by
  unfold settle
  split
  · rfl
  · rename_i best hBest
    obtain ⟨-, rfl⟩ := BestTimes.improve?_eq_some_iff.mp hBest
    simp [sizes]

theorem sizes_alight (pattern stop : Nat) (ride : Ride) (time : Int) :
    (state.alight problem pattern stop ride time).sizes = state.sizes := by
  unfold alight
  split
  · split
    · rfl
    · rename_i best hBest
      obtain ⟨-, rfl⟩ := BestTimes.improveTransit?_eq_some_iff.mp hBest
      dsimp only
      split
      · simp [sizes]
      · rename_i better hBetter
        obtain ⟨-, rfl⟩ := BestTimes.improve?_eq_some_iff.mp hBetter
        simp [sizes]
  · rfl

end State

/-- The sources of walks are records. -/
theorem State.mem_arrivals_of_mem_walkSources {state : State} {source : Nat × Arrival}
    (h : source ∈ state.walkSources) : source.2 ∈ state.arrivals.toList := by
  rcases List.mem_append.mp h with hRide | hFoot
  · exact Arrivals.mem_toList_of_get? (Arrivals.mem_numbered.mp hRide).2
  · exact Arrivals.mem_toList_of_get? (Arrivals.mem_numbered.mp (List.mem_filter.mp hFoot).1).2

namespace Numbers

variable {arrivals later : Arrivals} {cells : IndexTable (Option Nat)}

theorem uniform (arrivals : Arrivals) (numStops : Nat) :
    Numbers arrivals (IndexTable.uniform numStops none) := by
  intro stop id h
  rw [IndexTable.get_uniform] at h
  cases h

/-- A new record leaves the numbers in the cells valid. -/
theorem push (numbers : Numbers arrivals cells) (arrival : Arrival) :
    Numbers (arrivals.push arrival) cells := fun stop id h =>
  Nat.lt_of_lt_of_le (numbers stop id h) (by simp)

theorem set (numbers : Numbers arrivals cells) (arrival : Arrival) (stop : Nat) :
    Numbers (arrivals.push arrival) (cells.set stop (some arrivals.size)) := by
  intro other id h
  rw [IndexTable.get_set] at h
  split at h
  · cases h
    simp
  · exact numbers.push arrival other id h

end Numbers

namespace InRange

variable {problem : Problem} {state : State} {arrival : Arrival} {tables : Tables}

theorem covers (inRange : InRange problem state) {stop : Nat} (hStop : stop < problem.numStops) :
    state.covers stop = true := by
  refine List.all_eq_true.mpr fun size hSize => ?_
  rw [inRange.sizes size hSize, decide_eq_true_eq]
  exact hStop

/-- The number in a cell is the number of a record. -/
theorem leads {cells : IndexTable (Option Nat)} (hCells : Numbers state.arrivals cells)
    (stop : Nat) : state.leads (cells.get stop) = true := by
  unfold State.leads
  cases hCell : cells.get stop with
  | none => rfl
  | some id => exact decide_eq_true (hCells stop id hCell)

theorem leadsFrom (inRange : InRange problem state) {stops : IndexSet}
    (hStops : stops.marks.size = problem.numStops) {cells : IndexTable (Option Nat)}
    (hCells : Numbers state.arrivals cells) : state.leadsFrom stops cells = true := by
  refine List.all_eq_true.mpr fun stop hStop => ?_
  have hInside := IndexSet.lt_size_of_contains (IndexSet.mem_toList.mp hStop)
  rw [inRange.covers (hStops ▸ hInside), leads hCells]
  rfl

theorem size_reachedLast (inRange : InRange problem state) :
    state.best.reachedLast.marks.size = problem.numStops :=
  inRange.sizes _ (by simp [State.sizes])

theorem reachedByTransit (inRange : InRange problem state) :
    state.leadsFrom state.best.reachedByTransit state.byTransit = true :=
  inRange.leadsFrom (inRange.sizes _ (by simp [State.sizes])) inRange.byTransit

theorem initial (problem : Problem) : InRange problem (State.initial problem) := by
  refine ⟨?_, .uniform _ _, .uniform _ _, .uniform _ _, ?_⟩
  · simp [State.sizes, State.initial, BestTimes.initial, IndexTable.uniform, IndexSet.empty]
  · simp [State.initial, Arrivals.empty, Arrivals.toList]

theorem beginRound (inRange : InRange problem state) (round : Nat) :
    InRange problem (state.beginRound round) := by
  refine ⟨fun size hSize => inRange.sizes size ?_, inRange.last, inRange.current,
    inRange.byTransit, inRange.stop_lt⟩
  simp only [State.sizes, State.beginRound, BestTimes.prepareRound, IndexSet.clear, IndexSet.empty,
    Array.size_replicate] at hSize ⊢
  simpa only [List.mem_cons, or_comm, or_left_comm, or_assoc] using hSize

/-- The records stay at stops of the network. -/
theorem stop_lt_push (inRange : InRange problem state) (hStop : arrival.stop < problem.numStops) :
    ∀ other ∈ (state.arrivals.push arrival).toList, other.stop < problem.numStops := by
  intro other hOther
  rcases Arrivals.mem_push.mp hOther with hOld | rfl
  · exact inRange.stop_lt other hOld
  · exact hStop

/-- Settling a record keeps every index in range. -/
theorem settle (inRange : InRange problem state) (hStop : arrival.stop < problem.numStops) :
    InRange problem (state.settle problem arrival) := by
  have hSizes := inRange.sizes
  rw [← State.sizes_settle problem state arrival] at hSizes
  revert hSizes
  unfold State.settle
  split
  · exact fun _ => inRange
  · intro hSizes
    exact ⟨hSizes, inRange.current.set arrival _, inRange.last.push arrival,
      inRange.byTransit.push arrival, inRange.stop_lt_push hStop⟩

/-- Alighting keeps every index in range. -/
theorem alight (inRange : InRange problem state) {stop : Nat} (hStop : stop < problem.numStops)
    (pattern : Nat) (ride : Ride) (time : Int) :
    InRange problem (state.alight problem pattern stop ride time) := by
  have hSizes := inRange.sizes
  have hCurrent := inRange.current.push (ride.arrival problem state.round pattern stop time)
  have hLast := inRange.last.push (ride.arrival problem state.round pattern stop time)
  have hByTransit := inRange.byTransit.set (ride.arrival problem state.round pattern stop time) stop
  have hStops := @stop_lt_push _ _ (ride.arrival problem state.round pattern stop time) inRange
    hStop
  rw [← State.sizes_alight problem state pattern stop ride time] at hSizes
  revert hSizes
  unfold State.alight
  split
  · split
    · exact fun _ => inRange
    · dsimp only
      split
      · intro hSizes
        exact ⟨hSizes, hCurrent, hLast, hByTransit, hStops⟩
      · intro hSizes
        exact ⟨hSizes, inRange.current.set (ride.arrival problem state.round pattern stop time) stop,
          hLast, hByTransit, hStops⟩
  · exact fun _ => inRange

/-- A start leg is entered without a lookup outside of a table. -/
theorem strictEnter (inRange : InRange problem state) (time : Int) {leg : WalkLeg}
    (hStop : leg.stop < problem.numStops) :
    state.strictEnter problem time leg = .ok (state.enter problem time leg) ∧
      InRange problem (state.enter problem time leg) := by
  rw [State.strictEnter, Checked.require_eq_ok (inRange.covers hStop)]
  exact ⟨rfl, inRange.settle hStop⟩

/-- Passing a stop on board keeps every index in range. -/
theorem passOnBoard (inRange : InRange problem state) {table : TripTable} {position stop : Nat}
    (hStop : stop < problem.numStops) {ride : Option Ride} {next : State}
    (hNext : state.passOnBoard problem table position stop ride = .ok next) :
    InRange problem next := by
  cases ride with
  | none =>
      cases hNext
      exact inRange
  | some ride =>
      obtain ⟨time, -, hNext⟩ := Checked.bind_eq_ok_iff.mp hNext
      cases hNext
      exact inRange.alight hStop table.pattern ride time

/-- Positions are passed without a lookup outside of a table. The induction is on the positions
still to be passed. -/
theorem strictPass {table : TripTable}
    (hStops : ∀ {position stop}, table.stopAt position = .ok stop → stop < problem.numStops)
    (positions : List Nat) (ride : Option Ride) (inRange : InRange problem state) :
    State.strictPass problem table positions ride state =
        (State.pass problem table positions ride state).mapError Stopped.fault ∧
      ∀ after, State.pass problem table positions ride state = .ok after →
        InRange problem after := by
  induction positions generalizing state ride with
  | nil =>
      refine ⟨rfl, fun after hAfter => ?_⟩
      cases hAfter
      exact inRange
  | cons position rest ih =>
      rw [State.strictPass, State.pass]
      cases hStop : table.stopAt position with
      | error fault => exact ⟨rfl, fun _ h => by cases h⟩
      | ok stop =>
          simp only [bind, Except.bind, Checked.require_eq_ok (inRange.covers (hStops hStop))]
          cases hNext : state.passOnBoard problem table position stop ride with
          | error fault => exact ⟨rfl, fun _ h => by cases h⟩
          | ok next =>
              have hPassed := inRange.passOnBoard (hStops hStop) hNext
              simp only [Checked.require_eq_ok (leads hPassed.last stop)]
              cases hChange : next.change problem table position stop ride with
              | error fault => exact ⟨rfl, fun _ h => by cases h⟩
              | ok change => exact ih change hPassed

section Linked

variable (linked : problem.day.network.Linked)

include linked

/-- Scanning a pattern reads and writes inside the tables. -/
theorem strictScan {pattern : Nat} {table : TripTable}
    (hTable : problem.day.network.tripTable pattern = .ok table) (inRange : InRange problem state) :
    state.strictScan problem table =
        (State.scan problem table state).mapError Stopped.fault ∧
      ∀ after, State.scan problem table state = .ok after → InRange problem after := by
  rw [State.strictScan, Checked.require_eq_ok (linked.shaped hTable).hasRows]
  exact strictPass (linked.stop_lt hTable) _ none inRange

/-- Walking on from a stop reads and writes inside the tables. -/
theorem strictWalkFrom (hold : tables.Hold problem.day.network) {source : Nat × Arrival}
    (hSource : source.2.stop < problem.numStops) (inRange : InRange problem state) :
    state.strictWalkFrom problem tables source =
        .ok ((problem.transfersAt source.2.stop).foldl (State.walkAlong problem source) state) ∧
      InRange problem
        ((problem.transfersAt source.2.stop).foldl (State.walkAlong problem source) state) := by
  rw [State.strictWalkFrom, hold.walks hSource]
  apply foldlM_eq_ok inRange
  intro transfer hWalk next hNext
  have hTarget := (linked.transfers hWalk).1
  rw [State.strictWalkAlong, Checked.require_eq_ok (hNext.covers hTarget),
    State.walkAlong_eq_settle]
  refine ⟨rfl, ?_⟩
  split
  · exact hNext.settle hTarget
  · exact hNext

/-- The walks of a round read and write inside the tables. -/
theorem strictWalk (hold : tables.Hold problem.day.network) (inRange : InRange problem state) :
    state.strictWalk problem tables = .ok (state.walk problem) ∧
      InRange problem (state.walk problem) := by
  rw [State.strictWalk, Checked.require_eq_ok inRange.reachedByTransit,
    Checked.require_eq_ok (inRange.leadsFrom inRange.size_reachedLast inRange.last)]
  apply foldlM_eq_ok inRange
  intro source hSource next hNext
  have hStop := inRange.stop_lt _ (State.mem_arrivals_of_mem_walkSources hSource)
  exact hNext.strictWalkFrom linked hold hStop

end Linked

/-- The stops left for the destination all have their legs and their records. -/
theorem strictCandidates (inRange : InRange problem state) (sorted : problem.HasSortedLegs) :
    state.strictCandidates problem = .ok (state.candidates problem) := by
  rw [State.strictCandidates, Checked.require_eq_ok inRange.reachedByTransit]
  simp only [bind, Except.bind]
  rw [mapM_eq_ok (fun source _ => by rw [sorted.readEndLegsAt]; rfl), State.candidates,
    List.flatMap_def]
  rfl

/-- Finishing a round reads and writes inside the tables. -/
theorem strictFinish (inRange : InRange problem state) (sorted : problem.HasSortedLegs) :
    state.strictFinish problem = .ok (state.finish problem) ∧
      InRange problem (state.finish problem) := by
  rw [State.strictFinish, inRange.strictCandidates sorted, State.finish]
  simp only [bind, Except.bind]
  obtain ⟨time, best⟩ := State.bestCandidate problem.direction state.destinationTime
    (state.candidates problem)
  cases best with
  | none => exact ⟨rfl, inRange⟩
  | some destination =>
      exact ⟨rfl, inRange.sizes, inRange.current, inRange.last, inRange.byTransit, inRange.stop_lt⟩

end InRange

/-- On a linked network a strict search for the best time agrees with one that checks nothing. -/
theorem agrees_strict {problem : Problem} {tables : Tables} (linked : problem.day.network.Linked)
    (legs : problem.KnownLegs) (sorted : problem.HasSortedLegs)
    (hold : tables.Hold problem.day.network) :
    (strict problem tables).Agrees problem.day (InRange problem) where
  start time := by
    apply foldlM_eq_ok (InRange.initial problem)
    intro leg hLeg state inRange
    exact inRange.strictEnter time (legs leg (Or.inl hLeg)).1
  beginRound round inRange := inRange.beginRound round
  frontier {state} inRange stop hStop := by
    have hInside := IndexSet.lt_size_of_contains (IndexSet.mem_toList.mp hStop)
    rw [inRange.size_reachedLast] at hInside
    exact hInside
  scan hTable inRange := inRange.strictScan linked hTable
  walk inRange := inRange.strictWalk linked hold
  finish inRange := inRange.strictFinish sorted
  isSettled _ := rfl

end JourneyPlanner.Search.Standard
