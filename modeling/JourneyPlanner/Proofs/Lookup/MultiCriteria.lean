import JourneyPlanner.Proofs.Lookup.Legs
import JourneyPlanner.Proofs.Lookup.Strategy
import JourneyPlanner.Proofs.Search.MultiCriteria.Offers

/-! The lookups of a search for the best compromises. Every stop has a front, which holds the
numbers of records that were made, and no step looks at a stop that the network does not have.
Main statement: the strict steps agree with those of the strategy. -/
namespace JourneyPlanner.Search.MultiCriteria

namespace State

/-- The sizes of the table and the sets that are looked up by stop. -/
def sizes (state : State) : List Nat :=
  [state.fronts.cells.size, state.reachedCurrent.marks.size, state.reachedLast.marks.size,
    state.reachedByTransit.marks.size]

def covers (state : State) (stop : Nat) : Bool :=
  state.sizes.all fun size => decide (stop < size)

def comparable (criteria : List Int) : Bool :=
  decide (pruningRules.criteria.length ≤ criteria.length)

/-- Whether a stop has a front, and the entries of it have the numbers of records and can be
compared with the ways to the destination. -/
def leads (state : State) (stop : Nat) : Bool :=
  state.covers stop && (state.fronts.get stop).entries.all fun entry =>
    decide (entry.item < state.arrivals.size) && comparable entry.criteria

/-- Record an arrival in the front of its stop, once it is compared with the ways to the
destination. -/
def strictAdd (problem : Problem) (state : State) (arrival : Arrival) : Checked State := do
  Checked.require (state.covers arrival.stop)
  Checked.require (comparable (stopCriteria problem.direction arrival))
  return state.add problem arrival

/-- Pass positions of a pattern in order. Each offers arrivals to the front of its stop, and looks
up there those of the last round. -/
def strictPass (problem : Problem) (table : TripTable) :
    List Nat → Front Ride → State → Checked State
  | [], _, state => .ok state
  | position :: rest, rides, state => do
    let stop ← table.stopAt position
    let arrivals ← alightings problem table state.round position stop rides.items
    let state ← arrivals.foldlM (strictAdd problem) state
    Checked.require (state.leads stop)
    let boarded ← state.boardingsAt problem table position stop
    let rides := rides.offerAll rideRules (boarded.map (rideEntry problem.direction))
    strictPass problem table rest rides state

def strictScan (problem : Problem) (table : TripTable) (state : State) : Checked State := do
  Checked.require table.hasRows
  strictPass problem table (problem.direction.positions table.numStops) Front.empty state

def strictWalkFrom (problem : Problem) (tables : Tables) (state : State) (source : Nat × Arrival) :
    Checked State := do
  let walks ← tables.walksAt problem.direction source.2.stop
  walks.foldlM
    (fun state walk =>
      state.strictAdd problem (problem.walkArrival state.round source.1 source.2 walk))
    state

def strictWalk (problem : Problem) (tables : Tables) (state : State) : Checked State := do
  Checked.require (state.reachedByTransit.toList.all state.leads)
  Checked.require (state.reachedLast.toList.all state.leads)
  state.walkSources.foldlM (strictWalkFrom problem tables) state

/-- The ways to the destination, with the legs of each stop found by bisection. -/
def strictCandidates (problem : Problem) (state : State) : Checked (List DestinationArrival) := do
  let ways ← state.reachedByTransit.toList.mapM fun stop => do
    Checked.require (state.leads stop)
    let legs ← problem.readEndLegsAt stop
    let sources := (state.arrivalsAt stop state.round).filter fun source => source.2.isTransit
    return sources.flatMap fun source =>
      legs.map (problem.destinationArrival state.round source.1 source.2)
  return ways.flatten

def strictFinish (problem : Problem) (state : State) : Checked State := do
  let candidates ← state.strictCandidates problem
  return candidates.foldl (offerDestination problem) state

def strictIsSettled (problem : Problem) (state : State) : Checked Bool := do
  Checked.require (state.reachedCurrent.toList.all state.leads)
  return state.isSettled problem

end State

def strict (problem : Problem) (tables : Tables) : (strategy problem).Strict where
  start time :=
    (problem.startLegs.map (problem.accessArrival time)).foldlM (State.strictAdd problem)
      (State.initial problem)
  scan := State.strictScan problem
  walk := State.strictWalk problem tables
  finish := State.strictFinish problem
  isSettled := State.strictIsSettled problem

/-- Every stop has a front, the entries of the fronts have the numbers of records, and these were
made at stops of the network. -/
structure InRange (problem : Problem) (state : State) : Prop where
  sizes : ∀ size ∈ state.sizes, size = problem.numStops
  entry : ∀ {stop entry}, entry ∈ (state.fronts.get stop).entries →
    entry.item < state.arrivals.size ∧ State.comparable entry.criteria = true
  stop_lt : ∀ arrival ∈ state.arrivals.toList, arrival.stop < problem.numStops

/-- The arrivals made by leaving rides at a stop are arrivals at that stop. -/
theorem State.stop_of_mem_alightings {problem : Problem} {table : TripTable}
    {round position stop : Nat} {rides : List Ride} {arrivals : List Arrival}
    (h : alightings problem table round position stop rides = .ok arrivals) :
    ∀ arrival ∈ arrivals, arrival.stop = stop := by
  induction rides generalizing arrivals with
  | nil =>
      cases h
      exact List.forall_mem_nil _
  | cons ride rest ih =>
      obtain ⟨time, -, h⟩ := Checked.bind_eq_ok_iff.mp h
      obtain ⟨others, hOthers, h⟩ := Checked.bind_eq_ok_iff.mp h
      cases h
      exact List.forall_mem_cons.mpr ⟨rfl, ih hOthers⟩

/-- The sources of walks are records. -/
theorem State.mem_arrivals_of_mem_walkSources {state : State} {source : Nat × Arrival}
    (h : source ∈ state.walkSources) : source.2 ∈ state.arrivals.toList := by
  have hHeld : ∀ {stop round}, source ∈ state.arrivalsAt stop round →
      source.2 ∈ state.arrivals.toList := fun hMem =>
    Arrivals.mem_toList_of_get? (Arrivals.mem_numbered.mp (List.mem_filter.mp hMem).1).2
  rcases List.mem_append.mp h with hRide | hFoot
  · obtain ⟨stop, -, hMem⟩ := List.mem_flatMap.mp hRide
    exact hHeld (List.mem_filter.mp hMem).1
  · obtain ⟨stop, -, hMem⟩ := List.mem_flatMap.mp hFoot
    exact hHeld (List.mem_filter.mp hMem).1

namespace InRange

variable {problem : Problem} {state : State} {arrival : Arrival} {tables : Tables}

/-- Every stop of the network has its cells in the tables. -/
theorem covers (inRange : InRange problem state) {stop : Nat} (hStop : stop < problem.numStops) :
    state.covers stop = true := by
  refine List.all_eq_true.mpr fun size hSize => ?_
  rw [inRange.sizes size hSize, decide_eq_true_eq]
  exact hStop

theorem leads (inRange : InRange problem state) {stop : Nat} (hStop : stop < problem.numStops) :
    state.leads stop = true := by
  rw [State.leads, inRange.covers hStop, Bool.true_and]
  refine List.all_eq_true.mpr fun entry hEntry => ?_
  obtain ⟨hItem, hCriteria⟩ := inRange.entry hEntry
  rw [hCriteria, Bool.and_true]
  exact decide_eq_true hItem

/-- The sets of stops only ever hold stops of the network. -/
theorem lt_numStops (inRange : InRange problem state) {set : IndexSet}
    (hSet : set.marks.size ∈ state.sizes) {stop : Nat} (hStop : stop ∈ set.toList) :
    stop < problem.numStops := by
  have hInside := IndexSet.lt_size_of_contains (IndexSet.mem_toList.mp hStop)
  rw [inRange.sizes _ hSet] at hInside
  exact hInside

theorem allLead (inRange : InRange problem state) {set : IndexSet}
    (hSet : set.marks.size ∈ state.sizes) : set.toList.all state.leads = true :=
  List.all_eq_true.mpr fun _ hStop => inRange.leads (inRange.lt_numStops hSet hStop)

theorem initial (problem : Problem) : InRange problem (State.initial problem) := by
  refine ⟨?_, ?_, ?_⟩
  · simp [State.sizes, State.initial, IndexTable.uniform, IndexSet.empty]
  · simp [State.initial, Front.empty]
  · simp [State.initial, Arrivals.empty, Arrivals.toList]

theorem beginRound (inRange : InRange problem state) (round : Nat) :
    InRange problem (state.beginRound round) := by
  refine ⟨fun size hSize => inRange.sizes size ?_, inRange.entry, inRange.stop_lt⟩
  simp only [State.sizes, State.beginRound, IndexSet.clear, IndexSet.empty,
    Array.size_replicate] at hSize ⊢
  simpa only [List.mem_cons, or_comm, or_left_comm, or_assoc] using hSize

/-- Adding an arrival at a stop of the network keeps every index in range. -/
theorem add (inRange : InRange problem state) (hStop : arrival.stop < problem.numStops) :
    InRange problem (state.add problem arrival) := by
  rcases state.add_eq_or problem arrival with hSame | ⟨front, hFront, hAdd⟩
  · rw [hSame]
    exact inRange
  · rw [hAdd]
    refine ⟨fun size hSize => inRange.sizes size ?_, fun {stop entry} hEntry => ?_,
      fun other hOther => ?_⟩
    · revert hSize
      by_cases hTransit : arrival.isTransit = true <;> simp [State.sizes, hTransit]
    · rw [Arrivals.size_push]
      dsimp only at hEntry
      rw [IndexTable.get_set] at hEntry
      split at hEntry
      · rw [← Front.offer_eq_of_some hFront] at hEntry
        rcases Front.mem_of_mem_offer hEntry with hOld | rfl
        · exact (inRange.entry hOld).imp_left Nat.lt_succ_of_lt
        · exact ⟨Nat.lt_succ_self _, rfl⟩
      · exact (inRange.entry hEntry).imp_left Nat.lt_succ_of_lt
    · rcases Arrivals.mem_push.mp hOther with hOld | rfl
      · exact inRange.stop_lt other hOld
      · exact hStop

/-- Inside the tables, the checked addition is the plain one. -/
theorem strictAdd (inRange : InRange problem state) (hStop : arrival.stop < problem.numStops) :
    state.strictAdd problem arrival = .ok (state.add problem arrival) ∧
      InRange problem (state.add problem arrival) := by
  rw [State.strictAdd, Checked.require_eq_ok (inRange.covers hStop)]
  exact ⟨rfl, inRange.add hStop⟩

/-- Positions are passed without a lookup outside of a table. The induction is on the positions
still to be passed. -/
theorem strictPass {table : TripTable}
    (hStops : ∀ {position stop}, table.stopAt position = .ok stop → stop < problem.numStops)
    (positions : List Nat) (rides : Front Ride) (inRange : InRange problem state) :
    State.strictPass problem table positions rides state =
        (State.pass problem table (State.add problem) positions rides state).mapError
          Stopped.fault ∧
      ∀ after, State.pass problem table (State.add problem) positions rides state = .ok after →
        InRange problem after := by
  induction positions generalizing state rides with
  | nil =>
      refine ⟨rfl, fun after hAfter => ?_⟩
      cases hAfter
      exact inRange
  | cons position rest ih =>
      rw [State.strictPass, State.pass]
      cases hStop : table.stopAt position with
      | error fault => exact ⟨rfl, fun _ h => by cases h⟩
      | ok stop =>
          simp only [bind, Except.bind]
          cases hArrivals :
              State.alightings problem table state.round position stop rides.items with
          | error fault => exact ⟨rfl, fun _ h => by cases h⟩
          | ok arrivals =>
              obtain ⟨hOffers, hOffered⟩ := foldlM_eq_ok inRange fun arrival hArrival next hNext =>
                strictAdd hNext (State.stop_of_mem_alightings hArrivals arrival hArrival ▸
                  hStops hStop)
              simp only [hOffers, Checked.require_eq_ok (hOffered.leads (hStops hStop))]
              cases hBoarded : (arrivals.foldl (State.add problem) state).boardingsAt problem table
                  position stop with
              | error fault => exact ⟨rfl, fun _ h => by cases h⟩
              | ok boarded => exact ih _ hOffered

section Linked

variable (linked : problem.day.network.Linked)

include linked

/-- Scanning a pattern reads and writes inside the tables. -/
theorem strictScan {pattern : Nat} {table : TripTable}
    (hTable : problem.day.network.tripTable pattern = .ok table) (inRange : InRange problem state) :
    state.strictScan problem table =
        (State.scan problem (State.add problem) table state).mapError Stopped.fault ∧
      ∀ after, State.scan problem (State.add problem) table state = .ok after →
        InRange problem after := by
  rw [State.strictScan, Checked.require_eq_ok (linked.shaped hTable).hasRows]
  exact strictPass (linked.stop_lt hTable) _ Front.empty inRange

/-- Walking on from a stop reads and writes inside the tables. -/
theorem strictWalkFrom (hold : tables.Hold problem.day.network) {source : Nat × Arrival}
    (hSource : source.2.stop < problem.numStops) (inRange : InRange problem state) :
    state.strictWalkFrom problem tables source =
        .ok ((problem.transfersAt source.2.stop).foldl (fun state walk => state.add problem
          (problem.walkArrival state.round source.1 source.2 walk)) state) ∧
      InRange problem ((problem.transfersAt source.2.stop).foldl (fun state walk =>
        state.add problem (problem.walkArrival state.round source.1 source.2 walk)) state) := by
  rw [State.strictWalkFrom, hold.walks hSource]
  apply foldlM_eq_ok inRange
  intro walk hWalk next hNext
  exact hNext.strictAdd (linked.transfers hWalk).1

/-- The walks of a round read and write inside the tables. -/
theorem strictWalk (hold : tables.Hold problem.day.network) (inRange : InRange problem state) :
    state.strictWalk problem tables = .ok (state.walk problem (State.add problem)) ∧
      InRange problem (state.walk problem (State.add problem)) := by
  rw [State.strictWalk,
    Checked.require_eq_ok (inRange.allLead (by simp [State.sizes])),
    Checked.require_eq_ok (inRange.allLead (by simp [State.sizes]))]
  apply foldlM_eq_ok inRange
  intro source hSource next hNext
  have hStop := inRange.stop_lt _ (State.mem_arrivals_of_mem_walkSources hSource)
  exact hNext.strictWalkFrom linked hold hStop

end Linked

/-- The stops left for the destination all have their legs and their records. -/
theorem strictCandidates (inRange : InRange problem state) (sorted : problem.HasSortedLegs) :
    state.strictCandidates problem = .ok (state.candidates problem) := by
  rw [State.strictCandidates, mapM_eq_ok fun stop hStop => by
    rw [Checked.require_eq_ok (inRange.leads (inRange.lt_numStops (by simp [State.sizes]) hStop)),
      sorted.readEndLegsAt]
    rfl]
  rw [State.candidates, List.flatMap_def]
  rfl

theorem offerDestination (inRange : InRange problem state) (destination : DestinationArrival) :
    InRange problem (state.offerDestination problem destination) := by
  unfold State.offerDestination
  split
  · exact inRange
  · exact ⟨inRange.sizes, inRange.entry, inRange.stop_lt⟩

/-- Finishing a round reads and writes inside the tables. -/
theorem strictFinish (inRange : InRange problem state) (sorted : problem.HasSortedLegs) :
    state.strictFinish problem = .ok (state.finish problem) ∧
      InRange problem (state.finish problem) := by
  rw [State.strictFinish, inRange.strictCandidates sorted]
  refine ⟨rfl, ?_⟩
  exact List.foldlRecOn _ _ inRange fun _ hState destination _ =>
    hState.offerDestination destination

/-- Whether a round settled the search is read inside the tables. -/
theorem strictIsSettled (inRange : InRange problem state) :
    state.strictIsSettled problem = .ok (state.isSettled problem) := by
  rw [State.strictIsSettled, Checked.require_eq_ok (inRange.allLead (by simp [State.sizes]))]
  rfl

end InRange

/-- On a linked network a strict search for the best compromises agrees with one that checks
nothing. -/
theorem agrees_strict {problem : Problem} {tables : Tables} (linked : problem.day.network.Linked)
    (legs : problem.KnownLegs) (sorted : problem.HasSortedLegs)
    (hold : tables.Hold problem.day.network) :
    (strict problem tables).Agrees problem.day (InRange problem) where
  start time := by
    apply foldlM_eq_ok (InRange.initial problem)
    intro arrival hArrival state inRange
    obtain ⟨leg, hLeg, rfl⟩ := List.mem_map.mp hArrival
    exact inRange.strictAdd (legs leg (Or.inl hLeg)).1
  beginRound round inRange := inRange.beginRound round
  frontier inRange _ hStop := inRange.lt_numStops (by simp [State.sizes]) hStop
  scan hTable inRange := inRange.strictScan linked hTable
  walk inRange := inRange.strictWalk linked hold
  finish inRange := inRange.strictFinish sorted
  isSettled inRange := inRange.strictIsSettled

end JourneyPlanner.Search.MultiCriteria
