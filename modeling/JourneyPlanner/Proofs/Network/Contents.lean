import JourneyPlanner.Proofs.Network.Order

/-! What a network holds. Its patterns have the stops and trips handed in for them, and their rows
lie one after the other in the shared tables; its stops know where patterns have them; its walks
can be found from both ends. Main statement: a network that was built holds all that was handed in,
and nothing else. -/
namespace JourneyPlanner

/-- Rows, each given by its place and its length, lie one after the other from one place to
another. -/
def Tiles : (start stop : Nat) → List (Nat × Nat) → Prop
  | start, stop, [] => start = stop
  | start, stop, (place, length) :: rest => place = start ∧ Tiles (start + length) stop rest

/-- The table has one row for each of these trips, in order. -/
structure TripTable.Lists (table : TripTable) (trips : List TripDraft) : Prop where
  numTrips : table.numTrips = trips.length
  schedule : ∀ {row trip}, trips[row]? = some trip → table.schedule row = .ok
    { pattern := table.pattern, trip := row, service := trip.service, times := trip.times.toArray }

/-- Visits are ordered by their pattern, and then by their position. -/
def Visit.Before (visit later : Visit) : Prop :=
  visit.pattern < later.pattern ∨
    visit.pattern = later.pattern ∧ visit.position < later.position

/-- The walks with one end at a stop, ordered by the other end. Between the same two stops they
come as they were handed in. -/
structure Transfer.RowOf (near far : Transfer → Nat) (added : List Transfer) (stop : Nat)
    (row : List Transfer) : Prop where
  perm : row.Perm (added.filter fun walk => near walk == stop)
  sorted : row.Pairwise fun walk later => far walk ≤ far later
  stable : ∀ target, (row.filter fun walk => far walk == target) =
    (added.filter fun walk => near walk == stop).filter fun walk => far walk == target

/-- The network has this pattern under this number. Its trips come in an order in which none
overtakes an earlier one. -/
structure Network.HoldsPattern (network : Network) (index : Nat) (added : PatternDraft) : Prop where
  name : network.patternName index = .ok added.name
  stops_ne_nil : added.stops ≠ []
  stop_lt : ∀ stop ∈ added.stops, stop < network.numStops
  table : ∃ table trips, network.tripTable index = .ok table ∧ table.mode = added.mode ∧
    table.stops.toList = added.stops ∧ trips.Perm added.trips ∧ table.Lists trips ∧
    (∀ trip ∈ trips, trip.Sound added.stops.length network.calendar.services.size) ∧
    trips.Pairwise TripDraft.NotBehind

/-- The network holds what was handed in, starting from a calendar, and nothing else. -/
structure Network.Holds (network : Network) (calendar : Calendar) (additions : List Addition) :
    Prop where
  calendar : network.calendar = Addition.lastCalendar calendar additions
  stopNames : network.stops.toList.map Stop.name = Addition.stopNames additions
  /-- A name stands for the first stop that has it. -/
  stopNamed? : ∀ {name stop}, network.stopNamed? name = some stop ↔
    (Addition.stopNames additions)[stop]? = some name ∧
      ∀ earlier < stop, (Addition.stopNames additions)[earlier]? ≠ some name
  numPatterns : network.numPatterns = (Addition.patterns additions).length
  patterns : ∀ {index added}, (Addition.patterns additions)[index]? = some added →
    network.HoldsPattern index added
  /-- The rows of the patterns cover the shared tables, one pattern after the other. -/
  stopRows : Tiles 0 network.patternStops.size
    (network.patterns.toList.map fun pattern => (pattern.firstStop, pattern.numStops))
  timeRows : Tiles 0 network.stopTimes.size (network.patterns.toList.map fun pattern =>
    (pattern.firstTime, pattern.numTrips * pattern.numStops))
  tripRows : Tiles 0 network.tripServices.size
    (network.patterns.toList.map fun pattern => (pattern.firstTrip, pattern.numTrips))
  /-- A stop knows of each place where a pattern has it, once and in order. -/
  visits : ∀ {stop : Nat} {data : Stop}, network.stops[stop]? = some data →
    data.visits.Pairwise Visit.Before ∧ ∀ visit, visit ∈ data.visits ↔
      ∃ pattern, (Addition.patterns additions)[visit.pattern]? = some pattern ∧
        pattern.stops[visit.position]? = some stop
  transfers : ∀ walk ∈ Addition.transfers additions, walk.Sound network.numStops
  transfersFrom : ∀ {stop}, stop < network.numStops →
    Transfer.RowOf Transfer.origin Transfer.target (Addition.transfers additions) stop
      (network.transfersFrom stop)
  transfersTo : ∀ {stop}, stop < network.numStops →
    Transfer.RowOf Transfer.target Transfer.origin (Addition.transfers additions) stop
      (network.transfersTo stop)
  /-- Visits and walks can be read from their shared tables. -/
  tables : (network.tables (Addition.transfers additions)).Hold network
  visitRows : Tiles 0 (network.tables (Addition.transfers additions)).visits.size
    (network.tables (Addition.transfers additions)).visitRows.toList

namespace PatternDraft

/-- Patterns are laid out without gaps, nor do their rows overlap. -/
theorem tiles_layOut {patterns : List PatternDraft} (hFull : ∀ pattern ∈ patterns, pattern.IsFull)
    (stops times trips : Nat) :
    Tiles stops (stops + (patterns.flatMap PatternDraft.stops).length)
        ((layOut stops times trips patterns).map fun p => (p.firstStop, p.numStops)) ∧
      Tiles times (times + (patterns.flatMap fun p => p.trips.flatMap TripDraft.times).length)
        ((layOut stops times trips patterns).map fun p =>
          (p.firstTime, p.numTrips * p.numStops)) ∧
      Tiles trips (trips + (patterns.flatMap fun p => p.trips.map TripDraft.service).length)
        ((layOut stops times trips patterns).map fun p => (p.firstTrip, p.numTrips)) := by
  induction patterns generalizing stops times trips with
  | nil => simp [layOut, Tiles]
  | cons pattern rest ih =>
      obtain ⟨hPattern, hRest⟩ := List.forall_mem_cons.mp hFull
      obtain ⟨hStops, hTimes, hTrips⟩ := ih hRest (stops + pattern.stops.length)
        (times + (pattern.trips.flatMap TripDraft.times).length) (trips + pattern.trips.length)
      have hRows := length_flatMap_row hPattern
      simp only [layOut, List.map_cons, Tiles, List.flatMap_cons, List.length_append,
        List.length_map, ← Nat.add_assoc, true_and]
      exact ⟨hStops, hRows ▸ hTimes, hTrips⟩

/-- The table of a pattern lists the trips of its draft. -/
theorem lists_table {pattern : PatternDraft} (hFull : pattern.IsFull) (index : Nat) :
    (pattern.table index).Lists pattern.trips := by
  refine ⟨numTrips_table pattern index, fun {row trip} hTrip => ?_⟩
  have hBefore : ((pattern.trips.take row).flatMap TripDraft.times).length =
      row * pattern.stops.length := by
    rw [length_flatMap_row fun other hOther => hFull other (List.mem_of_mem_take hOther),
      List.length_take_of_le (Nat.le_of_lt (List.getElem?_eq_some_iff.mp hTrip).1)]
  have hSlice := slice?_flatMap TripDraft.times hTrip
  rw [hBefore, hFull trip (List.mem_of_getElem? hTrip)] at hSlice
  simp [TripTable.schedule, table, TripTable.numStops, List.getElem?_map, hTrip, Checked.lookup,
    hSlice, bind, Except.bind, pure, Except.pure]

/-- The visits of a pattern to a stop are listed by position. -/
theorem pairwise_visitsTo (stop index : Nat) (pattern : PatternDraft) :
    (visitsTo stop index pattern).Pairwise Visit.Before := by
  have hPositions : pattern.stops.zipIdx.Pairwise fun entry later => entry.2 < later.2 := by
    rw [List.pairwise_iff_getElem]
    intro first second hFirst hSecond hOrder
    simpa using hOrder
  exact List.pairwise_map.mpr ((hPositions.filter _).imp fun hOrder => Or.inr ⟨rfl, hOrder⟩)

end PatternDraft

theorem Stop.tiles_visitRows (start : Nat) (stops : List Stop) :
    Tiles start (start + (stops.flatMap Stop.visits).length) (visitRows start stops) := by
  induction stops generalizing start with
  | nil => simp [visitRows, Tiles]
  | cons stop rest ih =>
      simp only [visitRows, Tiles, List.flatMap_cons, List.length_append, ← Nat.add_assoc, true_and]
      exact ih _

/-- Sorting the walks with one end at a stop by the other end keeps the order in which they were
handed in where it can. -/
theorem Transfer.rowOf_mergeSort (near far : Transfer → Nat) (added : List Transfer) (stop : Nat) :
    RowOf near far added stop ((added.filter fun walk => near walk == stop).mergeSort
      fun walk later => decide (far walk ≤ far later)) := by
  have hTrans : ∀ a b c : Transfer, decide (far a ≤ far b) = true → decide (far b ≤ far c) = true →
      decide (far a ≤ far c) = true := by
    simp only [decide_eq_true_eq]
    omega
  have hTotal : ∀ a b : Transfer, (decide (far a ≤ far b) || decide (far b ≤ far a)) = true := by
    simp only [Bool.or_eq_true, decide_eq_true_eq]
    omega
  refine ⟨List.mergeSort_perm .., ?_, fun target => ?_⟩
  · exact (List.pairwise_mergeSort hTrans hTotal _).imp of_decide_eq_true
  · rw [filter_mergeSort hTrans hTotal]
    apply List.mergeSort_of_pairwise
    rw [List.pairwise_filter]
    refine List.pairwise_of_forall fun walk later hWalk hLater => ?_
    simp only [beq_iff_eq] at hWalk hLater
    exact decide_eq_true (Nat.le_of_eq (hWalk.trans hLater.symm))

namespace Draft

variable {draft : Draft}

/-- The network names its stops as the draft does. -/
theorem names_pack {patterns : List PatternDraft} :
    (draft.pack patterns).stops.toList.map Stop.name = draft.stops := by
  simp [pack, Function.comp_def]

/-- A name finds the first stop that carries it. -/
theorem stopNamed?_pack {patterns : List PatternDraft} {name : String} {stop : Nat} :
    (draft.pack patterns).stopNamed? name = some stop ↔
      draft.stops[stop]? = some name ∧ ∀ earlier < stop, draft.stops[earlier]? ≠ some name := by
  have hFound : (draft.pack patterns).stopNamed? name = draft.stops.findIdx? (· == name) := by
    conv => rhs; rw [← @names_pack draft patterns, List.findIdx?_map]
    rw [Network.stopNamed?, ← List.findIdx?_toArray, Array.toArray_toList]
    rfl
  rw [hFound, List.findIdx?_eq_some_iff_getElem]
  constructor
  · rintro ⟨hStop, hName, hEarlier⟩
    refine ⟨List.getElem?_eq_some_iff.mpr ⟨hStop, by simpa using hName⟩, ?_⟩
    intro earlier hOrder hOther
    obtain ⟨hInside, hOther⟩ := List.getElem?_eq_some_iff.mp hOther
    exact hEarlier earlier hOrder (by simpa using hOther)
  · rintro ⟨hName, hEarlier⟩
    obtain ⟨hStop, hName⟩ := List.getElem?_eq_some_iff.mp hName
    refine ⟨hStop, by simpa using hName, fun earlier hOrder hOther => ?_⟩
    exact hEarlier earlier hOrder
      (List.getElem?_eq_some_iff.mpr ⟨hOrder.trans hStop, by simpa using hOther⟩)

/-- The visits to a stop are listed by pattern and position. -/
theorem pairwise_visits_pack {patterns : List PatternDraft} {stop : Nat} {data : Stop}
    (hStop : (draft.pack patterns).stops[stop]? = some data) :
    data.visits.Pairwise Visit.Before := by
  simp only [pack, List.getElem?_toArray, List.getElem?_map, List.getElem?_zipIdx,
    Option.map_map, Option.map_eq_some_iff] at hStop
  obtain ⟨name, -, rfl⟩ := hStop
  rw [Function.comp, List.pairwise_flatMap]
  refine ⟨fun numbered _ => PatternDraft.pairwise_visitsTo .., ?_⟩
  rw [List.pairwise_iff_getElem]
  intro first second hFirst hSecond hOrder visit hVisit later hLater
  obtain ⟨-, -, rfl⟩ := List.mem_map.mp hVisit
  obtain ⟨-, -, rfl⟩ := List.mem_map.mp hLater
  left
  simpa using hOrder

/-- A pattern is in the network with its trips in order. -/
theorem Sound.holdsPattern (sound : draft.Sound) {index : Nat} {added : PatternDraft}
    (hAdded : draft.patterns[index]? = some added) :
    (draft.pack draft.arranged).HoldsPattern index added := by
  have soundPattern := sound.patterns added (List.mem_of_getElem? hAdded)
  have hFull := soundPattern.isFull_sorted
  have hArranged : draft.arranged[index]? = some added.sorted :=
    getElem?_arranged.mpr ⟨added, hAdded, rfl⟩
  refine ⟨?_, soundPattern.stops_ne_nil, ?_, added.sorted.table index, added.sorted.trips,
    tripTable_pack hArranged hFull, rfl, by simp [PatternDraft.table], List.mergeSort_perm ..,
    PatternDraft.lists_table hFull index, ?_,
    PatternDraft.pairwise_notBehind soundPattern.chain hFull⟩
  · simp [Network.patternName, pack, PatternDraft.getElem?_layOut, hArranged, Checked.lookup,
      PatternDraft.sorted]
  · simpa using soundPattern.stop_lt
  · exact fun trip hTrip => soundPattern.trips trip (PatternDraft.mem_trips_sorted.mp hTrip)

/-- The network of a timetable handed in one thing after the other holds exactly what was handed
in. -/
theorem holds_of_build_ofAdditions {calendar : Calendar} {additions : List Addition}
    {network : Network} (hBuild : (ofAdditions calendar additions).build = .ok network) :
    network.Holds calendar additions := by
  have hTables := hold_tables hBuild
  obtain ⟨sound, rfl⟩ := build_eq_ok_iff.mp hBuild
  rw [ofAdditions_eq] at *
  have hTiles := PatternDraft.tiles_layOut (fun pattern => sound.isFull_arranged) 0 0 0
  simp only [Nat.zero_add] at hTiles
  obtain ⟨hStops, hTimes, hTrips⟩ := hTiles
  constructor
  case calendar => rfl
  case stopNames => exact names_pack
  case stopNamed? => exact stopNamed?_pack
  case numPatterns => simp [arranged]
  case patterns => exact sound.holdsPattern
  case stopRows => simpa [pack] using hStops
  case timeRows => simpa [pack] using hTimes
  case tripRows => simpa [pack] using hTrips
  case visits =>
    intro stop data hStop
    refine ⟨pairwise_visits_pack hStop, fun visit => (visits_pack hStop).trans ?_⟩
    simp only [getElem?_arranged]
    constructor
    · rintro ⟨_, ⟨original, hOriginal, rfl⟩, hFound⟩
      exact ⟨original, hOriginal, hFound⟩
    · rintro ⟨original, hOriginal, hFound⟩
      exact ⟨original.sorted, ⟨original, hOriginal, rfl⟩, hFound⟩
  case transfers => simpa using sound.transfers
  case transfersFrom =>
    intro stop hStop
    rw [transfersFrom_pack, if_pos (numStops_pack ▸ hStop)]
    exact Transfer.rowOf_mergeSort ..
  case transfersTo =>
    intro stop hStop
    rw [transfersTo_pack, if_pos (numStops_pack ▸ hStop)]
    exact Transfer.rowOf_mergeSort ..
  case tables => exact hTables
  case visitRows => simpa [Network.tables] using Stop.tiles_visitRows 0 _

/-- A timetable handed in out of order: a trip that comes too early and is refused, the later of
two trips first, and walks both ways. -/
def disorder : List Addition :=
  [.trip 0 { service := 0, times := [] }, .stop "A", .stop "B", .transfer ⟨1, 0, 60⟩,
    .pattern "1" .bus [0, 1], .trip 0 { service := 0, times := [⟨5, 5⟩, ⟨15, 15⟩] },
    .trip 0 { service := 0, times := [⟨0, 0⟩, ⟨10, 10⟩] }, .transfer ⟨0, 1, 60⟩]

theorem holds_of_build_ofAdditions_disorder :
    ∃ network, (ofAdditions .oneDay disorder).build = .ok network ∧
      network.Holds .oneDay disorder := by
  have hOk : (ofAdditions .oneDay disorder).build.isOk := by
    rw [isOk_build_iff]
    decide +kernel
  exact ⟨_, build_of_isOk hOk, holds_of_build_ofAdditions (build_of_isOk hOk)⟩

end Draft

end JourneyPlanner
