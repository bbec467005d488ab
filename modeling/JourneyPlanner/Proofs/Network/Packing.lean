import JourneyPlanner.Network.Draft
import JourneyPlanner.Proofs.TripTable

/-! Packing patterns into shared tables loses nothing: the rows that a pattern points at are
its own stops, times and services. Main statement: the trip table read from a packed network
is the one of the draft. -/
namespace JourneyPlanner

section Lists

variable {α β : Type}

/-- A slice returns the row that lies between the others. -/
theorem slice?_append (first row rest : List α) :
    slice? (first ++ (row ++ rest)).toArray first.length row.length = some row.toArray :=
  slice?_eq_some_iff.mpr ⟨by simp, by simp⟩

/-- The part of a concatenation that an item contributes begins where those before it end. -/
theorem slice?_flatMap (f : α → List β) {items : List α} {index : Nat} {item : α}
    (hItem : items[index]? = some item) :
    slice? (items.flatMap f).toArray ((items.take index).flatMap f).length (f item).length =
      some (f item).toArray := by
  have hSplit : items = items.take index ++ item :: items.drop (index + 1) := by
    obtain ⟨hIndex, hGet⟩ := List.getElem?_eq_some_iff.mp hItem
    rw [← hGet, List.getElem_cons_drop, List.take_append_drop]
  have hFlat : items.flatMap f =
      (items.take index).flatMap f ++ (f item ++ (items.drop (index + 1)).flatMap f) := by
    rw [← List.flatMap_cons, ← List.flatMap_append, ← hSplit]
  rw [hFlat, slice?_append]

/-- In a concatenation of rows of one length, rows and columns are found by their index. -/
theorem getElem?_flatMap_row {f : α → List β} {width : Nat} {items : List α}
    (hWidth : ∀ item ∈ items, (f item).length = width) {row column : Nat} (hColumn : column < width) :
    (items.flatMap f)[row * width + column]? = items[row]?.bind fun item => (f item)[column]? := by
  induction items generalizing row with
  | nil => simp
  | cons item rest ih =>
      have hItem : (f item).length = width := hWidth item (List.mem_cons_self ..)
      rw [List.flatMap_cons]
      cases row with
      | zero => simp [List.getElem?_append_left, hItem, hColumn]
      | succ row =>
          have hBeyond : (f item).length ≤ (row + 1) * width + column := by
            rw [hItem, Nat.succ_mul]
            omega
          have hRest : (row + 1) * width + column - (f item).length = row * width + column := by
            rw [hItem, Nat.succ_mul]
            omega
          rw [List.getElem?_append_right hBeyond, hRest,
            ih fun other hOther => hWidth other (List.mem_cons_of_mem _ hOther)]
          simp

theorem length_flatMap_row {f : α → List β} {width : Nat} {items : List α}
    (hWidth : ∀ item ∈ items, (f item).length = width) :
    (items.flatMap f).length = items.length * width := by
  induction items with
  | nil => simp
  | cons item rest ih =>
      have hItem := hWidth item (List.mem_cons_self ..)
      have hRest := ih fun other hOther => hWidth other (List.mem_cons_of_mem _ hOther)
      simp only [List.flatMap_cons, List.length_append, List.length_cons, hItem, hRest, Nat.succ_mul]
      omega

end Lists

namespace PatternDraft

/-- The trip table of a pattern, without any packing. -/
def table (pattern : PatternDraft) (index : Nat) : TripTable :=
  { pattern := index
    mode := pattern.mode
    stops := pattern.stops.toArray
    times := (pattern.trips.flatMap TripDraft.times).toArray
    services := (pattern.trips.map TripDraft.service).toArray }

@[simp]
theorem numStops_table (pattern : PatternDraft) (index : Nat) :
    (pattern.table index).numStops = pattern.stops.length := by
  simp [table, TripTable.numStops]

/-- The table has as many trips as the draft. -/
@[simp]
theorem numTrips_table (pattern : PatternDraft) (index : Nat) :
    (pattern.table index).numTrips = pattern.trips.length := by
  simp [table, TripTable.numTrips]

def IsFull (pattern : PatternDraft) : Prop :=
  ∀ trip ∈ pattern.trips, trip.times.length = pattern.stops.length

theorem stopAt_table {pattern : PatternDraft} {index position stop : Nat} :
    (pattern.table index).stopAt position = .ok stop ↔ pattern.stops[position]? = some stop := by
  simp [TripTable.stopAt_eq_ok_iff, table]

/-- The table tells the times of the draft. -/
theorem timeAt_table {pattern : PatternDraft} (hFull : pattern.IsFull) {index trip position : Nat}
    {time : StopTime} (hPosition : position < pattern.stops.length) :
    (pattern.table index).timeAt trip position = .ok time ↔
      ∃ draft, pattern.trips[trip]? = some draft ∧ draft.times[position]? = some time := by
  rw [TripTable.timeAt_eq_ok_iff, numStops_table]
  simp only [table, List.getElem?_toArray, getElem?_flatMap_row hFull hPosition]
  exact Option.bind_eq_some_iff

/-- Where the rows of each pattern begin. -/
theorem getElem?_layOut (stops times trips : Nat) (patterns : List PatternDraft) (index : Nat) :
    (layOut stops times trips patterns)[index]? = patterns[index]?.map fun pattern =>
      { name := pattern.name, mode := pattern.mode
        numStops := pattern.stops.length, numTrips := pattern.trips.length
        firstStop := stops + ((patterns.take index).flatMap PatternDraft.stops).length
        firstTime := times +
          ((patterns.take index).flatMap fun p => p.trips.flatMap TripDraft.times).length
        firstTrip := trips +
          ((patterns.take index).flatMap fun p => p.trips.map TripDraft.service).length } := by
  induction patterns generalizing stops times trips index with
  | nil => simp [layOut]
  | cons pattern rest ih =>
      cases index with
      | zero => simp [layOut]
      | succ index =>
          rw [layOut, List.getElem?_cons_succ, ih, List.getElem?_cons_succ]
          simp only [List.take_succ_cons, List.flatMap_cons, List.length_append, List.length_map,
            Nat.add_assoc]

theorem length_layOut (stops times trips : Nat) (patterns : List PatternDraft) :
    (layOut stops times trips patterns).length = patterns.length := by
  induction patterns generalizing stops times trips with
  | nil => rfl
  | cons pattern rest ih => simp [layOut, ih]

end PatternDraft

namespace Draft

variable {draft : Draft} {patterns : List PatternDraft}

@[simp]
theorem numStops_pack : (draft.pack patterns).numStops = draft.stops.length := by
  simp [pack, Network.numStops]

@[simp]
theorem numPatterns_pack : (draft.pack patterns).numPatterns = patterns.length := by
  simp [pack, Network.numPatterns, PatternDraft.length_layOut]

/-- The trip table of a pattern of the network is that of the draft. -/
theorem tripTable_pack {index : Nat} {pattern : PatternDraft}
    (hPattern : patterns[index]? = some pattern) (hFull : pattern.IsFull) :
    (draft.pack patterns).tripTable index = .ok (pattern.table index) := by
  have hRows : pattern.trips.length * pattern.stops.length =
      (pattern.trips.flatMap TripDraft.times).length := (length_flatMap_row hFull).symm
  have hServices : pattern.trips.length = (pattern.trips.map TripDraft.service).length :=
    (List.length_map ..).symm
  simp only [Network.tripTable, pack, List.getElem?_toArray, PatternDraft.getElem?_layOut, hPattern,
    Option.map_some, Checked.lookup, Nat.zero_add, bind, Except.bind]
  rw [slice?_flatMap PatternDraft.stops hPattern, hRows,
    slice?_flatMap (fun p => p.trips.flatMap TripDraft.times) hPattern]
  conv => lhs; rw [hServices]
  rw [slice?_flatMap (fun p => p.trips.map TripDraft.service) hPattern]
  rfl

/-- Only the indices of patterns have a table. -/
theorem lt_length_of_tripTable_pack {index : Nat} {table : TripTable}
    (h : (draft.pack patterns).tripTable index = .ok table) : index < patterns.length := by
  obtain ⟨pattern, hPattern, -⟩ := Checked.bind_eq_ok_iff.mp h
  rw [Checked.lookup_eq_ok_iff] at hPattern
  have hInside := (Array.getElem?_eq_some_iff.mp hPattern).1
  simpa [pack, PatternDraft.length_layOut] using hInside

/-- The visits a stop knows of are the positions at which patterns have it. -/
theorem visits_pack {stop : Nat} {data : Stop}
    (hStop : (draft.pack patterns).stops[stop]? = some data) {visit : Visit} :
    visit ∈ data.visits ↔
      ∃ pattern, patterns[visit.pattern]? = some pattern ∧
        pattern.stops[visit.position]? = some stop := by
  simp only [pack, List.getElem?_toArray, List.getElem?_map, List.getElem?_zipIdx,
    Option.map_map, Option.map_eq_some_iff] at hStop
  obtain ⟨name, hName, rfl⟩ := hStop
  simp only [Function.comp, Nat.zero_add, List.mem_flatMap, PatternDraft.visitsTo, List.mem_map,
    List.mem_filter, beq_iff_eq, Prod.exists, List.mem_zipIdx_iff_getElem?]
  constructor
  · rintro ⟨pattern, index, hPattern, found, position, ⟨hFound, rfl⟩, rfl⟩
    exact ⟨pattern, hPattern, hFound⟩
  · rintro ⟨pattern, hPattern, hFound⟩
    exact ⟨pattern, visit.pattern, hPattern, stop, visit.position, ⟨hFound, rfl⟩, rfl⟩

/-- The network lists the transfers that leave a stop in the order of the draft. -/
theorem transfersFrom_pack (stop : Nat) :
    (draft.pack patterns).transfersFrom stop =
      if stop < draft.stops.length then draft.transfersFrom stop else [] := by
  simp only [Network.transfersFrom, pack, Array.getD_eq_getD_getElem?, Array.getElem?_map,
    Array.getElem?_range]
  split <;> rfl

/-- The network lists the transfers that enter a stop in the order of the draft. -/
theorem transfersTo_pack (stop : Nat) :
    (draft.pack patterns).transfersTo stop =
      if stop < draft.stops.length then draft.transfersTo stop else [] := by
  simp only [Network.transfersTo, pack, Array.getD_eq_getD_getElem?, Array.getElem?_map,
    Array.getElem?_range]
  split <;> rfl

theorem mem_transfersFrom {stop : Nat} {transfer : Transfer} :
    transfer ∈ draft.transfersFrom stop ↔ transfer ∈ draft.transfers ∧ transfer.origin = stop := by
  simp [transfersFrom, List.mem_mergeSort]

theorem mem_transfersTo {stop : Nat} {transfer : Transfer} :
    transfer ∈ draft.transfersTo stop ↔ transfer ∈ draft.transfers ∧ transfer.target = stop := by
  simp [transfersTo, List.mem_mergeSort]

end Draft

end JourneyPlanner
