import JourneyPlanner.Proofs.Network.Sound

/-! How the visits and walks of all stops lie in shared tables. Visits lie stop by stop, and every
stop says where its own begin. Walks are sorted by one of their ends, and are counted so that the
index tells where those of each stop begin. Main statement: read by these places, no row reaches
outside its table, and the rows are those that the network has. -/
namespace JourneyPlanner

section Sorting

variable {α : Type} {le : α → α → Bool}

/-- Where a list splits into items that fail a test and items that pass it, it splits in one way. -/
theorem append_eq_append_of_test {test : α → Bool} {first second other rest : List α}
    (h : first ++ second = other ++ rest)
    (hFirst : ∀ item ∈ first, test item = false) (hSecond : ∀ item ∈ second, test item = true)
    (hOther : ∀ item ∈ other, test item = false) (hRest : ∀ item ∈ rest, test item = true) :
    first = other ∧ second = rest := by
  have hPassing := congrArg (List.filter test) h
  rw [List.filter_append, List.filter_append, List.filter_eq_self.mpr hSecond,
    List.filter_eq_self.mpr hRest, List.filter_eq_nil_iff.mpr (by simpa using hFirst),
    List.filter_eq_nil_iff.mpr (by simpa using hOther), List.nil_append,
    List.nil_append] at hPassing
  subst hPassing
  exact ⟨List.append_cancel_right h, rfl⟩

/-- Sorting is stable: the items that pass a test come as if they were sorted alone. The induction
puts the items in from the last to the first, each before those that are not smaller. -/
theorem filter_mergeSort (hTrans : ∀ a b c, le a b = true → le b c = true → le a c = true)
    (hTotal : ∀ a b, (le a b || le b a) = true) (test : α → Bool) (items : List α) :
    (items.mergeSort le).filter test = (items.filter test).mergeSort le := by
  induction items with
  | nil => simp
  | cons item rest ih =>
      obtain ⟨before, after, hSort, hRest, hBefore⟩ := List.mergeSort_cons hTrans hTotal item rest
      rw [hRest, List.filter_append] at ih
      by_cases hTest : test item = true
      · rw [List.filter_cons_of_pos hTest]
        obtain ⟨first, last, hKept, hKeptRest, hFirst⟩ :=
          List.mergeSort_cons hTrans hTotal item (rest.filter test)
        have hSorted := List.pairwise_mergeSort hTrans hTotal (item :: rest)
        have hKeptSorted := List.pairwise_mergeSort hTrans hTotal (item :: rest.filter test)
        rw [hSort, List.pairwise_append, List.pairwise_cons] at hSorted
        rw [hKept, List.pairwise_append, List.pairwise_cons] at hKeptSorted
        obtain ⟨rfl, rfl⟩ := append_eq_append_of_test (ih.trans hKeptRest)
          (fun other hOther => by simpa using hBefore other (List.mem_filter.mp hOther).1)
          (fun other hOther => hSorted.2.1.1 other (List.mem_filter.mp hOther).1)
          (fun other hOther => by simpa using hFirst other hOther) hKeptSorted.2.1.1
        rw [hSort, hKept, List.filter_append, List.filter_cons_of_pos hTest]
      · rw [List.filter_cons_of_neg hTest, ← ih, hSort, List.filter_append,
          List.filter_cons_of_neg hTest]

end Sorting

/-- The part of a table between two places, if they are in order and the table reaches that far. -/
def between? {α : Type} (table : Array α) (start stop : Nat) : Option (Array α) :=
  if start ≤ stop then slice? table start (stop - start) else none

/-- Items in one table, those of a key next to each other, with the place at which each key begins
and at the end that at which the last one stops. -/
structure KeyIndex (α : Type) where
  items : Array α
  offsets : Array Nat

namespace KeyIndex

variable {α : Type} {key : α → Nat} {bound : Nat} {items : List α}

/-- Count every item at the place after its key. -/
def countKeys (key : α → Nat) (counts : Array Nat) (items : List α) : Array Nat :=
  items.foldl (fun counts item => counts.modify (key item + 1) (· + 1)) counts

/-- Add to the first counts, one after the other, what stands before them. -/
def sumUp (counts : Array Nat) (keys : List Nat) : Array Nat :=
  keys.foldl (fun sums key => sums.modify (key + 1) (· + sums.getD key 0)) counts

/-- Index items that are sorted by key. All keys are below a bound. -/
def ofSorted (key : α → Nat) (bound : Nat) (items : List α) : KeyIndex α :=
  { items := items.toArray
    offsets := sumUp (countKeys key (Array.replicate (bound + 1) 0) items) (List.range bound) }

/-- The items of a key: they begin at its offset, and stop at that of the next one. -/
def row (index : KeyIndex α) (key : Nat) : Checked (List α) := do
  let start ← Checked.lookup index.offsets[key]?
  let stop ← Checked.lookup index.offsets[key + 1]?
  let items ← Checked.lookup (between? index.items start stop)
  return items.toList

/-- Each place is raised by the number of items keyed just before it. -/
theorem getElem?_countKeys (key : α → Nat) (counts : Array Nat) (items : List α) (place : Nat) :
    (countKeys key counts items)[place]? =
      counts[place]?.map (· + items.countP fun item => key item + 1 == place) := by
  induction items generalizing counts with
  | nil => simp [countKeys]
  | cons item rest ih =>
      rw [countKeys, List.foldl_cons, ← countKeys, ih, Array.getElem?_modify, List.countP_cons]
      by_cases hPlace : key item + 1 = place
      · cases counts[place]? with
        | none => simp [hPlace]
        | some count =>
            simp only [hPlace, if_true, Option.map_some, beq_self_eq_true]
            congr 1
            omega
      · simp [hPlace]

theorem countP_lt_succ (key : α → Nat) (items : List α) (place : Nat) :
    (items.countP fun item => decide (key item < place + 1)) =
      (items.countP fun item => decide (key item < place)) +
        items.countP fun item => key item == place := by
  induction items with
  | nil => rfl
  | cons item rest ih =>
      simp only [List.countP_cons, ih, decide_eq_true_eq, beq_iff_eq]
      split <;> split <;> split <;> omega

/-- A running sum is made one place at a time. -/
theorem sumUp_range_succ (counts : Array Nat) (done : Nat) :
    sumUp counts (List.range (done + 1)) =
      (sumUp counts (List.range done)).modify (done + 1)
        (· + (sumUp counts (List.range done)).getD done 0) := by
  simp only [sumUp, List.range_succ, List.foldl_append, List.foldl_cons, List.foldl_nil]

/-- Once some places are summed up, they count the items of all keys before them. The induction is
on the places; those further on still count the items of one key. -/
theorem getElem?_sumUp (key : α → Nat) (bound : Nat) (items : List α) {done : Nat}
    (hDone : done ≤ bound) {place : Nat} (hPlace : place ≤ bound) :
    (sumUp (countKeys key (Array.replicate (bound + 1) 0) items) (List.range done))[place]? =
      some (if place ≤ done then items.countP fun item => decide (key item < place)
        else items.countP fun item => key item + 1 == place) := by
  induction done generalizing place with
  | zero =>
      rw [List.range_zero, sumUp, List.foldl_nil, getElem?_countKeys, Array.getElem?_replicate,
        if_pos (Nat.lt_succ_of_le hPlace), Option.map_some, Nat.zero_add]
      split
      · simp [Nat.le_zero.mp ‹_›]
      · rfl
  | succ done ih =>
      rw [sumUp_range_succ, Array.getElem?_modify, Array.getD_eq_getD_getElem?,
        ih (by omega) hPlace, ih (Nat.le_of_succ_le hDone) (Nat.le_of_succ_le hDone),
        if_pos (Nat.le_refl _)]
      by_cases hNext : done + 1 = place
      · subst hNext
        rw [if_pos rfl, if_neg (by omega), if_pos (Nat.le_refl _), countP_lt_succ]
        simp [Nat.add_comm]
      · by_cases hBefore : place ≤ done
        · simp [hNext, hBefore, Nat.le_succ_of_le hBefore]
        · rw [if_neg hNext, if_neg hBefore, if_neg (by omega)]

/-- The offset of a key counts the items whose keys are smaller. -/
theorem getElem?_offsets (key : α → Nat) (bound : Nat) (items : List α) {place : Nat}
    (hPlace : place ≤ bound) :
    (ofSorted key bound items).offsets[place]? =
      some (items.countP fun item => decide (key item < place)) := by
  rw [ofSorted, getElem?_sumUp key bound items (Nat.le_refl _) hPlace, if_pos hPlace]

/-- Sorted items are those of smaller keys and then the others. -/
theorem filter_append_filter (hSorted : items.Pairwise fun a b => key a ≤ key b) (place : Nat) :
    (items.filter fun item => decide (key item < place)) ++
      (items.filter fun item => decide (place ≤ key item)) = items := by
  induction items with
  | nil => rfl
  | cons item rest ih =>
      obtain ⟨hFirst, hRest⟩ := List.pairwise_cons.mp hSorted
      by_cases hItem : key item < place
      · rw [List.filter_cons_of_pos (by simpa using hItem),
          List.filter_cons_of_neg (by simpa using hItem), List.cons_append, ih hRest]
      · have hNone : (rest.filter fun item => decide (key item < place)) = [] := by
          refine List.filter_eq_nil_iff.mpr fun other hOther => ?_
          have := hFirst other hOther
          simp only [decide_eq_true_eq]
          omega
        have hSame := ih hRest
        rw [hNone, List.nil_append] at hSame
        rw [List.filter_cons_of_neg (by simpa using hItem),
          List.filter_cons_of_pos (by simpa using hItem), hNone, List.nil_append, hSame]

/-- The items of a key stand between those of smaller keys and those of larger ones. -/
theorem eq_append_filter (hSorted : items.Pairwise fun a b => key a ≤ key b) (place : Nat) :
    items = (items.filter fun item => decide (key item < place)) ++
      ((items.filter fun item => key item == place) ++
        items.filter fun item => decide (place + 1 ≤ key item)) := by
  have hUpTo :=
    filter_append_filter (hSorted.filter fun item => decide (key item < place + 1)) place
  rw [List.filter_filter, List.filter_filter] at hUpTo
  conv => lhs; rw [← filter_append_filter hSorted (place + 1), ← hUpTo]
  rw [List.append_assoc]
  congr 1
  · refine List.filter_congr fun item _ => ?_
    rw [Bool.eq_iff_iff, Bool.and_eq_true, decide_eq_true_eq, decide_eq_true_eq]
    omega
  · congr 1
    refine List.filter_congr fun item _ => ?_
    rw [Bool.eq_iff_iff, Bool.and_eq_true, decide_eq_true_eq, decide_eq_true_eq, beq_iff_eq]
    omega

/-- The items of a key lie between the counts of those before it and of those up to it. -/
theorem between?_countP (hSorted : items.Pairwise fun a b => key a ≤ key b) (place : Nat) :
    between? items.toArray (items.countP fun item => decide (key item < place))
        (items.countP fun item => decide (key item < place + 1)) =
      some (items.filter fun item => key item == place).toArray := by
  have hSlice := slice?_append (items.filter fun item => decide (key item < place))
    (items.filter fun item => key item == place)
    (items.filter fun item => decide (place + 1 ≤ key item))
  rw [← eq_append_filter hSorted place] at hSlice
  rw [countP_lt_succ, List.countP_eq_length_filter, List.countP_eq_length_filter, between?,
    if_pos (Nat.le_add_right ..), Nat.add_sub_cancel_left, hSlice]

/-- The row of a key holds the items of that key. -/
theorem row_ofSorted (hSorted : items.Pairwise fun a b => key a ≤ key b) {place : Nat}
    (hPlace : place < bound) :
    (ofSorted key bound items).row place = .ok (items.filter fun item => key item == place) := by
  simp only [row, getElem?_offsets key bound items (Nat.le_of_lt hPlace),
    getElem?_offsets key bound items hPlace, Checked.lookup, bind, Except.bind]
  rw [ofSorted, between?_countP hSorted]
  rfl

end KeyIndex

/-- Walks compare by the number of one of their ends, and then by both. -/
def Transfer.before (key : Transfer → Nat) (a b : Transfer) : Bool :=
  decide (key a < key b ∨ key a = key b ∧
    (a.origin < b.origin ∨ a.origin = b.origin ∧ a.target ≤ b.target))

/-- All walks sorted by one of their ends, with the places at which those of each stop begin. -/
def Transfer.index (key : Transfer → Nat) (numStops : Nat) (walks : List Transfer) :
    KeyIndex Transfer :=
  .ofSorted key numStops (walks.mergeSort (Transfer.before key))

/-- Where the visits to each stop begin, if this many lie before them, and how many there are. -/
def Stop.visitRows : (start : Nat) → List Stop → List (Nat × Nat)
  | _, [] => []
  | start, stop :: rest =>
    (start, stop.visits.length) :: visitRows (start + stop.visits.length) rest

/-- The shared tables of a network in which its visits and walks lie. -/
structure Tables where
  visits : Array Visit
  visitRows : Array (Nat × Nat)
  outgoing : KeyIndex Transfer
  incoming : KeyIndex Transfer

def Network.tables (network : Network) (walks : List Transfer) : Tables :=
  { visits := (network.stops.toList.flatMap Stop.visits).toArray
    visitRows := (Stop.visitRows 0 network.stops.toList).toArray
    outgoing := Transfer.index Transfer.origin network.numStops walks
    incoming := Transfer.index Transfer.target network.numStops walks }

namespace Tables

def visitsAt (tables : Tables) (stop : Nat) : Checked (List Visit) := do
  let row ← Checked.lookup tables.visitRows[stop]?
  let visits ← Checked.lookup (slice? tables.visits row.1 row.2)
  return visits.toList

def walksAt (tables : Tables) : Direction → (stop : Nat) → Checked (List Transfer)
  | .forward, stop => tables.outgoing.row stop
  | .reverse, stop => tables.incoming.row stop

/-- The rows of all stops can be read from the tables, and are those of the network. -/
structure Hold (tables : Tables) (network : Network) : Prop where
  visits : ∀ {stop data}, network.stops[stop]? = some data →
    tables.visitsAt stop = .ok data.visits
  walks : ∀ {direction stop}, stop < network.numStops →
    tables.walksAt direction stop = .ok (direction.transfers network stop)

end Tables

/-- The visits of a stop lie behind those of the stops before it. -/
theorem Stop.getElem?_visitRows (start : Nat) (stops : List Stop) (index : Nat) :
    (visitRows start stops)[index]? = stops[index]?.map fun stop =>
      (start + ((stops.take index).flatMap Stop.visits).length, stop.visits.length) := by
  induction stops generalizing start index with
  | nil => simp [visitRows]
  | cons stop rest ih =>
      cases index with
      | zero => simp [visitRows]
      | succ index =>
          rw [visitRows, List.getElem?_cons_succ, ih, List.getElem?_cons_succ]
          simp only [List.take_succ_cons, List.flatMap_cons, List.length_append, Nat.add_assoc]

/-- The visits to a stop lie in the table of all visits. -/
theorem Network.visitsAt_tables {network : Network} (walks : List Transfer) {stop : Nat}
    {data : Stop} (hStop : network.stops[stop]? = some data) :
    (network.tables walks).visitsAt stop = .ok data.visits := by
  have hStop : network.stops.toList[stop]? = some data := by rw [Array.getElem?_toList, hStop]
  have hSlice := slice?_flatMap Stop.visits hStop
  simp only [Tables.visitsAt, tables, List.getElem?_toArray, Stop.getElem?_visitRows, hStop,
    Option.map_some, Checked.lookup, bind, Except.bind, Nat.zero_add, hSlice]
  rfl

namespace Transfer

variable {key : Transfer → Nat} {walks : List Transfer} {numStops : Nat}

theorem before_trans (a b c : Transfer) (hFirst : before key a b = true)
    (hSecond : before key b c = true) : before key a c = true := by
  simp only [before, decide_eq_true_eq] at *
  omega

theorem before_total (a b : Transfer) : (before key a b || before key b a) = true := by
  simp only [before, Bool.or_eq_true, decide_eq_true_eq]
  omega

/-- The row of a stop in the index of all walks holds its own walks, sorted among each other. -/
theorem row_index {stop : Nat} (hStop : stop < numStops) :
    (index key numStops walks).row stop =
      .ok ((walks.filter fun walk => key walk == stop).mergeSort (before key)) := by
  have hSorted : (walks.mergeSort (before key)).Pairwise fun a b => key a ≤ key b := by
    apply (List.pairwise_mergeSort before_trans before_total walks).imp
    intro a b hBefore
    simp only [before, decide_eq_true_eq] at hBefore
    omega
  rw [index, KeyIndex.row_ofSorted hSorted hStop, filter_mergeSort before_trans before_total]

/-- Among the walks with one end in common, comparing by both ends is comparing by the other one. -/
theorem mergeSort_before {stop : Nat} {other : Transfer → Nat}
    (hOther : ∀ a b, key a = stop → key b = stop → (before key a b = decide (other a ≤ other b))) :
    (walks.filter fun walk => key walk == stop).mergeSort (before key) =
      (walks.filter fun walk => key walk == stop).mergeSort fun a b =>
        decide (other a ≤ other b) := by
  have hSame := List.map_mergeSort (f := id) (r := before key)
    (s := fun a b => decide (other a ≤ other b))
    (l := walks.filter fun walk => key walk == stop) fun a hA b hB => by
      simp only [List.mem_filter, beq_iff_eq] at hA hB
      exact hOther a b hA.2 hB.2
  simpa only [List.map_id] using hSame

end Transfer

/-- The tables of a network that was built hold the visits and walks of all its stops. -/
theorem Draft.hold_tables {draft : Draft} {network : Network} (hBuild : draft.build = .ok network) :
    (network.tables draft.transfers).Hold network := by
  obtain ⟨sound, rfl⟩ := build_eq_ok_iff.mp hBuild
  refine ⟨Network.visitsAt_tables draft.transfers, fun {direction stop} hStop => ?_⟩
  have hKnown : stop < draft.stops.length := numStops_pack ▸ hStop
  cases direction with
  | forward =>
      rw [Direction.transfers, transfersFrom_pack, if_pos hKnown, Tables.walksAt, Network.tables,
        Transfer.row_index hStop,
        @Transfer.mergeSort_before Transfer.origin draft.transfers stop Transfer.target,
        transfersFrom]
      intro a b hA hB
      simp only [Transfer.before, decide_eq_decide]
      omega
  | reverse =>
      rw [Direction.transfers, transfersTo_pack, if_pos hKnown, Tables.walksAt, Network.tables,
        Transfer.row_index hStop,
        @Transfer.mergeSort_before Transfer.target draft.transfers stop Transfer.origin,
        transfersTo]
      intro a b hA hB
      simp only [Transfer.before, decide_eq_decide]
      omega

end JourneyPlanner
