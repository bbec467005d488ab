import JourneyPlanner.Proofs.Network.Sound

/-! Networks whose stop times were replaced after they were built. Which rows there are and what
they are linked to does not depend on what stands in them. Main statement: with as many stop times
as before, whatever they are, a network stays linked. -/
namespace JourneyPlanner

namespace Network

def withTimes (network : Network) (times : Array StopTime) : Network :=
  { network with stopTimes := times }

variable {network : Network} {times : Array StopTime} {index : Nat} {table : TripTable}

/-- A trip table of the network with other stop times has other rows, as many as before. -/
theorem exists_tripTable_withTimes (hSize : times.size = network.stopTimes.size)
    (hTable : network.tripTable index = .ok table) :
    ∃ rows, rows.size = table.times.size ∧
      (network.withTimes times).tripTable index = .ok { table with times := rows } := by
  obtain ⟨pattern, hPattern, hTable⟩ := Checked.bind_eq_ok_iff.mp hTable
  obtain ⟨stops, hStops, hTable⟩ := Checked.bind_eq_ok_iff.mp hTable
  obtain ⟨old, hOld, hTable⟩ := Checked.bind_eq_ok_iff.mp hTable
  obtain ⟨services, hServices, hTable⟩ := Checked.bind_eq_ok_iff.mp hTable
  cases hTable
  rw [Checked.lookup_eq_ok_iff] at hOld
  obtain ⟨hInside, rfl⟩ := slice?_eq_some_iff.mp hOld
  refine ⟨times.extract pattern.firstTime
    (pattern.firstTime + pattern.numTrips * pattern.numStops), ?_, ?_⟩
  · simp only [Array.size_extract, hSize]
  · apply Checked.bind_eq_ok_iff.mpr
    refine ⟨pattern, hPattern, Checked.bind_eq_ok_iff.mpr ⟨stops, hStops,
      Checked.bind_eq_ok_iff.mpr ⟨_, ?_, Checked.bind_eq_ok_iff.mpr ⟨services, hServices, rfl⟩⟩⟩⟩
    rw [Checked.lookup_eq_ok_iff]
    exact slice?_eq_some_iff.mpr ⟨hSize ▸ hInside, rfl⟩

/-- A linked network stays linked when its stop times are replaced. -/
theorem Linked.withTimes (linked : network.Linked) (hSize : times.size = network.stopTimes.size) :
    (network.withTimes times).Linked := by
  have hOriginal : ∀ {index table}, (network.withTimes times).tripTable index = .ok table →
      ∃ rows, rows.size = table.times.size ∧
        network.tripTable index = .ok { table with times := rows } := by
    intro index table hTable
    exact @exists_tripTable_withTimes (network.withTimes times) network.stopTimes _ _ hSize.symm
      hTable
  constructor
  · intro index hIndex
    obtain ⟨table, hTable⟩ := linked.exists_table hIndex
    obtain ⟨rows, -, hOther⟩ := exists_tripTable_withTimes hSize hTable
    exact ⟨_, hOther⟩
  · intro index table hTable
    obtain ⟨rows, hRows, hOther⟩ := hOriginal hTable
    have shaped := linked.shaped hOther
    exact ⟨shaped.numStops_pos, hRows.symm.trans shaped.size_times⟩
  · intro index table position stop hTable hStop
    obtain ⟨rows, -, hOther⟩ := hOriginal hTable
    exact linked.visits hOther hStop
  · exact linked.transfersFrom
  · exact linked.transfersTo

end Network

end JourneyPlanner
