import JourneyPlanner.Proofs.Network.Acceptance

/-! What a search may rely on in a network that was built, stated without the draft it was
built from. -/
namespace JourneyPlanner

/-- A network whose tables can be read at every index they promise, and whose patterns and walks
lead to known stops. Nothing is said about the times of its trips. -/
structure Network.Linked (network : Network) : Prop where
  exists_table : ∀ {index}, index < network.numPatterns →
    ∃ table, network.tripTable index = .ok table
  shaped : ∀ {index table}, network.tripTable index = .ok table → table.Shaped
  /-- Every stop of a pattern is known, and knows of it. -/
  visits : ∀ {index table position stop}, network.tripTable index = .ok table →
    table.stopAt position = .ok stop →
    ∃ data, network.stops[stop]? = some data ∧ ∃ visit ∈ data.visits, visit.pattern = index
  transfersFrom : ∀ {stop transfer}, transfer ∈ network.transfersFrom stop →
    transfer.origin = stop ∧ transfer.Sound network.numStops
  /-- A walk is listed at its end exactly if it is listed at its start. -/
  transfersTo : ∀ {stop transfer}, transfer ∈ network.transfersTo stop ↔
    transfer.target = stop ∧ transfer ∈ network.transfersFrom transfer.origin

/-- A linked network on which trips neither go back in time nor overtake each other. -/
structure Network.Sound (network : Network) : Prop extends network.Linked where
  table : ∀ {index table}, network.tripTable index = .ok table → table.Sound

namespace Network.Linked

variable {network : Network}

/-- Every position of a table stands for a stop of the network. -/
theorem stop_lt (linked : network.Linked) {index position stop : Nat} {table : TripTable}
    (hTable : network.tripTable index = .ok table) (hStop : table.stopAt position = .ok stop) :
    stop < network.numStops := by
  obtain ⟨data, hData, -⟩ := linked.visits hTable hStop
  exact (Array.getElem?_eq_some_iff.mp hData).1

/-- A walk along a search starts at the stop it is listed at, leads to a known stop, and takes
no negative time. -/
theorem transfers (linked : network.Linked) {direction : Direction} {stop : Nat}
    {transfer : Transfer} (h : transfer ∈ direction.transfers network stop) :
    direction.transferTarget transfer < network.numStops ∧ 0 ≤ transfer.duration := by
  cases direction with
  | forward =>
      obtain ⟨-, hSound⟩ := linked.transfersFrom h
      exact ⟨hSound.target_lt, hSound.duration_nonneg⟩
  | reverse =>
      obtain ⟨-, hSound⟩ := linked.transfersFrom (linked.transfersTo.mp h).2
      exact ⟨hSound.origin_lt, hSound.duration_nonneg⟩

end Network.Linked

namespace Draft

variable {draft : Draft}

/-- Arranging a draft sorts the trips of each of its patterns in place. -/
theorem getElem?_arranged {index : Nat} {pattern : PatternDraft} :
    draft.arranged[index]? = some pattern ↔
      ∃ original, draft.patterns[index]? = some original ∧ original.sorted = pattern := by
  simp [arranged]

theorem Sound.isFull_arranged (sound : draft.Sound) {pattern : PatternDraft}
    (hPattern : pattern ∈ draft.arranged) : pattern.IsFull := by
  obtain ⟨original, hOriginal, rfl⟩ := List.mem_map.mp hPattern
  exact (sound.patterns original hOriginal).isFull_sorted

/-- The trip tables of the network are those of the sorted patterns. -/
theorem Sound.tripTable_eq_ok_iff (sound : draft.Sound) {index : Nat} {table : TripTable} :
    (draft.pack draft.arranged).tripTable index = .ok table ↔
      ∃ pattern, draft.arranged[index]? = some pattern ∧ table = pattern.table index := by
  constructor
  · intro hTable
    have hPattern := List.getElem?_eq_getElem (lt_length_of_tripTable_pack hTable)
    rw [tripTable_pack hPattern (sound.isFull_arranged (List.getElem_mem _)),
      Except.ok.injEq] at hTable
    exact ⟨_, hPattern, hTable.symm⟩
  · rintro ⟨pattern, hPattern, rfl⟩
    exact tripTable_pack hPattern (sound.isFull_arranged (List.mem_of_getElem? hPattern))

/-- The network packed from a sound draft is sound. -/
theorem Sound.sound_pack (sound : draft.Sound) : (draft.pack draft.arranged).Sound := by
  have hTables : ∀ {index table}, (draft.pack draft.arranged).tripTable index = .ok table →
      table.Sound := by
    intro index table hTable
    obtain ⟨pattern, hPattern, rfl⟩ := sound.tripTable_eq_ok_iff.mp hTable
    obtain ⟨original, hOriginal, rfl⟩ := getElem?_arranged.mp hPattern
    exact (sound.patterns original (List.mem_of_getElem? hOriginal)).sound_table index
  refine ⟨⟨?_, fun hTable => (hTables hTable).toShaped, ?_, ?_, ?_⟩, hTables⟩
  · intro index hIndex
    rw [numPatterns_pack] at hIndex
    exact ⟨_, sound.tripTable_eq_ok_iff.mpr ⟨_, List.getElem?_eq_getElem hIndex, rfl⟩⟩
  · intro index table position stop hTable hStop
    obtain ⟨pattern, hPattern, rfl⟩ := sound.tripTable_eq_ok_iff.mp hTable
    obtain ⟨original, hOriginal, rfl⟩ := getElem?_arranged.mp hPattern
    rw [PatternDraft.stopAt_table] at hStop
    have hKnown : stop < (draft.pack draft.arranged).stops.size := by
      change stop < (draft.pack draft.arranged).numStops
      rw [numStops_pack]
      exact (sound.patterns original (List.mem_of_getElem? hOriginal)).stop_lt stop
        (List.mem_of_getElem? hStop)
    have hData := Array.getElem?_eq_getElem hKnown
    exact ⟨_, hData, ⟨index, position⟩, (visits_pack hData).mpr ⟨_, hPattern, hStop⟩, rfl⟩
  · intro stop transfer hTransfer
    rw [transfersFrom_pack] at hTransfer
    split at hTransfer
    · obtain ⟨hMem, hOrigin⟩ := mem_transfersFrom.mp hTransfer
      rw [numStops_pack]
      exact ⟨hOrigin, sound.transfers transfer hMem⟩
    · cases hTransfer
  · intro stop transfer
    rw [transfersFrom_pack, transfersTo_pack]
    constructor
    · intro hTransfer
      split at hTransfer
      · obtain ⟨hMem, hTarget⟩ := mem_transfersTo.mp hTransfer
        rw [if_pos (sound.transfers transfer hMem).origin_lt]
        exact ⟨hTarget, mem_transfersFrom.mpr ⟨hMem, rfl⟩⟩
      · cases hTransfer
    · rintro ⟨rfl, hTransfer⟩
      split at hTransfer
      · obtain ⟨hMem, -⟩ := mem_transfersFrom.mp hTransfer
        rw [if_pos (sound.transfers transfer hMem).target_lt]
        exact mem_transfersTo.mpr ⟨hMem, rfl⟩
      · cases hTransfer

end Draft

/-- A network that was built is sound. -/
theorem Network.Sound.of_build {draft : Draft} {network : Network}
    (hBuild : draft.build = .ok network) : network.Sound := by
  obtain ⟨sound, rfl⟩ := Draft.build_eq_ok_iff.mp hBuild
  exact sound.sound_pack

end JourneyPlanner
