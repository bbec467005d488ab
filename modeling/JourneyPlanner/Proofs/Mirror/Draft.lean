import JourneyPlanner.Proofs.Network.Sound

/-! The mirror image of a timetable, in which time runs backwards: what was an arrival is a
departure, the first stop of a pattern is its last one, and so is the first trip. Main
statements: the image of a network that was built can be built, and its tables are the images
of those of the network. -/
namespace JourneyPlanner

def StopTime.mirror (time : StopTime) : StopTime :=
  { arrival := -time.departure, departure := -time.arrival }

def TripDraft.mirror (trip : TripDraft) : TripDraft :=
  { trip with times := (trip.times.map StopTime.mirror).reverse }

def PatternDraft.mirror (pattern : PatternDraft) : PatternDraft :=
  { pattern with
    stops := pattern.stops.reverse
    trips := (pattern.trips.map TripDraft.mirror).reverse }

def Transfer.mirror (transfer : Transfer) : Transfer :=
  { transfer with origin := transfer.target, target := transfer.origin }

/-- The image of a timetable. Its trips are added in the reverse of the order in which they are
built. -/
def Draft.mirror (draft : Draft) : Draft :=
  { draft with
    patterns := draft.arranged.map PatternDraft.mirror
    transfers := draft.transfers.map Transfer.mirror }

namespace TripDraft

variable {trip earlier later : TripDraft} {numStops numServices : Nat}

/-- The mirrored trip calls at its stops backwards, at the negated times. -/
theorem getElem?_times_mirror {position : Nat} (hPosition : position < trip.times.length) :
    trip.mirror.times[trip.times.length - 1 - position]? =
      trip.times[position]?.map StopTime.mirror := by
  simp only [mirror]
  rw [List.getElem?_reverse (by rw [List.length_map]; omega), List.length_map, List.getElem?_map,
    show trip.times.length - 1 - (trip.times.length - 1 - position) = position by omega]

/-- The mirror image of a sound trip is sound. -/
theorem Sound.mirror (sound : trip.Sound numStops numServices) :
    trip.mirror.Sound numStops numServices := by
  refine ⟨by simp [TripDraft.mirror, sound.length_times], sound.service_lt, ?_, ?_⟩
  · intro time hTime
    obtain ⟨original, hOriginal, rfl⟩ := List.mem_map.mp (List.mem_reverse.mp hTime)
    have := sound.dwell original hOriginal
    simp only [StopTime.mirror]
    omega
  · rw [TripDraft.mirror, List.isChain_reverse, List.isChain_map]
    refine sound.run.imp fun time next hRun => ?_
    simp only [StopTime.mirror]
    omega

/-- Trips that do not fall behind at any position are found there at the same index. -/
theorem notBehind_iff : earlier.NotBehind later ↔ ∀ (position : Nat) (time other : StopTime),
    earlier.times[position]? = some time → later.times[position]? = some other →
      time.arrival ≤ other.arrival ∧ time.departure ≤ other.departure := by
  constructor
  · intro h position time other hTime hOther
    refine h (time, other) (List.mem_of_getElem? (i := position) ?_)
    rw [List.getElem?_zip_eq_some]
    exact ⟨hTime, hOther⟩
  · rintro h ⟨time, other⟩ hPair
    obtain ⟨position, hPosition⟩ := List.mem_iff_getElem?.mp hPair
    rw [List.getElem?_zip_eq_some] at hPosition
    exact h position time other hPosition.1 hPosition.2

/-- Of two trips with equally many times, the image of the later one comes first. -/
theorem NotBehind.mirror (h : earlier.NotBehind later)
    (hLength : earlier.times.length = later.times.length) :
    later.mirror.NotBehind earlier.mirror := by
  rw [notBehind_iff] at h ⊢
  intro position time other hTime hOther
  have hPosition : position < later.times.length := by
    simpa [TripDraft.mirror] using (List.getElem?_eq_some_iff.mp hTime).1
  have hSame : later.times.length - 1 - (later.times.length - 1 - position) = position := by omega
  rw [← hSame, getElem?_times_mirror (by omega), Option.map_eq_some_iff] at hTime
  rw [← hSame, ← hLength, getElem?_times_mirror (by omega), Option.map_eq_some_iff] at hOther
  obtain ⟨late, hLate, rfl⟩ := hTime
  obtain ⟨early, hEarly, rfl⟩ := hOther
  have := h _ early late hEarly (hLength ▸ hLate)
  simp only [StopTime.mirror]
  omega

end TripDraft

namespace PatternDraft

variable {pattern : PatternDraft} {numStops numServices : Nat}

theorem IsFull.mirror (hFull : pattern.IsFull) : pattern.mirror.IsFull := by
  intro trip hTrip
  obtain ⟨original, hOriginal, rfl⟩ := List.mem_map.mp (List.mem_reverse.mp hTrip)
  simpa [TripDraft.mirror, PatternDraft.mirror] using hFull original hOriginal

/-- Trips that do not overtake one another do not do so in the mirror either. -/
theorem isChain_mirror (hChain : pattern.trips.IsChain TripDraft.NotBehind)
    (hFull : pattern.IsFull) : pattern.mirror.trips.IsChain TripDraft.NotBehind := by
  rw [mirror, List.isChain_reverse, List.isChain_map]
  refine hChain.imp_of_mem_imp fun earlier later hEarlier hLater hOrder => ?_
  exact hOrder.mirror ((hFull earlier hEarlier).trans (hFull later hLater).symm)

/-- Trips that do not fall behind each other are sorted already. -/
theorem sorted_eq_self (hChain : pattern.trips.IsChain TripDraft.NotBehind)
    (hFull : pattern.IsFull) : pattern.sorted = pattern := by
  have hSorted : pattern.trips.Pairwise fun earlier later =>
      earlier.startsBefore later = true := by
    rw [List.pairwise_iff_getElem]
    intro first second hFirst hSecond hOrder
    have hTimes : ∀ time later, pattern.trips[first].times[0]? = some time →
        pattern.trips[second].times[0]? = some later →
          time.arrival ≤ later.arrival ∧ time.departure ≤ later.departure := fun _ _ =>
      times_sorted hChain hFull (Nat.le_of_lt hOrder) (List.getElem?_eq_getElem hFirst)
        (List.getElem?_eq_getElem hSecond)
    have hLength : pattern.trips[first].times.length = pattern.trips[second].times.length :=
      (hFull _ (List.getElem_mem _)).trans (hFull _ (List.getElem_mem _)).symm
    simp only [← List.head?_eq_getElem?] at hTimes
    unfold TripDraft.startsBefore
    split
    · rename_i time later hTime hLater
      have := hTimes time later hTime hLater
      exact decide_eq_true (by omega)
    · rfl
    · rename_i time hTime hNone
      rw [List.head?_eq_none_iff.mp hNone, List.length_nil, List.length_eq_zero_iff] at hLength
      rw [hLength] at hTime
      cases hTime
  rw [sorted, List.mergeSort_of_pairwise hSorted]

/-- A sorted pattern stays sound and sorted in the mirror. -/
theorem Sound.mirror_sorted (sound : pattern.Sound numStops numServices) :
    pattern.sorted.mirror.Sound numStops numServices ∧
      pattern.sorted.mirror.sorted = pattern.sorted.mirror := by
  have hFull := sound.isFull_sorted
  have hSorted := sorted_eq_self (isChain_mirror sound.chain hFull) hFull.mirror
  refine ⟨⟨?_, ?_, ?_, ?_⟩, hSorted⟩
  · simpa [mirror] using sound.stops_ne_nil
  · simpa [mirror] using sound.stop_lt
  · intro trip hTrip
    obtain ⟨original, hOriginal, rfl⟩ := List.mem_map.mp (List.mem_reverse.mp hTrip)
    simpa [mirror] using (sound.trips original (mem_trips_sorted.mp hOriginal)).mirror
  · rw [hSorted]
    exact isChain_mirror sound.chain hFull

end PatternDraft

structure TripTable.Mirrors (table image : TripTable) : Prop where
  pattern : image.pattern = table.pattern
  numStops : image.numStops = table.numStops
  numTrips : image.numTrips = table.numTrips
  stopAt : ∀ {position}, position < table.numStops →
    image.stopAt (table.numStops - 1 - position) = table.stopAt position
  timeAt : ∀ {trip position time}, trip < table.numTrips → position < table.numStops →
    table.timeAt trip position = .ok time →
    image.timeAt (table.numTrips - 1 - trip) (table.numStops - 1 - position) = .ok time.mirror
  services : ∀ {trip}, trip < table.numTrips →
    image.services[table.numTrips - 1 - trip]? = table.services[trip]?

/-- The tables of a pattern and of its mirror image mirror each other. -/
theorem PatternDraft.mirrors_table {pattern : PatternDraft} (hFull : pattern.IsFull) (index : Nat) :
    (pattern.table index).Mirrors (pattern.mirror.table index) := by
  have hStops : pattern.mirror.stops.length = pattern.stops.length := by simp [mirror]
  have hTrips : pattern.mirror.trips.length = pattern.trips.length := by simp [mirror]
  refine ⟨rfl, by simp [hStops], by simp [hTrips], ?_, ?_, ?_⟩
  · intro position hPosition
    rw [numStops_table] at hPosition
    simp only [TripTable.stopAt, table, TripTable.numStops, List.getElem?_toArray, List.size_toArray,
      mirror]
    rw [List.getElem?_reverse (by omega),
      show pattern.stops.length - 1 - (pattern.stops.length - 1 - position) = position by omega]
  · intro trip position time hTrip hPosition hTime
    rw [numTrips_table] at hTrip
    rw [numStops_table] at hPosition
    obtain ⟨draft, hDraft, hAt⟩ := (timeAt_table hFull hPosition).mp hTime
    have hLength := hFull draft (List.mem_of_getElem? hDraft)
    rw [numTrips_table, numStops_table,
      timeAt_table hFull.mirror (hStops.symm ▸ (by omega : pattern.stops.length - 1 - position <
        pattern.stops.length))]
    refine ⟨draft.mirror, ?_, ?_⟩
    · simp only [mirror]
      rw [List.getElem?_reverse (by rw [List.length_map]; omega), List.length_map,
        List.getElem?_map,
        show pattern.trips.length - 1 - (pattern.trips.length - 1 - trip) = trip by omega, hDraft]
      rfl
    · rw [← hLength, TripDraft.getElem?_times_mirror (hLength.symm ▸ hPosition), hAt]
      rfl
  · intro trip hTrip
    rw [numTrips_table] at hTrip
    simp only [table, TripTable.numTrips, List.getElem?_toArray, List.size_toArray, mirror,
      List.length_map, List.getElem?_map]
    rw [List.getElem?_reverse (by rw [List.length_map]; omega), List.length_map, List.getElem?_map,
      show pattern.trips.length - 1 - (pattern.trips.length - 1 - trip) = trip by omega,
      Option.map_map]
    rfl

namespace Draft

variable {draft : Draft}

/-- The image of a draft that can be built can be built. -/
theorem Sound.mirror (sound : draft.Sound) : draft.mirror.Sound := by
  constructor
  · intro pattern hPattern
    obtain ⟨arranged, hArranged, rfl⟩ := List.mem_map.mp hPattern
    obtain ⟨original, hOriginal, rfl⟩ := List.mem_map.mp hArranged
    exact (sound.patterns original hOriginal).mirror_sorted.1
  · intro transfer hTransfer
    obtain ⟨original, hOriginal, rfl⟩ := List.mem_map.mp hTransfer
    have hSound := sound.transfers original hOriginal
    exact ⟨hSound.target_lt, hSound.origin_lt, hSound.duration_nonneg⟩

/-- The patterns of the image are in order as they are added. -/
theorem Sound.arranged_mirror (sound : draft.Sound) :
    draft.mirror.arranged = draft.arranged.map PatternDraft.mirror := by
  simp only [arranged, Draft.mirror, List.map_map]
  refine List.map_congr_left fun pattern hPattern => ?_
  exact (sound.patterns pattern hPattern).mirror_sorted.2

/-- The walks of the image from a stop are the images of those to it, in the same order. -/
theorem transfersFrom_mirror (stop : Nat) :
    draft.mirror.transfersFrom stop = (draft.transfersTo stop).map Transfer.mirror := by
  have hSort := List.map_mergeSort (f := Transfer.mirror)
    (l := draft.transfers.filter fun t => t.target == stop)
    (r := fun a b => decide (a.origin ≤ b.origin)) (s := fun a b => decide (a.target ≤ b.target))
    fun _ _ _ _ => rfl
  rw [transfersTo, hSort, transfersFrom, Draft.mirror, List.filter_map]
  rfl

end Draft

end JourneyPlanner
