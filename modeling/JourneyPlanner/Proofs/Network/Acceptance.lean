import JourneyPlanner.Proofs.Network.Packing
import Mathlib.Data.List.Chain

/-! Building accepts a draft exactly if its trips never go back in time, none of them overtakes
the one before it once they are sorted, and all references lead somewhere. Main statements:
the exact condition, and that the network of an accepted draft has sound trip tables. -/
namespace JourneyPlanner

namespace TripDraft

structure Sound (trip : TripDraft) (numStops numServices : Nat) : Prop where
  length_times : trip.times.length = numStops
  service_lt : trip.service < numServices
  dwell : ∀ time ∈ trip.times, time.arrival ≤ time.departure
  run : trip.times.IsChain fun time next => time.departure ≤ next.arrival

/-- At no position is one trip behind a later one. -/
def NotBehind (earlier later : TripDraft) : Prop :=
  ∀ pair ∈ earlier.times.zip later.times,
    pair.1.arrival ≤ pair.2.arrival ∧ pair.1.departure ≤ pair.2.departure

/-- Consecutive times are checked pair by pair. -/
theorem isChain_iff_zip_tail {order : StopTime → StopTime → Prop} (times : List StopTime) :
    times.IsChain order ↔ ∀ pair ∈ times.zip times.tail, order pair.1 pair.2 := by
  induction times with
  | nil => simp
  | cons first rest ih =>
      cases rest with
      | nil => simp
      | cons second rest =>
          rw [List.isChain_cons_cons, ih]
          simp

/-- No position is reported exactly when the times of the trip never go back. -/
theorem backwardPosition?_eq_none_iff {trip : TripDraft} :
    trip.backwardPosition? = none ↔
      (∀ time ∈ trip.times, time.arrival ≤ time.departure) ∧
        trip.times.IsChain fun time next => time.departure ≤ next.arrival := by
  rw [isChain_iff_zip_tail, backwardPosition?]
  cases hDwell : trip.times.findIdx? fun time => decide (time.departure < time.arrival) with
  | some position =>
      simp only [reduceCtorEq, false_iff, not_and]
      intro hOrdered
      rw [List.findIdx?_eq_none_iff.mpr
        fun time hTime => by simpa using hOrdered time hTime] at hDwell
      cases hDwell
  | none =>
      have hOrdered : ∀ time ∈ trip.times, time.arrival ≤ time.departure := by
        simpa [List.findIdx?_eq_none_iff] using hDwell
      simpa [List.findIdx?_eq_none_iff] using fun _ => hOrdered

/-- A trip is accepted exactly when it is sound. -/
theorem error?_eq_none_iff {trip : TripDraft} {numStops numServices pattern index : Nat} :
    trip.error? numStops numServices pattern index = none ↔ trip.Sound numStops numServices := by
  unfold error?
  constructor
  · intro h
    split at h
    · cases h
    · rename_i hLength
      split at h
      · cases h
      · rename_i hService
        obtain ⟨hDwell, hRun⟩ := backwardPosition?_eq_none_iff.mp (Option.map_eq_none_iff.mp h)
        exact ⟨Decidable.not_not.mp hLength, Nat.lt_of_not_le hService, hDwell, hRun⟩
  · intro sound
    rw [if_neg (by simpa using sound.length_times), if_neg (Nat.not_le_of_lt sound.service_lt),
      Option.map_eq_none_iff]
    exact backwardPosition?_eq_none_iff.mpr ⟨sound.dwell, sound.run⟩

/-- No position is reported exactly when the later trip is nowhere ahead. -/
theorem overtakenAt?_eq_none_iff {earlier later : TripDraft} :
    earlier.overtakenAt? later = none ↔ earlier.NotBehind later := by
  simp only [overtakenAt?, List.findIdx?_eq_none_iff, decide_eq_false_iff_not, not_or, Int.not_lt,
    NotBehind]
  exact forall₂_congr fun pair _ => and_comm

/-- A trip leaves every stop before it reaches a later one. -/
theorem Sound.departure_le_arrival {trip : TripDraft} {numStops numServices : Nat}
    (sound : trip.Sound numStops numServices) {first second : Nat} {time later : StopTime}
    (hOrder : first < second) (hTime : trip.times[first]? = some time)
    (hLater : trip.times[second]? = some later) : time.departure ≤ later.arrival := by
  obtain ⟨count, rfl⟩ := Nat.exists_eq_add_of_lt hOrder
  induction count generalizing later with
  | zero =>
      obtain ⟨hFirst, rfl⟩ := List.getElem?_eq_some_iff.mp hTime
      obtain ⟨hSecond, rfl⟩ := List.getElem?_eq_some_iff.mp hLater
      exact List.isChain_iff_getElem.mp sound.run first hSecond
  | succ count ih =>
      obtain ⟨hSecond, rfl⟩ := List.getElem?_eq_some_iff.mp hLater
      have hBefore : first + count + 1 < trip.times.length := by omega
      have hStep : trip.times[first + count + 1].departure ≤
          trip.times[first + (count + 1) + 1].arrival :=
        List.isChain_iff_getElem.mp sound.run (first + count + 1) hSecond
      have hDwell := sound.dwell _ (List.getElem_mem hBefore)
      have hReach := ih (by omega) (List.getElem?_eq_getElem hBefore)
      omega

end TripDraft

namespace PatternDraft

structure Sound (pattern : PatternDraft) (numStops numServices : Nat) : Prop where
  stops_ne_nil : pattern.stops ≠ []
  stop_lt : ∀ stop ∈ pattern.stops, stop < numStops
  trips : ∀ trip ∈ pattern.trips, trip.Sound pattern.stops.length numServices
  /-- Once sorted, no trip overtakes the one before it. -/
  chain : pattern.sorted.trips.IsChain TripDraft.NotBehind

@[simp]
theorem stops_sorted (pattern : PatternDraft) : pattern.sorted.stops = pattern.stops := rfl

theorem mem_trips_sorted {pattern : PatternDraft} {trip : TripDraft} :
    trip ∈ pattern.sorted.trips ↔ trip ∈ pattern.trips :=
  List.mem_mergeSort

/-- The trips of a pattern are accepted exactly when each of them is. -/
theorem tripError?_eq_none_iff {numStops numServices pattern index : Nat} {trips : List TripDraft} :
    tripError? numStops numServices pattern index trips = none ↔
      ∀ trip ∈ trips, trip.Sound numStops numServices := by
  induction trips generalizing index with
  | nil => simp [tripError?]
  | cons trip rest ih =>
      have hFirst : trip.error? numStops numServices pattern index = none ↔
          trip.Sound numStops numServices := TripDraft.error?_eq_none_iff
      rw [tripError?, List.forall_mem_cons, ← hFirst]
      cases trip.error? numStops numServices pattern index with
      | some error => simp
      | none => simpa using ih

/-- No overtaking is reported exactly when no trip is ahead of the one before it. -/
theorem overtaking?_eq_none_iff {index : Nat} {trips : List TripDraft} :
    overtaking? index trips = none ↔ trips.IsChain TripDraft.NotBehind := by
  induction trips generalizing index with
  | nil => simp [overtaking?]
  | cons first rest ih =>
      cases rest with
      | nil => simp [overtaking?]
      | cons second rest =>
          rw [overtaking?, List.isChain_cons_cons, ← TripDraft.overtakenAt?_eq_none_iff]
          cases first.overtakenAt? second with
          | some position => simp
          | none => simpa using ih

/-- A pattern is arranged exactly when it is sound, and then by sorting its trips. -/
theorem arrange_eq_ok_iff {numStops numServices index : Nat} {pattern arranged : PatternDraft} :
    pattern.arrange numStops numServices index = .ok arranged ↔
      pattern.Sound numStops numServices ∧ arranged = pattern.sorted := by
  unfold arrange error?
  constructor
  · intro h
    split at h
    · cases h
    · rename_i hError
      split at hError
      · cases hError
      · rename_i hStops
        split at hError
        · cases hError
        · rename_i hKnown
          split at h
          · cases h
          · rename_i hChain
            cases h
            refine ⟨⟨by simpa using hStops, ?_, tripError?_eq_none_iff.mp hError,
              overtaking?_eq_none_iff.mp hChain⟩, rfl⟩
            simpa [List.find?_eq_none] using hKnown
  · rintro ⟨sound, rfl⟩
    have hKnown : pattern.stops.find? (fun stop => decide (numStops ≤ stop)) = none := by
      simpa [List.find?_eq_none] using sound.stop_lt
    rw [if_neg (by simpa using sound.stops_ne_nil), hKnown]
    simp only [tripError?_eq_none_iff.mpr sound.trips, overtaking?_eq_none_iff.mpr sound.chain]

/-- Trips that are handed in in order are left as they are. -/
theorem sorted_of_pairwise {pattern : PatternDraft}
    (hOrder : pattern.trips.Pairwise fun a b => a.startsBefore b) : pattern.sorted = pattern := by
  rw [sorted, List.mergeSort_of_pairwise hOrder]

/-- A pattern whose trips are in order already is arranged as it stands. -/
theorem arrange_of_pairwise {numStops numServices index : Nat} {pattern : PatternDraft}
    (hOrder : pattern.trips.Pairwise fun a b => a.startsBefore b)
    (hError : pattern.error? numStops numServices index = none)
    (hChain : overtaking? 0 pattern.trips = none) :
    pattern.arrange numStops numServices index = .ok pattern := by
  rw [arrange, hError, sorted_of_pairwise hOrder, hChain]

/-- The patterns are arranged exactly when each of them is sound. -/
theorem arrangeAll_eq_ok_iff {numStops numServices index : Nat}
    {patterns arranged : List PatternDraft} :
    arrangeAll numStops numServices index patterns = .ok arranged ↔
      (∀ pattern ∈ patterns, pattern.Sound numStops numServices) ∧
        arranged = patterns.map sorted := by
  induction patterns generalizing index arranged with
  | nil => simp [arrangeAll, eq_comm]
  | cons pattern rest ih =>
      rw [arrangeAll, List.forall_mem_cons]
      cases hFirst : pattern.arrange numStops numServices index with
      | error error =>
          simp only [reduceCtorEq, false_iff, not_and]
          rintro ⟨sound, -⟩
          rw [arrange_eq_ok_iff.mpr ⟨sound, rfl⟩] at hFirst
          cases hFirst
      | ok first =>
          obtain ⟨sound, rfl⟩ := arrange_eq_ok_iff.mp hFirst
          cases hRest : arrangeAll numStops numServices (index + 1) rest with
          | error error =>
              simp only [reduceCtorEq, false_iff, not_and]
              rintro ⟨-, hSound⟩
              rw [ih.mpr ⟨hSound, rfl⟩] at hRest
              cases hRest
          | ok others =>
              obtain ⟨hSound, rfl⟩ := ih.mp hRest
              simp only [Except.ok.injEq, List.map_cons]
              exact ⟨fun h => ⟨⟨sound, hSound⟩, h.symm⟩, fun h => h.2.symm⟩

/-- At one position, the trips of a sorted pattern are in order of their times. -/
theorem times_sorted {pattern : PatternDraft} (hChain : pattern.trips.IsChain TripDraft.NotBehind)
    (hFull : pattern.IsFull) {first second position : Nat} {trip other : TripDraft}
    {time later : StopTime} (hOrder : first ≤ second)
    (hTrip : pattern.trips[first]? = some trip) (hOther : pattern.trips[second]? = some other)
    (hTime : trip.times[position]? = some time) (hLater : other.times[position]? = some later) :
    time.arrival ≤ later.arrival ∧ time.departure ≤ later.departure := by
  induction second, hOrder using Nat.le_induction generalizing other later with
  | base =>
      rw [hTrip, Option.some.injEq] at hOther
      rw [← hOther, hTime, Option.some.injEq] at hLater
      simp [hLater]
  | succ second hLe ih =>
      obtain ⟨hSecond, rfl⟩ := List.getElem?_eq_some_iff.mp hOther
      obtain ⟨hPosition, rfl⟩ := List.getElem?_eq_some_iff.mp hLater
      have hBefore : second < pattern.trips.length := by omega
      have hInside : position < (pattern.trips[second]).times.length := by
        rw [hFull _ (List.getElem_mem hBefore), ← hFull _ (List.getElem_mem hSecond)]
        exact hPosition
      have hReach := ih (List.getElem?_eq_getElem hBefore) (List.getElem?_eq_getElem hInside)
      have hStep := List.isChain_iff_getElem.mp hChain second hSecond
      have hPair := hStep
        (pattern.trips[second].times[position], pattern.trips[second + 1].times[position])
        (List.mem_iff_getElem.mpr ⟨position, by simp; omega, by simp⟩)
      exact ⟨Int.le_trans hReach.1 hPair.1, Int.le_trans hReach.2 hPair.2⟩

namespace Sound

variable {pattern : PatternDraft} {numStops numServices : Nat}

theorem isFull_sorted (sound : pattern.Sound numStops numServices) : pattern.sorted.IsFull :=
  fun trip hTrip => (sound.trips trip (mem_trips_sorted.mp hTrip)).length_times

/-- The sorted trips of an accepted pattern make a sound table. -/
theorem sound_table (sound : pattern.Sound numStops numServices) (index : Nat) :
    (pattern.sorted.table index).Sound := by
  have hFull := sound.isFull_sorted
  have hStops : (pattern.sorted.table index).numStops = pattern.stops.length := by
    rw [numStops_table, stops_sorted]
  have hShaped : (pattern.sorted.table index).Shaped := by
    constructor
    · rw [hStops]
      exact List.length_pos_iff.mpr sound.stops_ne_nil
    · rw [numTrips_table, numStops_table]
      simpa [table] using length_flatMap_row hFull
  refine ⟨hShaped, ?_, ?_, ?_⟩
  · intro trip position time hPosition hTime
    obtain ⟨draft, hDraft, hAt⟩ := (timeAt_table hFull (by simpa using hPosition)).mp hTime
    exact (sound.trips draft (mem_trips_sorted.mp (List.mem_of_getElem? hDraft))).dwell time
      (List.mem_of_getElem? hAt)
  · intro trip first second time later hOrder hSecond hTime hLater
    rw [hStops] at hSecond
    obtain ⟨draft, hDraft, hAt⟩ := (timeAt_table hFull (hOrder.trans hSecond)).mp hTime
    obtain ⟨same, hSame, hThere⟩ := (timeAt_table hFull hSecond).mp hLater
    rw [hDraft, Option.some.injEq] at hSame
    subst hSame
    exact (sound.trips draft (mem_trips_sorted.mp (List.mem_of_getElem? hDraft))).departure_le_arrival
      hOrder hAt hThere
  · intro first second position time later hOrder hPosition hTime hLater
    rw [hStops] at hPosition
    obtain ⟨trip, hTrip, hAt⟩ := (timeAt_table hFull hPosition).mp hTime
    obtain ⟨other, hOther, hThere⟩ := (timeAt_table hFull hPosition).mp hLater
    exact times_sorted sound.chain hFull hOrder hTrip hOther hAt hThere

end Sound

end PatternDraft

/-- A walk between known stops that takes no negative time. -/
structure Transfer.Sound (transfer : Transfer) (numStops : Nat) : Prop where
  origin_lt : transfer.origin < numStops
  target_lt : transfer.target < numStops
  duration_nonneg : 0 ≤ transfer.duration

namespace Draft

structure Sound (draft : Draft) : Prop where
  patterns : ∀ pattern ∈ draft.patterns,
    pattern.Sound draft.stops.length draft.calendar.services.size
  transfers : ∀ transfer ∈ draft.transfers, transfer.Sound draft.stops.length

def arranged (draft : Draft) : List PatternDraft := draft.patterns.map PatternDraft.sorted

/-- The transfers are accepted exactly when each of them is sound. -/
theorem transferError?_eq_none_iff {draft : Draft} :
    draft.transferError? = none ↔
      ∀ transfer ∈ draft.transfers, transfer.Sound draft.stops.length := by
  simp only [transferError?, Option.map_eq_none_iff, List.find?_eq_none, decide_eq_true_eq]
  refine forall₂_congr fun transfer _ => ⟨fun h => ?_, fun sound => ?_⟩
  · constructor <;> omega
  · have := sound.origin_lt
    have := sound.target_lt
    have := sound.duration_nonneg
    omega

/-- Building succeeds exactly on sound drafts, and packs their sorted patterns. -/
theorem build_eq_ok_iff {draft : Draft} {network : Network} :
    draft.build = .ok network ↔ draft.Sound ∧ network = draft.pack draft.arranged := by
  unfold build
  constructor
  · intro h
    split at h
    · cases h
    · rename_i patterns hPatterns
      obtain ⟨hSound, rfl⟩ := PatternDraft.arrangeAll_eq_ok_iff.mp hPatterns
      split at h
      · cases h
      · rename_i hTransfers
        cases h
        exact ⟨⟨hSound, transferError?_eq_none_iff.mp hTransfers⟩, rfl⟩
  · rintro ⟨sound, rfl⟩
    rw [PatternDraft.arrangeAll_eq_ok_iff.mpr ⟨sound.patterns, rfl⟩]
    simp only [transferError?_eq_none_iff.mpr sound.transfers]
    rfl

/-- The network of a draft whose trips are handed in in order, with nothing wrong in any pattern. -/
theorem build_of_pairwise {draft : Draft}
    (hPatterns : ∀ pattern ∈ draft.patterns,
      (pattern.trips.Pairwise fun a b => a.startsBefore b) ∧
        pattern.error? draft.stops.length draft.calendar.services.size 0 = none ∧
        PatternDraft.overtaking? 0 pattern.trips = none)
    (hTransfers : draft.transferError? = none) :
    draft.build = .ok (draft.pack draft.patterns) := by
  have hArranged : draft.arranged = draft.patterns := by
    rw [arranged, List.map_congr_left fun pattern hPattern =>
      PatternDraft.sorted_of_pairwise (hPatterns pattern hPattern).1, List.map_id']
  refine build_eq_ok_iff.mpr ⟨⟨fun pattern hPattern => ?_, transferError?_eq_none_iff.mp hTransfers⟩,
    by rw [hArranged]⟩
  obtain ⟨hOrder, hError, hChain⟩ := hPatterns pattern hPattern
  exact (PatternDraft.arrange_eq_ok_iff.mp (PatternDraft.arrange_of_pairwise hOrder hError hChain)).1

/-- The network of a draft that is accepted. -/
theorem build_of_isOk {draft : Draft} (h : draft.build.isOk) :
    draft.build = .ok (draft.pack draft.arranged) := by
  cases hBuild : draft.build with
  | error error => simp [hBuild, Except.isOk, Except.toBool] at h
  | ok network => rw [(build_eq_ok_iff.mp hBuild).2]

end Draft

end JourneyPlanner
