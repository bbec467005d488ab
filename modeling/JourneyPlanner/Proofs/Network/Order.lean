import JourneyPlanner.Proofs.Lookup.Tables
import JourneyPlanner.Proofs.Mirror.Draft
import JourneyPlanner.Proofs.Network.Additions

/-! Which timetables can be built. Trips are sorted by their first stop, and then each is checked
against the next one. That accepts every pattern whose trips can be compared two by two, but for
trips that stand at the first stop at the same times: these keep the order in which they were
handed in, even where only the other order is one without overtaking. Main statements: the exact
condition, and that the order of other trips does not matter. -/
namespace JourneyPlanner

namespace TripDraft

variable {trip other earlier later : TripDraft}

/-- Of the two trips one is never later than the other. -/
def Comparable (trip other : TripDraft) : Prop := trip.NotBehind other ∨ other.NotBehind trip

def Tied (trip other : TripDraft) : Prop := trip.times.head? = other.times.head?

instance : DecidableRel NotBehind := fun earlier later =>
  inferInstanceAs (Decidable (∀ pair ∈ earlier.times.zip later.times,
    pair.1.arrival ≤ pair.2.arrival ∧ pair.1.departure ≤ pair.2.departure))

instance : DecidableRel Comparable := fun trip other =>
  inferInstanceAs (Decidable (trip.NotBehind other ∨ other.NotBehind trip))

instance : DecidableRel Tied := fun trip other =>
  inferInstanceAs (Decidable (trip.times.head? = other.times.head?))

instance (trip : TripDraft) (numStops numServices : Nat) :
    Decidable (trip.Sound numStops numServices) :=
  decidable_of_iff (trip.error? numStops numServices 0 0 = none) error?_eq_none_iff

theorem Comparable.symm (h : trip.Comparable other) : other.Comparable trip := Or.symm h

/-- Starting before another trip is transitive. -/
theorem startsBefore_trans (a b c : TripDraft) (hFirst : a.startsBefore b = true)
    (hSecond : b.startsBefore c = true) : a.startsBefore c = true := by
  unfold startsBefore at *
  cases hA : a.times.head? <;> cases hB : b.times.head? <;> cases hC : c.times.head? <;>
    simp_all only [decide_eq_true_eq, reduceCtorEq]
  omega

/-- Of any two trips one starts before the other, or they are tied. -/
theorem startsBefore_total (a b : TripDraft) :
    (a.startsBefore b || b.startsBefore a) = true := by
  unfold startsBefore
  cases a.times.head? <;> cases b.times.head? <;>
    simp only [Bool.or_eq_true, decide_eq_true_eq, true_or, or_true]
  omega

/-- Trips are tied exactly when each starts before the other. -/
theorem tied_iff_startsBefore :
    trip.Tied other ↔ trip.startsBefore other = true ∧ other.startsBefore trip = true := by
  unfold Tied startsBefore
  cases trip.times.head? with
  | none => cases other.times.head? <;> simp
  | some time =>
      cases other.times.head? with
      | none => simp
      | some first =>
          obtain ⟨arrival, departure⟩ := time
          obtain ⟨firstArrival, firstDeparture⟩ := first
          simp only [Option.some.injEq, StopTime.mk.injEq, decide_eq_true_eq]
          omega

/-- A trip that is nowhere behind another one does not start after it. -/
theorem NotBehind.startsBefore (h : earlier.NotBehind later)
    (hLength : earlier.times.length = later.times.length) :
    earlier.startsBefore later = true := by
  unfold TripDraft.startsBefore
  cases hEarlier : earlier.times with
  | nil => simp
  | cons time rest =>
      cases hLater : later.times with
      | nil => simp [hEarlier, hLater] at hLength
      | cons first others =>
          obtain ⟨hArrival, hDeparture⟩ : time.arrival ≤ first.arrival ∧
              time.departure ≤ first.departure := h (time, first) (by simp [hEarlier, hLater])
          simp only [List.head?_cons, decide_eq_true_eq]
          omega

end TripDraft

namespace PatternDraft

variable {pattern other : PatternDraft}

/-- Where no trip overtakes the one before it, none overtakes any earlier one. -/
theorem pairwise_notBehind (hChain : pattern.trips.IsChain TripDraft.NotBehind)
    (hFull : pattern.IsFull) : pattern.trips.Pairwise TripDraft.NotBehind := by
  rw [List.pairwise_iff_getElem]
  intro first second hFirst hSecond hOrder
  rw [TripDraft.notBehind_iff]
  exact fun position time later => times_sorted hChain hFull (Nat.le_of_lt hOrder)
    (List.getElem?_eq_getElem hFirst) (List.getElem?_eq_getElem hSecond)

/-- Trips that are tied come in the same order before and after sorting. -/
theorem pair_sublist_sorted {trip other : TripDraft} (hTied : trip.Tied other) :
    [trip, other].Sublist pattern.sorted.trips ↔ [trip, other].Sublist pattern.trips := by
  constructor
  · intro hPair
    -- Sorting leaves the trips tied to these two alone.
    have hAlike : ∀ a ∈ pattern.trips.filter (·.times.head? == other.times.head?),
        a.times.head? = other.times.head? := fun a hA => by simpa using (List.mem_filter.mp hA).2
    have hKept : (pattern.trips.filter (·.times.head? == other.times.head?)).Pairwise
        fun a b => a.startsBefore b = true :=
      List.pairwise_of_forall_mem_list fun a hA b hB =>
        (TripDraft.tied_iff_startsBefore.mp ((hAlike a hA).trans (hAlike b hB).symm)).1
    have hFiltered := hPair.filter (·.times.head? == other.times.head?)
    rw [sorted, filter_mergeSort TripDraft.startsBefore_trans TripDraft.startsBefore_total,
      List.mergeSort_of_pairwise hKept] at hFiltered
    have hBoth : [trip, other].filter (·.times.head? == other.times.head?) = [trip, other] := by
      simpa [TripDraft.Tied] using hTied
    exact (hBoth ▸ hFiltered).trans List.filter_sublist
  · exact List.pair_sublist_mergeSort TripDraft.startsBefore_trans TripDraft.startsBefore_total
      (TripDraft.tied_iff_startsBefore.mp hTied).1

/-- Trips can be sorted without overtaking if any two can be compared, and those that are tied come
in the right order. -/
theorem isChain_sorted_iff (hFull : pattern.IsFull) :
    pattern.sorted.trips.IsChain TripDraft.NotBehind ↔
      pattern.trips.Pairwise TripDraft.Comparable ∧
        pattern.trips.Pairwise fun trip other => trip.Tied other → trip.NotBehind other := by
  have hSortedFull : pattern.sorted.IsFull :=
    fun trip hTrip => hFull trip (mem_trips_sorted.mp hTrip)
  have hPerm : pattern.sorted.trips.Perm pattern.trips := List.mergeSort_perm ..
  constructor
  · intro hChain
    have hOrdered := pairwise_notBehind hChain hSortedFull
    constructor
    · rw [← hPerm.pairwise_iff TripDraft.Comparable.symm]
      exact hOrdered.imp Or.inl
    · rw [List.pairwise_iff_forall_sublist]
      intro trip other hPair hTied
      exact List.pairwise_iff_forall_sublist.mp hOrdered ((pair_sublist_sorted hTied).mpr hPair)
  · rintro ⟨hComparable, hTies⟩
    apply List.Pairwise.isChain
    rw [← hPerm.pairwise_iff TripDraft.Comparable.symm] at hComparable
    rw [List.pairwise_iff_forall_sublist] at hComparable hTies ⊢
    intro trip other hPair
    have hSorted := List.pairwise_iff_forall_sublist.mp
      (List.pairwise_mergeSort TripDraft.startsBefore_trans TripDraft.startsBefore_total
        pattern.trips) hPair
    have hTrip := hSortedFull trip (hPair.subset (by simp))
    have hOther := hSortedFull other (hPair.subset (by simp))
    rcases hComparable hPair with hOrdered | hBehind
    · exact hOrdered
    · have hTied : trip.Tied other := TripDraft.tied_iff_startsBefore.mpr
        ⟨hSorted, hBehind.startsBefore (hOther.trans hTrip.symm)⟩
      exact hTies ((pair_sublist_sorted hTied).mp hPair) hTied

/-- A pattern with known stops, at least one, and sound trips of which any two can be compared. -/
structure Valid (pattern : PatternDraft) (numStops numServices : Nat) : Prop where
  stops_ne_nil : pattern.stops ≠ []
  stop_lt : ∀ stop ∈ pattern.stops, stop < numStops
  trips : ∀ trip ∈ pattern.trips, trip.Sound pattern.stops.length numServices
  comparable : pattern.trips.Pairwise TripDraft.Comparable

instance (pattern : PatternDraft) (numStops numServices : Nat) :
    Decidable (pattern.Valid numStops numServices) :=
  decidable_of_iff (pattern.stops ≠ [] ∧ (∀ stop ∈ pattern.stops, stop < numStops) ∧
      (∀ trip ∈ pattern.trips, trip.Sound pattern.stops.length numServices) ∧
      pattern.trips.Pairwise TripDraft.Comparable)
    ⟨fun ⟨hSome, hKnown, hTrips, hComparable⟩ => ⟨hSome, hKnown, hTrips, hComparable⟩,
      fun valid => ⟨valid.stops_ne_nil, valid.stop_lt, valid.trips, valid.comparable⟩⟩

/-- Trips that are tied are not behind those handed in after them. -/
def TiesInOrder (pattern : PatternDraft) : Prop :=
  pattern.trips.Pairwise fun trip other => trip.Tied other → trip.NotBehind other

instance (pattern : PatternDraft) : Decidable pattern.TiesInOrder :=
  inferInstanceAs (Decidable (pattern.trips.Pairwise fun trip other =>
    trip.Tied other → trip.NotBehind other))

/-- A pattern is sound exactly when it is valid and its tied trips are in order. -/
theorem sound_iff {numStops numServices : Nat} :
    pattern.Sound numStops numServices ↔
      pattern.Valid numStops numServices ∧ pattern.TiesInOrder := by
  constructor
  · intro sound
    obtain ⟨hComparable, hTies⟩ := (isChain_sorted_iff fun trip hTrip =>
      (sound.trips trip hTrip).length_times).mp sound.chain
    exact ⟨⟨sound.stops_ne_nil, sound.stop_lt, sound.trips, hComparable⟩, hTies⟩
  · rintro ⟨valid, hTies⟩
    exact ⟨valid.stops_ne_nil, valid.stop_lt, valid.trips, (isChain_sorted_iff fun trip hTrip =>
      (valid.trips trip hTrip).length_times).mpr ⟨valid.comparable, hTies⟩⟩

/-- The same pattern with its trips in another order, but for those that are tied. -/
structure Reordered (pattern other : PatternDraft) : Prop where
  stops : other.stops = pattern.stops
  trips : other.trips.Perm pattern.trips
  ties : ∀ trip later, trip.Tied later →
    ([trip, later].Sublist other.trips ↔ [trip, later].Sublist pattern.trips)

theorem Reordered.symm (h : pattern.Reordered other) : other.Reordered pattern :=
  ⟨h.stops.symm, h.trips.symm, fun trip later hTied => (h.ties trip later hTied).symm⟩

/-- Reordering the trips, but for those that are tied, keeps a pattern sound. -/
theorem Reordered.sound {numStops numServices : Nat} (h : pattern.Reordered other)
    (sound : pattern.Sound numStops numServices) : other.Sound numStops numServices := by
  obtain ⟨⟨hSome, hKnown, hTrips, hComparable⟩, hTies⟩ := sound_iff.mp sound
  rw [← h.stops] at hSome hKnown hTrips
  refine sound_iff.mpr ⟨⟨hSome, hKnown, fun trip hTrip => hTrips trip (h.trips.mem_iff.mp hTrip),
    (h.trips.pairwise_iff TripDraft.Comparable.symm).mpr hComparable⟩, ?_⟩
  rw [TiesInOrder, List.pairwise_iff_forall_sublist] at hTies ⊢
  intro trip later hPair hTied
  exact hTies ((h.ties trip later hTied).mp hPair) hTied

/-- Patterns stay sound when their trips are reordered, but for those that are tied. -/
theorem sound_of_reordered {numStops numServices : Nat} {patterns others : List PatternDraft}
    (h : List.Forall₂ Reordered patterns others)
    (sound : ∀ pattern ∈ patterns, pattern.Sound numStops numServices) :
    ∀ pattern ∈ others, pattern.Sound numStops numServices := by
  induction h with
  | nil => exact sound
  | cons hFirst _ ih =>
      obtain ⟨soundFirst, soundRest⟩ := List.forall_mem_cons.mp sound
      exact List.forall_mem_cons.mpr ⟨hFirst.sound soundFirst, ih soundRest⟩

end PatternDraft

/-- A calendar of the first of January 1970 alone, with one service. -/
def Calendar.oneDay : Calendar := .daily ⟨719468, by decide, by decide⟩ 1

namespace Draft

variable {draft : Draft}

/-- A timetable in which all references lead somewhere, no trip goes back in time, and any two
trips of a pattern can be compared. -/
structure Valid (draft : Draft) : Prop where
  patterns : ∀ pattern ∈ draft.patterns,
    pattern.Valid draft.stops.length draft.calendar.services.size
  transfers : ∀ transfer ∈ draft.transfers, transfer.Sound draft.stops.length

instance (transfer : Transfer) (numStops : Nat) : Decidable (transfer.Sound numStops) :=
  decidable_of_iff (transfer.origin < numStops ∧ transfer.target < numStops ∧
      0 ≤ transfer.duration)
    ⟨fun ⟨hOrigin, hTarget, hDuration⟩ => ⟨hOrigin, hTarget, hDuration⟩,
      fun sound => ⟨sound.origin_lt, sound.target_lt, sound.duration_nonneg⟩⟩

instance (draft : Draft) : Decidable draft.Valid :=
  decidable_of_iff ((∀ pattern ∈ draft.patterns,
      pattern.Valid draft.stops.length draft.calendar.services.size) ∧
      ∀ transfer ∈ draft.transfers, transfer.Sound draft.stops.length)
    ⟨fun ⟨hPatterns, hTransfers⟩ => ⟨hPatterns, hTransfers⟩,
      fun valid => ⟨valid.patterns, valid.transfers⟩⟩

/-- A draft is sound exactly when it is valid and its tied trips are in order. -/
theorem sound_iff :
    draft.Sound ↔ draft.Valid ∧ ∀ pattern ∈ draft.patterns, pattern.TiesInOrder := by
  constructor
  · intro sound
    exact ⟨⟨fun pattern hPattern => (PatternDraft.sound_iff.mp (sound.patterns pattern hPattern)).1,
      sound.transfers⟩,
      fun pattern hPattern => (PatternDraft.sound_iff.mp (sound.patterns pattern hPattern)).2⟩
  · rintro ⟨valid, hTies⟩
    exact ⟨fun pattern hPattern =>
      PatternDraft.sound_iff.mpr ⟨valid.patterns pattern hPattern, hTies pattern hPattern⟩,
      valid.transfers⟩

/-- A draft can be built exactly if it is valid and its tied trips are in order. -/
theorem isOk_build_iff : draft.build.isOk ↔
    draft.Valid ∧ ∀ pattern ∈ draft.patterns, pattern.TiesInOrder := by
  rw [← sound_iff]
  constructor
  · intro h
    exact (build_eq_ok_iff.mp (build_of_isOk h)).1
  · intro sound
    rw [build_eq_ok_iff.mpr ⟨sound, rfl⟩]
    rfl

/-- The same timetable with the trips of its patterns in another order, but for those that are
tied. -/
structure Reordered (draft other : Draft) : Prop where
  calendar : other.calendar = draft.calendar
  stops : other.stops = draft.stops
  transfers : other.transfers = draft.transfers
  patterns : List.Forall₂ PatternDraft.Reordered draft.patterns other.patterns

theorem Reordered.symm {other : Draft} (h : draft.Reordered other) : other.Reordered draft :=
  ⟨h.calendar.symm, h.stops.symm, h.transfers.symm,
    h.patterns.flip.imp fun _ _ hPattern => hPattern.symm⟩

theorem Reordered.sound {other : Draft} (h : draft.Reordered other) (sound : draft.Sound) :
    other.Sound := by
  constructor
  · rw [h.stops, h.calendar]
    exact PatternDraft.sound_of_reordered h.patterns sound.patterns
  · rw [h.stops, h.transfers]
    exact sound.transfers

/-- The order of the trips does not decide whether a draft builds, but for those that are tied. -/
theorem Reordered.isOk_build {other : Draft} (h : draft.Reordered other) :
    other.build.isOk ↔ draft.build.isOk := by
  rw [isOk_build_iff, isOk_build_iff, ← sound_iff, ← sound_iff]
  exact ⟨h.symm.sound, h.sound⟩

/-- Exactly those valid timetables can be built whose tied trips come in the right order. The order
of other trips does not matter. -/
theorem isOk_build_ofAdditions (calendar : Calendar) (additions : List Addition) :
    ((ofAdditions calendar additions).build.isOk ↔
      (ofAdditions calendar additions).Valid ∧
        ∀ pattern ∈ Addition.patterns additions, pattern.TiesInOrder) ∧
    ∀ others, (ofAdditions calendar additions).Reordered (ofAdditions calendar others) →
      ((ofAdditions calendar others).build.isOk ↔
        (ofAdditions calendar additions).build.isOk) := by
  refine ⟨?_, fun others hReordered => hReordered.isOk_build⟩
  rw [isOk_build_iff, patterns_ofAdditions]

/-- A line with two trips, each given by when it starts and when it ends. -/
def race (trip later : Int × Int) : List Addition :=
  [.stop "A", .stop "B", .pattern "1" .bus [0, 1],
    .trip 0 { service := 0, times := [⟨trip.1, trip.1⟩, ⟨trip.2, trip.2⟩] },
    .trip 0 { service := 0, times := [⟨later.1, later.1⟩, ⟨later.2, later.2⟩] }]

/-- Trips that are not tied may be handed in in either order. -/
theorem isOk_build_ofAdditions_race :
    (ofAdditions .oneDay (race (0, 10) (5, 15))).build.isOk ∧
      (ofAdditions .oneDay (race (5, 15) (0, 10))).build.isOk := by
  obtain ⟨hAccepted, hOrder⟩ := isOk_build_ofAdditions .oneDay (race (0, 10) (5, 15))
  have hBuilt := hAccepted.mpr (by decide +kernel)
  have hReordered : (ofAdditions .oneDay (race (0, 10) (5, 15))).Reordered
      (ofAdditions .oneDay (race (5, 15) (0, 10))) := by
    refine ⟨rfl, rfl, rfl, .cons ⟨rfl, .swap .., fun trip later hTied => ?_⟩ .nil⟩
    constructor <;> intro hPair <;> cases hPair.eq_of_length rfl <;> exact absurd hTied (by decide)
  exact ⟨hBuilt, (hOrder _ hReordered).mpr hBuilt⟩

/-- Of two trips that start together the faster one must be handed in first, although they can be
compared. -/
theorem tied_trips_refused :
    (ofAdditions .oneDay (race (0, 10) (0, 5))).Valid ∧
      ¬ (ofAdditions .oneDay (race (0, 10) (0, 5))).build.isOk ∧
      (ofAdditions .oneDay (race (0, 5) (0, 10))).build.isOk := by
  rw [isOk_build_iff, isOk_build_iff]
  decide +kernel

end Draft

end JourneyPlanner
