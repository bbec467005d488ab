import JourneyPlanner.Proofs.Network.Sound

/-! Timetables that more was added to. New trips sort in among those of their pattern, so trips
change their numbers; all else keeps its place. Main statement: whatever runs and can be walked in
a network that was built, runs and can be walked in one built from more. -/
namespace JourneyPlanner

/-- The drafts that further calls to add a stop, a pattern, a trip or a walk make of one. -/
inductive Draft.Continues (draft : Draft) : Draft → Prop where
  | refl : Continues draft draft
  | addStop {later : Draft} (before : Continues draft later) (name : String) :
      Continues draft (later.addStop name)
  | addPattern {later : Draft} (before : Continues draft later) (name : String) (mode : Mode)
      (stops : List Nat) :
      Continues draft (later.addPattern name mode stops)
  | addTrip {later next : Draft} {pattern : Nat} {trip : TripDraft}
      (before : Continues draft later) (hTrip : later.addTrip pattern trip = .ok next) :
      Continues draft next
  | addTransfer {later : Draft} (before : Continues draft later) (transfer : Transfer) :
      Continues draft (later.addTransfer transfer)

structure PatternDraft.GrownTo (pattern grown : PatternDraft) : Prop where
  mode : grown.mode = pattern.mode
  stops : grown.stops = pattern.stops
  trips : ∀ trip ∈ pattern.trips, trip ∈ grown.trips

/-- A draft with at least what another one has, each pattern in its place. -/
structure Draft.GrownTo (draft grown : Draft) : Prop where
  calendar : grown.calendar = draft.calendar
  numStops : draft.stops.length ≤ grown.stops.length
  pattern : ∀ {index : Nat} {pattern : PatternDraft}, draft.patterns[index]? = some pattern →
    ∃ later, grown.patterns[index]? = some later ∧ pattern.GrownTo later
  transfers : ∀ transfer ∈ draft.transfers, transfer ∈ grown.transfers

namespace PatternDraft.GrownTo

variable {first second third : PatternDraft}

theorem refl (pattern : PatternDraft) : pattern.GrownTo pattern :=
  ⟨rfl, rfl, fun _ h => h⟩

theorem trans (hFirst : first.GrownTo second) (hSecond : second.GrownTo third) :
    first.GrownTo third :=
  ⟨hSecond.mode.trans hFirst.mode, hSecond.stops.trans hFirst.stops, fun trip hTrip =>
    hSecond.trips trip (hFirst.trips trip hTrip)⟩

end PatternDraft.GrownTo

namespace Draft

variable {draft later next : Draft}

namespace GrownTo

theorem refl (draft : Draft) : draft.GrownTo draft :=
  ⟨rfl, Nat.le_refl _, fun h => ⟨_, h, .refl _⟩, fun _ h => h⟩

theorem trans (hFirst : draft.GrownTo later) (hSecond : later.GrownTo next) :
    draft.GrownTo next := by
  refine ⟨hSecond.calendar.trans hFirst.calendar, hFirst.numStops.trans hSecond.numStops, ?_,
    fun transfer h => hSecond.transfers transfer (hFirst.transfers transfer h)⟩
  intro index pattern hPattern
  obtain ⟨middle, hMiddle, hGrown⟩ := hFirst.pattern hPattern
  obtain ⟨last, hLast, hFurther⟩ := hSecond.pattern hMiddle
  exact ⟨last, hLast, hGrown.trans hFurther⟩

end GrownTo

theorem grownTo_addStop (draft : Draft) (name : String) : draft.GrownTo (draft.addStop name) := by
  refine ⟨rfl, ?_, fun h => ⟨_, h, .refl _⟩, fun _ h => h⟩
  simp only [addStop, List.length_append]
  omega

theorem grownTo_addPattern (draft : Draft) (name : String) (mode : Mode) (stops : List Nat) :
    draft.GrownTo (draft.addPattern name mode stops) := by
  refine ⟨rfl, Nat.le_refl _, fun {index pattern} h => ⟨pattern, ?_, .refl _⟩, fun _ h => h⟩
  rw [addPattern, List.getElem?_append_left (List.getElem?_eq_some_iff.mp h).1, h]

/-- A trip handed in later only adds to the draft. -/
theorem grownTo_addTrip {pattern : Nat} {trip : TripDraft}
    (h : draft.addTrip pattern trip = .ok next) : draft.GrownTo next := by
  unfold addTrip at h
  split at h
  · cases h
    refine ⟨rfl, Nat.le_refl _, fun {index original} hOriginal => ?_, fun _ h => h⟩
    dsimp only
    rw [List.getElem?_modify, hOriginal]
    by_cases hSame : pattern = index
    · refine ⟨{ original with trips := original.trips ++ [trip] }, by simp [hSame], rfl, rfl, ?_⟩
      intro other hOther
      exact List.mem_append_left _ hOther
    · exact ⟨original, by simp [hSame], .refl _⟩
  · cases h

theorem grownTo_addTransfer (draft : Draft) (transfer : Transfer) :
    draft.GrownTo (draft.addTransfer transfer) :=
  ⟨rfl, Nat.le_refl _, fun h => ⟨_, h, .refl _⟩, fun _ h => List.mem_append_left _ h⟩

/-- Whatever is called, nothing is taken away. -/
theorem Continues.grownTo (continues : draft.Continues later) : draft.GrownTo later := by
  induction continues with
  | refl => exact .refl draft
  | addStop before name ih => exact ih.trans (grownTo_addStop _ name)
  | addPattern before name mode stops ih => exact ih.trans (grownTo_addPattern _ name mode stops)
  | addTrip before hTrip ih => exact ih.trans (grownTo_addTrip hTrip)
  | addTransfer before transfer ih => exact ih.trans (grownTo_addTransfer _ transfer)

end Draft

/-- A trip table with at least the trips of another one, perhaps under other numbers. -/
structure TripTable.GrownTo (table grown : TripTable) : Prop where
  mode : grown.mode = table.mode
  stopAt : ∀ position, grown.stopAt position = table.stopAt position
  trip : ∀ {trip service}, table.services[trip]? = some service →
    ∃ other, grown.services[other]? = some service ∧
      ∀ {position time}, position < table.numStops → table.timeAt trip position = .ok time →
        grown.timeAt other position = .ok time

structure Network.GrownTo (network grown : Network) : Prop where
  calendar : grown.calendar = network.calendar
  table : ∀ {index : Nat} {table : TripTable}, network.tripTable index = .ok table →
    ∃ later, grown.tripTable index = .ok later ∧ table.GrownTo later
  transfersFrom : ∀ {stop transfer}, transfer ∈ network.transfersFrom stop →
    transfer ∈ grown.transfersFrom stop
  transfersTo : ∀ {stop transfer}, transfer ∈ network.transfersTo stop →
    transfer ∈ grown.transfersTo stop

/-- The table of a pattern grows with it, if every trip has a time for each stop. -/
theorem PatternDraft.GrownTo.table {pattern grown : PatternDraft} (h : pattern.GrownTo grown)
    (hFull : pattern.IsFull) (hGrownFull : grown.IsFull) (index : Nat) :
    (pattern.table index).GrownTo (grown.table index) := by
  refine ⟨h.mode, fun position => ?_, fun {trip service} hService => ?_⟩
  · simp only [TripTable.stopAt, PatternDraft.table, h.stops]
  · simp only [PatternDraft.table, List.getElem?_toArray, List.getElem?_map,
      Option.map_eq_some_iff] at hService
    obtain ⟨draft, hTrip, rfl⟩ := hService
    obtain ⟨other, hOther⟩ :=
      List.mem_iff_getElem?.mp (h.trips draft (List.mem_of_getElem? hTrip))
    refine ⟨other, by simp [PatternDraft.table, hOther], fun {position time} hPosition hTime => ?_⟩
    rw [numStops_table] at hPosition
    obtain ⟨found, hFound, hRow⟩ := (timeAt_table hFull hPosition).mp hTime
    rw [hTrip, Option.some.injEq] at hFound
    exact (timeAt_table hGrownFull (h.stops.symm ▸ hPosition)).mpr ⟨draft, hOther, hFound ▸ hRow⟩

/-- Sorting loses no trip, so a grown pattern stays grown. -/
theorem PatternDraft.GrownTo.sorted {pattern grown : PatternDraft} (h : pattern.GrownTo grown) :
    pattern.sorted.GrownTo grown.sorted :=
  ⟨h.mode, h.stops, fun trip hTrip =>
    mem_trips_sorted.mpr (h.trips trip (mem_trips_sorted.mp hTrip))⟩

/-- What can be built from a draft is part of what can be built from a grown one. -/
theorem Draft.GrownTo.pack {draft grown : Draft} (h : draft.GrownTo grown) (sound : draft.Sound)
    (grownSound : grown.Sound) :
    (draft.pack draft.arranged).GrownTo (grown.pack grown.arranged) := by
  refine ⟨h.calendar, ?_, ?_, ?_⟩
  · intro index table hTable
    obtain ⟨pattern, hPattern, rfl⟩ := sound.tripTable_eq_ok_iff.mp hTable
    obtain ⟨original, hOriginal, rfl⟩ := getElem?_arranged.mp hPattern
    obtain ⟨later, hLater, hGrown⟩ := h.pattern hOriginal
    have hArranged := getElem?_arranged.mpr ⟨later, hLater, rfl⟩
    exact ⟨_, grownSound.tripTable_eq_ok_iff.mpr ⟨_, hArranged, rfl⟩, hGrown.sorted.table
      (sound.isFull_arranged (List.mem_of_getElem? hPattern))
      (grownSound.isFull_arranged (List.mem_of_getElem? hArranged)) index⟩
  · intro stop transfer hTransfer
    rw [transfersFrom_pack] at hTransfer ⊢
    split at hTransfer
    · obtain ⟨hMem, hOrigin⟩ := mem_transfersFrom.mp hTransfer
      rw [if_pos (Nat.lt_of_lt_of_le ‹_› h.numStops)]
      exact mem_transfersFrom.mpr ⟨h.transfers transfer hMem, hOrigin⟩
    · cases hTransfer
  · intro stop transfer hTransfer
    rw [transfersTo_pack] at hTransfer ⊢
    split at hTransfer
    · obtain ⟨hMem, hTarget⟩ := mem_transfersTo.mp hTransfer
      rw [if_pos (Nat.lt_of_lt_of_le ‹_› h.numStops)]
      exact mem_transfersTo.mpr ⟨h.transfers transfer hMem, hTarget⟩
    · cases hTransfer

/-- Two networks of which one was built from more than the other. -/
theorem Draft.Continues.network {draft later : Draft} {network grown : Network}
    (continues : draft.Continues later) (hBuild : draft.build = .ok network)
    (hLater : later.build = .ok grown) : network.GrownTo grown := by
  obtain ⟨sound, rfl⟩ := Draft.build_eq_ok_iff.mp hBuild
  obtain ⟨laterSound, rfl⟩ := Draft.build_eq_ok_iff.mp hLater
  exact continues.grownTo.pack sound laterSound

end JourneyPlanner
