import JourneyPlanner.Proofs.DayTimetable
import JourneyPlanner.Proofs.Lookup.Strategy
import JourneyPlanner.Proofs.Network.Contents

/-! What a network shows of itself on a date. Main statement: a search finds from some stops just the
patterns that visit one of them, by a mode that is asked for, with a trip that runs that day. -/
namespace JourneyPlanner

/-- Whether a pattern goes by one of some modes, and one of its trips runs on a date. -/
def PatternDraft.runsOn (pattern : PatternDraft) (calendar : Calendar) (date : Date)
    (modes : ModeSet) : Bool :=
  modes.contains pattern.mode && pattern.trips.any fun trip => calendar.runsOn trip.service date

namespace DayTimetable

variable {draft : Draft} {network : Network} {date : Date} {modes : ModeSet} {day : DayTimetable}
  {index : Nat}

/-- Every date within the calendar has its day of the network. -/
theorem exists_onDate (hDate : Date.Within network.calendar.start network.calendar.numDays date)
    (modes : ModeSet) : ∃ day, network.onDate date modes = .ok day := by
  obtain ⟨services, hServices⟩ := Calendar.exists_servicesOn hDate
  exact ⟨_, onDate_eq_ok_iff.mpr ⟨services, hServices, rfl⟩⟩

theorem size_activePatterns (hDay : network.onDate date modes = .ok day) :
    day.activePatterns.marks.size = network.numPatterns := by
  obtain ⟨services, -, rfl⟩ := onDate_eq_ok_iff.mp hDay
  exact Array.size_map

section Sound

variable (sound : draft.Sound) (hDay : (draft.pack draft.arranged).onDate date modes = .ok day)

include sound hDay

/-- A pattern that was handed in takes part in a day if it goes by a mode that is asked for and one
of its trips runs. -/
theorem contains_activePatterns_pack {pattern : PatternDraft}
    (hPattern : draft.patterns[index]? = some pattern) :
    day.activePatterns.contains index = pattern.runsOn draft.calendar date modes := by
  have hArranged := Draft.getElem?_arranged.mpr ⟨pattern, hPattern, rfl⟩
  have hTable := @Draft.tripTable_pack draft _ _ _ hArranged
    (sound.isFull_arranged (List.mem_of_getElem? hArranged))
  rw [Bool.eq_iff_iff, activePatterns_onDate hDay hTable, PatternDraft.runsOn, Bool.and_eq_true,
    List.any_eq_true]
  refine and_congr_right fun _ => ?_
  have hTrips : ∀ trip, trip ∈ pattern.sorted.trips ↔ trip ∈ pattern.trips := fun trip =>
    PatternDraft.mem_trips_sorted
  simp only [TripTable.Runs, PatternDraft.table, List.getElem?_toArray, List.getElem?_map,
    Option.map_eq_some_iff, isActive_onDate hDay, ← hTrips]
  constructor
  · rintro ⟨row, _, ⟨trip, hTrip, rfl⟩, hRuns⟩
    exact ⟨trip, List.mem_of_getElem? hTrip, hRuns⟩
  · rintro ⟨trip, hTrip, hRuns⟩
    obtain ⟨row, hRow⟩ := List.mem_iff_getElem?.mp hTrip
    exact ⟨row, _, ⟨trip, hRow, rfl⟩, hRuns⟩

/-- The patterns of the day are those that run on the date with the wanted modes. -/
theorem numActivePatterns_pack : day.numActivePatterns =
    draft.patterns.countP fun pattern => pattern.runsOn draft.calendar date modes := by
  have hSize : day.activePatterns.marks.size = draft.patterns.length := by
    rw [size_activePatterns hDay, Draft.numPatterns_pack, Draft.arranged, List.length_map]
  have hMarks : day.activePatterns.marks.toList =
      draft.patterns.map fun pattern => pattern.runsOn draft.calendar date modes := by
    refine List.ext_getElem (by simpa using hSize) fun index hMark hPattern => ?_
    rw [List.length_map] at hPattern
    rw [List.getElem_map, ← contains_activePatterns_pack sound hDay (List.getElem?_eq_getElem hPattern)]
    simp [IndexSet.contains, hSize, hPattern]
  rw [numActivePatterns, IndexSet.count, ← Array.count_toList, hMarks, List.count, List.countP_map]
  exact List.countP_congr fun pattern _ => by simp

/-- A pattern is found from some stops if it takes part in the day and visits one of them. -/
theorem mem_patternsTouching_pack {stops : List Nat} :
    index ∈ day.patternsTouching stops ↔ ∃ pattern, draft.patterns[index]? = some pattern ∧
      pattern.runsOn draft.calendar date modes = true ∧ ∃ stop ∈ stops, stop ∈ pattern.stops := by
  rw [mem_patternsTouching_iff, network_onDate hDay, Draft.numPatterns_pack, Draft.arranged,
    List.length_map]
  constructor
  · rintro ⟨hIndex, hActive, stop, hStop, data, hData, visit, hVisit, rfl⟩
    obtain ⟨_, hArranged, hVisited⟩ := (Draft.visits_pack hData).mp hVisit
    obtain ⟨pattern, hPattern, rfl⟩ := Draft.getElem?_arranged.mp hArranged
    exact ⟨pattern, hPattern, contains_activePatterns_pack sound hDay hPattern ▸ hActive, stop,
      hStop, List.mem_of_getElem? hVisited⟩
  · rintro ⟨pattern, hPattern, hRuns, stop, hStop, hVisited⟩
    refine ⟨(List.getElem?_eq_some_iff.mp hPattern).1,
      (contains_activePatterns_pack sound hDay hPattern).trans hRuns, stop, hStop, ?_⟩
    have hKnown := (sound.patterns pattern (List.mem_of_getElem? hPattern)).stop_lt stop hVisited
    obtain ⟨position, hPosition⟩ := List.mem_iff_getElem?.mp hVisited
    have hInside : stop < (draft.pack draft.arranged).numStops := by
      rwa [Draft.numStops_pack]
    exact ⟨_, Array.getElem?_eq_getElem hInside, ⟨index, position⟩,
      (Draft.visits_pack (Array.getElem?_eq_getElem hInside)).mpr
        ⟨_, Draft.getElem?_arranged.mpr ⟨pattern, hPattern, rfl⟩, hPosition⟩, rfl⟩

end Sound

/-- On a date of its calendar, a network that was built shows of itself what takes part in that day.
From known stops it leads to the patterns that visit one of them, ascending, also if the visits are
read from their shared table; it counts the patterns that take part; and it tells of each trip,
whether its service runs. -/
theorem filters_network (hBuild : draft.build = .ok network)
    (hDate : Date.Within network.calendar.start network.calendar.numDays date) (modes : ModeSet) :
    ∃ day, network.onDate date modes = .ok day ∧
      (∀ stops : List Nat, (∀ stop ∈ stops, stop < network.numStops) →
        ∃ touched, day.patternsTouchingKnown stops = .ok touched ∧
          (network.tables draft.transfers).patternsTouching day stops = .ok touched ∧
          touched.Pairwise (· < ·) ∧
          ∀ index, index ∈ touched ↔ ∃ pattern, draft.patterns[index]? = some pattern ∧
            pattern.runsOn network.calendar date modes = true ∧
            ∃ stop ∈ stops, stop ∈ pattern.stops) ∧
      day.numActivePatterns = draft.patterns.countP
        (fun pattern => pattern.runsOn network.calendar date modes) ∧
      ∀ index pattern, draft.patterns[index]? = some pattern →
        ∃ table, network.tripTable index = .ok table ∧ table.numTrips = pattern.trips.length ∧
          ∀ row trip, pattern.sorted.trips[row]? = some trip →
            ∃ schedule, table.schedule row = .ok schedule ∧
              schedule.times.toList = trip.times ∧
              day.isActive schedule.service = network.calendar.runsOn trip.service date := by
  obtain ⟨day, hDay⟩ := exists_onDate hDate modes
  have hTables := Draft.hold_tables hBuild
  obtain ⟨sound, rfl⟩ := Draft.build_eq_ok_iff.mp hBuild
  refine ⟨day, hDay, fun stops hStops => ?_, numActivePatterns_pack sound hDay, ?_⟩
  · rw [← network_onDate hDay] at hStops
    have hAgree := (network_onDate hDay ▸ hTables).patternsTouching hStops
    rw [network_onDate hDay] at hAgree
    have hKnown : stops.all (· < day.numStops) = true :=
      List.all_eq_true.mpr fun stop hStop => decide_eq_true (hStops stop hStop)
    exact ⟨_, if_pos hKnown, hAgree, IndexSet.toList_pairwise _,
      fun index => mem_patternsTouching_pack sound hDay⟩
  · intro index pattern hPattern
    have hArranged := Draft.getElem?_arranged.mpr ⟨pattern, hPattern, rfl⟩
    have hFull := sound.isFull_arranged (List.mem_of_getElem? hArranged)
    have lists := PatternDraft.lists_table hFull index
    refine ⟨_, Draft.tripTable_pack hArranged hFull, ?_, fun row trip hTrip =>
      ⟨_, lists.schedule hTrip, rfl, isActive_onDate hDay trip.service⟩⟩
    rw [lists.numTrips]
    exact (List.mergeSort_perm ..).length_eq

/-- Lines to and from a harbour: a bus whose first trip does not run on the day, a ferry, and a bus
that does not run at all. -/
def harbour : Draft :=
  { calendar := { Calendar.oneDay with services := #[1#384, 0#384] }
    stops := ["A", "B", "C"]
    patterns :=
      [{ name := "1", mode := .bus, stops := [0, 1]
         trips := [{ service := 1, times := [⟨0, 0⟩, ⟨300, 300⟩] },
                   { service := 0, times := [⟨600, 600⟩, ⟨900, 900⟩] }] },
       { name := "F", mode := .ferry, stops := [1, 2]
         trips := [{ service := 0, times := [⟨0, 0⟩, ⟨60, 60⟩] }] },
       { name := "2", mode := .bus, stops := [2, 1]
         trips := [{ service := 1, times := [⟨0, 0⟩, ⟨300, 300⟩] }] }]
    transfers := [] }

/-- By bus, only the first line can be taken. -/
theorem filters_network_harbour :
    ∃ network day touched, harbour.build = .ok network ∧
      network.onDate Calendar.oneDay.start (ModeSet.full.erase .ferry) = .ok day ∧
      day.patternsTouchingKnown [1] = .ok touched ∧ 0 ∈ touched ∧ 1 ∉ touched ∧ 2 ∉ touched ∧
      day.numActivePatterns = 1 := by
  have hBuild : harbour.build = .ok (harbour.pack harbour.patterns) :=
    Draft.build_of_pairwise (by decide +kernel) rfl
  obtain ⟨day, hDay, hTouching, hCount, -⟩ := filters_network hBuild
    (show Date.Within _ _ Calendar.oneDay.start by decide) (ModeSet.full.erase .ferry)
  obtain ⟨touched, hTouched, -, -, hMem⟩ := hTouching [1] (by decide)
  refine ⟨_, day, touched, hBuild, hDay, hTouched, (hMem 0).mpr ?_, ?_, ?_, hCount.trans ?_⟩
  · exact ⟨_, rfl, by decide +kernel, 1, by decide, by decide⟩
  · rw [hMem]
    rintro ⟨_, hFerry, hRuns, -⟩
    cases hFerry
    revert hRuns
    decide +kernel
  · rw [hMem]
    rintro ⟨_, hLine, hRuns, -⟩
    cases hLine
    revert hRuns
    decide +kernel
  · decide +kernel

end DayTimetable

end JourneyPlanner
