import JourneyPlanner.DayTimetable
import JourneyPlanner.Proofs.Calendar
import JourneyPlanner.Proofs.Network.Sound
import JourneyPlanner.Proofs.TripSearch

/-! The timetable of a day is the network filtered by a date and a set of modes: a trip takes
part exactly if its service runs on the date, a pattern if its mode is asked for and one of
its trips runs. -/
namespace JourneyPlanner

namespace IndexSet

@[simp]
theorem size_foldl_insert (indices : List Nat) (set : IndexSet) :
    (indices.foldl insert set).marks.size = set.marks.size := by
  induction indices generalizing set with
  | nil => rfl
  | cons index rest ih => rw [List.foldl_cons, ih, size_insert]

theorem contains_foldl_insert (indices : List Nat) (set : IndexSet) (index : Nat) :
    (indices.foldl insert set).contains index = true ↔
      set.contains index = true ∨ index ∈ indices ∧ index < set.marks.size := by
  induction indices generalizing set with
  | nil => simp
  | cons first rest ih =>
      rw [List.foldl_cons, ih, contains_insert, size_insert, List.mem_cons]
      simp only [Bool.or_eq_true, Bool.and_eq_true, beq_iff_eq, decide_eq_true_eq]
      constructor
      · rintro ((hSet | ⟨rfl, hInside⟩) | ⟨hRest, hInside⟩)
        · exact Or.inl hSet
        · exact Or.inr ⟨Or.inl rfl, hInside⟩
        · exact Or.inr ⟨Or.inr hRest, hInside⟩
      · rintro (hSet | ⟨rfl | hRest, hInside⟩)
        · exact Or.inl (Or.inl hSet)
        · exact Or.inl (Or.inr ⟨rfl, hInside⟩)
        · exact Or.inr ⟨hRest, hInside⟩

theorem isEmpty_iff {set : IndexSet} :
    set.isEmpty = true ↔ ∀ index, set.contains index = false := by
  simp only [isEmpty, Bool.not_eq_true', Array.any_eq_false', id_eq, Bool.not_eq_true, contains,
    Array.getD_eq_getD_getElem?]
  constructor
  · intro h index
    cases hMark : set.marks[index]? with
    | none => rfl
    | some mark => exact h mark (Array.mem_of_getElem? hMark)
  · intro h mark hMem
    obtain ⟨index, hIndex⟩ := Array.mem_iff_getElem?.mp hMem
    simpa [hIndex] using h index

/-- A set of listed indices holds exactly those below its bound. -/
theorem contains_ofList {bound : Nat} {indices : List Nat} {index : Nat} :
    (ofList bound indices).contains index = true ↔ index ∈ indices ∧ index < bound := by
  rw [ofList, contains_foldl_insert, contains_empty]
  simp [empty]

end IndexSet

namespace DayTimetable

variable {network : Network} {date : Date} {modes : ModeSet} {day : DayTimetable}

/-- A day of the network is its services on the date and the patterns that run then. -/
theorem onDate_eq_ok_iff :
    network.onDate date modes = .ok day ↔
      ∃ services, network.calendar.servicesOn date = .ok services ∧
        day = { network, services
                activePatterns :=
                  ⟨network.patterns.map (network.isPatternActive services modes)⟩ } := by
  unfold Network.onDate
  cases network.calendar.servicesOn date <;> simp [eq_comm]

theorem network_onDate (hDay : network.onDate date modes = .ok day) : day.network = network := by
  obtain ⟨services, -, rfl⟩ := onDate_eq_ok_iff.mp hDay
  rfl

/-- The services of a day are those that run on its date. -/
theorem isActive_onDate (hDay : network.onDate date modes = .ok day) (service : Nat) :
    day.isActive service = network.calendar.runsOn service date := by
  obtain ⟨services, hServices, rfl⟩ := onDate_eq_ok_iff.mp hDay
  exact Calendar.isActive_servicesOn hServices service

/-- A pattern takes part in a day if its mode is asked for and one of its trips runs. -/
theorem activePatterns_onDate (hDay : network.onDate date modes = .ok day) {index : Nat}
    {table : TripTable} (hTable : network.tripTable index = .ok table) :
    day.activePatterns.contains index = true ↔
      modes.contains table.mode = true ∧ ∃ trip, table.Runs day.isActive trip := by
  obtain ⟨services, -, rfl⟩ := onDate_eq_ok_iff.mp hDay
  obtain ⟨pattern, hPattern, hTable⟩ := Checked.bind_eq_ok_iff.mp hTable
  obtain ⟨stops, -, hTable⟩ := Checked.bind_eq_ok_iff.mp hTable
  obtain ⟨times, -, hTable⟩ := Checked.bind_eq_ok_iff.mp hTable
  obtain ⟨rows, hRows, hTable⟩ := Checked.bind_eq_ok_iff.mp hTable
  rw [Checked.lookup_eq_ok_iff] at hPattern hRows
  obtain ⟨-, rfl⟩ := slice?_eq_some_iff.mp hRows
  cases hTable
  simp only [IndexSet.contains, Array.getD_eq_getD_getElem?, Array.getElem?_map, hPattern,
    Option.map_some, Option.getD_some, Network.isPatternActive, Bool.and_eq_true,
    Array.any_eq_true', TripTable.Runs, isActive]
  refine and_congr_right fun _ => ⟨?_, ?_⟩
  · rintro ⟨service, hService, hActive⟩
    obtain ⟨trip, hTrip⟩ := Array.mem_iff_getElem?.mp hService
    exact ⟨trip, service, hTrip, hActive⟩
  · rintro ⟨trip, service, hTrip, hActive⟩
    exact ⟨service, Array.mem_of_getElem? hTrip, hActive⟩

/-- A pattern is found from some stops exactly if it takes part and one of them knows of a visit of
it. -/
theorem mem_patternsTouching_iff {stops : List Nat} {pattern : Nat} :
    pattern ∈ day.patternsTouching stops ↔
      pattern < day.network.numPatterns ∧ day.activePatterns.contains pattern = true ∧
        ∃ stop ∈ stops, ∃ data, day.network.stops[stop]? = some data ∧
          ∃ visit ∈ data.visits, visit.pattern = pattern := by
  have hAt : ∀ stop, pattern ∈ day.patternsAt stop ↔
      day.activePatterns.contains pattern = true ∧
        ∃ data, day.network.stops[stop]? = some data ∧
          ∃ visit ∈ data.visits, visit.pattern = pattern := by
    intro stop
    unfold patternsAt
    cases hStop : day.network.stops[stop]? with
    | none => simp
    | some data => simp [and_comm]
  rw [patternsTouching, IndexSet.mem_toList, IndexSet.contains_ofList, List.mem_flatMap, and_comm]
  refine and_congr_right fun _ => ⟨?_, ?_⟩
  · rintro ⟨stop, hStop, hPattern⟩
    obtain ⟨hActive, hVisited⟩ := (hAt stop).mp hPattern
    exact ⟨hActive, stop, hStop, hVisited⟩
  · rintro ⟨hActive, stop, hStop, hVisited⟩
    exact ⟨stop, hStop, (hAt stop).mpr ⟨hActive, hVisited⟩⟩

/-- Only patterns that run on the day touch a stop. -/
theorem contains_of_mem_patternsTouching {stops : List Nat} {pattern : Nat}
    (h : pattern ∈ day.patternsTouching stops) : day.activePatterns.contains pattern = true :=
  (mem_patternsTouching_iff.mp h).2.1

theorem lt_numPatterns_of_mem_patternsTouching {stops : List Nat} {pattern : Nat}
    (h : pattern ∈ day.patternsTouching stops) : pattern < day.network.numPatterns :=
  (mem_patternsTouching_iff.mp h).1

/-- A pattern that takes part is found from each of its stops. -/
theorem mem_patternsTouching (linked : day.network.Linked) {stops : List Nat}
    {pattern position stop : Nat} {table : TripTable}
    (hTable : day.network.tripTable pattern = .ok table)
    (hStop : table.stopAt position = .ok stop) (hMem : stop ∈ stops)
    (hActive : day.activePatterns.contains pattern = true) :
    pattern ∈ day.patternsTouching stops := by
  obtain ⟨data, hData, hVisit⟩ := linked.visits hTable hStop
  obtain ⟨found, hFound, -⟩ := Checked.bind_eq_ok_iff.mp hTable
  rw [Checked.lookup_eq_ok_iff] at hFound
  exact mem_patternsTouching_iff.mpr
    ⟨(Array.getElem?_eq_some_iff.mp hFound).1, hActive, stop, hMem, data, hData, hVisit⟩

end DayTimetable

end JourneyPlanner
