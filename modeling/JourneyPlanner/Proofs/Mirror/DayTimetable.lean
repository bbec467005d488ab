import JourneyPlanner.Proofs.DayTimetable
import JourneyPlanner.Proofs.Mirror.Draft

/-! The timetable of a day against its mirror image. Main statements: the reverse search for a trip
and the forward one in the image find the same trip, and the same patterns and walks are found
from a stop. -/
namespace JourneyPlanner

namespace TripTable.Mirrors

variable {table image : TripTable} {isActive : Nat → Bool}

/-- A trip runs exactly when its mirror image does. -/
theorem runs_iff (mirrors : table.Mirrors image) {trip : Nat} (hTrip : trip < table.numTrips) :
    image.Runs isActive (table.numTrips - 1 - trip) ↔ table.Runs isActive trip := by
  rw [Runs, Runs, mirrors.services hTrip]

/-- What a reverse search can board in a table, a forward search can board in its image. -/
theorem catchable_iff (mirrors : table.Mirrors image) (sound : table.Sound) {trip position : Nat}
    (hTrip : trip < table.numTrips) (hPosition : position < table.numStops) {ready : Int}
    {bound : Option Nat} (hBound : ∀ limit, bound = some limit → limit < table.numTrips) :
    image.Catchable isActive .forward (table.numStops - 1 - position) (-ready)
        (bound.map (table.numTrips - 1 - ·)) (table.numTrips - 1 - trip) ↔
      table.Catchable isActive .reverse position ready bound trip := by
  obtain ⟨time, hTime⟩ := sound.exists_timeAt hTrip hPosition
  have hImage := mirrors.timeAt hTrip hPosition hTime
  constructor
  · rintro ⟨hRuns, ⟨other, hOther, hReady⟩, hBefore⟩
    rw [hImage, Except.ok.injEq] at hOther
    subst hOther
    refine ⟨(mirrors.runs_iff hTrip).mp hRuns, ⟨time, hTime, ?_⟩, ?_⟩
    · simp only [Direction.timeCriterion, Direction.boardTime, StopTime.mirror] at hReady ⊢
      omega
    · rintro limit rfl
      have hLimit := hBound limit rfl
      have hLt := hBefore _ rfl
      simp only [Direction.tripCriterion] at hLt ⊢
      omega
  · rintro ⟨hRuns, ⟨other, hOther, hReady⟩, hBefore⟩
    rw [hTime, Except.ok.injEq] at hOther
    subst hOther
    refine ⟨(mirrors.runs_iff hTrip).mpr hRuns, ⟨_, hImage, ?_⟩, ?_⟩
    · simp only [Direction.timeCriterion, Direction.boardTime, StopTime.mirror] at hReady ⊢
      omega
    · intro limit hLimit
      obtain ⟨original, rfl, rfl⟩ := Option.map_eq_some_iff.mp hLimit
      have hLt := hBefore original rfl
      simp only [Direction.tripCriterion] at hLt ⊢
      omega

/-- The trip that a reverse search boards is the image of the one that a forward search boards in
the image. -/
theorem boardable (mirrors : table.Mirrors image) (sound : table.Sound) (imageSound : image.Sound)
    {position : Nat} (hPosition : position < table.numStops) {ready : Int}
    {bound result : Option Nat}
    (hBound : ∀ limit, bound = some limit → limit < table.numTrips)
    (h : table.boardable isActive .reverse position ready bound = .ok result) :
    image.boardable isActive .forward (table.numStops - 1 - position) (-ready)
      (bound.map (table.numTrips - 1 - ·)) = .ok (result.map (table.numTrips - 1 - ·)) := by
  obtain ⟨hCatch, hLeast⟩ := (sound.boardable_eq_ok_iff hPosition hBound).mp h
  refine (imageSound.boardable_eq_ok_iff ?_ ?_).mpr ⟨?_, ?_⟩
  · rw [mirrors.numStops]
    omega
  · intro limit hLimit
    obtain ⟨original, hOriginal, rfl⟩ := Option.map_eq_some_iff.mp hLimit
    have := hBound original hOriginal
    rw [mirrors.numTrips]
    omega
  · intro trip hTrip
    obtain ⟨original, hOriginal, rfl⟩ := Option.map_eq_some_iff.mp hTrip
    have hCaught := hCatch original hOriginal
    exact (mirrors.catchable_iff sound hCaught.runs.lt_numTrips hPosition hBound).mpr hCaught
  · intro other hOther
    have hInside := hOther.runs.lt_numTrips
    rw [mirrors.numTrips] at hInside
    rw [show other = table.numTrips - 1 - (table.numTrips - 1 - other) by omega,
      mirrors.catchable_iff sound (by omega) hPosition hBound] at hOther
    obtain ⟨trip, rfl, hLe⟩ := hLeast _ hOther
    refine ⟨_, rfl, ?_⟩
    simp only [Direction.tripCriterion] at hLe ⊢
    omega

end TripTable.Mirrors

/-- The positions that a forward search passes in the image are those that a reverse search
passes. -/
theorem Direction.positions_forward (numStops : Nat) :
    forward.positions numStops =
      (reverse.positions numStops).map (numStops - 1 - ·) := by
  refine List.ext_getElem (by simp [positions]) fun index hIndex _ => ?_
  simp only [positions, List.length_range] at hIndex
  simp only [positions, List.getElem_range, List.getElem_map, List.getElem_reverse,
    List.length_range]
  omega

structure DayTimetable.Mirrors (day image : DayTimetable) : Prop where
  sound : day.network.Sound
  imageSound : image.network.Sound
  numStops : image.numStops = day.numStops
  exists_table : ∀ {index table}, day.network.tripTable index = .ok table →
    ∃ other, image.network.tripTable index = .ok other ∧ table.Mirrors other
  isActive : image.isActive = day.isActive
  patternsTouching : ∀ stops, image.patternsTouching stops = day.patternsTouching stops
  transfersFrom : ∀ stop,
    image.network.transfersFrom stop = (day.network.transfersTo stop).map Transfer.mirror

section Pack

variable {draft : Draft} {date : Date} {modes : ModeSet}

/-- The patterns that take part among the visitors of a stop, said without the visits. -/
theorem DayTimetable.mem_patternsAt_pack {patterns : List PatternDraft} {day : DayTimetable}
    (hNetwork : day.network = draft.pack patterns) {stop index : Nat} :
    index ∈ day.patternsAt stop ↔ stop < draft.stops.length ∧
      (∃ pattern, patterns[index]? = some pattern ∧ stop ∈ pattern.stops) ∧
      day.activePatterns.contains index = true := by
  have hSize : day.network.stops.size = draft.stops.length := by
    rw [hNetwork]
    simp [Draft.pack]
  unfold patternsAt
  cases hStop : day.network.stops[stop]? with
  | none =>
      have := Array.getElem?_eq_none_iff.mp hStop
      simp only [List.not_mem_nil, false_iff, not_and]
      omega
  | some data =>
      have hInside := (Array.getElem?_eq_some_iff.mp hStop).1
      have hVisits : ∀ visit, visit ∈ data.visits ↔ ∃ pattern,
          patterns[visit.pattern]? = some pattern ∧
            pattern.stops[visit.position]? = some stop := fun visit =>
        Draft.visits_pack (hNetwork ▸ hStop)
      simp only [List.mem_filter, List.mem_map]
      constructor
      · rintro ⟨⟨visit, hVisit, rfl⟩, hActive⟩
        obtain ⟨pattern, hPattern, hAt⟩ := (hVisits visit).mp hVisit
        exact ⟨hSize ▸ hInside, ⟨pattern, hPattern, List.mem_of_getElem? hAt⟩, hActive⟩
      · rintro ⟨-, ⟨pattern, hPattern, hMem⟩, hActive⟩
        obtain ⟨position, hPosition⟩ := List.mem_iff_getElem?.mp hMem
        exact ⟨⟨⟨index, position⟩, (hVisits ⟨index, position⟩).mpr ⟨pattern, hPattern, hPosition⟩,
          rfl⟩, hActive⟩

/-- A set does not remember how often or in which order it was filled. -/
theorem IndexSet.toList_ofList_congr {bound : Nat} {indices others : List Nat}
    (h : ∀ index, index ∈ indices ↔ index ∈ others) :
    (ofList bound indices).toList = (ofList bound others).toList := by
  have hSize : ∀ indices, (ofList bound indices).marks.size = bound := by
    intro indices
    rw [ofList, size_foldl_insert]
    simp [empty]
  rw [toList, toList, hSize, hSize]
  refine List.filter_congr fun index _ => ?_
  rw [Bool.eq_iff_iff, contains_ofList, contains_ofList, h]

/-- The tables of the image are the images of the tables. -/
theorem Draft.Sound.exists_tripTable_mirror (sound : draft.Sound) {index : Nat} {table : TripTable}
    (hTable : (draft.pack draft.arranged).tripTable index = .ok table) :
    ∃ image, (draft.mirror.pack draft.mirror.arranged).tripTable index = .ok image ∧
      table.Mirrors image := by
  obtain ⟨pattern, hPattern, rfl⟩ := sound.tripTable_eq_ok_iff.mp hTable
  refine ⟨pattern.mirror.table index, sound.mirror.tripTable_eq_ok_iff.mpr ⟨_, ?_, rfl⟩,
    PatternDraft.mirrors_table (sound.isFull_arranged (List.mem_of_getElem? hPattern)) index⟩
  rw [sound.arranged_mirror, List.getElem?_map, hPattern]
  rfl

/-- The same patterns take part in the image of a day. -/
theorem Draft.Sound.activePatterns_mirror (sound : draft.Sound) {day image : DayTimetable}
    (hDay : (draft.pack draft.arranged).onDate date modes = .ok day)
    (hImage : (draft.mirror.pack draft.mirror.arranged).onDate date modes = .ok image)
    (hActive : image.isActive = day.isActive) {index : Nat} {pattern : PatternDraft}
    (hPattern : draft.arranged[index]? = some pattern) :
    image.activePatterns.contains index = true ↔ day.activePatterns.contains index = true := by
  have hTable := sound.tripTable_eq_ok_iff.mpr ⟨pattern, hPattern, rfl⟩
  obtain ⟨other, hOther, mirrors⟩ := sound.exists_tripTable_mirror hTable
  have hMode : other.mode = (pattern.table index).mode := by
    obtain ⟨turned, hTurned, rfl⟩ := sound.mirror.tripTable_eq_ok_iff.mp hOther
    rw [sound.arranged_mirror, List.getElem?_map, hPattern, Option.map_some,
      Option.some.injEq] at hTurned
    exact hTurned ▸ rfl
  rw [DayTimetable.activePatterns_onDate hImage hOther,
    DayTimetable.activePatterns_onDate hDay hTable,
    hMode, hActive]
  refine and_congr_right fun _ => ⟨?_, ?_⟩
  · rintro ⟨trip, hRuns⟩
    have hTrip := hRuns.lt_numTrips
    rw [mirrors.numTrips] at hTrip
    refine ⟨(pattern.table index).numTrips - 1 - trip, (mirrors.runs_iff (by omega)).mp ?_⟩
    rwa [show (pattern.table index).numTrips - 1 - ((pattern.table index).numTrips - 1 - trip) =
      trip by omega]
  · rintro ⟨trip, hRuns⟩
    exact ⟨_, (mirrors.runs_iff hRuns.lt_numTrips).mpr hRuns⟩

/-- The image of a draft that can be built has the image of its timetable on every day. -/
theorem Draft.Sound.exists_onDate_mirror (sound : draft.Sound) {day : DayTimetable}
    (hDay : (draft.pack draft.arranged).onDate date modes = .ok day) :
    ∃ image, (draft.mirror.pack draft.mirror.arranged).onDate date modes = .ok image ∧
      day.Mirrors image := by
  obtain ⟨services, hServices, rfl⟩ := DayTimetable.onDate_eq_ok_iff.mp hDay
  have hImage : (draft.mirror.pack draft.mirror.arranged).onDate date modes = .ok _ :=
    DayTimetable.onDate_eq_ok_iff.mpr ⟨services, hServices, rfl⟩
  refine ⟨_, hImage, sound.sound_pack, sound.mirror.sound_pack, ?_, sound.exists_tripTable_mirror,
    rfl, fun stops => ?_, fun stop => ?_⟩
  · exact numStops_pack.trans numStops_pack.symm
  · have hCount : (draft.mirror.pack draft.mirror.arranged).numPatterns =
        (draft.pack draft.arranged).numPatterns := by
      rw [numPatterns_pack, numPatterns_pack, sound.arranged_mirror, List.length_map]
    rw [DayTimetable.patternsTouching, DayTimetable.patternsTouching, hCount]
    refine IndexSet.toList_ofList_congr fun index => ?_
    simp only [List.mem_flatMap]
    refine exists_congr fun stop => and_congr_right fun _ => ?_
    rw [DayTimetable.mem_patternsAt_pack rfl, DayTimetable.mem_patternsAt_pack rfl]
    refine and_congr_right fun _ => ⟨?_, ?_⟩
    · rintro ⟨⟨turned, hTurned, hMem⟩, hActive⟩
      rw [sound.arranged_mirror, List.getElem?_map, Option.map_eq_some_iff] at hTurned
      obtain ⟨pattern, hPattern, rfl⟩ := hTurned
      exact ⟨⟨pattern, hPattern, List.mem_reverse.mp hMem⟩,
        (sound.activePatterns_mirror hDay hImage rfl hPattern).mp hActive⟩
    · rintro ⟨⟨pattern, hPattern, hMem⟩, hActive⟩
      have hTurned : draft.mirror.arranged[index]? = some pattern.mirror := by
        rw [sound.arranged_mirror, List.getElem?_map, hPattern, Option.map_some]
      exact ⟨⟨pattern.mirror, hTurned, List.mem_reverse.mpr hMem⟩,
        (sound.activePatterns_mirror hDay hImage rfl hPattern).mpr hActive⟩
  · rw [transfersFrom_pack, transfersTo_pack, transfersFrom_mirror]
    change (if stop < draft.stops.length then _ else _) = _
    split <;> rfl

end Pack

end JourneyPlanner
