import JourneyPlanner.Proofs.DayTimetable
import JourneyPlanner.Proofs.Network.Acceptance
import Mathlib.Order.Bounds.Basic

/-! Which trip a traveller catches at a stop. The search by bisection, cut off at a bound and going
on over trips that do not run, finds what looking at every trip would. Main statement: on every
network that was built and on every day, it finds the first trip of the pattern that can be caught,
if there is one, and no other that can be caught is at a later stop before it. -/
namespace JourneyPlanner

namespace TripTable

variable {table : TripTable} {isActive : Nat → Bool} {direction : Direction} {position : Nat}
  {ready : Int} {bound found : Option Nat}

namespace Sound

/-- The search for a trip finds the first that can be caught, in the order of the search. -/
theorem boardable_eq_some_iff (sound : table.Sound) (hPosition : position < table.numStops)
    (h : table.boardable isActive direction position ready bound = .ok found) {trip : Nat} :
    found = some trip ↔
      table.Catchable isActive direction position ready bound trip ∧
        ∀ other, table.Catchable isActive direction position ready bound other →
          direction.tripCriterion trip ≤ direction.tripCriterion other := by
  constructor
  · rintro rfl
    refine ⟨sound.of_boardable hPosition h, fun other hOther => ?_⟩
    obtain ⟨least, hLeast, hOrder⟩ := sound.boardable_least hPosition h hOther
    cases hLeast
    exact hOrder
  · rintro ⟨hCatch, hFirst⟩
    obtain ⟨least, rfl, hOrder⟩ := sound.boardable_least hPosition h hCatch
    have hBack := hFirst least (sound.of_boardable hPosition h)
    rw [Direction.tripCriterion_injective (Int.le_antisymm hOrder hBack)]

/-- The search finds no trip exactly when none can be caught. -/
theorem boardable_eq_none_iff (sound : table.Sound) (hPosition : position < table.numStops)
    (h : table.boardable isActive direction position ready bound = .ok found) :
    found = none ↔ ∀ trip, ¬table.Catchable isActive direction position ready bound trip := by
  constructor
  · rintro rfl trip hCatch
    obtain ⟨least, hLeast, -⟩ := sound.boardable_least hPosition h hCatch
    cases hLeast
  · intro hNone
    cases found with
    | none => rfl
    | some trip => exact absurd (sound.of_boardable hPosition h) (hNone trip)

/-- The trip found is left no later than any other that can be caught, wherever one gets off. -/
theorem alightTime_le_of_boardable (sound : table.Sound) (hPosition : position < table.numStops)
    {trip other later : Nat}
    (h : table.boardable isActive direction position ready bound = .ok (some trip))
    (hOther : table.Catchable isActive direction position ready bound other)
    (hLater : later < table.numStops) :
    ∃ time slower, table.timeAt trip later = .ok time ∧ table.timeAt other later = .ok slower ∧
      direction.timeCriterion (direction.alightTime time) ≤
        direction.timeCriterion (direction.alightTime slower) := by
  obtain ⟨hCatch, hFirst⟩ := (sound.boardable_eq_some_iff hPosition h).mp rfl
  obtain ⟨time, hTime⟩ := sound.exists_timeAt hCatch.runs.lt_numTrips hLater
  obtain ⟨slower, hSlower⟩ := sound.exists_timeAt hOther.runs.lt_numTrips hLater
  exact ⟨time, slower, hTime, hSlower,
    sound.alightTime_le_of_tripCriterion_le (hFirst other hOther) hLater hTime hSlower⟩

end Sound

/-- The trips before a bound that run on a date and leave a position at or after a time. -/
def Departing (table : TripTable) (calendar : Calendar) (date : Date) (position : Nat) (time : Int)
    (before : Option Nat) : Set Nat :=
  {trip | (∀ limit, before = some limit → trip < limit) ∧
    (∃ service, table.services[trip]? = some service ∧ calendar.runsOn service date = true) ∧
    ∃ stopTime, table.timeAt trip position = .ok stopTime ∧ time ≤ stopTime.departure}

/-- The trips after a bound that run on a date and reach a position at or before a time. -/
def Arriving (table : TripTable) (calendar : Calendar) (date : Date) (position : Nat) (time : Int)
    (after : Option Nat) : Set Nat :=
  {trip | (∀ limit, after = some limit → limit < trip) ∧
    (∃ service, table.services[trip]? = some service ∧ calendar.runsOn service date = true) ∧
    ∃ stopTime, table.timeAt trip position = .ok stopTime ∧ stopTime.arrival ≤ time}

section Day

variable {network : Network} {date : Date} {modes : ModeSet} {day : DayTimetable} {time : Int}
  {trip : Nat}

/-- The trips departing after a time are those a forward search can catch. -/
theorem mem_departing_iff (hDay : network.onDate date modes = .ok day) :
    trip ∈ table.Departing network.calendar date position time bound ↔
      table.Catchable day.isActive .forward position time bound trip := by
  constructor
  · rintro ⟨hBefore, ⟨service, hService, hRuns⟩, hInTime⟩
    refine ⟨⟨service, hService, ?_⟩, hInTime, fun limit hLimit => ?_⟩
    · rw [DayTimetable.isActive_onDate hDay, hRuns]
    · simpa [Direction.tripCriterion] using hBefore limit hLimit
  · rintro ⟨⟨service, hService, hActive⟩, hInTime, hBefore⟩
    rw [DayTimetable.isActive_onDate hDay] at hActive
    refine ⟨fun limit hLimit => ?_, ⟨service, hService, hActive⟩, hInTime⟩
    simpa [Direction.tripCriterion] using hBefore limit hLimit

/-- The trips arriving before a time are those a backward search can catch. -/
theorem mem_arriving_iff (hDay : network.onDate date modes = .ok day) :
    trip ∈ table.Arriving network.calendar date position time bound ↔
      table.Catchable day.isActive .reverse position time bound trip := by
  have hSign : ∀ {stopTime : StopTime}, stopTime.arrival ≤ time ↔
      Direction.reverse.timeCriterion time ≤
        Direction.reverse.timeCriterion (Direction.reverse.boardTime stopTime) := by
    intro stopTime
    simp only [Direction.timeCriterion, Direction.boardTime]
    omega
  constructor
  · rintro ⟨hAfter, ⟨service, hService, hRuns⟩, stopTime, hTime, hReach⟩
    refine ⟨⟨service, hService, ?_⟩, ⟨stopTime, hTime, hSign.mp hReach⟩, fun limit hLimit => ?_⟩
    · rw [DayTimetable.isActive_onDate hDay, hRuns]
    · simpa [Direction.tripCriterion] using hAfter limit hLimit
  · rintro ⟨⟨service, hService, hActive⟩, ⟨stopTime, hTime, hReach⟩, hAfter⟩
    rw [DayTimetable.isActive_onDate hDay] at hActive
    refine ⟨fun limit hLimit => ?_, ⟨service, hService, hActive⟩, stopTime, hTime, hSign.mpr hReach⟩
    simpa [Direction.tripCriterion] using hAfter limit hLimit

end Day

end TripTable

section Built

variable {draft : Draft} {network : Network} {date : Date} {modes : ModeSet} {day : DayTimetable}
  {pattern position : Nat} {table : TripTable}

/-- On a day of a network that was built, the search for the first trip of a pattern to leave a
position at or after a time finds it among all that run and come before the bound, and finds nothing
exactly if there is none. No other of them arrives earlier at a later position. The search for the
last trip to reach a position at or before a time does the same from the other end, for the trips
after the bound, and no other of them leaves an earlier position later. -/
theorem trip_search_linear (hBuild : draft.build = .ok network)
    (hDay : network.onDate date modes = .ok day) (hTable : network.tripTable pattern = .ok table)
    (hPosition : position < table.numStops) (time : Int) :
    (∀ before : Option Nat, (∀ limit, before = some limit → limit ≤ table.numTrips) →
      ∃ found, table.earliestDeparting day.isActive position time before = .ok found ∧
        (∀ trip, found = some trip ↔
          IsLeast (table.Departing network.calendar date position time before) trip) ∧
        (found = none ↔ table.Departing network.calendar date position time before = ∅) ∧
        ∀ trip, found = some trip →
          ∀ other ∈ table.Departing network.calendar date position time before, ∀ later,
            position < later → later < table.numStops →
            ∃ reached slower, table.timeAt trip later = .ok reached ∧
              table.timeAt other later = .ok slower ∧ reached.arrival ≤ slower.arrival) ∧
    ∀ after : Option Nat, (∀ limit, after = some limit → limit < table.numTrips) →
      ∃ found, table.latestArriving day.isActive position time after = .ok found ∧
        (∀ trip, found = some trip ↔
          IsGreatest (table.Arriving network.calendar date position time after) trip) ∧
        (found = none ↔ table.Arriving network.calendar date position time after = ∅) ∧
        ∀ trip, found = some trip →
          ∀ other ∈ table.Arriving network.calendar date position time after, ∀ earlier,
            earlier < position →
            ∃ left slower, table.timeAt trip earlier = .ok left ∧
              table.timeAt other earlier = .ok slower ∧ slower.departure ≤ left.departure := by
  have sound : table.Sound := (Network.Sound.of_build hBuild).table hTable
  refine ⟨fun before hBefore => ?_, fun after hAfter => ?_⟩
  · have hMem := fun trip => @TripTable.mem_departing_iff table position before network date modes
      day time trip hDay
    obtain ⟨found, hFound⟩ := sound.toShaped.exists_earliestDeparting day.isActive time before
      hPosition hBefore
    have hBoard : table.boardable day.isActive .forward position time before = .ok found := hFound
    refine ⟨found, hFound, fun trip => ?_, ?_, ?_⟩
    · rw [sound.boardable_eq_some_iff hPosition hBoard, IsLeast, mem_lowerBounds, hMem]
      simp only [hMem, Direction.tripCriterion, Int.ofNat_le]
    · rw [sound.boardable_eq_none_iff hPosition hBoard, Set.eq_empty_iff_forall_notMem]
      simp only [hMem]
    · rintro trip rfl other hOther later - hLater
      exact sound.alightTime_le_of_boardable hPosition hBoard ((hMem other).mp hOther) hLater
  · have hMem := fun trip => @TripTable.mem_arriving_iff table position after network date modes
      day time trip hDay
    obtain ⟨found, hFound⟩ := sound.toShaped.exists_latestArriving day.isActive time after
      hPosition hAfter
    have hBoard : table.boardable day.isActive .reverse position time after = .ok found := hFound
    refine ⟨found, hFound, fun trip => ?_, ?_, ?_⟩
    · rw [sound.boardable_eq_some_iff hPosition hBoard, IsGreatest, mem_upperBounds, hMem]
      simp only [hMem, Direction.tripCriterion, Int.neg_le_neg_iff, Int.ofNat_le]
    · rw [sound.boardable_eq_none_iff hPosition hBoard, Set.eq_empty_iff_forall_notMem]
      simp only [hMem]
    · rintro trip rfl other hOther earlier hEarlier
      obtain ⟨left, slower, hLeft, hSlower, hLe⟩ := sound.alightTime_le_of_boardable hPosition
        hBoard ((hMem other).mp hOther) (hEarlier.trans hPosition)
      exact ⟨left, slower, hLeft, hSlower, Int.neg_le_neg_iff.mp hLe⟩

end Built

/-- A line on a single day, on which the second of its trips does not run. -/
def PatternDraft.sparse : PatternDraft :=
  { name := "1", mode := .bus, stops := [0, 1]
    trips := [{ service := 0, times := [⟨0, 0⟩, ⟨600, 600⟩] },
              { service := 1, times := [⟨60, 60⟩, ⟨660, 660⟩] },
              { service := 0, times := [⟨60, 60⟩, ⟨660, 660⟩] }] }

def Draft.sparse : Draft :=
  { calendar := { start := ⟨1, by decide, by decide⟩, numDays := 1, services := #[1#384, 0#384]
                  numDays_le := by decide }
    stops := ["A", "B"]
    patterns := [PatternDraft.sparse]
    transfers := [] }

theorem Draft.build_sparse : Draft.sparse.build = .ok (Draft.sparse.pack Draft.sparse.patterns) :=
  Draft.build_of_pairwise (by decide +kernel) rfl

/-- Half a minute after the first trip has left, the one to catch is the third. -/
theorem trip_search_linear_sparse :
    ∃ network day table, Draft.sparse.build = .ok network ∧
      network.onDate ⟨1, by decide, by decide⟩ ModeSet.full = .ok day ∧
      network.tripTable 0 = .ok table ∧
      table.earliestDeparting day.isActive 0 30 none = .ok (some 2) ∧
      IsLeast (table.Departing network.calendar ⟨1, by decide, by decide⟩ 0 30 none) 2 := by
  obtain ⟨found, hFound, hLeast, -⟩ := (@trip_search_linear Draft.sparse _
    ⟨1, by decide, by decide⟩ ModeSet.full _ 0 0 (PatternDraft.sparse.table 0) Draft.build_sparse
    rfl rfl (by decide) 30).1 none (by simp)
  have hThird : found = some 2 := by
    rw [show TripTable.earliestDeparting _ _ _ _ _ = .ok (some 2) by decide +kernel] at hFound
    exact (Except.ok.inj hFound).symm
  subst hThird
  exact ⟨_, _, _, Draft.build_sparse, rfl, rfl, hFound, (hLeast 2).mp rfl⟩

end JourneyPlanner
