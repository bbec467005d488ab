import JourneyPlanner.Proofs.Direction
import JourneyPlanner.TripTable

/-! What the search relies on in the timetable of a pattern: trips keep their order at every
position, and no trip goes back in time. Main statements: such a table answers every lookup
inside it, and a trip that comes before another in the order of the search is never later. -/
namespace JourneyPlanner

section Checked

variable {α β : Type}

@[simp]
theorem Checked.lookup_eq_ok_iff {result : Option α} {a : α} :
    Checked.lookup result = .ok a ↔ result = some a := by
  cases result <;> simp [Checked.lookup]

/-- A computation succeeds exactly when each of its steps does. -/
theorem Checked.bind_eq_ok_iff {first : Checked α} {next : α → Checked β} {b : β} :
    (first >>= next) = .ok b ↔ ∃ a, first = .ok a ∧ next a = .ok b := by
  cases first with
  | error fault => simp [bind, Except.bind]
  | ok a => simp [bind, Except.bind]

end Checked

section Yields

variable {ε α β : Type}

/-- A computation yields a value of one kind, or is given up with an error of another. -/
def Yields (value : α → Prop) (error : ε → Prop) : Except ε α → Prop
  | .ok a => value a
  | .error e => error e

variable {value : α → Prop} {error : ε → Prop} {result : Except ε α}

/-- Steps that yield or give up do so together. -/
theorem Yields.bind {after : β → Prop} {next : α → Except ε β} (h : Yields value error result)
    (hNext : ∀ a, value a → Yields after error (next a)) : Yields after error (result >>= next) := by
  cases result with
  | error e => exact h
  | ok a => exact hNext a h

theorem Yields.imp {other : α → Prop} (h : Yields value error result)
    (hImp : ∀ a, value a → other a) : Yields other error result := by
  cases result with
  | error e => exact h
  | ok a => exact hImp a h

/-- What never gives up yields. -/
theorem Yields.exists_ok (h : Yields value error result) (hNever : ∀ e, ¬ error e) :
    ∃ a, result = .ok a ∧ value a := by
  cases result with
  | error e => exact absurd h (hNever e)
  | ok a => exact ⟨a, rfl, h⟩

theorem Yields.of_eq_ok {a : α} (h : result = .ok a) (hValue : value a) :
    Yields value error result := by
  rw [h]
  exact hValue

end Yields

/-- A slice is read exactly when it lies inside the table. -/
theorem slice?_eq_some_iff {α : Type} {table part : Array α} {start length : Nat} :
    slice? table start length = some part ↔
      start + length ≤ table.size ∧ part = table.extract start (start + length) := by
  unfold slice?
  split
  · rename_i hInside
    simp [hInside, eq_comm]
  · rename_i hOutside
    simp [hOutside]

namespace TripTable

structure Shaped (table : TripTable) : Prop where
  numStops_pos : 0 < table.numStops
  size_times : table.times.size = table.numTrips * table.numStops

/-- A table as the checks of a network leave it. Positions are columns, so only positions of
the pattern may be looked at. -/
structure Sound (table : TripTable) : Prop extends table.Shaped where
  /-- No trip leaves a stop before it arrives there. -/
  dwell : ∀ {trip position time}, position < table.numStops →
    table.timeAt trip position = .ok time → time.arrival ≤ time.departure
  /-- No trip reaches a stop before it has left an earlier one. -/
  run : ∀ {trip first second time later}, first < second → second < table.numStops →
    table.timeAt trip first = .ok time → table.timeAt trip second = .ok later →
    time.departure ≤ later.arrival
  /-- No trip overtakes one listed before it. -/
  sorted : ∀ {first second position time later}, first ≤ second → position < table.numStops →
    table.timeAt first position = .ok time → table.timeAt second position = .ok later →
    time.arrival ≤ later.arrival ∧ time.departure ≤ later.departure

variable {table : TripTable}

theorem stopAt_eq_ok_iff {position stop : Nat} :
    table.stopAt position = .ok stop ↔ table.stops[position]? = some stop :=
  Checked.lookup_eq_ok_iff

theorem lt_numStops_of_stopAt {position stop : Nat} (h : table.stopAt position = .ok stop) :
    position < table.numStops :=
  (Array.getElem?_eq_some_iff.mp (stopAt_eq_ok_iff.mp h)).1

theorem exists_stopAt {position : Nat} (h : position < table.numStops) :
    ∃ stop, table.stopAt position = .ok stop :=
  ⟨_, stopAt_eq_ok_iff.mpr (Array.getElem?_eq_getElem h)⟩

/-- The times of a table stand row by row. -/
theorem timeAt_eq_ok_iff {trip position : Nat} {time : StopTime} :
    table.timeAt trip position = .ok time ↔
      table.times[trip * table.numStops + position]? = some time :=
  Checked.lookup_eq_ok_iff

namespace Shaped

/-- Every trip has a time at every position. -/
theorem exists_timeAt (shaped : table.Shaped) {trip position : Nat} (hTrip : trip < table.numTrips)
    (hPosition : position < table.numStops) : ∃ time, table.timeAt trip position = .ok time := by
  have hInside : trip * table.numStops + position < table.times.size := by
    rw [shaped.size_times]
    calc trip * table.numStops + position
        < trip * table.numStops + table.numStops := by omega
      _ = (trip + 1) * table.numStops := by rw [Nat.succ_mul]
      _ ≤ table.numTrips * table.numStops := Nat.mul_le_mul_right _ hTrip
  exact ⟨_, timeAt_eq_ok_iff.mpr (Array.getElem?_eq_getElem hInside)⟩

end Shaped

namespace Sound

/-- A trip is left no earlier, along the search, than it was boarded at a position before. -/
theorem boardTime_le_alightTime (sound : table.Sound) {direction : Direction}
    {trip first second : Nat} {time later : StopTime}
    (hOrder : direction.Precedes first second) (hFirst : first < table.numStops)
    (hSecond : second < table.numStops) (hTime : table.timeAt trip first = .ok time)
    (hLater : table.timeAt trip second = .ok later) :
    direction.timeCriterion (direction.boardTime time) ≤
      direction.timeCriterion (direction.alightTime later) := by
  cases direction with
  | forward => exact sound.run hOrder hSecond hTime hLater
  | reverse =>
      have := sound.run hOrder hFirst hLater hTime
      simp only [Direction.timeCriterion, Direction.boardTime, Direction.alightTime]
      omega

/-- Of two trips the one that comes first along the search is left no later. -/
theorem alightTime_le_of_tripCriterion_le (sound : table.Sound) {direction : Direction}
    {first second position : Nat} {time later : StopTime}
    (hOrder : direction.tripCriterion first ≤ direction.tripCriterion second)
    (hPosition : position < table.numStops) (hTime : table.timeAt first position = .ok time)
    (hLater : table.timeAt second position = .ok later) :
    direction.timeCriterion (direction.alightTime time) ≤
      direction.timeCriterion (direction.alightTime later) := by
  cases direction with
  | forward =>
      have hTrips : first ≤ second := by simpa [Direction.tripCriterion] using hOrder
      exact (sound.sorted hTrips hPosition hTime hLater).1
  | reverse =>
      have hTrips : second ≤ first := by simpa [Direction.tripCriterion] using hOrder
      have := (sound.sorted hTrips hPosition hLater hTime).2
      simp only [Direction.timeCriterion, Direction.alightTime]
      omega

/-- Nor can it be boarded later. -/
theorem boardTime_le_of_tripCriterion_le (sound : table.Sound) {direction : Direction}
    {first second position : Nat} {time later : StopTime}
    (hOrder : direction.tripCriterion first ≤ direction.tripCriterion second)
    (hPosition : position < table.numStops) (hTime : table.timeAt first position = .ok time)
    (hLater : table.timeAt second position = .ok later) :
    direction.timeCriterion (direction.boardTime time) ≤
      direction.timeCriterion (direction.boardTime later) := by
  cases direction with
  | forward =>
      have hTrips : first ≤ second := by simpa [Direction.tripCriterion] using hOrder
      exact (sound.sorted hTrips hPosition hTime hLater).2
  | reverse =>
      have hTrips : second ≤ first := by simpa [Direction.tripCriterion] using hOrder
      have := (sound.sorted hTrips hPosition hLater hTime).1
      simp only [Direction.timeCriterion, Direction.boardTime]
      omega

end Sound

end TripTable

theorem Network.pattern_of_tripTable {network : Network} {index : Nat} {table : TripTable}
    (h : network.tripTable index = .ok table) : table.pattern = index := by
  obtain ⟨_, -, h⟩ := Checked.bind_eq_ok_iff.mp h
  obtain ⟨_, -, h⟩ := Checked.bind_eq_ok_iff.mp h
  obtain ⟨_, -, h⟩ := Checked.bind_eq_ok_iff.mp h
  obtain ⟨_, -, h⟩ := Checked.bind_eq_ok_iff.mp h
  cases h
  rfl

end JourneyPlanner
