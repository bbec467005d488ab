import JourneyPlanner.Proofs.TripTable

/-! The search for a trip to board finds the first one, in the order of the search, among
those that run and can still be caught. Bisection is only told about the indices it looks at,
so its result is described by the two tests next to it; that trips are sorted says the rest. -/
namespace JourneyPlanner

/-- Bisection ends at a boundary of its test: the index before it passed and the index itself
failed, unless the range ends there. -/
theorem bisect_boundary {holds : Nat → Checked Bool} {low high first : Nat}
    (h : bisect holds low high = .ok first) (hLe : low ≤ high) :
    low ≤ first ∧ first ≤ high ∧ (low < first → holds (first - 1) = .ok true) ∧
      (first < high → holds first = .ok false) := by
  induction low, high using bisect.induct holds with
  | case1 low high hLt middle fault hTest =>
      rw [bisect, dif_pos hLt] at h
      simp only [middle] at hTest
      simp [hTest] at h
  | case2 low high hLt middle hTest ih =>
      rw [bisect, dif_pos hLt] at h
      simp only [middle] at hTest ih
      simp only [hTest] at h
      obtain ⟨hLow, hHigh, hBefore, hAt⟩ := ih h (by omega)
      refine ⟨by omega, hHigh, fun _ => ?_, hAt⟩
      rcases Nat.eq_or_lt_of_le hLow with hSame | hBeyond
      · rw [← hSame]
        exact hTest
      · exact hBefore hBeyond
  | case3 low high hLt middle hTest ih =>
      rw [bisect, dif_pos hLt] at h
      simp only [middle] at hTest ih
      simp only [hTest] at h
      obtain ⟨hLow, hHigh, hBefore, hAt⟩ := ih h (by omega)
      refine ⟨hLow, by omega, hBefore, fun _ => ?_⟩
      rcases Nat.eq_or_lt_of_le hHigh with hSame | hBelow
      · rw [hSame]
        exact hTest
      · exact hAt hBelow
  | case4 low high hGe =>
      rw [bisect, dif_neg hGe] at h
      cases h
      exact ⟨Nat.le_refl _, hLe, fun hLt => absurd hLt (Nat.lt_irrefl _), fun hLt => absurd hLt hGe⟩

/-- Bisection has a result if every index of its range has an answer. -/
theorem exists_bisect (holds : Nat → Checked Bool) (low high : Nat)
    (hHolds : ∀ index, low ≤ index → index < high → ∃ answer, holds index = .ok answer) :
    ∃ first, bisect holds low high = .ok first := by
  induction low, high using bisect.induct holds with
  | case1 low high hLt middle fault hTest =>
      obtain ⟨answer, hAnswer⟩ := hHolds middle (by omega) (by omega)
      rw [hAnswer] at hTest
      cases hTest
  | case2 low high hLt middle hTest ih =>
      obtain ⟨first, hFirst⟩ := ih fun index hLow hHigh => hHolds index (by omega) hHigh
      refine ⟨first, ?_⟩
      rw [bisect, dif_pos hLt]
      simp only [middle] at hTest hFirst
      simp only [hTest, hFirst]
  | case3 low high hLt middle hTest ih =>
      obtain ⟨first, hFirst⟩ := ih fun index hLow hHigh => hHolds index hLow (by omega)
      refine ⟨first, ?_⟩
      rw [bisect, dif_pos hLt]
      simp only [middle] at hTest hFirst
      simp only [hTest, hFirst]
  | case4 low high hGe => exact ⟨low, by rw [bisect, dif_neg hGe]⟩

namespace TripTable

def Runs (table : TripTable) (isActive : Nat → Bool) (trip : Nat) : Prop :=
  ∃ service, table.services[trip]? = some service ∧ isActive service = true

variable {table : TripTable} {isActive : Nat → Bool}

theorem Runs.lt_numTrips {trip : Nat} (h : table.Runs isActive trip) : trip < table.numTrips := by
  obtain ⟨service, hService, -⟩ := h
  exact (Array.getElem?_eq_some_iff.mp hService).1

/-- The trip found is one of those looked at and runs. -/
theorem firstRunning_eq_some {trips : List Nat} {trip : Nat}
    (h : table.firstRunning isActive trips = .ok (some trip)) :
    trip ∈ trips ∧ table.Runs isActive trip := by
  induction trips with
  | nil => simp [firstRunning] at h
  | cons first rest ih =>
      rw [firstRunning] at h
      split at h
      · cases h
      · rename_i service hService
        split at h
        · rename_i hActive
          cases h
          exact ⟨List.mem_cons_self .., service, hService, hActive⟩
        · exact ⟨List.mem_cons_of_mem _ (ih h).1, (ih h).2⟩

/-- No running trip of the list comes before the one found. -/
theorem firstRunning_least {trips : List Nat} {result : Option Nat} {order : Nat → Nat → Prop}
    (h : table.firstRunning isActive trips = .ok result) (hSorted : trips.Pairwise order)
    {other : Nat} (hOther : other ∈ trips) (hRuns : table.Runs isActive other) :
    ∃ trip, result = some trip ∧ (trip = other ∨ order trip other) := by
  induction trips with
  | nil => cases hOther
  | cons first rest ih =>
      obtain ⟨hFirst, hRest⟩ := List.pairwise_cons.mp hSorted
      rw [firstRunning] at h
      split at h
      · cases h
      · rename_i service hService
        split at h
        · cases h
          refine ⟨first, rfl, ?_⟩
          rcases List.mem_cons.mp hOther with hSame | hLater
          · exact Or.inl hSame.symm
          · exact Or.inr (hFirst other hLater)
        · rename_i hIdle
          rcases List.mem_cons.mp hOther with hSame | hLater
          · obtain ⟨found, hFound, hActive⟩ := hRuns
            rw [hSame, hService, Option.some.injEq] at hFound
            rw [hFound] at hIdle
            exact absurd hActive hIdle
          · exact ih h hRest hLater

/-- Looking for a running trip within the table never fails. -/
theorem exists_firstRunning (table : TripTable) (isActive : Nat → Bool) {trips : List Nat}
    (hTrips : ∀ trip ∈ trips, trip < table.numTrips) :
    ∃ result, table.firstRunning isActive trips = .ok result := by
  induction trips with
  | nil => exact ⟨none, rfl⟩
  | cons first rest ih =>
      have hInside : first < table.services.size := hTrips first (List.mem_cons_self ..)
      rw [firstRunning, Array.getElem?_eq_getElem hInside]
      dsimp only
      split
      · exact ⟨_, rfl⟩
      · exact ih fun trip hTrip => hTrips trip (List.mem_cons_of_mem _ hTrip)

/-- The test a bisection by departure makes. -/
theorem departs_eq_ok_iff {trip position : Nat} {ready : Int} {answer : Bool} :
    (table.timeAt trip position).map (fun t => decide (t.departure < ready)) = .ok answer ↔
      ∃ time, table.timeAt trip position = .ok time ∧ decide (time.departure < ready) = answer := by
  cases table.timeAt trip position <;> simp [Except.map]

/-- The test a bisection by arrival makes. -/
theorem arrives_eq_ok_iff {trip position : Nat} {ready : Int} {answer : Bool} :
    (table.timeAt trip position).map (fun t => decide (t.arrival ≤ ready)) = .ok answer ↔
      ∃ time, table.timeAt trip position = .ok time ∧ decide (time.arrival ≤ ready) = answer := by
  cases table.timeAt trip position <;> simp [Except.map]

/-- A trip that a search can board at a position: it runs, is there in time, and comes before the
bound. -/
structure Catchable (table : TripTable) (isActive : Nat → Bool) (direction : Direction)
    (position : Nat) (ready : Int) (bound : Option Nat) (trip : Nat) : Prop where
  runs : table.Runs isActive trip
  inTime : ∃ time, table.timeAt trip position = .ok time ∧
    direction.timeCriterion ready ≤ direction.timeCriterion (direction.boardTime time)
  before : ∀ limit, bound = some limit →
    direction.tripCriterion trip < direction.tripCriterion limit

namespace Sound

variable {direction : Direction} {position : Nat} {ready : Int} {bound : Option Nat}

/-- A trip found can be caught. -/
theorem of_boardable (sound : table.Sound) (hPosition : position < table.numStops) {trip : Nat}
    (h : table.boardable isActive direction position ready bound = .ok (some trip)) :
    table.Catchable isActive direction position ready bound trip := by
  cases direction with
  | forward =>
      obtain ⟨first, hBisect, hFound⟩ := Checked.bind_eq_ok_iff.mp h
      obtain ⟨hMem, hRuns⟩ := firstRunning_eq_some hFound
      obtain ⟨-, hEnd, -, hAt⟩ := bisect_boundary hBisect (Nat.zero_le _)
      rw [List.mem_range'_1] at hMem
      obtain ⟨time, hTime⟩ := sound.exists_timeAt hRuns.lt_numTrips hPosition
      obtain ⟨least, hLeast, hTest⟩ := departs_eq_ok_iff.mp (hAt (by omega))
      have hSorted := (sound.sorted hMem.1 hPosition hLeast hTime).2
      have hReady : ready ≤ least.departure := by simpa using hTest
      refine ⟨hRuns, ⟨time, hTime, Int.le_trans hReady hSorted⟩, ?_⟩
      rintro limit rfl
      simp only [Option.getD_some] at hMem hEnd
      simp only [Direction.tripCriterion]
      omega
  | reverse =>
      obtain ⟨last, hBisect, hFound⟩ := Checked.bind_eq_ok_iff.mp h
      obtain ⟨hMem, hRuns⟩ := firstRunning_eq_some hFound
      rw [List.mem_reverse, List.mem_range'_1] at hMem
      have hTrip := hRuns.lt_numTrips
      obtain ⟨hStart, hEnd, hBefore, -⟩ := bisect_boundary hBisect (by omega)
      obtain ⟨time, hTime⟩ := sound.exists_timeAt hTrip hPosition
      obtain ⟨greatest, hGreatest, hTest⟩ := arrives_eq_ok_iff.mp (hBefore (by omega))
      have hSorted := (sound.sorted (by omega) hPosition hTime hGreatest).1
      have hReady : greatest.arrival ≤ ready := by simpa using hTest
      refine ⟨hRuns, ⟨time, hTime, ?_⟩, ?_⟩
      · simp only [Direction.timeCriterion, Direction.boardTime]
        omega
      · rintro limit rfl
        simp only [Option.map_some, Option.getD_some] at hMem
        simp only [Direction.tripCriterion]
        omega

/-- No trip that can be caught comes before the trip found. -/
theorem boardable_least (sound : table.Sound) (hPosition : position < table.numStops)
    {result : Option Nat}
    (h : table.boardable isActive direction position ready bound = .ok result)
    {other : Nat} (hCatch : table.Catchable isActive direction position ready bound other) :
    ∃ trip, result = some trip ∧
      direction.tripCriterion trip ≤ direction.tripCriterion other := by
  obtain ⟨hRuns, ⟨time, hTime, hReady⟩, hBound⟩ := hCatch
  have hOther := hRuns.lt_numTrips
  cases direction with
  | forward =>
      obtain ⟨first, hBisect, hFound⟩ := Checked.bind_eq_ok_iff.mp h
      obtain ⟨-, hEnd, hBefore, -⟩ := bisect_boundary hBisect (Nat.zero_le _)
      have hBelow : other < bound.getD table.numTrips := by
        cases bound with
        | none => exact hOther
        | some limit => simpa [Direction.tripCriterion] using hBound limit rfl
      have hFrom : first ≤ other := by
        refine Nat.le_of_not_lt fun hLt => ?_
        obtain ⟨early, hEarly, hTest⟩ := departs_eq_ok_iff.mp (hBefore (by omega))
        have hSorted := (sound.sorted (by omega) hPosition hTime hEarly).2
        have hMissed : early.departure < ready := by simpa using hTest
        simp only [Direction.timeCriterion, Direction.boardTime] at hReady
        omega
      obtain ⟨trip, hTrip, hOrder⟩ := firstRunning_least hFound (List.pairwise_lt_range')
        (List.mem_range'_1.mpr ⟨hFrom, by omega⟩) hRuns
      refine ⟨trip, hTrip, ?_⟩
      simp only [Direction.tripCriterion]
      omega
  | reverse =>
      obtain ⟨last, hBisect, hFound⟩ := Checked.bind_eq_ok_iff.mp h
      have hAbove : (bound.map (· + 1)).getD 0 ≤ other := by
        cases bound with
        | none => exact Nat.zero_le _
        | some limit =>
            have := hBound limit rfl
            simp only [Direction.tripCriterion] at this
            simp only [Option.map_some, Option.getD_some]
            omega
      obtain ⟨hStart, hEnd, -, hAt⟩ := bisect_boundary hBisect (by omega)
      have hUpTo : other < last := by
        refine Nat.lt_of_not_le fun hLe => ?_
        obtain ⟨late, hLate, hTest⟩ := arrives_eq_ok_iff.mp (hAt (by omega))
        have hSorted := (sound.sorted hLe hPosition hLate hTime).1
        have hMissed : ready < late.arrival := by simpa using hTest
        simp only [Direction.timeCriterion, Direction.boardTime] at hReady
        omega
      obtain ⟨trip, hTrip, hOrder⟩ := firstRunning_least hFound
        (List.pairwise_reverse.mpr (List.pairwise_lt_range'))
        (List.mem_reverse.mpr (List.mem_range'_1.mpr ⟨hAbove, by omega⟩)) hRuns
      refine ⟨trip, hTrip, ?_⟩
      simp only [Direction.tripCriterion]
      omega

end Sound

/-- The search for a departure never leaves a table that has all its times. -/
theorem Shaped.exists_earliestDeparting (shaped : table.Shaped) (isActive : Nat → Bool)
    (ready : Int) (before : Option Nat) {position : Nat} (hPosition : position < table.numStops)
    (hBefore : ∀ limit, before = some limit → limit ≤ table.numTrips) :
    ∃ result, table.earliestDeparting isActive position ready before = .ok result := by
  have hEnd : before.getD table.numTrips ≤ table.numTrips := by
    cases before with
    | none => exact Nat.le_refl _
    | some limit => exact hBefore limit rfl
  obtain ⟨first, hFirst⟩ := exists_bisect
    (fun trip => (table.timeAt trip position).map fun t => decide (t.departure < ready))
    0 (before.getD table.numTrips) fun trip _ hTrip => by
      obtain ⟨time, hTime⟩ := shaped.exists_timeAt (by omega : trip < table.numTrips) hPosition
      exact ⟨_, departs_eq_ok_iff.mpr ⟨time, hTime, rfl⟩⟩
  have hTrips : ∀ trip ∈ List.range' first (before.getD table.numTrips - first),
      trip < table.numTrips := by
    intro trip hTrip
    rw [List.mem_range'_1] at hTrip
    omega
  obtain ⟨result, hResult⟩ := exists_firstRunning table isActive hTrips
  exact ⟨result, Checked.bind_eq_ok_iff.mpr ⟨first, hFirst, hResult⟩⟩

/-- Nor does the search for an arrival. -/
theorem Shaped.exists_latestArriving (shaped : table.Shaped) (isActive : Nat → Bool)
    (ready : Int) (after : Option Nat) {position : Nat} (hPosition : position < table.numStops)
    (hAfter : ∀ limit, after = some limit → limit < table.numTrips) :
    ∃ result, table.latestArriving isActive position ready after = .ok result := by
  obtain ⟨last, hLast⟩ := exists_bisect
    (fun trip => (table.timeAt trip position).map fun t => decide (t.arrival ≤ ready))
    ((after.map (· + 1)).getD 0) table.numTrips fun trip _ hTrip => by
      obtain ⟨time, hTime⟩ := shaped.exists_timeAt hTrip hPosition
      exact ⟨_, arrives_eq_ok_iff.mpr ⟨time, hTime, rfl⟩⟩
  have hStart : (after.map (· + 1)).getD 0 ≤ table.numTrips := by
    cases after with
    | none => exact Nat.zero_le _
    | some limit => exact hAfter limit rfl
  have hEnd := (bisect_boundary hLast hStart).2.1
  have hTrips : ∀ trip ∈ (List.range' ((after.map (· + 1)).getD 0)
      (last - (after.map (· + 1)).getD 0)).reverse, trip < table.numTrips := by
    intro trip hTrip
    rw [List.mem_reverse, List.mem_range'_1] at hTrip
    omega
  obtain ⟨result, hResult⟩ := exists_firstRunning table isActive hTrips
  exact ⟨result, Checked.bind_eq_ok_iff.mpr ⟨last, hLast, hResult⟩⟩

/-- The search for a trip never looks outside the table. -/
theorem Shaped.exists_boardable (shaped : table.Shaped) (isActive : Nat → Bool)
    (direction : Direction) (ready : Int) (bound : Option Nat) {position : Nat}
    (hPosition : position < table.numStops)
    (hBound : ∀ limit, bound = some limit → limit < table.numTrips) :
    ∃ result, table.boardable isActive direction position ready bound = .ok result := by
  cases direction with
  | forward =>
      exact shaped.exists_earliestDeparting isActive ready bound hPosition
        fun limit hLimit => Nat.le_of_lt (hBound limit hLimit)
  | reverse => exact shaped.exists_latestArriving isActive ready bound hPosition hBound

/-- On a sound table the search for a trip finds the first one that can be caught, if there is one,
and nothing else. -/
theorem Sound.boardable_eq_ok_iff (sound : table.Sound) {direction : Direction} {position : Nat}
    {ready : Int} {bound result : Option Nat} (hPosition : position < table.numStops)
    (hBound : ∀ limit, bound = some limit → limit < table.numTrips) :
    table.boardable isActive direction position ready bound = .ok result ↔
      (∀ trip, result = some trip →
        table.Catchable isActive direction position ready bound trip) ∧
      ∀ other, table.Catchable isActive direction position ready bound other →
        ∃ trip, result = some trip ∧
          direction.tripCriterion trip ≤ direction.tripCriterion other := by
  constructor
  · intro h
    refine ⟨?_, fun other hOther => sound.boardable_least hPosition h hOther⟩
    rintro trip rfl
    exact sound.of_boardable hPosition h
  · rintro ⟨hCatch, hLeast⟩
    obtain ⟨found, hFound⟩ :=
      sound.toShaped.exists_boardable isActive direction ready bound hPosition hBound
    rw [hFound, Except.ok.injEq]
    cases result with
    | none =>
        cases found with
        | none => rfl
        | some trip =>
            obtain ⟨other, hNone, -⟩ := hLeast trip (sound.of_boardable hPosition hFound)
            cases hNone
    | some trip =>
        obtain ⟨other, rfl, hOther⟩ := sound.boardable_least hPosition hFound (hCatch trip rfl)
        obtain ⟨same, hSame, hTrip⟩ := hLeast other (sound.of_boardable hPosition hFound)
        cases hSame
        rw [Direction.tripCriterion_injective (Int.le_antisymm hOther hTrip)]

end TripTable

end JourneyPlanner
