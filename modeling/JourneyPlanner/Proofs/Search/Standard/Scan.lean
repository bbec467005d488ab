import JourneyPlanner.Proofs.Search.Standard.Books
import JourneyPlanner.Proofs.Search.Steps

/-! One pass along a pattern on at most one trip. Main statement: a pass is never given up on a
sound table, and whatever trip could be caught after a record of the last round, leaving it at
a later position is made up for, since the search is on that trip by then or on one that
comes before it. -/
namespace JourneyPlanner.Search.Standard

variable {problem : Problem} {time : Int} {table : TripTable} {state : State}

/-- A running trip can be caught at a position after a record to go on from. -/
def Catches (problem : Problem) (table : TripTable) (state : State) (position trip : Nat) : Prop :=
  ∃ id source time, state.lastId? source.stop = some id ∧
    state.arrivals.get? id = some source ∧ table.stopAt position = .ok source.stop ∧
    table.Runs problem.day.isActive trip ∧ table.timeAt trip position = .ok time ∧
    problem.direction.timeCriterion (problem.readyAfter source) ≤
      problem.direction.timeCriterion (problem.direction.boardTime time)

/-- A trip that can be caught can still be caught later in the round. -/
theorem Catches.onward {position trip : Nat} {after : State} (onward : Onward problem state after)
    (h : Catches problem table state position trip) :
    Catches problem table after position trip := by
  obtain ⟨id, source, time, hLast, hSource, hRest⟩ := h
  exact ⟨id, source, time, onward.lastId? _ ▸ hLast, onward.arrivals _ _ hSource, hRest⟩

namespace State

theorem pass_cons {position stop : Nat} {rest : List Nat} {ride change : Option Ride} {next : State}
    (hStop : table.stopAt position = .ok stop)
    (hNext : state.passOnBoard problem table position stop ride = .ok next)
    (hChange : next.change problem table position stop ride = .ok change) :
    pass problem table (position :: rest) ride state = pass problem table rest change next := by
  rw [pass]
  simp only [hStop, hNext, hChange]

/-- After an arrival to go on from, a change is to the best trip there is for it, or none. -/
theorem exists_change (shaped : table.Shaped) {position stop id : Nat} {source : Arrival}
    {ride : Option Ride} (hPosition : position < table.numStops)
    (hLast : state.lastArrival? stop = some (id, source))
    (hRide : ∀ on, ride = some on → on.trip < table.numTrips) :
    ∃ result,
      board? problem table position stop id source (ride.map Ride.trip) = .ok result ∧
      state.change problem table position stop ride = .ok (result <|> ride) := by
  obtain ⟨result, hResult⟩ := exists_board? problem stop id source (ride.map Ride.trip) shaped
    hPosition (by
      intro limit hLimit
      obtain ⟨on, hOn, rfl⟩ := Option.map_eq_some_iff.mp hLimit
      exact hRide on hOn)
  refine ⟨result, hResult, ?_⟩
  rw [change, hLast]
  exact Checked.bind_eq_ok_iff.mpr ⟨result, hResult, rfl⟩

end State

namespace Books

variable {pattern position stop : Nat} {rest : List Nat} {ride : Option Ride}

/-- Passing a position on board leaves the ride there. -/
theorem passOnBoard (books : Books problem time state) (regular : problem.Regular time)
    (hRounds : state.round ≤ Request.maxSupportedTransfers + 1)
    (hTable : problem.day.network.tripTable pattern = .ok table)
    (hActive : problem.day.activePatterns.contains pattern = true)
    (hStop : table.stopAt position = .ok stop)
    (hRide : ∀ on, ride = some on →
      OnBoard problem table state.arrivals state.round (position :: rest) on) :
    ∃ next, state.passOnBoard problem table position stop ride = .ok next ∧
      Books problem time next ∧ Onward problem state next ∧
      ∀ on, ride = some on →
        problem.AlightingCovered next.found state.round table on.trip position := by
  cases ride with
  | none => exact ⟨state, rfl, books, Onward.refl .., by simp⟩
  | some on =>
      obtain ⟨left, hLeft, hDerives⟩ := (hRide on rfl).exists_alightTime
        hTable hActive (List.mem_cons_self ..) hStop time regular.sound
      obtain ⟨hBooks, hOnward, hCovered⟩ := books.alight rfl
        (hDerives.stop_lt regular.sound.toLinked regular.legs) hDerives
        (books.records.lt_unreached regular.modest regular.time hDerives hRounds)
      refine ⟨_, Checked.bind_eq_ok_iff.mpr ⟨left, hLeft, rfl⟩, hBooks, hOnward, ?_⟩
      intro boarded hSame other later hOther hLater
      cases hSame
      obtain ⟨found, hFound, rfl, -⟩ := Ride.alightTime_eq_ok_iff.mp hLeft
      rw [hStop, Except.ok.injEq] at hOther
      rw [hFound, Except.ok.injEq] at hLater
      exact hOther ▸ hLater ▸ hCovered

/-- After a change the search is on the best trip there is to be on. -/
theorem change (books : Books problem time state) (sound : table.Sound)
    (hStop : table.stopAt position = .ok stop)
    (hRest : ∀ later ∈ rest, problem.direction.Precedes position later)
    (hRide : ∀ on, ride = some on → OnBoard problem table state.arrivals state.round rest on) :
    ∃ change, state.change problem table position stop ride = .ok change ∧
      (∀ on, change = some on → OnBoard problem table state.arrivals state.round rest on) ∧
      (∀ on, ride = some on → ∃ better, change = some better ∧
        problem.direction.tripCriterion better.trip ≤ problem.direction.tripCriterion on.trip) ∧
      ∀ trip, Catches problem table state position trip → ∃ better, change = some better ∧
        problem.direction.tripCriterion better.trip ≤ problem.direction.tripCriterion trip := by
  have hPosition := TripTable.lt_numStops_of_stopAt hStop
  cases hLast : state.lastId? stop with
  | none =>
      refine ⟨ride, by simp [State.change, State.lastArrival?, hLast], hRide,
        fun on hOn => ⟨on, hOn, Int.le_refl _⟩, ?_⟩
      rintro trip ⟨id, source, boardedAt, hHeld, -, hOrigin, -⟩
      rw [hStop, Except.ok.injEq] at hOrigin
      rw [← hOrigin, hLast] at hHeld
      cases hHeld
  | some id =>
      obtain ⟨source, hSource, rfl, hRound⟩ := books.held_last hLast
      have hFrom : state.lastArrival? source.stop = some (id, source) := by
        simp only [State.lastArrival?, hLast, hSource, Option.map_some]
      obtain ⟨result, hResult, hChange⟩ := State.exists_change sound.toShaped hPosition hFrom
        fun on hOn => (hRide on hOn).lt_numTrips
      refine ⟨result <|> ride, hChange, ?_, fun on => change_no_later sound hPosition hResult, ?_⟩
      · intro on hOn
        cases result with
        | none => exact hRide on hOn
        | some better =>
            cases hOn
            exact ⟨position, id, source, _, hStop, hSource, hRound, hResult, hRest⟩
      · rintro trip ⟨held, found, boardedAt, hHeld, hFound, hOrigin, hRuns, hTime, hReady⟩
        rw [hStop, Except.ok.injEq] at hOrigin
        rw [← hOrigin, hLast, Option.some.injEq] at hHeld
        rw [← hHeld, hSource, Option.some.injEq] at hFound
        subst hFound
        exact change_least sound hPosition hResult hRuns hTime hReady

/-- Passing positions makes up for leaving the trip the search is on, or could get on, at every
later one of them. The induction is on the positions still to be passed. -/
theorem pass {positions : List Nat} (ride : Option Ride) (books : Books problem time state)
    (regular : problem.Regular time)
    (hRounds : state.round ≤ Request.maxSupportedTransfers + 1)
    (hTable : problem.day.network.tripTable pattern = .ok table)
    (hActive : problem.day.activePatterns.contains pattern = true)
    (hOrder : positions.Pairwise problem.direction.Precedes)
    (hInside : ∀ position ∈ positions, position < table.numStops)
    (hRide : ∀ on, ride = some on → OnBoard problem table state.arrivals state.round positions on) :
    ∃ after, State.pass problem table positions ride state = .ok after ∧
      Books problem time after ∧ Onward problem state after ∧
      (∀ on, ride = some on → ∀ trip,
        problem.direction.tripCriterion on.trip ≤ problem.direction.tripCriterion trip →
        ∀ second ∈ positions,
          problem.AlightingCovered after.found state.round table trip second) ∧
      ∀ before first later, positions = before ++ first :: later → ∀ trip,
        Catches problem table state first trip → ∀ second ∈ later,
          problem.AlightingCovered after.found state.round table trip second := by
  induction positions generalizing state ride with
  | nil => exact ⟨state, rfl, books, Onward.refl .., by simp, by simp⟩
  | cons position rest ih =>
      have sound := regular.sound.table hTable
      obtain ⟨hFirst, hOrder⟩ := List.pairwise_cons.mp hOrder
      obtain ⟨stop, hStop⟩ := TripTable.exists_stopAt (hInside position (List.mem_cons_self ..))
      obtain ⟨next, hNext, hBooks, hOnward, hHere⟩ :=
        books.passOnBoard regular hRounds hTable hActive hStop hRide
      have hStay : ∀ on, ride = some on → OnBoard problem table next.arrivals next.round rest on := by
        intro on hOn
        exact hOnward.round ▸ ((hRide on hOn).mono hOnward.arrivals).tail
      obtain ⟨change, hChange, hOnBoard, hKept, hCaught⟩ := hBooks.change sound hStop hFirst hStay
      obtain ⟨after, hAfter, hBooksAfter, hOnwardAfter, hRidden, hBoarded⟩ :=
        ih _ hBooks (hOnward.round ▸ hRounds) hOrder
          (fun later hLater => hInside later (List.mem_cons_of_mem _ hLater)) hOnBoard
      rw [hOnward.round] at hRidden hBoarded
      refine ⟨after, (State.pass_cons hStop hNext hChange).trans hAfter, hBooksAfter,
        hOnward.trans hOnwardAfter, ?_, ?_⟩
      · intro on hOn trip hTrip second hSecond
        rcases List.mem_cons.mp hSecond with rfl | hSecond
        · exact ((hHere on hOn).mono hOnwardAfter.found).of_tripCriterion_le sound hTrip
            (hRide on hOn).lt_numTrips
        · obtain ⟨better, hBetter, hLe⟩ := hKept on hOn
          exact hRidden better hBetter trip (by omega) second hSecond
      · intro before first later hSplit trip hCatches second hSecond
        cases before with
        | nil =>
            rw [List.nil_append, List.cons.injEq] at hSplit
            obtain ⟨rfl, rfl⟩ := hSplit
            obtain ⟨better, hBetter, hLe⟩ := hCaught trip (hCatches.onward hOnward)
            exact hRidden better hBetter trip hLe second hSecond
        | cons _ before =>
            rw [List.cons_append, List.cons.injEq] at hSplit
            exact hBoarded before first later hSplit.2 trip (hCatches.onward hOnward) second hSecond

/-- Scanning a pattern makes up for every ride along it after the records to go on from. -/
theorem scan (books : Books problem time state) (regular : problem.Regular time)
    (hRounds : state.round ≤ Request.maxSupportedTransfers + 1)
    (hTable : problem.day.network.tripTable pattern = .ok table)
    (hActive : problem.day.activePatterns.contains pattern = true) :
    ∃ after, State.scan problem table state = .ok after ∧
      Books problem time after ∧ Onward problem state after ∧
      ∀ first second trip, Catches problem table state first trip →
        problem.direction.Precedes first second → second < table.numStops →
          problem.AlightingCovered after.found state.round table trip second := by
  obtain ⟨after, hAfter, hBooks, hOnward, -, hBoarded⟩ :=
    books.pass none regular hRounds hTable hActive
      (Direction.positions_pairwise problem.direction table.numStops)
      (fun position hPosition => Direction.mem_positions.mp hPosition) (by simp)
  refine ⟨after, hAfter, hBooks, hOnward, fun first second trip hCatches hOrder hSecond => ?_⟩
  obtain ⟨id, source, boardedAt, -, -, hOrigin, -⟩ := id hCatches
  obtain ⟨before, later, hSplit, hLater⟩ := Direction.positions_eq_append
    (TripTable.lt_numStops_of_stopAt hOrigin) hSecond hOrder
  exact hBoarded before first later hSplit trip hCatches second hLater

/-- The scans of a round keep the books and gain records of the round only. -/
theorem scanAll (books : Books problem time state) (regular : problem.Regular time)
    (hRounds : state.round ≤ Request.maxSupportedTransfers + 1) {patterns : List Nat}
    (hPatterns : ∀ pattern ∈ patterns, problem.day.activePatterns.contains pattern = true ∧
      pattern < problem.day.network.numPatterns) :
    ∃ after, (strategy problem).scanAll problem.day.network patterns state = .ok after ∧
      Books problem time after ∧ Onward problem state after ∧
      ∀ pattern ∈ patterns, ∀ table, problem.day.network.tripTable pattern = .ok table →
        ∀ first second trip, Catches problem table state first trip →
          problem.direction.Precedes first second → second < table.numStops →
            problem.AlightingCovered after.found state.round table trip second := by
  obtain ⟨after, hAfter, ⟨hBooks, hOnward⟩, hCovered⟩ := regular.exists_scanAll (strategy problem)
    State.found (fun next => Books problem time next ∧ Onward problem state next)
    (fun table => Catches problem table state) state.round hPatterns
    (fun hTable hActive ⟨hBooks, hOnward⟩ => by
      obtain ⟨after, hAfter, hBooksAfter, hOnwardAfter, hCovered⟩ :=
        hBooks.scan regular (hOnward.round ▸ hRounds) hTable hActive
      exact ⟨after, hAfter, ⟨hBooksAfter, hOnward.trans hOnwardAfter⟩, hOnwardAfter.found,
        fun first second trip hCatches => hOnward.round ▸
          hCovered first second trip (hCatches.onward hOnward)⟩)
    ⟨books, Onward.refl problem state⟩
  exact ⟨after, hAfter, hBooks, hOnward, hCovered⟩

end Books

end JourneyPlanner.Search.Standard
