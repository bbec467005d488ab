import JourneyPlanner.Proofs.Scanning.BestTimes
import JourneyPlanner.Proofs.Scanning.Each
import JourneyPlanner.Proofs.Search.Tables

/-! Riding along a pattern on one trip at a time against trying every boarding. The search leaves
only rides that would be tried, and whatever is tried is bettered at the same stop by the trip it is
on there, since it never changes to a later one. Main statement: the best times come out the same. -/
namespace JourneyPlanner.Search.Standard

variable {problem : Problem} {table : TripTable} {state : State}

/-- A search for the best time gets on after the best arrival of the last round at a stop. -/
def manner (problem : Problem) (table : TripTable) : Manner State :=
  { sources := fun state stop => (state.lastArrival? stop).toList
    leave := fun stop ride time state => state.alight problem table.pattern stop ride time }

namespace State

variable {pattern stop : Nat} {ride : Ride} {time : Int}

/-- Leaving a ride only adds a record of this round. -/
theorem onward_alight (problem : Problem) (state : State) (pattern stop : Nat) (ride : Ride)
    (time : Int) : Onward problem state (state.alight problem pattern stop ride time) := by
  have hNew : ∀ other ∈ (state.arrivals.push
      (ride.arrival problem state.round pattern stop time)).toList,
      other ∈ state.arrivals.toList ∨ other.round = state.round := fun other hOther =>
    (Arrivals.mem_push.mp hOther).imp id (by rintro rfl; rfl)
  unfold alight
  split
  swap
  · exact Onward.refl ..
  split
  · exact Onward.refl ..
  rename_i best hBest
  obtain ⟨-, rfl⟩ := BestTimes.improveTransit?_eq_some_iff.mp hBest
  dsimp only
  split
  · exact ⟨rfl, rfl, rfl, rfl, rfl, Arrivals.extends_push _ _, hNew⟩
  · rename_i better hBetter
    obtain ⟨-, rfl⟩ := BestTimes.improve?_eq_some_iff.mp hBetter
    exact ⟨rfl, rfl, rfl, rfl, rfl, Arrivals.extends_push _ _, hNew⟩

/-- Leaving a ride changes the best times, unless the destination cannot be improved from there. -/
theorem best_alight (problem : Problem) (state : State) (pattern stop : Nat) (ride : Ride)
    (time : Int) :
    (state.alight problem pattern stop ride time).best =
      if state.canImproveDestination problem time then
        state.best.leaveAt problem.direction (stop, time)
      else state.best := by
  unfold alight BestTimes.leaveAt
  split
  · cases state.best.improveTransit? problem.direction stop time with
    | none => rfl
    | some best =>
        cases hBest : best.improve? problem.direction stop time with
        | none => simp only [hBest, Option.getD_none]
        | some better => simp only [hBest, Option.getD_some]
  · rfl

end State

/-- Leaving rides in turn only gains records of the round. -/
theorem onward_leaveAll (problem : Problem) (table : TripTable) (alightings : List Alighting)
    (state : State) : Onward problem state ((manner problem table).leaveAll alightings state) :=
  Manner.leaveAll_induction
    (fun _ _ next (hNext : Onward problem state next) => hNext.trans (State.onward_alight ..))
    (Onward.refl ..)

def offersOf (problem : Problem) (state : State) (alightings : List Alighting) :
    List (Nat × Int) :=
  (alightings.filter fun alighting =>
    state.canImproveDestination problem alighting.time).map
      fun alighting => (alighting.stop, alighting.time)

/-- Leaving rides in turn offers their times. -/
theorem best_leaveAll (problem : Problem) (table : TripTable) (alightings : List Alighting)
    (state : State) :
    ((manner problem table).leaveAll alightings state).best =
      (offersOf problem state alightings).foldl
        (BestTimes.leaveAt problem.direction) state.best := by
  induction alightings generalizing state with
  | nil => rfl
  | cons first rest ih =>
      have hOnward := state.onward_alight problem table.pattern first.stop first.ride first.time
      have hSame : ∀ time, (state.alight problem table.pattern first.stop first.ride
          first.time).canImproveDestination problem time =
            state.canImproveDestination problem time := by
        intro time
        rw [State.canImproveDestination, hOnward.destinationTime, State.canImproveDestination]
      have hOffers : offersOf problem
          (state.alight problem table.pattern first.stop first.ride first.time) rest =
            offersOf problem state rest := by
        simp only [offersOf, hSame]
      refine (ih (state.alight problem table.pattern first.stop first.ride first.time)).trans ?_
      rw [hOffers, State.best_alight]
      cases hImproves : state.canImproveDestination problem first.time with
      | true => simp [offersOf, hImproves]
      | false => simp [offersOf, hImproves]

/-- The first of two rides is left at the stop of the second, and no later. -/
def Betters (direction : Direction) (better other : Alighting) : Prop :=
  better.stop = other.stop ∧
    direction.timeCriterion better.time ≤ direction.timeCriterion other.time

/-- Alightings that are bettered by others can be left out. -/
theorem best_leaveAll_eq_of_covered
    (inOrder : state.best.InOrder problem.direction problem.numStops)
    {alightings others : List Alighting} (hStops : ∀ other ∈ others, other.stop < problem.numStops)
    (hSubset : ∀ alighting ∈ alightings, alighting ∈ others)
    (hCovered : ∀ other ∈ others, ∃ better ∈ alightings,
      Betters problem.direction better other) :
    ((manner problem table).leaveAll alightings state).best =
      ((manner problem table).leaveAll others state).best := by
  have hMemOf : ∀ {list : List Alighting} {offer : Nat × Int},
      offer ∈ offersOf problem state list ↔ ∃ alighting ∈ list,
        state.canImproveDestination problem alighting.time = true ∧
          (alighting.stop, alighting.time) = offer := by
    simp [offersOf, and_assoc]
  rw [best_leaveAll, best_leaveAll]
  refine inOrder.foldl_eq_of_covered ?_ ?_ ?_
  · intro offer hOffer
    obtain ⟨other, hOther, -, rfl⟩ := hMemOf.mp hOffer
    exact hStops other hOther
  · intro offer hOffer
    obtain ⟨alighting, hAlighting, hImproves, rfl⟩ := hMemOf.mp hOffer
    exact hMemOf.mpr ⟨alighting, hSubset alighting hAlighting, hImproves, rfl⟩
  · intro offer hOffer
    obtain ⟨other, hOther, hImproves, rfl⟩ := hMemOf.mp hOffer
    obtain ⟨better, hBetter, hStop, hLe⟩ := hCovered other hOther
    refine ⟨(better.stop, better.time), hMemOf.mpr ⟨better, hBetter, ?_, rfl⟩, hStop, hLe⟩
    rw [State.canImproveDestination, Direction.isBetter_iff] at hImproves ⊢
    omega

def State.Held (state : State) : Prop :=
  ∀ stop id, state.lastId? stop = some id → ∃ arrival, state.arrivals.get? id = some arrival

theorem Onward.held {after : State} (onward : Onward problem state after) (held : state.Held) :
    after.Held := by
  intro stop id hLast
  obtain ⟨arrival, hArrival⟩ := held stop id (onward.lastId? stop ▸ hLast)
  exact ⟨arrival, onward.arrivals _ _ hArrival⟩

/-- Within a round the arrivals to go on from stay the same. -/
theorem Onward.lastArrival?_eq {after : State} (onward : Onward problem state after)
    (held : state.Held) (stop : Nat) : after.lastArrival? stop = state.lastArrival? stop := by
  rw [State.lastArrival?, onward.lastId?, State.lastArrival?]
  cases hLast : state.lastId? stop with
  | none => rfl
  | some id =>
      obtain ⟨arrival, hArrival⟩ := held stop id hLast
      simp only [hArrival, onward.arrivals _ _ hArrival]

/-- The ride was got on ahead of all these positions. -/
def Underway (problem : Problem) (table : TripTable) (positions : List Nat) (ride : Ride) : Prop :=
  ∃ first stop id arrival, first < table.numStops ∧
    board? problem table first stop id arrival none = .ok (some ride) ∧
    ∀ position ∈ positions, problem.direction.Precedes first position

namespace Underway

variable {position : Nat} {rest : List Nat} {ride : Ride}

theorem tail (h : Underway problem table (position :: rest) ride) :
    Underway problem table rest ride := by
  obtain ⟨first, stop, id, arrival, hFirst, hBoard, hOrder⟩ := h
  exact ⟨first, stop, id, arrival, hFirst, hBoard, fun later hLater =>
    hOrder later (List.mem_cons_of_mem _ hLater)⟩

theorem lt_numTrips {positions : List Nat} (h : Underway problem table positions ride) :
    ride.trip < table.numTrips := by
  obtain ⟨first, stop, id, arrival, hFirst, hBoard, hOrder⟩ := h
  exact (boarded_of_board? hBoard).runs.lt_numTrips

/-- A ride under way can be left at every stop still ahead. -/
theorem exists_alightTime (sound : table.Sound)
    (h : Underway problem table (position :: rest) ride) (hPosition : position < table.numStops) :
    ∃ left, ride.alightTime problem table position = .ok left := by
  obtain ⟨first, stop, id, arrival, hFirst, hBoard, hOrder⟩ := h
  exact exists_alightTime_of_board? sound hBoard (hOrder position (List.mem_cons_self ..)) hFirst
    hPosition

end Underway

/-- The ride on board is left at one of some positions, or one that would be tried. -/
def Due (problem : Problem) (table : TripTable) (last : Nat → Option (Nat × Arrival))
    (positions : List Nat) (ride : Option Ride) (alighting : Alighting) : Prop :=
  (∃ on, ride = some on ∧ on.LeftAt problem table positions alighting) ∨
    Tried problem table (fun stop => (last stop).toList) positions alighting

/-- A trip that does not come before the one on board is left at one of some positions, or one that
would be tried. -/
def Rivals (problem : Problem) (table : TripTable) (last : Nat → Option (Nat × Arrival))
    (positions : List Nat) (ride : Option Ride) (other : Alighting) : Prop :=
  (∃ on, ride = some on ∧ problem.direction.tripCriterion on.trip ≤
      problem.direction.tripCriterion other.ride.trip ∧
      other.ride.LeftAt problem table positions other) ∨
    Tried problem table (fun stop => (last stop).toList) positions other

/-- A change at a position is to a trip that would be tried there. It leaves the search on one that
comes no later than the trip before, and than any that would be tried. -/
structure Changed (problem : Problem) (table : TripTable) (position stop : Nat)
    (source : Option (Nat × Arrival)) (ride change : Option Ride) : Prop where
  tried : change = ride ∨ ∃ entry on, source = some entry ∧ change = some on ∧
    board? problem table position stop entry.1 entry.2 none = .ok (some on)
  kept : ∀ on, ride = some on → ∃ better, change = some better ∧
    problem.direction.tripCriterion better.trip ≤ problem.direction.tripCriterion on.trip
  caught : ∀ entry, source = some entry → ∀ on,
    board? problem table position stop entry.1 entry.2 none = .ok (some on) →
      ∃ better, change = some better ∧
        problem.direction.tripCriterion better.trip ≤ problem.direction.tripCriterion on.trip

namespace Changed

variable {last : Nat → Option (Nat × Arrival)} {position stop : Nat} {rest : List Nat}
  {ride change : Option Ride} {alighting : Alighting}
  (changed : Changed problem table position stop (last stop) ride change)
  (hStop : table.stopAt position = .ok stop)

include changed

/-- The ride after a change was got on ahead of the positions to come. -/
theorem underway (hPosition : position < table.numStops)
    (hFirst : ∀ later ∈ rest, problem.direction.Precedes position later)
    (hRide : ∀ on, ride = some on → Underway problem table (position :: rest) on) :
    ∀ on, change = some on → Underway problem table rest on := by
  rintro on rfl
  rcases changed.tried with hSame | ⟨entry, better, hEntry, hBetter, hBoard⟩
  · exact (hRide on hSame.symm).tail
  · cases hBetter
    exact ⟨position, stop, entry.1, entry.2, hPosition, hBoard, hFirst⟩

include hStop

/-- What is due after a change was due before it. -/
theorem due (h : Due problem table last rest change alighting) :
    Due problem table last (position :: rest) ride alighting := by
  rcases h with ⟨on, rfl, hLeft⟩ | hTried
  · rcases changed.tried with hSame | ⟨entry, better, hEntry, hBetter, hBoard⟩
    · obtain ⟨hRide, second, hSecond, hAt⟩ := hLeft
      exact Or.inl ⟨on, hSame.symm, hRide, second, List.mem_cons_of_mem _ hSecond, hAt⟩
    · cases hBetter
      exact Or.inr (.here hStop (by simp [hEntry]) hBoard hLeft)
  · exact Or.inr hTried.later

/-- A rival before a change is left at the position itself, or is one after the change. -/
theorem rivals (h : Rivals problem table last (position :: rest) ride alighting) :
    (∃ on, ride = some on ∧ problem.direction.tripCriterion on.trip ≤
        problem.direction.tripCriterion alighting.ride.trip ∧
        table.stopAt position = .ok alighting.stop ∧
        alighting.ride.alightTime problem table position = .ok alighting.time) ∨
      Rivals problem table last rest change alighting := by
  rcases h with ⟨on, hOn, hTrip, hSame, second, hSecond, hLeft⟩ | hTried
  · rcases List.mem_cons.mp hSecond with rfl | hSecond
    · exact Or.inl ⟨on, hOn, hTrip, hLeft⟩
    · obtain ⟨better, hBetter, hLe⟩ := changed.kept on hOn
      exact Or.inr (Or.inl ⟨better, hBetter, Int.le_trans hLe hTrip, hSame, second, hSecond, hLeft⟩)
  · cases hTried with
    | here hAt hSource hBoard hLeft =>
        rw [hStop, Except.ok.injEq] at hAt
        subst hAt
        obtain ⟨rfl, hLeftAt⟩ := hLeft
        obtain ⟨better, hBetter, hLe⟩ := changed.caught _ (Option.mem_toList.mp hSource) _ hBoard
        exact Or.inr (Or.inl ⟨better, hBetter, hLe, rfl, hLeftAt⟩)
    | later hLater => exact Or.inr (Or.inr hLater)

end Changed

section Pass

variable (sound : table.Sound) {position stop : Nat}

include sound

/-- Passing a position on board leaves the ride there. -/
theorem exists_passOnBoard (state : State) {rest : List Nat} {ride : Option Ride}
    (hStop : table.stopAt position = .ok stop)
    (hRide : ∀ on, ride = some on → Underway problem table (position :: rest) on) :
    ∃ here,
      state.passOnBoard problem table position stop ride =
        .ok ((manner problem table).leaveAll here state) ∧
      ∀ alighting, alighting ∈ here ↔
        ∃ on, ride = some on ∧ on.LeftAt problem table [position] alighting := by
  cases ride with
  | none => exact ⟨[], rfl, by simp⟩
  | some on =>
      obtain ⟨left, hLeft⟩ := (hRide on rfl).exists_alightTime sound
        (TripTable.lt_numStops_of_stopAt hStop)
      refine ⟨[⟨stop, on, left⟩], Checked.bind_eq_ok_iff.mpr ⟨left, hLeft, rfl⟩, ?_⟩
      rintro ⟨target, other, time⟩
      simp only [List.mem_singleton, Alighting.mk.injEq, Option.some.injEq, exists_eq_left',
        Ride.LeftAt, exists_eq_left, hStop, hLeft, Except.ok.injEq]
      constructor
      · rintro ⟨rfl, rfl, rfl⟩
        exact ⟨rfl, rfl, rfl⟩
      · rintro ⟨rfl, rfl, rfl⟩
        exact ⟨rfl, rfl, rfl⟩

/-- At a position the search changes to the best trip that would be tried there, or stays on. -/
theorem exists_changed (state : State) {rest : List Nat} {ride : Option Ride}
    (hStop : table.stopAt position = .ok stop)
    (hRide : ∀ on, ride = some on → Underway problem table rest on) :
    ∃ change, state.change problem table position stop ride = .ok change ∧
      Changed problem table position stop (state.lastArrival? stop) ride change := by
  have hPosition := TripTable.lt_numStops_of_stopAt hStop
  cases hLast : state.lastArrival? stop with
  | none =>
      exact ⟨ride, by rw [State.change, hLast], Or.inl rfl, fun on hOn => ⟨on, hOn, Int.le_refl _⟩,
        by simp⟩
  | some source =>
      obtain ⟨result, hResult, hChange⟩ := State.exists_change sound.toShaped hPosition hLast
        fun on hOn => (hRide on hOn).lt_numTrips
      refine ⟨result <|> ride, hChange, ?_, fun on => change_no_later sound hPosition hResult, ?_⟩
      · cases result with
        | none => exact Or.inl rfl
        | some on => exact Or.inr ⟨source, on, rfl, rfl, board?_unbounded sound hPosition hResult⟩
      · intro same hSame on hBoard
        cases hSame
        obtain ⟨trip, time, hTrip, hTime, rfl⟩ := board?_eq_some_iff.mp hBoard
        have hCatch := sound.of_boardable hPosition hTrip
        obtain ⟨found, hFound, hReady⟩ := hCatch.inTime
        exact change_least sound hPosition hResult hCatch.runs hFound hReady

/-- On a sound table a trip that does not come after another is left no later than it. -/
theorem alightTime_le {on other : Ride} {position : Nat} {left later : Int}
    (hTrip : problem.direction.tripCriterion on.trip ≤ problem.direction.tripCriterion other.trip)
    (hPosition : position < table.numStops)
    (hLeft : on.alightTime problem table position = .ok left)
    (hLater : other.alightTime problem table position = .ok later) :
    problem.direction.timeCriterion left ≤ problem.direction.timeCriterion later := by
  obtain ⟨time, hTime, rfl, -⟩ := Ride.alightTime_eq_ok_iff.mp hLeft
  obtain ⟨otherTime, hOtherTime, rfl, -⟩ := Ride.alightTime_eq_ok_iff.mp hLater
  exact sound.alightTime_le_of_tripCriterion_le hTrip hPosition hTime hOtherTime

/-- Passing positions leaves only what is due, and whatever rivals it is bettered. The induction is
on the positions still to be passed. -/
theorem exists_pass {last : Nat → Option (Nat × Arrival)} {positions : List Nat}
    {ride : Option Ride} (held : state.Held) (hLast : ∀ stop, state.lastArrival? stop = last stop)
    (hOrder : positions.Pairwise problem.direction.Precedes)
    (hInside : ∀ position ∈ positions, position < table.numStops)
    (hRide : ∀ on, ride = some on → Underway problem table positions on) :
    ∃ alightings,
      State.pass problem table positions ride state =
        .ok ((manner problem table).leaveAll alightings state) ∧
      (∀ alighting ∈ alightings, Due problem table last positions ride alighting) ∧
      ∀ other, Rivals problem table last positions ride other →
        ∃ better ∈ alightings, Betters problem.direction better other := by
  induction positions generalizing state ride with
  | nil =>
      refine ⟨[], rfl, by simp, ?_⟩
      rintro other (⟨on, -, -, -, position, hMem, -⟩ | hTried)
      · cases hMem
      · cases hTried
  | cons position rest ih =>
      obtain ⟨hFirst, hOrder⟩ := List.pairwise_cons.mp hOrder
      obtain ⟨hPosition, hInside⟩ := List.forall_mem_cons.mp hInside
      obtain ⟨stop, hStop⟩ := TripTable.exists_stopAt hPosition
      obtain ⟨here, hHere, hMemHere⟩ := exists_passOnBoard sound state hStop hRide
      have onward := onward_leaveAll problem table here state
      have hNextLast : ∀ stop,
          ((manner problem table).leaveAll here state).lastArrival? stop = last stop :=
        fun stop => (onward.lastArrival?_eq held stop).trans (hLast stop)
      obtain ⟨change, hChange, changed⟩ := exists_changed sound
        ((manner problem table).leaveAll here state) hStop fun on hOn => (hRide on hOn).tail
      rw [hNextLast] at changed
      obtain ⟨others, hOthers, hDue, hBettered⟩ := ih (onward.held held) hNextLast hOrder hInside
        (changed.underway hPosition hFirst hRide)
      refine ⟨here ++ others, ?_, fun alighting hMem => ?_, fun other hRivals => ?_⟩
      · rw [Manner.leaveAll_append]
        exact (State.pass_cons hStop hHere hChange).trans hOthers
      · rcases List.mem_append.mp hMem with hNow | hLater
        · obtain ⟨on, hOn, hSame, second, hSecond, hLeft⟩ := (hMemHere alighting).mp hNow
          obtain rfl := List.mem_singleton.mp hSecond
          exact Or.inl ⟨on, hOn, hSame, second, List.mem_cons_self .., hLeft⟩
        · exact changed.due hStop (hDue alighting hLater)
      · rcases changed.rivals hStop hRivals with ⟨on, hOn, hTrip, hAt, hLeft⟩ | hLater
        · obtain ⟨left, hOnLeft⟩ := (hRide on hOn).exists_alightTime sound hPosition
          exact ⟨⟨other.stop, on, left⟩, List.mem_append_left _ ((hMemHere _).mpr
            ⟨on, hOn, rfl, position, List.mem_singleton_self _, hAt, hOnLeft⟩), rfl,
            alightTime_le sound hTrip hPosition hOnLeft hLeft⟩
        · obtain ⟨better, hBetter, hBetters⟩ := hBettered other hLater
          exact ⟨better, List.mem_append_right _ hBetter, hBetters⟩

end Pass

/-- Accounts in order have room for all stops, and lead to records. -/
theorem Accounts.inOrder {round : Nat} (accounts : Accounts problem round state) :
    state.best.InOrder problem.direction problem.numStops :=
  ⟨accounts.best.size_times, accounts.byTransit.size_times, accounts.best.marked.size_marks,
    accounts.byTransit.marked.size_marks, fun stop =>
      Direction.isBetter_eq_false_iff.mp (accounts.sumsUp.time_no_worse stop)⟩

theorem Accounts.held {round : Nat} (accounts : Accounts problem round state) : state.Held := by
  intro stop id hLast
  obtain ⟨arrival, hArrival, -⟩ := accounts.lastStandings.held hLast
  exact ⟨arrival, hArrival⟩

/-- Riding along a pattern on one trip at a time leaves the best times that trying every boarding
does. -/
theorem Accounts.exists_scans {round : Nat} (accounts : Accounts problem round state)
    (sound : table.Sound)
    (hStops : ∀ {position stop}, table.stopAt position = .ok stop → stop < problem.numStops) :
    ∃ after each, State.scan problem table state = .ok after ∧
      scanEach problem table (manner problem table)
        (problem.direction.positions table.numStops) state = .ok each ∧
      after.best = each.best := by
  have hOrder := Direction.positions_pairwise problem.direction table.numStops
  have hInside : ∀ position ∈ problem.direction.positions table.numStops,
      position < table.numStops := fun position hPosition => Direction.mem_positions.mp hPosition
  obtain ⟨alightings, hScan, hDue, hBettered⟩ := @exists_pass problem table state sound
    state.lastArrival? _ none accounts.held (fun _ => rfl) hOrder hInside (by simp)
  obtain ⟨others, hEach, hMem⟩ := exists_scanEach sound (manner problem table)
    (fun next (onward : Onward problem state next) => funext fun stop =>
      congrArg Option.toList (onward.lastArrival?_eq accounts.held stop))
    hOrder hInside (fun alighting _ next onward => onward.trans (State.onward_alight ..))
    (Onward.refl ..)
  refine ⟨_, _, hScan, hEach, best_leaveAll_eq_of_covered accounts.inOrder ?_ ?_ ?_⟩
  · intro other hOther
    obtain ⟨position, hStop⟩ := ((hMem other).mp hOther).exists_stopAt
    exact hStops hStop
  · intro alighting hAlighting
    rcases hDue alighting hAlighting with ⟨on, hOn, -⟩ | h
    · cases hOn
    · exact (hMem alighting).mpr h
  · exact fun other hOther => hBettered other (Or.inr ((hMem other).mp hOther))

end JourneyPlanner.Search.Standard
