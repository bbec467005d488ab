import JourneyPlanner.Proofs.Search.MultiCriteria.Phases
import Mathlib.Data.List.Basic

/-! A round as a list of offers. What a round goes on from does not change while it runs, so the
arrivals that riding and walking make of it can be listed first and recorded afterwards. Main
statements: on a sound network scanning is never given up, whatever the size of the numbers, and
scanning and walking are recording the arrivals of such lists. -/
namespace JourneyPlanner.Search.MultiCriteria

variable {problem : Problem} {time : Int} {state : State} {table : TripTable}

namespace State

def sources (state : State) (stop : Nat) : List (Nat × Arrival) :=
  if state.reachedLast.contains stop then state.arrivalsAt stop (state.round - 1) else []

theorem boardingsAt_eq (problem : Problem) (table : TripTable) (position stop : Nat)
    (state : State) :
    state.boardingsAt problem table position stop =
      boardings problem table position stop (state.sources stop) := by
  unfold boardingsAt sources
  split
  · rfl
  · rfl

end State

/-- The arrivals made by passing positions of a pattern in order, on a front of rides, if these
are the arrivals to go on from. -/
def passOffers (problem : Problem) (table : TripTable) (round : Nat)
    (sources : Nat → List (Nat × Arrival)) :
    List Nat → Front Ride → Checked (List Arrival)
  | [], _ => .ok []
  | position :: rest, rides => do
    let stop ← table.stopAt position
    let arrivals ← State.alightings problem table round position stop rides.items
    let boarded ← State.boardings problem table position stop (sources stop)
    let others ← passOffers problem table round sources rest
      (rides.offerAll rideRules (boarded.map (rideEntry problem.direction)))
    return arrivals ++ others

/-- At a position the rides on board are left, and the rest is passed with those got on as well. -/
theorem passOffers_cons_eq_ok_iff {round position : Nat} {rest : List Nat}
    {sources : Nat → List (Nat × Arrival)} {rides : Front Ride} {offers : List Arrival} :
    passOffers problem table round sources (position :: rest) rides = .ok offers ↔
      ∃ stop arrivals boarded others, table.stopAt position = .ok stop ∧
        State.alightings problem table round position stop rides.items = .ok arrivals ∧
        State.boardings problem table position stop (sources stop) = .ok boarded ∧
        passOffers problem table round sources rest
          (rides.offerAll rideRules (boarded.map (rideEntry problem.direction))) = .ok others ∧
        arrivals ++ others = offers := by
  rw [passOffers]
  constructor
  · intro h
    obtain ⟨stop, hStop, h⟩ := Checked.bind_eq_ok_iff.mp h
    obtain ⟨arrivals, hArrivals, h⟩ := Checked.bind_eq_ok_iff.mp h
    obtain ⟨boarded, hBoarded, h⟩ := Checked.bind_eq_ok_iff.mp h
    obtain ⟨others, hOthers, h⟩ := Checked.bind_eq_ok_iff.mp h
    exact ⟨stop, arrivals, boarded, others, hStop, hArrivals, hBoarded, hOthers, Except.ok.inj h⟩
  · rintro ⟨stop, arrivals, boarded, others, hStop, hArrivals, hBoarded, hOthers, rfl⟩
    exact Checked.bind_eq_ok_iff.mpr ⟨stop, hStop,
      Checked.bind_eq_ok_iff.mpr ⟨arrivals, hArrivals,
        Checked.bind_eq_ok_iff.mpr ⟨boarded, hBoarded,
          Checked.bind_eq_ok_iff.mpr ⟨others, hOthers, rfl⟩⟩⟩⟩

def scanOffers (problem : Problem) (round : Nat) (sources : Nat → List (Nat × Arrival))
    (table : TripTable) : Checked (List Arrival) :=
  passOffers problem table round sources (problem.direction.positions table.numStops) Front.empty

def rideOffers (problem : Problem) (round : Nat) (sources : Nat → List (Nat × Arrival)) :
    List Nat → Checked (List Arrival)
  | [] => .ok []
  | pattern :: rest => do
    let table ← problem.day.network.tripTable pattern
    let arrivals ← scanOffers problem round sources table
    let others ← rideOffers problem round sources rest
    return arrivals ++ others

def walkOffers (problem : Problem) (state : State) : List Arrival :=
  state.walkSources.flatMap fun source =>
    (problem.transfersAt source.2.stop).map
      (problem.walkArrival state.round source.1 source.2)

section Members

variable {position stop round : Nat}

/-- What is offered at a stop is what leaving the rides there makes. -/
theorem mem_of_alightings {rides : List Ride} {arrivals : List Arrival}
    (h : State.alightings problem table round position stop rides = .ok arrivals)
    {arrival : Arrival} :
    arrival ∈ arrivals ↔ ∃ ride ∈ rides, ∃ left,
      ride.alightTime problem table position = .ok left ∧
        arrival = ride.arrival problem round table.pattern stop left := by
  induction rides generalizing arrivals with
  | nil =>
      cases h
      simp
  | cons ride rest ih =>
      obtain ⟨left, hLeft, h⟩ := Checked.bind_eq_ok_iff.mp h
      obtain ⟨others, hOthers, h⟩ := Checked.bind_eq_ok_iff.mp h
      cases h
      simp only [List.mem_cons, exists_eq_or_imp, ih hOthers, hLeft, Except.ok.injEq,
        exists_eq_left']

theorem exists_left_of_alightings {rides : List Ride} {arrivals : List Arrival}
    (h : State.alightings problem table round position stop rides = .ok arrivals) :
    ∀ ride ∈ rides, ∃ left, ride.alightTime problem table position = .ok left := by
  induction rides generalizing arrivals with
  | nil => exact List.forall_mem_nil _
  | cons ride rest ih =>
      obtain ⟨left, hLeft, h⟩ := Checked.bind_eq_ok_iff.mp h
      obtain ⟨others, hOthers, -⟩ := Checked.bind_eq_ok_iff.mp h
      exact List.forall_mem_cons.mpr ⟨⟨left, hLeft⟩, ih hOthers⟩

/-- What is boarded at a stop is what its arrivals can catch. -/
theorem mem_of_boardings {sources : List (Nat × Arrival)} {rides : List Ride}
    (h : State.boardings problem table position stop sources = .ok rides) {ride : Ride} :
    ride ∈ rides ↔ ∃ source ∈ sources,
      board? problem table position stop source.1 source.2 none = .ok (some ride) := by
  induction sources generalizing rides with
  | nil =>
      cases h
      simp
  | cons source rest ih =>
      obtain ⟨result, hResult, h⟩ := Checked.bind_eq_ok_iff.mp h
      obtain ⟨others, hOthers, h⟩ := Checked.bind_eq_ok_iff.mp h
      cases h
      simp only [List.mem_append, Option.mem_toList, List.mem_cons, exists_eq_or_imp, ih hOthers,
        hResult, Except.ok.injEq]

/-- What riding offers comes from the scan of one of the patterns. -/
theorem mem_of_rideOffers {sources : Nat → List (Nat × Arrival)} {patterns : List Nat}
    {offers : List Arrival} (h : rideOffers problem round sources patterns = .ok offers)
    {arrival : Arrival} :
    arrival ∈ offers ↔ ∃ pattern ∈ patterns, ∃ table made,
      problem.day.network.tripTable pattern = .ok table ∧
        scanOffers problem round sources table = .ok made ∧ arrival ∈ made := by
  induction patterns generalizing offers with
  | nil =>
      cases h
      simp
  | cons pattern rest ih =>
      obtain ⟨table, hTable, h⟩ := Checked.bind_eq_ok_iff.mp h
      obtain ⟨made, hMade, h⟩ := Checked.bind_eq_ok_iff.mp h
      obtain ⟨others, hOthers, h⟩ := Checked.bind_eq_ok_iff.mp h
      cases h
      simp only [List.mem_append, List.mem_cons, exists_eq_or_imp, ih hOthers, hTable,
        Except.ok.injEq, exists_and_left, exists_eq_left', hMade]

theorem exists_made_of_rideOffers {sources : Nat → List (Nat × Arrival)} {patterns : List Nat}
    {offers : List Arrival} (h : rideOffers problem round sources patterns = .ok offers) :
    ∀ pattern ∈ patterns, ∃ table made, problem.day.network.tripTable pattern = .ok table ∧
      scanOffers problem round sources table = .ok made := by
  induction patterns generalizing offers with
  | nil => exact List.forall_mem_nil _
  | cons pattern rest ih =>
      obtain ⟨table, hTable, h⟩ := Checked.bind_eq_ok_iff.mp h
      obtain ⟨made, hMade, h⟩ := Checked.bind_eq_ok_iff.mp h
      obtain ⟨others, hOthers, -⟩ := Checked.bind_eq_ok_iff.mp h
      exact List.forall_mem_cons.mpr ⟨⟨table, made, hTable, hMade⟩, ih hOthers⟩

/-- Nothing is offered by a pattern at no stop of which there is an arrival to go on from. -/
theorem exists_source_of_mem {sources : Nat → List (Nat × Arrival)} {positions : List Nat}
    {rides : Front Ride} {offers : List Arrival}
    (h : passOffers problem table round sources positions rides = .ok offers) {arrival : Arrival}
    (hMem : arrival ∈ offers) (hRides : rides.entries = []) :
    ∃ position stop, table.stopAt position = .ok stop ∧ sources stop ≠ [] := by
  induction positions generalizing rides offers with
  | nil =>
      cases h
      cases hMem
  | cons position rest ih =>
      obtain ⟨stop, arrivals, boarded, others, hStop, hArrivals, hBoarded, hOthers, rfl⟩ :=
        passOffers_cons_eq_ok_iff.mp h
      by_cases hSources : sources stop = []
      · rw [hSources] at hBoarded
        cases hBoarded
        rw [Front.items, hRides] at hArrivals
        cases hArrivals
        exact ih hOthers (by simpa using hMem) hRides
      · exact ⟨position, stop, hStop, hSources⟩

end Members

/-- Within a round, a state gains records of that round and goes on from the same arrivals. -/
structure Steady (problem : Problem) (before after : State) : Prop
    extends Onward problem before after where
  arrivalsAt : ∀ stop round, round < before.round →
    after.arrivalsAt stop round = before.arrivalsAt stop round

namespace Steady

variable {first second third : State}

theorem refl (problem : Problem) (state : State) : Steady problem state state :=
  ⟨Onward.refl .., fun _ _ _ => rfl⟩

theorem trans (hFirst : Steady problem first second) (hSecond : Steady problem second third) :
    Steady problem first third :=
  ⟨hFirst.toOnward.trans hSecond.toOnward, fun stop round hRound =>
    (hSecond.arrivalsAt stop round (hFirst.round ▸ hRound)).trans
      (hFirst.arrivalsAt stop round hRound)⟩

/-- Within a round, the arrivals to go on from do not change. -/
theorem sources (steady : Steady problem first second) (hBegun : 0 < first.round) :
    second.sources = first.sources := by
  funext stop
  unfold State.sources
  rw [steady.reachedLast, steady.round, steady.arrivalsAt stop _ (Nat.sub_lt hBegun Nat.one_pos)]

end Steady

structure Offered (problem : Problem) (time : Int) (state : State) (arrival : Arrival) : Prop where
  stop_lt : arrival.stop < problem.numStops
  derives : problem.Derives time state.arrivals arrival
  round : arrival.round = state.round

/-- An offer can be made later in the round as well. -/
theorem Offered.mono {after : State} {arrival : Arrival}
    (offered : Offered problem time state arrival) (onward : Onward problem state after) :
    Offered problem time after arrival :=
  ⟨offered.stop_lt, offered.derives.mono onward.arrivals, offered.round.trans onward.round.symm⟩

namespace State

variable {arrival : Arrival}

theorem arrivalsAt_eq (state : State) (stop round : Nat) :
    state.arrivalsAt stop round = (state.fronts.get stop).entries.filterMap fun entry =>
      ((state.arrivals.get? entry.item).map fun arrival => (entry.item, arrival)).filter
        fun source => source.2.round == round := by
  rw [arrivalsAt, Arrivals.numbered, Front.items, List.filterMap_map, List.filter_filterMap]
  rfl

/-- Adding an arrival changes nothing, or puts a record of it in the front of its stop. -/
theorem add_eq_or (problem : Problem) (state : State) (arrival : Arrival) :
    state.add problem arrival = state ∨ ∃ front,
      (state.fronts.get arrival.stop).offer? stopRules
        { item := state.arrivals.size, criteria := stopCriteria problem.direction arrival } =
          some front ∧
      state.add problem arrival =
        { state with
          arrivals := state.arrivals.push arrival
          fronts := state.fronts.set arrival.stop front
          reachedCurrent := state.reachedCurrent.insert arrival.stop
          reachedByTransit :=
            if arrival.isTransit then state.reachedByTransit.insert arrival.stop
            else state.reachedByTransit } := by
  unfold add keep
  split
  · exact Or.inl rfl
  · dsimp only
    split
    · exact Or.inl rfl
    · rename_i front hFront
      exact Or.inr ⟨front, hFront, rfl⟩

end State

namespace Books

variable {arrival : Arrival}

/-- A new record changes nothing of what earlier rounds left in the fronts. -/
theorem arrivalsAt_add (books : Books problem time state)
    (hArrival : arrival.round = state.round) (stop : Nat) {round : Nat}
    (hRound : round < state.round) :
    (state.add problem arrival).arrivalsAt stop round = state.arrivalsAt stop round := by
  rcases state.add_eq_or problem arrival with hSame | ⟨front, hFront, hAdd⟩
  · rw [hSame]
  rw [hAdd, State.arrivalsAt_eq, State.arrivalsAt_eq]
  have hKept : ∀ {stop}, ∀ entry ∈ (state.fronts.get stop).entries,
      ((state.arrivals.push arrival).get? entry.item).map (fun held => (entry.item, held)) =
        (state.arrivals.get? entry.item).map fun held => (entry.item, held) := by
    intro stop entry hEntry
    obtain ⟨held, hHeld, -⟩ := books.entry hEntry
    rw [hHeld, Arrivals.extends_push _ _ _ _ hHeld]
  dsimp only
  rw [IndexTable.get_set]
  split
  · rename_i hSame
    obtain ⟨rfl, -⟩ := hSame
    rw [Front.eq_insert_of_some hFront, Front.insert, List.filterMap_append,
      List.filterMap_filter]
    have hNew : ((state.arrivals.push arrival).get? state.arrivals.size).map
        (fun held => (state.arrivals.size, held)) = some (state.arrivals.size, arrival) := by
      rw [Arrivals.get?_push_size, Option.map_some]
    simp only [List.filterMap_cons, List.filterMap_nil, hNew, Option.filter_some]
    rw [if_neg (by simp [hArrival]; omega), List.append_nil]
    refine List.filterMap_congr fun entry hEntry => ?_
    obtain ⟨held, hHeld, -, hCriteria⟩ := books.entry hEntry
    rw [hKept entry hEntry, hHeld, Option.map_some, Option.filter_some]
    -- an entry of an earlier round is not worse than the new one in every respect
    split
    · rfl
    · rename_i hOusted
      have hCovers := Rules.covers_of_dominates (by simpa using hOusted)
      rw [hCriteria, covers_stopCriteria_iff] at hCovers
      have := hCovers.2.1
      exact (if_neg (by simp; omega)).symm
  · exact List.filterMap_congr fun entry hEntry => by rw [hKept entry hEntry]

/-- Recording an offer keeps the books and gains a record of the round at most. -/
theorem steady_add (books : Books problem time state)
    (offered : Offered problem time state arrival) :
    Books problem time (state.add problem arrival) ∧
      Steady problem state (state.add problem arrival) := by
  obtain ⟨hBooks, hOnward, -⟩ := books.add offered.stop_lt offered.derives offered.round
  exact ⟨hBooks, hOnward, fun stop round hRound => books.arrivalsAt_add offered.round stop hRound⟩

/-- Recording arrivals that may be recorded keeps the books, and what the round goes on from. -/
theorem steady_foldl (books : Books problem time state) {offers : List Arrival}
    (hOffers : ∀ arrival ∈ offers, Offered problem time state arrival) :
    Books problem time (offers.foldl (State.add problem) state) ∧
      Steady problem state (offers.foldl (State.add problem) state) := by
  induction offers generalizing state with
  | nil => exact ⟨books, Steady.refl ..⟩
  | cons first rest ih =>
      obtain ⟨hFirst, hRest⟩ := List.forall_mem_cons.mp hOffers
      obtain ⟨hBooks, hSteady⟩ := books.steady_add hFirst
      obtain ⟨hLast, hSteadyRest⟩ := ih hBooks fun arrival hArrival =>
        (hRest arrival hArrival).mono hSteady.toOnward
      exact ⟨hLast, hSteady.trans hSteadyRest⟩

/-- The arrivals to go on from are records of the round before. -/
theorem of_mem_sources (books : Books problem time state) (hBegun : 0 < state.round) {stop : Nat}
    {source : Nat × Arrival} (h : source ∈ state.sources stop) :
    state.arrivals.get? source.1 = some source.2 ∧ source.2.stop = stop ∧
      source.2.round + 1 = state.round := by
  unfold State.sources at h
  split at h
  · obtain ⟨hSource, hStop, hRound⟩ := books.of_mem_arrivalsAt h
    exact ⟨hSource, hStop, by omega⟩
  · cases h

/-- A search goes on from all that is kept of the round before. -/
theorem sources_eq (books : Books problem time state) (hBegun : 0 < state.round) (stop : Nat) :
    state.sources stop = state.arrivalsAt stop (state.round - 1) := by
  unfold State.sources
  split
  · rfl
  · rename_i hNone
    symm
    refine List.eq_nil_iff_forall_not_mem.mpr fun source hSource => hNone ?_
    obtain ⟨hId, rfl, hRound⟩ := books.of_mem_arrivalsAt hSource
    exact books.last _ (Arrivals.mem_toList_of_get? hId) (by omega)

/-- Walks go on from the records whose round on foot it is. -/
theorem mem_walkSources_iff (books : Books problem time state) (hBegun : 0 < state.round)
    {source : Nat × Arrival} :
    source ∈ state.walkSources ↔ source ∈ state.arrivalsAt source.2.stop source.2.round ∧
      source.2.roundOnFoot = state.round := by
  constructor
  · intro h
    refine ⟨?_, (books.of_mem_walkSources hBegun h).2⟩
    have hAt : ∀ {stop round}, source ∈ state.arrivalsAt stop round →
        source ∈ state.arrivalsAt source.2.stop source.2.round := by
      intro stop round hMem
      obtain ⟨-, rfl, rfl⟩ := books.of_mem_arrivalsAt hMem
      exact hMem
    rcases List.mem_append.mp h with hRide | hFoot
    · obtain ⟨stop, -, hMem⟩ := List.mem_flatMap.mp hRide
      exact hAt (List.mem_filter.mp hMem).1
    · obtain ⟨stop, -, hMem⟩ := List.mem_flatMap.mp hFoot
      exact hAt (List.mem_filter.mp hMem).1
  · rintro ⟨hAt, hFoot⟩
    exact books.mem_walkSources (books.of_mem_arrivalsAt hAt).1 hAt hFoot

section Sound

variable {pattern : Nat} (sound : problem.day.network.Sound) (legs : problem.KnownLegs)
  (hBegun : 0 < state.round)

include sound legs hBegun

/-- On a sound network passing positions is never given up, and offers arrivals that may be
recorded. -/
theorem exists_passOffers (books : Books problem time state)
    (hTable : problem.day.network.tripTable pattern = .ok table)
    (hActive : problem.day.activePatterns.contains pattern = true) {positions : List Nat}
    {rides : Front Ride} (hOrder : positions.Pairwise problem.direction.Precedes)
    (hInside : ∀ position ∈ positions, position < table.numStops)
    (hRides : AllOnBoard problem table state.arrivals state.round positions rides) :
    ∃ offers, passOffers problem table state.round state.sources positions rides = .ok offers ∧
      ∀ arrival ∈ offers, Offered problem time state arrival := by
  induction positions generalizing rides with
  | nil => exact ⟨[], rfl, by simp⟩
  | cons position rest ih =>
      obtain ⟨hFirst, hOrder⟩ := List.pairwise_cons.mp hOrder
      have hPosition := hInside position (List.mem_cons_self ..)
      obtain ⟨stop, hStop⟩ := TripTable.exists_stopAt hPosition
      have hLeave := fun ride hRide => (hRides.onBoard ride hRide).exists_alightTime
        hTable hActive (List.mem_cons_self ..) hStop time sound
      obtain ⟨arrivals, hArrivals, hMade, -⟩ := State.exists_alightings state.round stop
        fun ride hRide => (hLeave ride hRide).imp fun _ h => h.1
      obtain ⟨boarded, hBoarded, hIff⟩ := State.exists_boardings problem stop
        (sound.table hTable).toShaped hPosition (state.sources stop)
      have hOnBoard : ∀ ride ∈ boarded,
          OnBoard problem table state.arrivals state.round rest ride := by
        intro ride hRide
        obtain ⟨source, hSource, hBoard⟩ := (hIff ride).mp hRide
        obtain ⟨hId, rfl, hRound⟩ := books.of_mem_sources hBegun hSource
        exact ⟨position, source.1, source.2, none, hStop, hId, hRound, hBoard, hFirst⟩
      obtain ⟨others, hOthers, hOffered⟩ := ih hOrder
        (fun later hLater => hInside later (List.mem_cons_of_mem _ hLater))
        (hRides.board (Onward.refl ..) hOnBoard)
      refine ⟨arrivals ++ others, ?_, fun arrival hArrival => ?_⟩
      · exact passOffers_cons_eq_ok_iff.mpr
          ⟨stop, arrivals, boarded, others, hStop, hArrivals, hBoarded, hOthers, rfl⟩
      · rcases List.mem_append.mp hArrival with hHere | hLater
        · obtain ⟨ride, hRide, left, hLeft, rfl⟩ := hMade arrival hHere
          obtain ⟨other, hOther, hDerives⟩ := hLeave ride hRide
          rw [hLeft, Except.ok.injEq] at hOther
          subst hOther
          exact ⟨hDerives.stop_lt sound.toLinked legs, hDerives, rfl⟩
        · exact hOffered arrival hLater

omit sound legs in
/-- Passing positions is recording what it offers. -/
theorem pass_eq (books : Books problem time state) {positions : List Nat} {rides : Front Ride}
    {offers : List Arrival}
    (hOffers : passOffers problem table state.round state.sources positions rides = .ok offers)
    (hOffered : ∀ arrival ∈ offers, Offered problem time state arrival) :
    State.pass problem table (State.add problem) positions rides state =
      .ok (offers.foldl (State.add problem) state) := by
  induction positions generalizing state rides offers with
  | nil =>
      cases hOffers
      rfl
  | cons position rest ih =>
      obtain ⟨stop, arrivals, boarded, others, hStop, hArrivals, hBoarded, hOthers, rfl⟩ :=
        passOffers_cons_eq_ok_iff.mp hOffers
      obtain ⟨hBooks, hSteady⟩ := books.steady_foldl fun arrival hArrival =>
        hOffered arrival (List.mem_append_left _ hArrival)
      rw [← hSteady.sources hBegun] at hBoarded hOthers
      rw [← State.boardingsAt_eq] at hBoarded
      rw [← hSteady.round] at hOthers
      rw [State.pass_cons state hStop hArrivals hBoarded, List.foldl_append]
      exact ih (hSteady.round ▸ hBegun) hBooks hOthers fun arrival hArrival =>
        (hOffered arrival (List.mem_append_right _ hArrival)).mono hSteady.toOnward

/-- On a sound network the scan of a pattern is never given up. -/
theorem exists_scanOffers (books : Books problem time state)
    (hTable : problem.day.network.tripTable pattern = .ok table)
    (hActive : problem.day.activePatterns.contains pattern = true) :
    ∃ offers, scanOffers problem state.round state.sources table = .ok offers ∧
      ∀ arrival ∈ offers, Offered problem time state arrival :=
  books.exists_passOffers sound legs hBegun hTable hActive
    (Direction.positions_pairwise problem.direction table.numStops)
    (fun _ hPosition => Direction.mem_positions.mp hPosition) .empty

/-- On a sound network the scans of a round are never given up. -/
theorem exists_rideOffers (books : Books problem time state) {patterns : List Nat}
    (hPatterns : ∀ pattern ∈ patterns, problem.day.activePatterns.contains pattern = true ∧
      pattern < problem.day.network.numPatterns) :
    ∃ offers, rideOffers problem state.round state.sources patterns = .ok offers ∧
      ∀ arrival ∈ offers, Offered problem time state arrival := by
  induction patterns with
  | nil => exact ⟨[], rfl, by simp⟩
  | cons pattern rest ih =>
      obtain ⟨⟨hActive, hKnown⟩, hRest⟩ := List.forall_mem_cons.mp hPatterns
      obtain ⟨table, hTable⟩ := sound.exists_table hKnown
      obtain ⟨offers, hOffers, hOffered⟩ :=
        books.exists_scanOffers sound legs hBegun hTable hActive
      obtain ⟨others, hOthers, hOther⟩ := ih hRest
      refine ⟨offers ++ others, ?_, fun arrival hArrival => ?_⟩
      · rw [rideOffers]
        exact Checked.bind_eq_ok_iff.mpr ⟨table, hTable, Checked.bind_eq_ok_iff.mpr
          ⟨offers, hOffers, Checked.bind_eq_ok_iff.mpr ⟨others, hOthers, rfl⟩⟩⟩
      · rcases List.mem_append.mp hArrival with hFirst | hLater
        · exact hOffered arrival hFirst
        · exact hOther arrival hLater

omit legs in
/-- Scanning patterns is recording what riding along them offers. -/
theorem scanAll_eq (books : Books problem time state) {patterns : List Nat} {offers : List Arrival}
    (hOffers : rideOffers problem state.round state.sources patterns = .ok offers)
    (hOffered : ∀ arrival ∈ offers, Offered problem time state arrival) :
    (strategy problem).scanAll problem.day.network patterns state =
      .ok (offers.foldl (State.add problem) state) := by
  induction patterns generalizing state offers with
  | nil =>
      cases hOffers
      rfl
  | cons pattern rest ih =>
      rw [rideOffers] at hOffers
      obtain ⟨table, hTable, hOffers⟩ := Checked.bind_eq_ok_iff.mp hOffers
      obtain ⟨first, hFirst, hOffers⟩ := Checked.bind_eq_ok_iff.mp hOffers
      obtain ⟨others, hOthers, hOffers⟩ := Checked.bind_eq_ok_iff.mp hOffers
      cases hOffers
      have hHere : ∀ arrival ∈ first, Offered problem time state arrival := fun arrival hArrival =>
        hOffered arrival (List.mem_append_left _ hArrival)
      obtain ⟨hBooks, hSteady⟩ := books.steady_foldl hHere
      have hScan : (strategy problem).scan table state =
          .ok (first.foldl (State.add problem) state) := books.pass_eq hBegun hFirst hHere
      rw [← hSteady.sources hBegun, ← hSteady.round] at hOthers
      rw [Strategy.scanAll, hTable]
      simp only [if_neg (Nat.ne_of_gt (sound.table hTable).numStops_pos), hScan,
        List.foldl_append]
      exact ih (hSteady.round ▸ hBegun) hBooks hOthers fun arrival hArrival =>
        (hOffered arrival (List.mem_append_right _ hArrival)).mono hSteady.toOnward

end Sound

/-- Walking on offers arrivals that may be recorded. -/
theorem offered_of_mem_walkOffers (books : Books problem time state)
    (linked : problem.day.network.Linked) (legs : problem.KnownLegs) (hBegun : 0 < state.round)
    (h : arrival ∈ walkOffers problem state) : Offered problem time state arrival := by
  obtain ⟨source, hSource, hMem⟩ := List.mem_flatMap.mp h
  obtain ⟨transfer, hWalk, rfl⟩ := List.mem_map.mp hMem
  obtain ⟨hId, hRound⟩ := books.of_mem_walkSources hBegun hSource
  have hDerives : problem.Derives time state.arrivals
      (problem.walkArrival source.2.roundOnFoot source.1 source.2 transfer) := .walk hId hWalk
  rw [hRound] at hDerives
  exact ⟨hDerives.stop_lt linked legs, hDerives, rfl⟩

end Books

namespace State

@[simp]
theorem round_add (problem : Problem) (state : State) (arrival : Arrival) :
    (state.add problem arrival).round = state.round := by
  rcases state.add_eq_or problem arrival with hSame | ⟨front, -, hAdd⟩
  · rw [hSame]
  · rw [hAdd]

@[simp]
theorem round_foldl_add (problem : Problem) (state : State) (offers : List Arrival) :
    (offers.foldl (add problem) state).round = state.round := by
  induction offers generalizing state with
  | nil => rfl
  | cons first rest ih => rw [List.foldl_cons, ih, round_add]

theorem foldl_walkArrival (problem : Problem) (source : Nat × Arrival) (transfers : List Transfer)
    (state : State) :
    transfers.foldl (fun state transfer => state.add problem
        (problem.walkArrival state.round source.1 source.2 transfer)) state =
      (transfers.map (problem.walkArrival state.round source.1 source.2)).foldl
        (add problem) state := by
  induction transfers generalizing state with
  | nil => rfl
  | cons transfer rest ih => rw [List.foldl_cons, ih, round_add, List.map_cons, List.foldl_cons]

/-- Walking on is recording what it offers. -/
theorem walk_eq (problem : Problem) (state : State) :
    state.walk problem (add problem) = (walkOffers problem state).foldl (add problem) state := by
  unfold walk walkOffers
  generalize state.walkSources = sources
  induction sources generalizing state with
  | nil => rfl
  | cons source rest ih =>
      rw [List.foldl_cons, foldl_walkArrival, ih, round_foldl_add, List.flatMap_cons,
        List.foldl_append]

end State

end JourneyPlanner.Search.MultiCriteria
