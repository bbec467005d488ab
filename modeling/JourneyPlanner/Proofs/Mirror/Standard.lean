import JourneyPlanner.Proofs.Mirror.Rounds
import JourneyPlanner.Proofs.Search.Standard.Round

/-! The search for the best time and its mirror image. Main statement: a reverse run and the forward
run on the image go through the images of the same states, and end alike. -/
namespace JourneyPlanner

namespace IndexTable

variable {α β : Type}

def map (f : α → β) (table : IndexTable α) : IndexTable β := ⟨table.cells.map f, f table.blank⟩

@[simp]
theorem get_map (f : α → β) (table : IndexTable α) (index : Nat) :
    (table.map f).get index = f (table.get index) := by
  simp only [map, get, Array.getD_eq_getD_getElem?, Array.getElem?_map]
  cases table.cells[index]? <;> rfl

theorem set_map (f : α → β) (table : IndexTable α) (index : Nat) (value : α) :
    (table.map f).set index (f value) = (table.set index value).map f := by
  simp [map, set]

theorem map_uniform (f : α → β) (bound : Nat) (value : α) :
    (uniform bound value).map f = uniform bound (f value) := by
  simp [map, uniform]

end IndexTable

namespace Search

/-- A time that a table may hold: that of a stop not reached, or one clear of the limits. -/
def Turnable (time : Int) : Prop := time = Direction.reverse.unreached ∨ Clock.Within 2147483646 time

namespace BestTimes

variable {time : Int}

def mirror (best : BestTimes) : BestTimes :=
  { best with
    times := best.times.map Clock.turn
    transitTimes := best.transitTimes.map Clock.turn }

/-- A time improves on the best one exactly when its mirror image does. -/
theorem improve?_mirror (best : BestTimes) (stop : Nat) (hTime : Clock.Within 2147483646 time)
    (hBest : Turnable (best.times.get stop)) :
    best.mirror.improve? .forward stop (-time) =
      (best.improve? .reverse stop time).map mirror := by
  have hBetter : Direction.forward.isBetter (-time) (best.mirror.time stop) =
      Direction.reverse.isBetter time (best.time stop) := by
    rw [BestTimes.time, mirror, IndexTable.get_map, Direction.isBetter_turn hTime hBest]
    rfl
  rw [improve?, improve?, hBetter]
  split
  · simp only [Option.map_some, mirror, ← IndexTable.set_map, Clock.turn_eq_neg hTime]
  · rfl

/-- A time improves on the best ride exactly when its mirror image does. -/
theorem improveTransit?_mirror (best : BestTimes) (stop : Nat) (hTime : Clock.Within 2147483646 time)
    (hBest : Turnable (best.transitTimes.get stop)) :
    best.mirror.improveTransit? .forward stop (-time) =
      (best.improveTransit? .reverse stop time).map mirror := by
  have hBetter : Direction.forward.isBetter (-time) (best.mirror.transitTime stop) =
      Direction.reverse.isBetter time (best.transitTime stop) := by
    rw [BestTimes.transitTime, mirror, IndexTable.get_map, Direction.isBetter_turn hTime hBest]
    rfl
  rw [improveTransit?, improveTransit?, hBetter]
  split
  · simp only [Option.map_some, mirror, ← IndexTable.set_map, Clock.turn_eq_neg hTime]
  · rfl

end BestTimes

namespace Standard

def State.mirror (network : Network) (state : State) : State :=
  { state with
    best := state.best.mirror
    arrivals := state.arrivals.mirror network
    destinationTime := Clock.turn state.destinationTime
    destinations := state.destinations.map DestinationArrival.mirror }

variable {problem image : Problem} {time : Int} {state : State}

theorem initial_mirror (mirrors : problem.Mirrors image) :
    State.initial image = (State.initial problem).mirror problem.day.network := by
  simp only [State.initial, State.mirror, BestTimes.initial, BestTimes.mirror, mirrors.numStops,
    mirrors.direction, mirrors.imageDirection, IndexTable.map_uniform, Direction.turn_unreached,
    Arrivals.empty_mirror, List.map_nil]

/-- A ledger holds the times of records, if any. -/
theorem Ledger.turnable {direction : Direction} {numStops : Nat} {counts : Arrival → Bool}
    {arrivals : Arrivals} {round : Nat} {times : IndexTable Int} {marks : IndexSet}
    {holders : IndexTable (Option Nat)}
    (ledger : Ledger direction numStops counts arrivals round times marks holders)
    (hDirection : direction = .reverse)
    (hTimes : ∀ arrival ∈ arrivals.toList, Clock.Within 2147483646 arrival.time) (stop : Nat) :
    Turnable (times.get stop) := by
  subst hDirection
  rcases ledger.attained stop with hUnreached | ⟨id, hHolder⟩ | ⟨found, hFound, -, -, hTime, -⟩
  · exact Or.inl hUnreached
  · obtain ⟨found, hFound, -, -, -, hTime⟩ := ledger.held hHolder
    exact Or.inr (hTime ▸ hTimes found (Arrivals.mem_toList_of_get? hFound))
  · exact Or.inr (hTime ▸ hTimes found hFound)

section Steps

variable (books : Books problem time state) (regular : problem.Regular time)
  (hRounds : state.round ≤ Request.maxSupportedTransfers + 1) (mirrors : problem.Mirrors image)

include books regular hRounds

theorem Books.within {arrival : Arrival} (hMem : arrival ∈ state.arrivals.toList) :
    Clock.Within 2147483646 arrival.time :=
  books.records.within_of_mem regular.modest regular.time hMem
    ((books.round_le arrival hMem).trans hRounds)

include mirrors

theorem Books.turnable_destinationTime : Turnable state.destinationTime := by
  rcases books.destinationTime with hUnreached | ⟨destination, hMem, hTime⟩
  · exact Or.inl (mirrors.direction ▸ hUnreached)
  · refine Or.inr (hTime ▸ books.records.within_of_finishes regular.modest regular.time
      (books.finishes destination hMem) ?_)
    exact (books.destinations_round destination hMem).trans hRounds

/-- Whether a time can still improve the destination is the same in the mirror. -/
theorem Books.canImproveDestination_mirror {reached : Int} (h : Clock.Within 2147483646 reached) :
    (state.mirror problem.day.network).canImproveDestination image (-reached) =
      state.canImproveDestination problem reached := by
  rw [State.canImproveDestination, State.canImproveDestination, mirrors.direction,
    mirrors.imageDirection]
  exact Direction.isBetter_turn h (books.turnable_destinationTime regular hRounds mirrors)

/-- A record is settled in the mirrored search as in the search itself. -/
theorem Books.settle_mirror {arrival : Arrival} (h : Clock.Within 2147483646 arrival.time) :
    (state.mirror problem.day.network).settle image (arrival.mirror problem.day.network) =
      (state.settle problem arrival).mirror problem.day.network := by
  have hImprove := state.best.improve?_mirror arrival.stop h
    (books.best.turnable mirrors.direction (fun _ hMem => books.within regular hRounds hMem) _)
  rw [← mirrors.direction, ← mirrors.imageDirection] at hImprove
  simp only [State.settle, State.mirror, Arrival.mirror] at hImprove ⊢
  rw [hImprove]
  cases state.best.improve? problem.direction arrival.stop arrival.time with
  | none => rfl
  | some best =>
      simp only [Option.map_some, Arrivals.size_mirror, ← Arrivals.push_mirror]
      rfl

/-- The access legs are entered in mirrored ways. -/
theorem Books.enter_mirror {leg : WalkLeg} (hLeg : leg ∈ problem.startLegs) :
    (state.mirror problem.day.network).enter image (-time) leg =
      (state.enter problem time leg).mirror problem.day.network := by
  have hWithin := Records.within_startLeg regular.modest regular.time hLeg
  rw [State.enter_eq_settle, State.enter_eq_settle, mirrors.accessArrival hWithin,
    books.settle_mirror regular hRounds mirrors]
  rw [Problem.accessArrival, Records.plus_startLeg regular.modest regular.time hLeg]
  exact hWithin

/-- Both searches alight in mirrored ways. -/
theorem Books.alight_mirror {table : TripTable} {pattern stop : Nat} {ride : Ride} {left : Int}
    (hTable : problem.day.network.tripTable pattern = .ok table)
    (h : Clock.Within 2147483646 left) :
    (state.mirror problem.day.network).alight image table.pattern stop (ride.mirror table.numTrips)
        (-left) =
      (state.alight problem table.pattern stop ride left).mirror problem.day.network := by
  have hWithin : ∀ arrival ∈ state.arrivals.toList, Clock.Within 2147483646 arrival.time :=
    fun _ hMem => books.within regular hRounds hMem
  have hTransit := state.best.improveTransit?_mirror stop h
    (books.byTransit.turnable mirrors.direction hWithin _)
  rw [← mirrors.direction, ← mirrors.imageDirection] at hTransit
  rw [State.alight, State.alight, books.canImproveDestination_mirror regular hRounds mirrors h]
  split
  swap
  · rfl
  simp only [State.mirror, hTransit]
  cases hBest : state.best.improveTransit? problem.direction stop left with
  | none => rfl
  | some best =>
      obtain ⟨-, rfl⟩ := BestTimes.improveTransit?_eq_some_iff.mp hBest
      have hImprove := BestTimes.improve?_mirror
        { state.best with
          transitTimes := state.best.transitTimes.set stop left
          reachedByTransit := state.best.reachedByTransit.insert stop } stop h
        (books.best.turnable mirrors.direction hWithin _)
      rw [← mirrors.direction, ← mirrors.imageDirection] at hImprove
      simp only [Option.map_some, Arrivals.size_mirror, mirrors.rideArrival hTable,
        Arrivals.push_mirror, hImprove]
      cases BestTimes.improve? _ problem.direction stop left with
      | none => rfl
      | some better => rfl

/-- Both searches walk along a transfer in mirrored ways. -/
theorem Books.walkAlong_mirror {source : Nat × Arrival}
    (hSource : state.arrivals.get? source.1 = some source.2)
    (hFoot : source.2.roundOnFoot = state.round) {transfer : Transfer}
    (hWalk : transfer ∈ problem.transfersAt source.2.stop) :
    (state.mirror problem.day.network).walkAlong image
        (source.map id (Arrival.mirror problem.day.network)) transfer.mirror =
      (state.walkAlong problem source transfer).mirror problem.day.network := by
  have hMem := Arrivals.mem_toList_of_get? hSource
  have hRound : source.2.round ≤ Request.maxSupportedTransfers + 1 :=
    Nat.le_trans source.2.round_le_roundOnFoot (hFoot ▸ hRounds)
  have hDuration := regular.modest.network.transfers hWalk
  have hWithin := books.records.within_along regular.modest regular.time hMem hRound hDuration
  have hArrival : Clock.Within 2147483646
      (problem.walkArrival state.round source.1 source.2 transfer).time := by
    rw [Problem.walkArrival, books.records.plus_eq_along regular.modest regular.time hMem hRound
      hDuration]
    exact hWithin
  rw [State.walkAlong_eq_settle, State.walkAlong_eq_settle, Prod.map_fst, Prod.map_snd]
  simp only [id]
  rw [show (state.mirror problem.day.network).round = state.round from rfl,
    mirrors.walkArrival hWithin,
    show ((problem.walkArrival state.round source.1 source.2 transfer).mirror
      problem.day.network).time =
        -(problem.walkArrival state.round source.1 source.2 transfer).time from rfl,
    books.canImproveDestination_mirror regular hRounds mirrors hArrival,
    books.settle_mirror regular hRounds mirrors hArrival]
  split <;> rfl

end Steps

section Scan

variable {table other : TripTable} {pattern position stop : Nat} {rest : List Nat}
  {ride : Option Ride}

/-- Both searches pass a stop on board in mirrored ways. -/
theorem Books.passOnBoard_mirror (books : Books problem time state) (regular : problem.Regular time)
    (hRounds : state.round ≤ Request.maxSupportedTransfers + 1) (mirrors : problem.Mirrors image)
    (tables : table.Mirrors other) (hTable : problem.day.network.tripTable pattern = .ok table)
    (hActive : problem.day.activePatterns.contains pattern = true)
    (hStop : table.stopAt position = .ok stop)
    (hRide : ∀ on, ride = some on →
      OnBoard problem table state.arrivals state.round (position :: rest) on)
    {next : State} (h : state.passOnBoard problem table position stop ride = .ok next) :
    (state.mirror problem.day.network).passOnBoard image other (table.numStops - 1 - position) stop
        (ride.map (Ride.mirror table.numTrips)) = .ok (next.mirror problem.day.network) := by
  cases ride with
  | none =>
      cases h
      rfl
  | some on =>
      obtain ⟨left, hLeft, h⟩ := Checked.bind_eq_ok_iff.mp h
      cases h
      have hPosition := TripTable.lt_numStops_of_stopAt hStop
      obtain ⟨same, hSame, hDerives⟩ := (hRide on rfl).exists_alightTime
        hTable hActive (List.mem_cons_self ..) hStop time regular.sound
      rw [hLeft, Except.ok.injEq] at hSame
      subst hSame
      have hWithin : Clock.Within 2147483646 left :=
        books.records.within_of_derives regular.modest regular.time hDerives hRounds
      refine Checked.bind_eq_ok_iff.mpr ⟨-left,
        mirrors.alightTime tables hPosition (hRide on rfl).lt_numTrips hLeft, ?_⟩
      rw [tables.pattern, books.alight_mirror regular hRounds mirrors hTable hWithin]
      rfl

theorem State.lastArrival?_mirror (network : Network) (state : State) (stop : Nat) :
    (state.mirror network).lastArrival? stop =
      (state.lastArrival? stop).map (Prod.map id (Arrival.mirror network)) := by
  have hSame : (state.mirror network).lastId? stop = state.lastId? stop := rfl
  simp only [lastArrival?, hSame]
  simp only [mirror, Arrivals.get?_mirror]
  cases state.lastId? stop with
  | none => rfl
  | some held =>
      simp only [Option.map_map]
      rfl

/-- Both searches change for the same trip at a stop. -/
theorem Books.change_mirror (books : Books problem time state) (regular : problem.Regular time)
    (hRounds : state.round ≤ Request.maxSupportedTransfers + 1) (mirrors : problem.Mirrors image)
    (tables : table.Mirrors other) (sound : table.Sound) (otherSound : other.Sound)
    (hPosition : position < table.numStops)
    (hRide : ∀ on, ride = some on → on.trip < table.numTrips) {change : Option Ride}
    (h : state.change problem table position stop ride = .ok change) :
    (state.mirror problem.day.network).change image other (table.numStops - 1 - position) stop
        (ride.map (Ride.mirror table.numTrips)) =
      .ok (change.map (Ride.mirror table.numTrips)) := by
  unfold State.change at h ⊢
  rw [State.lastArrival?_mirror]
  cases hLast : state.lastArrival? stop with
  | none =>
      rw [hLast] at h
      cases h
      rfl
  | some held =>
      obtain ⟨id, source⟩ := held
      rw [hLast] at h
      obtain ⟨result, hResult, h⟩ := Checked.bind_eq_ok_iff.mp h
      cases h
      have hSource : state.arrivals.get? id = some source := by
        unfold State.lastArrival? at hLast
        split at hLast
        · cases hLast
        · obtain ⟨found, hFound, hSame⟩ := Option.map_eq_some_iff.mp hLast
          cases hSame
          exact hFound
      have hMem := Arrivals.mem_toList_of_get? hSource
      have hImage := mirrors.board? tables hPosition sound otherSound
        (books.records.within_along regular.modest regular.time hMem
          ((books.round_le source hMem).trans hRounds) (regular.modest.slackAfter _))
        (by
          intro limit hLimit
          obtain ⟨on, hOn, rfl⟩ := Option.map_eq_some_iff.mp hLimit
          exact hRide on hOn) hResult
      rw [Option.map_map] at hImage
      simp only [Option.map_some, Option.map_map]
      refine Checked.bind_eq_ok_iff.mpr ⟨_, hImage, ?_⟩
      cases result <;> rfl

/-- A pass of the image goes through the images of the same states. -/
theorem Books.pass_mirror {positions : List Nat} (books : Books problem time state)
    (regular : problem.Regular time)
    (hRounds : state.round ≤ Request.maxSupportedTransfers + 1) (mirrors : problem.Mirrors image)
    (tables : table.Mirrors other) (otherSound : other.Sound)
    (hTable : problem.day.network.tripTable pattern = .ok table)
    (hActive : problem.day.activePatterns.contains pattern = true)
    (hOrder : positions.Pairwise problem.direction.Precedes)
    (hInside : ∀ position ∈ positions, position < table.numStops)
    (hRide : ∀ on, ride = some on →
      OnBoard problem table state.arrivals state.round positions on)
    {after : State} (h : State.pass problem table positions ride state = .ok after) :
    State.pass image other (positions.map (table.numStops - 1 - ·))
        (ride.map (Ride.mirror table.numTrips)) (state.mirror problem.day.network) =
      .ok (after.mirror problem.day.network) := by
  induction positions generalizing state ride with
  | nil =>
      cases h
      rfl
  | cons position rest ih =>
      have sound := regular.sound.table hTable
      obtain ⟨hFirst, hOrder⟩ := List.pairwise_cons.mp hOrder
      have hPosition := hInside position (List.mem_cons_self ..)
      obtain ⟨stop, hStop⟩ := TripTable.exists_stopAt hPosition
      obtain ⟨next, hNext, hBooks, hOnward, -⟩ :=
        books.passOnBoard regular hRounds hTable hActive hStop hRide
      have hStay : ∀ on, ride = some on →
          OnBoard problem table next.arrivals next.round rest on := fun on hOn =>
        hOnward.round ▸ ((hRide on hOn).mono hOnward.arrivals).tail
      obtain ⟨change, hChange, hOnBoard, -⟩ := hBooks.change sound hStop hFirst hStay
      rw [State.pass_cons hStop hNext hChange] at h
      have hNextRounds := hOnward.round ▸ hRounds
      rw [List.map_cons, State.pass_cons ((tables.stopAt hPosition).trans hStop)
        (books.passOnBoard_mirror regular hRounds mirrors tables hTable hActive hStop hRide hNext)
        (hBooks.change_mirror regular hNextRounds mirrors tables sound otherSound hPosition
          (fun on hOn => (hRide on hOn).lt_numTrips) hChange)]
      exact ih hBooks hNextRounds hOrder
        (fun later hLater => hInside later (List.mem_cons_of_mem _ hLater)) hOnBoard h

/-- The scan of a pattern mirrors that of its image. -/
theorem Books.scan_mirror (books : Books problem time state) (regular : problem.Regular time)
    (hRounds : state.round ≤ Request.maxSupportedTransfers + 1) (mirrors : problem.Mirrors image)
    (tables : table.Mirrors other) (otherSound : other.Sound)
    (hTable : problem.day.network.tripTable pattern = .ok table)
    (hActive : problem.day.activePatterns.contains pattern = true)
    {after : State} (h : State.scan problem table state = .ok after) :
    State.scan image other (state.mirror problem.day.network) =
      .ok (after.mirror problem.day.network) := by
  have hPositions := Direction.positions_pairwise problem.direction table.numStops
  unfold State.scan at h ⊢
  rw [mirrors.imageDirection, tables.numStops, Direction.positions_forward, ← mirrors.direction]
  exact books.pass_mirror regular hRounds mirrors tables otherSound hTable hActive
    hPositions (fun position hMem => Direction.mem_positions.mp hMem) (by simp) h

/-- The scans of a round mirror each other, pattern by pattern. -/
theorem Books.scanAll_mirror (books : Books problem time state) (regular : problem.Regular time)
    (hRounds : state.round ≤ Request.maxSupportedTransfers + 1) (mirrors : problem.Mirrors image)
    {patterns : List Nat}
    (hPatterns : ∀ pattern ∈ patterns, problem.day.activePatterns.contains pattern = true ∧
      pattern < problem.day.network.numPatterns) :
    ∃ after, (strategy problem).scanAll problem.day.network patterns state = .ok after ∧
      (strategy image).scanAll image.day.network patterns (state.mirror problem.day.network) =
        .ok (after.mirror problem.day.network) := by
  exact mirrors.exists_scanAll regular (strategy problem) (strategy image)
    (State.mirror problem.day.network)
    (fun next => Books problem time next ∧ Onward problem state next) hPatterns
    (fun hTable tables otherSound hActive ⟨hBooks, hOnward⟩ => by
      have hNextRounds := hOnward.round ▸ hRounds
      obtain ⟨after, hAfter, hBooksAfter, hOnwardAfter, -⟩ :=
        hBooks.scan regular hNextRounds hTable hActive
      exact ⟨after, hAfter, hBooks.scan_mirror regular hNextRounds mirrors tables otherSound hTable
        hActive hAfter, hBooksAfter, hOnward.trans hOnwardAfter⟩)
    ⟨books, Onward.refl problem state⟩

end Scan

section Phases

theorem State.walkSources_mirror (network : Network) (state : State) :
    (state.mirror network).walkSources =
      state.walkSources.map (Prod.map id (Arrival.mirror network)) := by
  have hFoot : (fun source : Nat × Arrival => !source.2.isTransit) ∘
      Prod.map id (Arrival.mirror network) = fun source => !source.2.isTransit := by
    funext source
    simp
  simp only [walkSources, mirror, Arrivals.numbered_mirror, List.map_append, List.filter_map, hFoot]
  rfl

/-- The walks of a round mirror each other. -/
theorem Books.walk_mirror (books : Books problem time state) (regular : problem.Regular time)
    (hRounds : state.round ≤ Request.maxSupportedTransfers + 1) (mirrors : problem.Mirrors image) :
    (state.mirror problem.day.network).walk image =
      (state.walk problem).mirror problem.day.network := by
  rw [State.walk, State.walkSources_mirror]
  refine mirrors.walkAll_eq (State.mirror problem.day.network)
    (fun next => Books problem time next ∧ Onward problem state next)
    (fun source hMem transfer hWalk next ⟨hBooks, hOnward⟩ => ?_) ⟨books, Onward.refl problem state⟩
  obtain ⟨hSource, hFoot⟩ := books.of_mem_walkSources hMem
  have hRound := hOnward.round ▸ hRounds
  have hFound := hOnward.arrivals _ _ hSource
  have hSameFoot := hFoot.trans hOnward.round.symm
  obtain ⟨hBooksNext, hStep, -⟩ := hBooks.walkAlong regular hRound hFound hSameFoot hWalk
  exact ⟨⟨hBooksNext, hOnward.trans hStep⟩,
    hBooks.walkAlong_mirror regular hRound mirrors hFound hSameFoot hWalk⟩

/-- Both searches have mirrored candidates for the destination. -/
theorem Books.candidates_mirror (books : Books problem time state) (regular : problem.Regular time)
    (hRounds : state.round ≤ Request.maxSupportedTransfers + 1) (mirrors : problem.Mirrors image) :
    (state.mirror problem.day.network).candidates image =
      (state.candidates problem).map DestinationArrival.mirror := by
  rw [State.candidates, State.candidates, List.map_flatMap]
  rw [show (state.mirror problem.day.network).arrivals = state.arrivals.mirror problem.day.network
    from rfl, Arrivals.numbered_mirror, List.flatMap_map]
  refine List.flatMap_congr fun source hMem => ?_
  rw [mirrors.endLegsAt, List.map_map]
  refine List.map_congr_left fun leg hLeg => ?_
  obtain ⟨hId, hSource⟩ := Arrivals.mem_numbered.mp hMem
  have hArrival := Arrivals.mem_toList_of_get? hSource
  exact mirrors.destinationArrival (books.records.within_along regular.modest regular.time hArrival
    ((books.round_le _ hArrival).trans hRounds)
    (regular.modest.legs leg (Or.inr (Problem.mem_endLegsAt.mp hLeg).1)))

/-- The best way is chosen alike, as long as no time meets the limits of the clock. -/
theorem State.bestCandidate_mirror {candidates : List DestinationArrival} {best : Int}
    (hCandidates : ∀ candidate ∈ candidates, Clock.Within 2147483646 candidate.time)
    (hBest : Turnable best) :
    bestCandidate .forward (Clock.turn best) (candidates.map DestinationArrival.mirror) =
      ((bestCandidate .reverse best candidates).map Clock.turn
        (Option.map DestinationArrival.mirror)) := by
  have hFold : ∀ (best : Int) (held : Option DestinationArrival), Turnable best →
      (candidates.map DestinationArrival.mirror).foldl
        (fun best candidate => if Direction.forward.isBetter candidate.time best.1 then
          (candidate.time, some candidate) else best)
        (Clock.turn best, held.map DestinationArrival.mirror) =
      (candidates.foldl
        (fun best candidate => if Direction.reverse.isBetter candidate.time best.1 then
          (candidate.time, some candidate) else best)
        (best, held)).map Clock.turn (Option.map DestinationArrival.mirror) := by
    induction candidates with
    | nil => exact fun _ _ _ => rfl
    | cons first rest ih =>
        intro best held hBest
        obtain ⟨hFirst, hRest⟩ := List.forall_mem_cons.mp hCandidates
        have hBetter : Direction.forward.isBetter first.mirror.time (Clock.turn best) =
            Direction.reverse.isBetter first.time best := Direction.isBetter_turn hFirst hBest
        simp only [List.map_cons, List.foldl_cons, hBetter]
        split
        · have hTime : first.mirror.time = Clock.turn first.time :=
            (Clock.turn_eq_neg hFirst).symm
          rw [hTime]
          exact ih hRest first.time (some first) (Or.inr hFirst)
        · exact ih hRest best held hBest
  exact hFold best none hBest

/-- Both searches finish a round in mirrored states. -/
theorem Books.finish_mirror (books : Books problem time state) (regular : problem.Regular time)
    (hRounds : state.round ≤ Request.maxSupportedTransfers + 1) (mirrors : problem.Mirrors image) :
    (state.mirror problem.day.network).finish image =
      (state.finish problem).mirror problem.day.network := by
  have hWithin : ∀ candidate ∈ state.candidates problem, Clock.Within 2147483646 candidate.time := by
    intro candidate hMem
    obtain ⟨hFinishes, hRound⟩ := books.of_mem_candidates hMem
    exact books.records.within_of_finishes regular.modest regular.time hFinishes (hRound ▸ hRounds)
  have hBest := State.bestCandidate_mirror hWithin
    (books.turnable_destinationTime regular hRounds mirrors)
  rw [← books.candidates_mirror regular hRounds mirrors, ← mirrors.direction,
    ← mirrors.imageDirection] at hBest
  unfold State.finish
  rw [show (state.mirror problem.day.network).destinationTime = Clock.turn state.destinationTime
    from rfl, hBest]
  cases hResult : State.bestCandidate problem.direction state.destinationTime
      (state.candidates problem) with
  | mk found best =>
      cases best with
      | none => rfl
      | some best => simp [State.mirror]

/-- Both searches start from mirrored states. -/
theorem Books.start_mirror (regular : problem.Regular time) (mirrors : problem.Mirrors image) :
    (strategy image).start (-time) =
      ((strategy problem).start time).mirror problem.day.network := by
  simp only [strategy]
  rw [initial_mirror mirrors, mirrors.startLegs]
  refine (Strategy.foldl_image (State.mirror problem.day.network)
    (fun next => Books problem time next ∧ next.round = 0)
    (fun leg hLeg next hNext => ?_) ⟨Books.initial problem time, rfl⟩).2
  obtain ⟨books, hRound⟩ := hNext
  obtain ⟨hBooks, hOnward, -⟩ := books.enter regular hRound hLeg
  exact ⟨⟨hBooks, hOnward.round.trans hRound⟩,
    books.enter_mirror regular (hRound ▸ Nat.zero_le _) mirrors hLeg⟩

/-- The rounds of a reverse search and of the forward one on the image are alike. -/
theorem Books.roundsAlike (books : Books problem time state) (regular : problem.Regular time)
    (hRounds : state.round + 1 ≤ Request.maxSupportedTransfers + 1)
    (mirrors : problem.Mirrors image) :
    ∃ next, (strategy problem).RoundsAlike (strategy image) problem.day image.day
        (State.mirror problem.day.network) (state.round + 1) state next ∧
      Books problem time next ∧ next.round = state.round + 1 := by
  have hPatterns : (strategy image).patterns image.day
      ((state.mirror problem.day.network).beginRound (state.round + 1)) =
        (strategy problem).patterns problem.day (state.beginRound (state.round + 1)) :=
    mirrors.day.patternsTouching _
  obtain ⟨scanned, hScanned, passed⟩ := books.exists_passed regular hRounds
  have hScannedRound : scanned.round = state.round + 1 := passed.scanning.round
  have hNext : (scanned.walk problem).round = state.round + 1 := passed.onward.round
  obtain ⟨after, hAfter, hImage⟩ := books.beginRound.scanAll_mirror regular hRounds mirrors
    ((strategy problem).patterns_known problem.day (state.beginRound (state.round + 1)))
  rw [hScanned, Except.ok.injEq] at hAfter
  subst hAfter
  obtain ⟨next, hRound, hBooks, hNextRound, -⟩ := books.exists_round regular hRounds
  refine ⟨next, .of_round hRound hPatterns hScanned hImage ?_, hBooks, hNextRound⟩
  rw [finish_strategy, walk_strategy, finish_strategy, walk_strategy,
    passed.scan.walk_mirror regular (hScannedRound ▸ hRounds) mirrors,
    passed.walked.finish_mirror regular (hNext ▸ hRounds) mirrors]

end Phases

end Standard

end Search

end JourneyPlanner
