import JourneyPlanner.Proofs.Mirror.Rounds
import JourneyPlanner.Proofs.Search.MultiCriteria.Round

/-! The search for the best compromises and its mirror image. Fronts go through the images of the
same fronts, since what they compare is not changed by the clock running backwards; nothing is
ever compared with the limits of the clock here. -/
namespace JourneyPlanner

namespace Front

variable {α β : Type} {rules : Rules} {image : Entry α → Entry β} {front : Front α}
  {entry : Entry α}

def map (image : Entry α → Entry β) (front : Front α) : Front β := ⟨front.entries.map image⟩

/-- Coverage survives a change of labels that no comparison notices. -/
theorem covers_map {criteria values : List Int}
    (hCompare : ∀ held ∈ front.entries,
      rules.compare (image held).criteria values = rules.compare held.criteria criteria) :
    (front.map image).covers rules values = front.covers rules criteria := by
  rw [covers, covers, map, List.any_map, Bool.eq_iff_iff, List.any_eq_true, List.any_eq_true]
  refine exists_congr fun held => and_congr_right fun hHeld => ?_
  rw [Function.comp_apply, Rules.covers, Rules.covers, hCompare held hHeld]

section Alike

variable (Held : Entry α → Prop) (hAlike : ∀ left right, Held left → Held right →
  rules.compare (image left).criteria (image right).criteria =
    rules.compare left.criteria right.criteria)

include hAlike

/-- An offer survives a change of labels that no comparison notices. -/
theorem offer?_map (hFront : ∀ held ∈ front.entries, Held held) (hEntry : Held entry) :
    (front.map image).offer? rules (image entry) = (front.offer? rules entry).map (map image) := by
  have hCovers : (front.map image).covers rules (image entry).criteria =
      front.covers rules entry.criteria :=
    covers_map fun held hHeld => hAlike held entry (hFront held hHeld) hEntry
  rw [offer?, offer?, hCovers]
  split
  · rfl
  · simp only [insert, map, Option.map_some, List.map_append, List.map_cons, List.map_nil,
      List.filter_map]
    have hKept : front.entries.filter
        ((fun other => !rules.dominates (image entry).criteria other.criteria) ∘ image) =
          front.entries.filter fun other => !rules.dominates entry.criteria other.criteria := by
      refine List.filter_congr fun held hHeld => ?_
      rw [Function.comp_apply, Rules.dominates, Rules.dominates,
        hAlike entry held hEntry (hFront held hHeld)]
    rw [hKept]

/-- Offers that compare alike lead to fronts that correspond. -/
theorem offerAll_map {entries : List (Entry α)} (hFront : ∀ held ∈ front.entries, Held held)
    (hEntries : ∀ entry ∈ entries, Held entry) :
    (front.map image).offerAll rules (entries.map image) =
      (front.offerAll rules entries).map image := by
  induction entries generalizing front with
  | nil => rfl
  | cons first rest ih =>
      obtain ⟨hFirst, hRest⟩ := List.forall_mem_cons.mp hEntries
      have hNext : ∀ held ∈ (front.offer rules first).entries, Held held := by
        intro held hHeld
        rcases mem_of_mem_offer hHeld with hOld | rfl
        · exact hFront held hOld
        · exact hFirst
      have hOffer : (front.map image).offer rules (image first) =
          (front.offer rules first).map image := by
        rw [offer, offer, offer?_map Held hAlike hFront hFirst]
        cases front.offer? rules first <;> rfl
      rw [List.map_cons, offerAll, List.foldl_cons, hOffer]
      exact ih hNext hRest

end Alike

end Front

namespace Search.MultiCriteria

/-- An arrival and its mirror image are judged by the same criteria. -/
theorem stopCriteria_mirror (network : Network) (arrival : Arrival) :
    stopCriteria .forward (arrival.mirror network) = stopCriteria .reverse arrival := by
  rw [stopCriteria, stopCriteria, Arrival.isTransit_mirror]
  rfl

/-- The image of a way to the destination with the values on which it compares. -/
def destinationImage (entry : Entry DestinationArrival) : Entry DestinationArrival :=
  { entry with item := entry.item.mirror }

/-- A destination and its mirror image are judged by the same criteria. -/
theorem destinationEntry_mirror (destination : DestinationArrival) :
    destinationEntry .forward destination.mirror =
      destinationImage (destinationEntry .reverse destination) := rfl

/-- The image of a ride with the values on which it compares, in a pattern with so many trips. -/
def rideImage (numTrips : Nat) (entry : Entry Ride) : Entry Ride :=
  rideEntry .forward (entry.item.mirror numTrips)

/-- The image of a trip is so many places before the last one, so trips compare alike. -/
theorem compare_rideImage {numTrips : Nat} {left right : Ride} (hLeft : left.trip < numTrips)
    (hRight : right.trip < numTrips) :
    rideRules.compare (rideImage numTrips (rideEntry .reverse left)).criteria
        (rideImage numTrips (rideEntry .reverse right)).criteria =
      rideRules.compare (rideEntry .reverse left).criteria (rideEntry .reverse right).criteria := by
  have hTrip : Criterion.less.compare (Direction.forward.tripCriterion (numTrips - 1 - left.trip))
      (Direction.forward.tripCriterion (numTrips - 1 - right.trip)) =
        Criterion.less.compare (Direction.reverse.tripCriterion left.trip)
          (Direction.reverse.tripCriterion right.trip) := by
    simp only [Criterion.compare, Direction.tripCriterion]
    congr 1
    · exact propext (by omega)
    · congr 1
      exact propext (by omega)
  simp only [Rules.compare, rideRules, Rules.compareFrom, rideImage, rideEntry, Ride.mirror, hTrip]

def State.mirror (network : Network) (state : State) : State :=
  { state with
    arrivals := state.arrivals.mirror network
    destinations := state.destinations.map destinationImage
    accepted := state.accepted.map DestinationArrival.mirror }

variable {problem image : Problem} {time : Int} {state : State} {table other : TripTable}

theorem initial_mirror (mirrors : problem.Mirrors image) :
    State.initial image = (State.initial problem).mirror problem.day.network := by
  simp only [State.initial, State.mirror, mirrors.numStops, Arrivals.empty_mirror, Front.map,
    Front.empty, List.map_nil]

namespace State

variable (network : Network) (state : State)

@[simp]
theorem isCovered_mirror (criteria : List Int) :
    (state.mirror network).isCovered criteria = state.isCovered criteria :=
  Front.covers_map fun _ _ => rfl

theorem arrivalsAt_mirror (stop round : Nat) :
    (state.mirror network).arrivalsAt stop round =
      (state.arrivalsAt stop round).map (Prod.map id (Arrival.mirror network)) := by
  simp only [arrivalsAt, mirror, Arrivals.numbered_mirror, List.filter_map]
  rfl

/-- The rides among the arrivals, or those on foot, are the same. -/
theorem filter_isTransit_mirror (wanted : Bool) (sources : List (Nat × Arrival)) :
    (sources.map (Prod.map id (Arrival.mirror network))).filter (fun source =>
        source.2.isTransit == wanted) =
      (sources.filter fun source => source.2.isTransit == wanted).map
        (Prod.map id (Arrival.mirror network)) := by
  rw [List.filter_map]
  refine congrArg _ (List.filter_congr fun source _ => ?_)
  simp

theorem walkSources_mirror :
    (state.mirror network).walkSources =
      state.walkSources.map (Prod.map id (Arrival.mirror network)) := by
  have hRide := filter_isTransit_mirror network true
  have hFoot := filter_isTransit_mirror network false
  simp only [beq_true, beq_false] at hRide hFoot
  simp only [walkSources, arrivalsAt_mirror, List.map_append, List.map_flatMap, hRide, hFoot]
  rfl

end State

section Steps

variable (mirrors : problem.Mirrors image)

include mirrors

/-- An arrival is added to the mirrored search as to the search itself. -/
theorem State.add_mirror (arrival : Arrival) :
    (state.mirror problem.day.network).add image (arrival.mirror problem.day.network) =
      (state.add problem arrival).mirror problem.day.network := by
  have hCriteria := stopCriteria_mirror problem.day.network arrival
  rw [← mirrors.direction, ← mirrors.imageDirection] at hCriteria
  rw [State.add, State.add, hCriteria, isCovered_mirror]
  split
  · rfl
  · simp only [keep, mirror, hCriteria, Arrivals.size_mirror, Arrival.isTransit_mirror,
      Arrivals.push_mirror]
    rw [show (arrival.mirror problem.day.network).stop = arrival.stop from rfl]
    cases (state.fronts.get arrival.stop).offer? stopRules _ <;> rfl

/-- A list of arrivals is added to the mirrored search as to the search itself. -/
theorem State.foldl_add_mirror (arrivals : List Arrival) (state : State) :
    (arrivals.map (Arrival.mirror problem.day.network)).foldl (State.add image)
        (state.mirror problem.day.network) =
      (arrivals.foldl (State.add problem) state).mirror problem.day.network := by
  induction arrivals generalizing state with
  | nil => rfl
  | cons first rest ih =>
      rw [List.map_cons, List.foldl_cons, List.foldl_cons, State.add_mirror mirrors]
      exact ih _

/-- A round settles the search and its mirror image alike. -/
theorem State.isSettled_mirror :
    (state.mirror problem.day.network).isSettled image = state.isSettled problem := by
  have hEmpty : (state.mirror problem.day.network).destinations.isEmpty =
      state.destinations.isEmpty := by
    simp [mirror, Front.map, Front.isEmpty]
  have hCovered : ∀ source : Nat × Arrival, (state.mirror problem.day.network).isCovered
      (stopCriteria image.direction
        (source.map id (Arrival.mirror problem.day.network)).2) =
        state.isCovered (stopCriteria problem.direction source.2) := by
    intro source
    rw [isCovered_mirror, mirrors.direction, mirrors.imageDirection, Prod.map_snd,
      stopCriteria_mirror]
  simp only [isSettled, hEmpty, arrivalsAt_mirror, List.all_map, Function.comp_def, hCovered]
  rfl

/-- A destination is offered to both searches alike. -/
theorem State.offerDestination_mirror (destination : DestinationArrival) :
    (state.mirror problem.day.network).offerDestination image destination.mirror =
      (state.offerDestination problem destination).mirror problem.day.network := by
  have hOffer : (state.destinations.map destinationImage).offer? (destinationRules problem.costSlack)
      (destinationImage (destinationEntry .reverse destination)) =
        (state.destinations.offer? (destinationRules problem.costSlack)
          (destinationEntry .reverse destination)).map (Front.map destinationImage) :=
    Front.offer?_map (fun _ => True) (fun _ _ _ _ => rfl) (fun _ _ => trivial) trivial
  rw [offerDestination, offerDestination, mirrors.costSlack, mirrors.direction,
    mirrors.imageDirection, destinationEntry_mirror]
  rw [show (state.mirror problem.day.network).destinations =
    state.destinations.map destinationImage from rfl, hOffer]
  cases state.destinations.offer? (destinationRules problem.costSlack)
      (destinationEntry .reverse destination) with
  | none => rfl
  | some destinations => simp [mirror]

/-- What is got on at a position is offered alike. -/
theorem offerAll_rideImage {numTrips : Nat} {rides : Front Ride} {boarded : List Ride}
    (hRides : ∀ entry ∈ rides.entries,
      entry = rideEntry problem.direction entry.item ∧ entry.item.trip < numTrips)
    (hBoarded : ∀ ride ∈ boarded, ride.trip < numTrips) :
    (rides.map (rideImage numTrips)).offerAll rideRules
        ((boarded.map (Ride.mirror numTrips)).map (rideEntry image.direction)) =
      (rides.offerAll rideRules (boarded.map (rideEntry problem.direction))).map
        (rideImage numTrips) := by
  rw [mirrors.direction] at hRides ⊢
  rw [mirrors.imageDirection, ← Front.offerAll_map
    (fun entry => entry = rideEntry .reverse entry.item ∧ entry.item.trip < numTrips)
    ?_ hRides ?_, List.map_map, List.map_map]
  · rfl
  · rintro left right ⟨hLeft, hLeftTrip⟩ ⟨hRight, hRightTrip⟩
    rw [hLeft, hRight]
    exact compare_rideImage hLeftTrip hRightTrip
  · intro entry hEntry
    obtain ⟨ride, hRide, rfl⟩ := List.mem_map.mp hEntry
    exact ⟨rfl, hBoarded ride hRide⟩

section Table

variable (tables : table.Mirrors other) {pattern position stop : Nat}
  (hPosition : position < table.numStops)

include tables hPosition

/-- The rides on board alight at mirrored times. -/
theorem alightings_mirror (hTable : problem.day.network.tripTable pattern = .ok table) {round : Nat}
    {rides : List Ride} (hTrips : ∀ ride ∈ rides, ride.trip < table.numTrips)
    {arrivals : List Arrival}
    (h : State.alightings problem table round position stop rides = .ok arrivals) :
    State.alightings image other round (table.numStops - 1 - position) stop
        (rides.map (Ride.mirror table.numTrips)) =
      .ok (arrivals.map (Arrival.mirror problem.day.network)) := by
  induction rides generalizing arrivals with
  | nil =>
      cases h
      rfl
  | cons ride rest ih =>
      obtain ⟨hTrip, hRest⟩ := List.forall_mem_cons.mp hTrips
      obtain ⟨left, hLeft, h⟩ := Checked.bind_eq_ok_iff.mp h
      obtain ⟨others, hOthers, h⟩ := Checked.bind_eq_ok_iff.mp h
      cases h
      refine Checked.bind_eq_ok_iff.mpr
        ⟨-left, mirrors.alightTime tables hPosition hTrip hLeft, ?_⟩
      refine Checked.bind_eq_ok_iff.mpr ⟨_, ih hRest hOthers, ?_⟩
      rw [tables.pattern, mirrors.rideArrival hTable]
      rfl

/-- The trips boarded at a stop are mirror images of each other. -/
theorem boardings_mirror (sound : table.Sound) (otherSound : other.Sound)
    {sources : List (Nat × Arrival)}
    (hSources : ∀ source ∈ sources, Clock.Within 2147483646
      (problem.direction.along source.2.time (problem.slackAfter source.2.round)))
    {rides : List Ride} (h : State.boardings problem table position stop sources = .ok rides) :
    State.boardings image other (table.numStops - 1 - position) stop
        (sources.map (Prod.map id (Arrival.mirror problem.day.network))) =
      .ok (rides.map (Ride.mirror table.numTrips)) := by
  induction sources generalizing rides with
  | nil =>
      cases h
      rfl
  | cons source rest ih =>
      obtain ⟨hSource, hRest⟩ := List.forall_mem_cons.mp hSources
      obtain ⟨ride, hRide, h⟩ := Checked.bind_eq_ok_iff.mp h
      obtain ⟨others, hOthers, h⟩ := Checked.bind_eq_ok_iff.mp h
      cases h
      have hImage :=
        mirrors.board? tables hPosition sound otherSound hSource (by simp) hRide
      refine Checked.bind_eq_ok_iff.mpr ⟨_, hImage, ?_⟩
      refine Checked.bind_eq_ok_iff.mpr ⟨_, ih hRest hOthers, ?_⟩
      cases ride <;> rfl

/-- Both searches board at a stop from mirrored records. -/
theorem Books.boardingsAt_mirror (books : Books problem time state)
    (regular : problem.Regular time)
    (hRounds : state.round ≤ Request.maxSupportedTransfers + 1) (sound : table.Sound)
    (otherSound : other.Sound) {rides : List Ride}
    (h : state.boardingsAt problem table position stop = .ok rides) :
    (state.mirror problem.day.network).boardingsAt image other (table.numStops - 1 - position)
        stop = .ok (rides.map (Ride.mirror table.numTrips)) := by
  unfold State.boardingsAt at h ⊢
  rw [show (state.mirror problem.day.network).reachedLast = state.reachedLast from rfl]
  split at h
  · rename_i hReached
    rw [if_pos hReached, State.arrivalsAt_mirror]
    refine boardings_mirror mirrors tables hPosition sound otherSound (fun source hMem => ?_) h
    obtain ⟨hSource, -, hRound⟩ := books.of_mem_arrivalsAt hMem
    have hArrival := Arrivals.mem_toList_of_get? hSource
    exact books.records.within_along regular.modest regular.time hArrival
      ((books.round_le _ hArrival).trans hRounds) (regular.modest.slackAfter _)
  · rename_i hReached
    rw [if_neg hReached]
    cases h
    rfl

end Table

end Steps

section Phases

variable {pattern : Nat} (books : Books problem time state) (regular : problem.Regular time)
  (hBegun : 0 < state.round) (hRounds : state.round ≤ Request.maxSupportedTransfers + 1)
  (mirrors : problem.Mirrors image)

include books regular hBegun hRounds mirrors

/-- A pass of the image goes through the images of the same states and of the same fronts. -/
theorem Books.pass_mirror (tables : table.Mirrors other) (otherSound : other.Sound)
    (hTable : problem.day.network.tripTable pattern = .ok table)
    (hActive : problem.day.activePatterns.contains pattern = true) {positions : List Nat}
    (hOrder : positions.Pairwise problem.direction.Precedes)
    (hInside : ∀ position ∈ positions, position < table.numStops) {rides : Front Ride}
    (hRides : AllOnBoard problem table state.arrivals state.round positions rides)
    {after : State}
    (h : State.pass problem table (State.add problem) positions rides state = .ok after) :
    State.pass image other (State.add image) (positions.map (table.numStops - 1 - ·))
        (rides.map (rideImage table.numTrips)) (state.mirror problem.day.network) =
      .ok (after.mirror problem.day.network) := by
  induction positions generalizing state rides with
  | nil =>
      cases h
      rfl
  | cons position rest ih =>
      have sound := regular.sound.table hTable
      obtain ⟨hFirst, hOrder⟩ := List.pairwise_cons.mp hOrder
      have hPosition := hInside position (List.mem_cons_self ..)
      obtain ⟨stop, hStop⟩ := TripTable.exists_stopAt hPosition
      obtain ⟨arrivals, hArrivals, hBooks, hOnward, -⟩ :=
        books.leave regular hTable hActive hStop hRides.onBoard
      have hNextRounds := hOnward.round ▸ hRounds
      have hNextBegun := hOnward.round ▸ hBegun
      obtain ⟨boarded, hBoarded, hOnBoard, -⟩ :=
        hBooks.board regular hNextBegun hNextRounds sound hStop hFirst
      rw [State.pass_cons state hStop hArrivals hBoarded] at h
      have hImageItems : (rides.map (rideImage table.numTrips)).items =
          rides.items.map (Ride.mirror table.numTrips) := by
        simp only [Front.items, Front.map, List.map_map]
        rfl
      have hImageArrivals := alightings_mirror mirrors tables hPosition hTable
        (fun ride hRide => (hRides.onBoard ride hRide).lt_numTrips) hArrivals
      rw [← hImageItems] at hImageArrivals
      have hImageBoarded := hBooks.boardingsAt_mirror mirrors tables hPosition regular hNextRounds
        sound otherSound hBoarded
      rw [← State.foldl_add_mirror mirrors] at hImageBoarded
      have hOffered := offerAll_rideImage mirrors
        (fun entry hEntry => ⟨(hRides entry hEntry).1, (hRides entry hEntry).2.lt_numTrips⟩)
        (fun ride hRide => (hOnBoard ride hRide).lt_numTrips)
      rw [List.map_cons, State.pass_cons (state.mirror problem.day.network)
        ((tables.stopAt hPosition).trans hStop) hImageArrivals hImageBoarded,
        State.foldl_add_mirror mirrors, hOffered]
      exact ih hBooks hNextBegun hNextRounds hOrder
        (fun later hLater => hInside later (List.mem_cons_of_mem _ hLater))
        (hRides.board hOnward hOnBoard) h

/-- The scan of a pattern mirrors that of its image. -/
theorem Books.scan_mirror (tables : table.Mirrors other) (otherSound : other.Sound)
    (hTable : problem.day.network.tripTable pattern = .ok table)
    (hActive : problem.day.activePatterns.contains pattern = true)
    {after : State} (h : State.scan problem (State.add problem) table state = .ok after) :
    State.scan image (State.add image) other (state.mirror problem.day.network) =
      .ok (after.mirror problem.day.network) := by
  have hPositions := Direction.positions_pairwise problem.direction table.numStops
  unfold State.scan at h ⊢
  rw [mirrors.imageDirection, tables.numStops, Direction.positions_forward, ← mirrors.direction]
  exact books.pass_mirror regular hBegun hRounds mirrors tables otherSound
    hTable hActive hPositions (fun position hMem => Direction.mem_positions.mp hMem) .empty h

/-- The scans of a round mirror each other, pattern by pattern. -/
theorem Books.scanAll_mirror {patterns : List Nat}
    (hPatterns : ∀ pattern ∈ patterns, problem.day.activePatterns.contains pattern = true ∧
      pattern < problem.day.network.numPatterns) :
    ∃ after, (strategy problem).scanAll problem.day.network patterns state = .ok after ∧
      (strategy image).scanAll image.day.network patterns (state.mirror problem.day.network) =
        .ok (after.mirror problem.day.network) := by
  exact mirrors.exists_scanAll regular (strategy problem) (strategy image)
    (State.mirror problem.day.network)
    (fun next => Books problem time next ∧ Onward problem state next) hPatterns
    (fun hTable tables otherSound hActive ⟨hBooks, hOnward⟩ => by
      have hNextRounds := hOnward.round ▸ hRounds
      have hNextBegun := hOnward.round ▸ hBegun
      obtain ⟨after, hAfter, hBooksAfter, hOnwardAfter, -⟩ :=
        hBooks.scan regular hNextBegun hNextRounds hTable hActive
      exact ⟨after, hAfter, hBooks.scan_mirror regular hNextBegun hNextRounds mirrors tables
        otherSound hTable hActive hAfter, hBooksAfter, hOnward.trans hOnwardAfter⟩)
    ⟨books, Onward.refl problem state⟩

/-- The walks of a round mirror each other. -/
theorem Books.walk_mirror :
    (state.mirror problem.day.network).walk image (State.add image) =
      (state.walk problem (State.add problem)).mirror problem.day.network := by
  rw [State.walk, State.walkSources_mirror]
  refine mirrors.walkAll_eq (State.mirror problem.day.network)
    (fun next => Books problem time next ∧ Onward problem state next)
    (fun source hMem transfer hWalk next ⟨hBooks, hOnward⟩ => ?_) ⟨books, Onward.refl problem state⟩
  obtain ⟨hSource, hFoot⟩ := books.of_mem_walkSources hBegun hMem
  have hRound := hOnward.round ▸ hRounds
  have hFound := hOnward.arrivals _ _ hSource
  have hArrival := Arrivals.mem_toList_of_get? hFound
  obtain ⟨hBooksNext, hStep, -⟩ :=
    hBooks.walkAlong regular hRound hFound (hFoot.trans hOnward.round.symm) hWalk rfl
  refine ⟨⟨hBooksNext, hOnward.trans hStep⟩, ?_⟩
  rw [Prod.map_fst, Prod.map_snd, mirrors.walkArrival, State.add_mirror mirrors]
  · rfl
  · exact hBooks.records.within_along regular.modest regular.time hArrival
      ((hBooks.round_le _ hArrival).trans hRound) (regular.modest.network.transfers hWalk)

omit hBegun

/-- Both searches have mirrored candidates for the destination. -/
theorem Books.candidates_mirror :
    (state.mirror problem.day.network).candidates image =
      (state.candidates problem).map DestinationArrival.mirror := by
  have hRide := State.filter_isTransit_mirror problem.day.network true
  simp only [beq_true] at hRide
  simp only [State.candidates, State.arrivalsAt_mirror, List.map_flatMap, hRide, List.flatMap_map]
  refine List.flatMap_congr fun stop _ => List.flatMap_congr fun source hMem => ?_
  rw [mirrors.endLegsAt, List.map_map]
  refine List.map_congr_left fun leg hLeg => ?_
  obtain ⟨hSource, -, -⟩ := books.of_mem_arrivalsAt (List.mem_filter.mp hMem).1
  have hArrival := Arrivals.mem_toList_of_get? hSource
  exact mirrors.destinationArrival (books.records.within_along regular.modest regular.time hArrival
    ((books.round_le _ hArrival).trans hRounds)
    (regular.modest.legs leg (Or.inr (Problem.mem_endLegsAt.mp hLeg).1)))

/-- Both searches finish a round in mirrored states. -/
theorem Books.finish_mirror :
    (state.mirror problem.day.network).finish image =
      (state.finish problem).mirror problem.day.network := by
  rw [State.finish, State.finish, books.candidates_mirror regular hRounds mirrors, List.foldl_map]
  exact (Strategy.foldl_image (State.mirror problem.day.network) (fun _ => True)
    (fun destination _ _ _ => ⟨trivial, State.offerDestination_mirror mirrors destination⟩)
    trivial).2

omit hRounds

/-- The rounds of a reverse search and of the forward one on the image are alike. -/
theorem Books.roundsAlike (hRounds : state.round + 1 ≤ Request.maxSupportedTransfers + 1) :
    ∃ next, (strategy problem).RoundsAlike (strategy image) problem.day image.day
        (State.mirror problem.day.network) (state.round + 1) state next ∧
      Books problem time next ∧ next.round = state.round + 1 := by
  have hPatterns : (strategy image).patterns image.day
      ((state.mirror problem.day.network).beginRound (state.round + 1)) =
        (strategy problem).patterns problem.day (state.beginRound (state.round + 1)) :=
    mirrors.day.patternsTouching _
  obtain ⟨scanned, hScanned, passed⟩ := books.exists_passed regular hRounds
  have hScannedRound : scanned.round = state.round + 1 := passed.scanning.round
  have hWalkedRound : (scanned.walk problem (State.add problem)).round = state.round + 1 :=
    passed.onward.round
  obtain ⟨after, hAfter, hImage⟩ := books.beginRound.scanAll_mirror regular (Nat.succ_pos _) hRounds
    mirrors ((strategy problem).patterns_known problem.day (state.beginRound (state.round + 1)))
  rw [hScanned, Except.ok.injEq] at hAfter
  subst hAfter
  obtain ⟨next, hRound, hBooks, hNextRound, -⟩ := books.exists_round regular hRounds
  refine ⟨next, .of_round hRound hPatterns hScanned hImage ?_, hBooks, hNextRound⟩
  rw [finish_strategy, walk_strategy, finish_strategy, walk_strategy,
    passed.scan.walk_mirror regular (hScannedRound ▸ Nat.succ_pos _) (hScannedRound ▸ hRounds)
      mirrors,
    passed.walk.finish_mirror regular (hWalkedRound ▸ hRounds) mirrors]

end Phases

/-- Both searches start from mirrored states. -/
theorem Books.start_mirror (regular : problem.Regular time) (mirrors : problem.Mirrors image) :
    (strategy image).start (-time) =
      ((strategy problem).start time).mirror problem.day.network := by
  have hArrivals : image.startLegs.map (image.accessArrival (-time)) =
      (problem.startLegs.map (problem.accessArrival time)).map
        (Arrival.mirror problem.day.network) := by
    rw [mirrors.startLegs, List.map_map]
    exact List.map_congr_left fun leg hLeg =>
      mirrors.accessArrival (Records.within_startLeg regular.modest regular.time hLeg)
  simp only [strategy, strategyWith]
  rw [hArrivals, initial_mirror mirrors]
  exact State.foldl_add_mirror mirrors _ _

end Search.MultiCriteria

end JourneyPlanner
