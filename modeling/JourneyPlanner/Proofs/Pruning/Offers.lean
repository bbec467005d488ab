import JourneyPlanner.Proofs.Pareto.Agreement
import JourneyPlanner.Proofs.Relisting.Rounds
import JourneyPlanner.Proofs.Search.Progress

/-! What rides offer, as far as it passes a test. A ride got on after an arrival that fails the test is
left at arrivals that fail it, and so are those rides that it is better than. -/
namespace JourneyPlanner.Search.MultiCriteria

variable {problem : Problem} {time : Int} {state image : State} {table : TripTable}
  {covered : List Int → Bool}

/-- A test that is met by every arrival on the way to which it was met, and by every arrival that is
no better than one that meets it. -/
def Lasting (problem : Problem) (covered : List Int → Bool) : Prop :=
  ∀ ⦃source arrival : Arrival⦄, problem.Advances source arrival →
    covered (stopCriteria problem.direction source) = true →
      covered (stopCriteria problem.direction arrival) = true

/-- What does not meet a lasting test did not meet it on the way. -/
theorem Lasting.open_of_advances (lasting : Lasting problem covered) {source arrival : Arrival}
    (advances : problem.Advances source arrival)
    (hOpen : covered (stopCriteria problem.direction arrival) = false) :
    covered (stopCriteria problem.direction source) = false :=
  Bool.eq_false_iff.mpr fun h => by rw [lasting advances h] at hOpen; cases hOpen

/-- A record covers only what is no earlier, of no fewer rounds and no cheaper. -/
theorem advances_of_covers {arrival other : Arrival}
    (h : stopRules.covers (stopCriteria problem.direction arrival)
      (stopCriteria problem.direction other) = true) : problem.Advances arrival other := by
  obtain ⟨hTime, hRound, hCost, -⟩ := covers_stopCriteria_iff.mp h
  exact ⟨hTime, hRound, fun _ => hCost⟩

/-- Where time is no gain, what a way to the destination covers stays covered. -/
theorem Books.lasting (books : Books problem time state) (hRates : problem.cost.Nonneg) :
    Lasting problem state.isCovered := by
  intro source arrival advances hCovered
  obtain ⟨held, hHeld, hCovers⟩ := List.any_eq_true.mp hCovered
  have hCost := advances.cost hRates
  refine List.any_eq_true.mpr ⟨held, hHeld, ?_⟩
  rw [books.destinations_entry held hHeld, covers_take_stopCriteria_iff] at hCovers ⊢
  exact ⟨Int.le_trans hCovers.1 advances.time, Nat.le_trans hCovers.2.1 advances.round,
    Int.le_trans hCovers.2.2 hCost⟩

/-- Each of some arrivals that does not meet the test matches one of some others. -/
def Sifted (problem : Problem) (covered : List Int → Bool) (arrivals others : List Arrival) : Prop :=
  ∀ arrival ∈ arrivals, covered (stopCriteria problem.direction arrival) = false →
    ∃ other ∈ others, arrival.Matches other

/-- A ride that was got on after one of these arrivals. -/
def BoardedAfter (problem : Problem) (table : TripTable) (sources : Nat → List (Nat × Arrival))
    (ride : Ride) : Prop :=
  ∃ first stop source, table.stopAt first = .ok stop ∧ source ∈ sources stop ∧
    board? problem table first stop source.1 source.2 none = .ok (some ride)

/-- The values on which a ride on some trip of the table compares. -/
def OfTrips (problem : Problem) (table : TripTable) (values : List Int) : Prop :=
  ∃ ride : Ride, ride.trip < table.numTrips ∧ values = (rideEntry problem.direction ride).criteria

theorem ofTrips_orderly (problem : Problem) (table : TripTable) :
    rideRules.Orderly (OfTrips problem table) :=
  rideRules_orderly.mono fun _ ⟨_, _, hValues⟩ => hValues ▸ fits_rideEntry ..

/-- All rides of a front were got on after these arrivals, and have the values on which they compare.
-/
structure Boards (problem : Problem) (table : TripTable) (sources : Nat → List (Nat × Arrival))
    (rides : Front Ride) : Prop where
  tidy : rides.Tidy rideRules
  ofRides : OfRides problem.direction rides
  boarded : ∀ ride ∈ rides.items, BoardedAfter problem table sources ride

namespace Boards

variable {sources : Nat → List (Nat × Arrival)} {rides : Front Ride}

theorem ofTrips (boards : Boards problem table sources rides) :
    ∀ held ∈ rides.entries, OfTrips problem table held.criteria := by
  intro held hHeld
  obtain ⟨first, stop, source, -, -, hBoard⟩ := boards.boarded _ (List.mem_map_of_mem hHeld)
  exact ⟨held.item, (boarded_of_board? hBoard).runs.lt_numTrips,
    congrArg Entry.criteria (boards.ofRides held hHeld)⟩

theorem empty : Boards problem table sources Front.empty :=
  ⟨Front.tidy_empty _, List.forall_mem_nil _, List.forall_mem_nil _⟩

theorem offerAll (boards : Boards problem table sources rides) {boarded : List Ride}
    (hBoarded : ∀ ride ∈ boarded, BoardedAfter problem table sources ride) :
    Boards problem table sources
      (rides.offerAll rideRules (boarded.map (rideEntry problem.direction))) := by
  refine ⟨boards.tidy.offerAll _, boards.ofRides.offerAll _, fun ride hRide => ?_⟩
  obtain ⟨entry, hEntry, rfl⟩ := List.mem_map.mp hRide
  rcases Front.mem_of_mem_offerAll hEntry with hOld | hNew
  · exact boards.boarded _ (List.mem_map_of_mem hOld)
  · obtain ⟨ride, hBoard, rfl⟩ := List.mem_map.mp hNew
    exact hBoarded ride hBoard

end Boards

/-- Whatever is boarded at a stop is got on after one of the arrivals there. -/
theorem boardedAfter_of_boardings {sources : Nat → List (Nat × Arrival)} {position stop : Nat}
    {boarded : List Ride} (hStop : table.stopAt position = .ok stop)
    (h : State.boardings problem table position stop (sources stop) = .ok boarded) :
    ∀ ride ∈ boarded, BoardedAfter problem table sources ride := by
  intro ride hRide
  obtain ⟨source, hSource, hBoard⟩ := (mem_of_boardings h).mp hRide
  exact ⟨position, stop, source, hStop, hSource, hBoard⟩

theorem ofTrips_of_boardings {sources : List (Nat × Arrival)} {position stop : Nat}
    {boarded : List Ride}
    (h : State.boardings problem table position stop sources = .ok boarded) :
    ∀ entry ∈ boarded.map (rideEntry problem.direction), OfTrips problem table entry.criteria := by
  intro entry hEntry
  obtain ⟨ride, hRide, rfl⟩ := List.mem_map.mp hEntry
  obtain ⟨source, -, hBoard⟩ := (mem_of_boardings h).mp hRide
  exact ⟨ride, (boarded_of_board? hBoard).runs.lt_numTrips, rfl⟩

/-- Leaving a ride at a position makes an arrival that does not meet the test. -/
def Live (problem : Problem) (table : TripTable) (covered : List Int → Bool)
    (round position : Nat) (ride : Ride) : Prop :=
  ∃ passing, table.timeAt ride.trip position = .ok passing ∧
    covered (stopCriteria problem.direction (ride.arrival problem round table.pattern ride.stop
      (problem.direction.alightTime passing))) = false

namespace Live

variable {round position : Nat} {ride other : Ride}

/-- A ride that can be left for something new is live. -/
theorem of_left {left : Int} {stop : Nat}
    (hLeft : ride.alightTime problem table position = .ok left)
    (hOpen : covered (stopCriteria problem.direction
      (ride.arrival problem round table.pattern stop left)) = false) :
    Live problem table covered round position ride := by
  obtain ⟨passing, hPassing, rfl, -⟩ := Ride.alightTime_eq_ok_iff.mp hLeft
  exact ⟨passing, hPassing, hOpen⟩

/-- Whether a ride is live depends on its trip and its cost only. -/
theorem of_same (live : Live problem table covered round position ride)
    (hTrip : other.trip = ride.trip) (hCost : other.relativeCost = ride.relativeCost) :
    Live problem table covered round position other := by
  obtain ⟨passing, hPassing, hOpen⟩ := live
  refine ⟨passing, hTrip ▸ hPassing, ?_⟩
  simp only [Ride.arrival, hCost] at hOpen ⊢
  exact hOpen

/-- A ride that is better than a live one is live. -/
theorem of_noWorse (lasting : Lasting problem covered) (sound : table.Sound)
    (live : Live problem table covered round position ride) (hInside : position < table.numStops)
    (hKnown : other.trip < table.numTrips)
    (hTrip : problem.direction.tripCriterion other.trip ≤ problem.direction.tripCriterion ride.trip)
    (hCost : other.relativeCost ≤ ride.relativeCost) :
    Live problem table covered round position other := by
  obtain ⟨later, hLater, hOpen⟩ := live
  obtain ⟨passing, hPassing⟩ := sound.toShaped.exists_timeAt hKnown hInside
  have hTime := sound.alightTime_le_of_tripCriterion_le hTrip hInside hPassing hLater
  have advances : problem.Advances
      (other.arrival problem round table.pattern other.stop (problem.direction.alightTime passing))
      (ride.arrival problem round table.pattern ride.stop (problem.direction.alightTime later)) := by
    refine ⟨hTime, Nat.le_refl _, fun hRates => ?_⟩
    have hRide := Int.mul_le_mul_of_nonneg_right hTime hRates.transitReluctance
    simp only [Ride.arrival, Problem.rideCostAt, CostRates.transitCostAt]
    omega
  exact ⟨passing, hPassing, lasting.open_of_advances advances hOpen⟩

end Live

def LiveAt (problem : Problem) (table : TripTable) (covered : List Int → Bool)
    (round position : Nat) (values : List Int) : Prop :=
  ∃ ride, (rideEntry problem.direction ride).criteria = values ∧
    Live problem table covered round position ride

theorem liveAt_rideEntry {round position : Nat} {ride : Ride} :
    LiveAt problem table covered round position (rideEntry problem.direction ride).criteria ↔
      Live problem table covered round position ride := by
  constructor
  · rintro ⟨other, hSame, live⟩
    obtain ⟨hTrip, hCost⟩ := rideEntry_eq_iff.mp hSame
    exact live.of_same hTrip.symm hCost.symm
  · exact fun live => ⟨ride, rfl, live⟩

section Sources

variable (books : Books problem time state) (regular : problem.Regular time)
  (hSlack : 0 ≤ problem.boardSlack) (hBegun : 0 < state.round)
  (hRounds : state.round ≤ Request.maxSupportedTransfers + 2) {pattern : Nat}
  (hTable : problem.day.network.tripTable pattern = .ok table)

include books regular hSlack hBegun hRounds hTable

/-- Where a ride is left is no better than where it was got on. -/
theorem Books.advances_ride {first stop position target : Nat} {source : Nat × Arrival}
    {ride : Ride} {left : Int} (hStop : table.stopAt first = .ok stop)
    (hSource : source ∈ state.sources stop)
    (hBoard : board? problem table first stop source.1 source.2 none = .ok (some ride))
    (hLeft : ride.alightTime problem table position = .ok left) :
    problem.Advances source.2 (ride.arrival problem state.round table.pattern target left) := by
  obtain ⟨hId, -, hRound⟩ := books.of_mem_sources hBegun hSource
  exact hRound ▸ books.records.advances_ride regular hSlack (Arrivals.mem_toList_of_get? hId)
    (by omega) hTable (TripTable.lt_numStops_of_stopAt hStop) hBoard hLeft

/-- A ride that is live further on was got on after an arrival that does not meet the test. -/
theorem Books.open_source (lasting : Lasting problem covered) {first stop position : Nat}
    {source : Nat × Arrival} {ride : Ride} (hStop : table.stopAt first = .ok stop)
    (hSource : source ∈ state.sources stop)
    (hBoard : board? problem table first stop source.1 source.2 none = .ok (some ride))
    (hOrder : problem.direction.Precedes first position) (hInside : position < table.numStops)
    (live : Live problem table covered state.round position ride) :
    covered (stopCriteria problem.direction source.2) = false := by
  obtain ⟨passing, hPassing, hOpen⟩ := live
  obtain ⟨boardedAt, hBoardedAt, hTime⟩ := (boarded_of_board? hBoard).time
  have hForward := (regular.sound.table hTable).boardTime_le_alightTime hOrder
    (TripTable.lt_numStops_of_stopAt hStop) hInside hBoardedAt hPassing
  rw [← hTime] at hForward
  exact lasting.open_of_advances (books.advances_ride regular hSlack hBegun hRounds hTable hStop
    hSource hBoard (Ride.alightTime_eq_ok_iff.mpr ⟨passing, hPassing, rfl, hForward⟩)) hOpen

/-- What passing positions offers comes from an arrival to go on from that is no worse. -/
theorem Books.exists_source_of_passOffers {positions : List Nat} {rides : Front Ride}
    {offers : List Arrival}
    (h : passOffers problem table state.round state.sources positions rides = .ok offers)
    (boards : Boards problem table state.sources rides) {arrival : Arrival}
    (hMem : arrival ∈ offers) :
    ∃ first stop source, table.stopAt first = .ok stop ∧ source ∈ state.sources stop ∧
      problem.Advances source.2 arrival := by
  induction positions generalizing rides offers with
  | nil =>
      cases h
      cases hMem
  | cons position rest ih =>
      obtain ⟨stop, arrivals, boarded, others, hStop, hArrivals, hBoarded, hOthers, rfl⟩ :=
        passOffers_cons_eq_ok_iff.mp h
      rcases List.mem_append.mp hMem with hHere | hLater
      · obtain ⟨ride, hRide, left, hLeft, rfl⟩ := (mem_of_alightings hArrivals).mp hHere
        obtain ⟨first, origin, source, hOrigin, hSource, hBoard⟩ := boards.boarded ride hRide
        exact ⟨first, origin, source, hOrigin, hSource,
          books.advances_ride regular hSlack hBegun hRounds hTable hOrigin hSource hBoard hLeft⟩
      · exact ih hOthers (boards.offerAll (boardedAfter_of_boardings hStop hBoarded)) hLater

end Sources

/-- Two states of a search for the same problem that record all that does not meet a test, and the
fronts of which agree on that. -/
structure Abreast (problem : Problem) (time : Int) (covered : List Int → Bool)
    (state image : State) : Prop where
  books : Books problem time state
  imageBooks : Books problem time image
  tally : Tally problem state
  imageTally : Tally problem image
  admits : ∀ values, covered values = false → state.isCovered values = false
  imageAdmits : ∀ values, covered values = false → image.isCovered values = false
  round : image.round = state.round
  fronts : ∀ stop, (state.fronts.get stop).AlikeWhere (fun values => covered values = false)
    (image.fronts.get stop)

namespace Abreast

theorem symm (abreast : Abreast problem time covered state image) :
    Abreast problem time covered image state :=
  ⟨abreast.imageBooks, abreast.books, abreast.imageTally, abreast.tally, abreast.imageAdmits,
    abreast.admits, abreast.round.symm, fun stop => (abreast.fronts stop).symm⟩

/-- What is kept in one state and does not meet the test is kept in the other. -/
theorem exists_matching (abreast : Abreast problem time covered state image) {stop round : Nat}
    {source : Nat × Arrival} (h : source ∈ state.arrivalsAt stop round)
    (hOpen : covered (stopCriteria problem.direction source.2) = false) :
    ∃ same ∈ image.arrivalsAt stop round, source.2.Matches same.2 := by
  obtain ⟨-, hStop, rfl⟩ := abreast.books.of_mem_arrivalsAt h
  exact abreast.imageBooks.exists_matching hStop
    ((abreast.fronts stop _ hOpen).mp (abreast.books.exists_entry h))

/-- What one state goes on from is matched in the other, unless it meets the test. -/
theorem exists_source (abreast : Abreast problem time covered state image)
    (hBegun : 0 < state.round) {stop : Nat} {source : Nat × Arrival}
    (h : source ∈ state.sources stop)
    (hOpen : covered (stopCriteria problem.direction source.2) = false) :
    ∃ same ∈ image.sources stop, source.2.Matches same.2 := by
  rw [abreast.books.sources_eq hBegun] at h
  rw [abreast.imageBooks.sources_eq (abreast.round ▸ hBegun), abreast.round]
  exact abreast.exists_matching h hOpen

end Abreast

/-- If live rides are on both sides, what leaving the rides on one side offers and does not meet the
test is offered on the other side. -/
theorem alightings_sifted {round position stop : Nat} {rides images : Front Ride}
    {arrivals others : List Arrival} (ofRides : OfRides problem.direction rides)
    (ofImages : OfRides problem.direction images)
    (alike : rides.AlikeWhere (LiveAt problem table covered round position) images)
    (h : State.alightings problem table round position stop rides.items = .ok arrivals)
    (hImage : State.alightings problem table round position stop images.items = .ok others) :
    Sifted problem covered arrivals others := by
  intro arrival hMem hOpen
  obtain ⟨ride, hRide, left, hLeft, rfl⟩ := (mem_of_alightings h).mp hMem
  obtain ⟨entry, hEntry, rfl⟩ := List.mem_map.mp hRide
  obtain ⟨held, hHeld, hSame⟩ := (alike _ (liveAt_rideEntry.mpr (.of_left hLeft hOpen))).mp
    ⟨entry, hEntry, congrArg Entry.criteria (ofRides entry hEntry)⟩
  rw [ofImages held hHeld] at hSame
  obtain ⟨hTrip, hCost⟩ := rideEntry_eq_iff.mp hSame
  have hOnBoard : held.item ∈ images.items := List.mem_map_of_mem hHeld
  obtain ⟨imageLeft, hImageLeft⟩ := exists_left_of_alightings hImage _ hOnBoard
  exact ⟨_, (mem_of_alightings hImage).mpr ⟨_, hOnBoard, _, hImageLeft, rfl⟩,
    arrival_matches (.refl problem) hTrip hCost hLeft hImageLeft⟩

section Pass

variable (abreast : Abreast problem time covered state image) (lasting : Lasting problem covered)
  (regular : problem.Regular time) (hSlack : 0 ≤ problem.boardSlack) (hBegun : 0 < state.round)
  (hRounds : state.round ≤ Request.maxSupportedTransfers + 2) {pattern : Nat}
  (hTable : problem.day.network.tripTable pattern = .ok table)

include abreast lasting regular hSlack hBegun hRounds hTable

/-- A ride that is live further on is got on on both sides. -/
theorem Abreast.exists_boarded {position stop later : Nat} {boarded images : List Ride}
    (hStop : table.stopAt position = .ok stop)
    (h : State.boardings problem table position stop (state.sources stop) = .ok boarded)
    (hImage : State.boardings problem table position stop (image.sources stop) = .ok images)
    (hOrder : problem.direction.Precedes position later) (hInside : later < table.numStops)
    {ride : Ride} (hRide : ride ∈ boarded)
    (live : Live problem table covered state.round later ride) :
    ∃ same ∈ images, same.trip = ride.trip ∧ same.relativeCost = ride.relativeCost := by
  obtain ⟨source, hSource, hBoard⟩ := (mem_of_boardings h).mp hRide
  have hOpen := abreast.books.open_source regular hSlack hBegun hRounds hTable lasting hStop hSource
    hBoard hOrder hInside live
  obtain ⟨same, hSame, hMatches⟩ := abreast.exists_source hBegun hSource hOpen
  obtain ⟨onBoard, hOnBoard, hEqual⟩ :=
    @exists_board?_of_matches _ _ _ table.pattern (.refl problem) _ _ _ _ _ hMatches same.1 _ hBoard
  exact ⟨onBoard, (mem_of_boardings hImage).mpr ⟨same, hSame, hOnBoard⟩, hEqual⟩

section Board

variable {position stop later : Nat} {rides images : Front Ride} {boarded imageBoarded : List Ride}
  (alike : rides.AlikeWhere (LiveAt problem table covered state.round later) images)
  (hStop : table.stopAt position = .ok stop)
  (h : State.boardings problem table position stop (state.sources stop) = .ok boarded)
  (hImage : State.boardings problem table position stop (image.sources stop) = .ok imageBoarded)
  (hOrder : problem.direction.Precedes position later) (hInside : later < table.numStops)

include alike hStop h hImage hOrder hInside

/-- Values of a live ride on board, or got on, are on the other side as well. -/
theorem Abreast.exists_live {values : List Int}
    (hLive : LiveAt problem table covered state.round later values)
    (hHeld : ∃ entry ∈ rides.entries ++ boarded.map (rideEntry problem.direction),
      entry.criteria = values) :
    ∃ entry ∈ images.entries ++ imageBoarded.map (rideEntry problem.direction),
      entry.criteria = values := by
  obtain ⟨entry, hEntry, rfl⟩ := hHeld
  rcases List.mem_append.mp hEntry with hOld | hNew
  · obtain ⟨held, hMem, hSame⟩ := (alike _ hLive).mp ⟨entry, hOld, rfl⟩
    exact ⟨held, List.mem_append_left _ hMem, hSame⟩
  · obtain ⟨ride, hRide, rfl⟩ := List.mem_map.mp hNew
    obtain ⟨same, hMem, hSame⟩ := abreast.exists_boarded lasting regular hSlack hBegun hRounds hTable
      hStop h hImage hOrder hInside hRide (liveAt_rideEntry.mp hLive)
    exact ⟨_, List.mem_append_right _ (List.mem_map_of_mem hMem), rideEntry_eq_iff.mpr hSame⟩

/-- After rides are got on the live ones are on both sides. -/
theorem Abreast.alike_board (boards : Boards problem table state.sources rides)
    (imageBoards : Boards problem table image.sources images) :
    (rides.offerAll rideRules (boarded.map (rideEntry problem.direction))).AlikeWhere
      (LiveAt problem table covered state.round later)
      (images.offerAll rideRules (imageBoarded.map (rideEntry problem.direction))) := by
  refine Front.AlikeWhere.offerAll (ofTrips_orderly problem table) boards.tidy imageBoards.tidy
    boards.ofTrips (ofTrips_of_boardings h) imageBoards.ofTrips (ofTrips_of_boardings hImage) ?_
    fun values hLive => ⟨?_, ?_⟩
  · rintro _ _ ⟨better, hKnown, rfl⟩ ⟨worse, -, rfl⟩ hCovers hLive
    obtain ⟨hTrip, hCost⟩ := covers_rideEntry_iff.mp hCovers
    exact liveAt_rideEntry.mpr ((liveAt_rideEntry.mp hLive).of_noWorse lasting
      (regular.sound.table hTable) hInside hKnown hTrip hCost)
  · exact abreast.exists_live lasting regular hSlack hBegun hRounds hTable alike hStop h hImage hOrder
      hInside hLive
  · rw [← abreast.round] at alike hLive hBegun hRounds
    exact abreast.symm.exists_live lasting regular hSlack hBegun hRounds hTable alike.symm hStop hImage
      h hOrder hInside hLive

end Board

/-- Passing the same positions offers on both sides what does not meet the test. The induction is on
the positions; what it carries is that rides that are live further on are on board on both sides. -/
theorem Abreast.passOffers_sifted {positions : List Nat} {rides images : Front Ride}
    {offers others : List Arrival} (hOrder : positions.Pairwise problem.direction.Precedes)
    (hInside : ∀ position ∈ positions, position < table.numStops)
    (h : passOffers problem table state.round state.sources positions rides = .ok offers)
    (hImage : passOffers problem table state.round image.sources positions images = .ok others)
    (boards : Boards problem table state.sources rides)
    (imageBoards : Boards problem table image.sources images)
    (alike : ∀ position ∈ positions,
      rides.AlikeWhere (LiveAt problem table covered state.round position) images) :
    Sifted problem covered offers others := by
  induction positions generalizing rides images offers others with
  | nil =>
      cases h
      exact List.forall_mem_nil _
  | cons position rest ih =>
      obtain ⟨stop, arrivals, boarded, later, hStop, hArrivals, hBoarded, hLater, rfl⟩ :=
        passOffers_cons_eq_ok_iff.mp h
      obtain ⟨same, imageArrivals, imageBoarded, imageLater, hSame, hImageArrivals, hImageBoarded,
        hImageLater, rfl⟩ := passOffers_cons_eq_ok_iff.mp hImage
      rw [hStop, Except.ok.injEq] at hSame
      subst hSame
      obtain ⟨hFirst, hOrder⟩ := List.pairwise_cons.mp hOrder
      obtain ⟨-, hInside⟩ := List.forall_mem_cons.mp hInside
      obtain ⟨hHere, hAlike⟩ := List.forall_mem_cons.mp alike
      have hArrived := alightings_sifted boards.ofRides imageBoards.ofRides hHere hArrivals
        hImageArrivals
      have hRest := ih hOrder hInside hLater hImageLater
        (boards.offerAll (boardedAfter_of_boardings hStop hBoarded))
        (imageBoards.offerAll (boardedAfter_of_boardings hStop hImageBoarded))
        fun next hNext => abreast.alike_board lasting regular hSlack hBegun hRounds hTable
          (hAlike next hNext) hStop hBoarded hImageBoarded (hFirst next hNext) (hInside next hNext)
          boards imageBoards
      intro arrival hMem hOpen
      rcases List.mem_append.mp hMem with hNow | hThen
      · obtain ⟨other, hOther, hMatches⟩ := hArrived arrival hNow hOpen
        exact ⟨other, List.mem_append_left _ hOther, hMatches⟩
      · obtain ⟨other, hOther, hMatches⟩ := hRest arrival hThen hOpen
        exact ⟨other, List.mem_append_right _ hOther, hMatches⟩

end Pass

section Round

variable (abreast : Abreast problem time covered state image) (lasting : Lasting problem covered)
  (regular : problem.Regular time) (hSlack : 0 ≤ problem.boardSlack) (hBegun : 0 < state.round)
  (hRounds : state.round ≤ Request.maxSupportedTransfers + 2)

include regular hSlack hBegun hRounds

/-- What riding offers and does not meet the test comes from an arrival to go on from that does not
meet it. -/
theorem Books.exists_source_of_rideOffers (books : Books problem time state)
    (lasting : Lasting problem covered) {patterns : List Nat} {offers : List Arrival}
    (h : rideOffers problem state.round state.sources patterns = .ok offers) {arrival : Arrival}
    (hMem : arrival ∈ offers) (hOpen : covered (stopCriteria problem.direction arrival) = false) :
    ∃ pattern ∈ patterns, ∃ table position stop source,
      problem.day.network.tripTable pattern = .ok table ∧ table.stopAt position = .ok stop ∧
      (∃ made, scanOffers problem state.round state.sources table = .ok made ∧ arrival ∈ made) ∧
      source ∈ state.sources stop ∧ covered (stopCriteria problem.direction source.2) = false := by
  obtain ⟨pattern, hPattern, table, made, hTable, hMade, hArrival⟩ := (mem_of_rideOffers h).mp hMem
  obtain ⟨position, stop, source, hStop, hSource, advances⟩ :=
    books.exists_source_of_passOffers regular hSlack hBegun hRounds hTable hMade .empty hArrival
  exact ⟨pattern, hPattern, table, position, stop, source, hTable, hStop, ⟨made, hMade, hArrival⟩,
    hSource, lasting.open_of_advances advances hOpen⟩

include abreast lasting

/-- Riding offers on both sides what does not meet the test, if no pattern is left out from a stop
of which there is something to go on. -/
theorem Abreast.rideOffers_sifted {patterns places : List Nat} {offers others : List Arrival}
    (h : rideOffers problem state.round state.sources patterns = .ok offers)
    (hImage : rideOffers problem image.round image.sources places = .ok others)
    (hTouched : ∀ pattern ∈ patterns, ∀ {table position stop},
      problem.day.network.tripTable pattern = .ok table → table.stopAt position = .ok stop →
      image.sources stop ≠ [] → pattern ∈ places) : Sifted problem covered offers others := by
  rw [abreast.round] at hImage
  intro arrival hMem hOpen
  obtain ⟨pattern, hPattern, table, position, stop, source, hTable, hStop, ⟨made, hMade, hArrival⟩,
    hSource, hSourceOpen⟩ := abreast.books.exists_source_of_rideOffers regular hSlack hBegun hRounds
      lasting h hMem hOpen
  obtain ⟨same, hSame, -⟩ := abreast.exists_source hBegun hSource hSourceOpen
  have hPlace := hTouched pattern hPattern hTable hStop (List.ne_nil_of_mem hSame)
  obtain ⟨other, imageMade, hOther, hImageMade⟩ := exists_made_of_rideOffers hImage pattern hPlace
  rw [hTable, Except.ok.injEq] at hOther
  subst hOther
  obtain ⟨found, hFound, hMatches⟩ := abreast.passOffers_sifted lasting regular hSlack hBegun
    hRounds hTable (Direction.positions_pairwise problem.direction table.numStops)
    (fun _ hPosition => Direction.mem_positions.mp hPosition) hMade hImageMade .empty .empty
    (fun _ _ => .refl _ _) arrival hArrival hOpen
  exact ⟨found, (mem_of_rideOffers hImage).mpr
    ⟨pattern, hPlace, table, imageMade, hTable, hImageMade, hFound⟩, hMatches⟩

end Round

end JourneyPlanner.Search.MultiCriteria
