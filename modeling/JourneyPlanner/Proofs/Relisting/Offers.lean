import JourneyPlanner.Proofs.Relisting.Query
import JourneyPlanner.Proofs.Search.MultiCriteria.Fronts

/-! What rides offer does not depend on the order of a listing. Records then have other numbers, and
a front may keep another of two equal alternatives, but stops, rounds, times and costs are the same.
Main statement: from arrivals that match, riding offers arrivals that match. -/
namespace JourneyPlanner

/-- Two arrivals that a search can make no difference between, except by their predecessors. -/
structure Arrival.Matches (arrival other : Arrival) : Prop where
  stop : other.stop = arrival.stop
  round : other.round = arrival.round
  time : other.time = arrival.time
  cost : other.cost = arrival.cost
  isTransit : other.isTransit = arrival.isTransit

/-- Each of some arrivals matches one of some others. -/
def Arrival.Matched (arrivals others : List Arrival) : Prop :=
  ∀ arrival ∈ arrivals, ∃ other ∈ others, arrival.Matches other

namespace Search

/-- Two problems that differ only in the order in which they are listed. -/
structure Problem.Relists (problem other : Problem) : Prop where
  listed : problem.ListedIn other
  back : other.ListedIn problem

theorem Problem.Relists.symm {problem other : Problem} (relists : problem.Relists other) :
    other.Relists problem :=
  ⟨relists.back, relists.listed⟩

namespace MultiCriteria

variable {problem other : Problem} {table : TripTable} {direction : Direction} {place : Nat}

/-- The number of a pattern has no bearing on the trips that can be caught. -/
theorem boardable_renumbered (isActive : Nat → Bool) (position : Nat) (ready : Int)
    (bound : Option Nat) :
    (table.renumbered place).boardable isActive direction position ready bound =
      table.boardable isActive direction position ready bound := by
  have hTimes : (table.renumbered place).timeAt = table.timeAt := rfl
  have hRunning : ∀ trips, (table.renumbered place).firstRunning isActive trips =
      table.firstRunning isActive trips := by
    intro trips
    induction trips with
    | nil => rfl
    | cons trip rest ih =>
        rw [TripTable.firstRunning, TripTable.firstRunning, ih]
        rfl
  have hTrips : (table.renumbered place).numTrips = table.numTrips := rfl
  cases direction with
  | forward =>
      simp only [TripTable.boardable, TripTable.earliestDeparting, hTimes, hRunning, hTrips]
  | reverse =>
      simp only [TripTable.boardable, TripTable.latestArriving, hTimes, hRunning, hTrips]

/-- A ride can be got on from an arrival that matches, on the same trip and at the same cost. -/
theorem exists_board?_of_matches (listed : problem.ListedIn other) {position stop id : Nat}
    {source image : Arrival} (hMatches : source.Matches image) (imageId : Nat) {ride : Ride}
    (h : board? problem table position stop id source none = .ok (some ride)) :
    ∃ onBoard, board? other (table.renumbered place) position stop imageId image none =
        .ok (some onBoard) ∧ onBoard.trip = ride.trip ∧
      onBoard.relativeCost = ride.relativeCost := by
  obtain ⟨trip, time, hTrip, hTime, rfl⟩ := board?_eq_some_iff.mp h
  refine ⟨_, board?_eq_some_iff.mpr ⟨trip, time, ?_, hTime, rfl⟩, rfl, ?_⟩
  · rw [DayTimetable.boardable, listed.isActive, listed.direction]
    simp only [Problem.readyAfter, Problem.slackAfter, listed.direction, listed.boardSlack,
      hMatches.time, hMatches.round] at hTrip ⊢
    rw [boardable_renumbered]
    exact hTrip
  · simp only [Problem.costOnBoard, Problem.rideCostAt, listed.direction, listed.cost,
      hMatches.time, hMatches.cost]

/-- Rides on the same trip at the same cost are left at the same time and cost. -/
theorem arrival_matches (listed : problem.ListedIn other) {round position stop : Nat}
    {ride image : Ride} {left imageLeft : Int} (hTrip : image.trip = ride.trip)
    (hCost : image.relativeCost = ride.relativeCost)
    (hLeft : ride.alightTime problem table position = .ok left)
    (hImageLeft : image.alightTime other (table.renumbered place) position = .ok imageLeft) :
    (ride.arrival problem round table.pattern stop left).Matches
      (image.arrival other round place stop imageLeft) := by
  obtain ⟨time, hTime, rfl, -⟩ := Ride.alightTime_eq_ok_iff.mp hLeft
  obtain ⟨imageTime, hImageTime, rfl, -⟩ := Ride.alightTime_eq_ok_iff.mp hImageLeft
  have hSameTime : imageTime = time := by
    have hAgain : table.timeAt image.trip position = .ok imageTime := hImageTime
    rw [hTrip, hTime, Except.ok.injEq] at hAgain
    exact hAgain.symm
  subst hSameTime
  refine ⟨rfl, rfl, ?_, ?_, rfl⟩
  · simp only [Ride.arrival, listed.direction]
  · simp only [Ride.arrival, Problem.rideCostAt, hCost, listed.direction, listed.cost]

/-- Rides on the same trips at the same costs are left at the same times and costs. -/
theorem alightings_matched (listed : problem.ListedIn other) {round position stop : Nat}
    {arrivals others : List Arrival} {rides images : List Ride}
    (h : State.alightings problem table round position stop rides = .ok arrivals)
    (hOther : State.alightings other (table.renumbered place) round position stop images =
      .ok others)
    (hSame : ∀ ride ∈ rides, ∃ image ∈ images,
      image.trip = ride.trip ∧ image.relativeCost = ride.relativeCost) :
    Arrival.Matched arrivals others := by
  intro arrival hMem
  obtain ⟨ride, hRide, left, hLeft, rfl⟩ := (mem_of_alightings h).mp hMem
  obtain ⟨image, hImage, hTrip, hCost⟩ := hSame ride hRide
  obtain ⟨imageLeft, hImageLeft⟩ := exists_left_of_alightings hOther image hImage
  exact ⟨_, (mem_of_alightings hOther).mpr ⟨image, hImage, _, hImageLeft, rfl⟩,
    arrival_matches listed hTrip hCost hLeft hImageLeft⟩

/-- Each arrival to go on from matches one of some others at the same stop. -/
def SourcesMatched (sources others : Nat → List (Nat × Arrival)) : Prop :=
  ∀ stop, ∀ source ∈ sources stop, ∃ image ∈ others stop, source.2.Matches image.2

/-- Arrivals that match lead to the same trips at the same costs. -/
theorem boardings_matched (listed : problem.ListedIn other) {position stop : Nat}
    {sources others : Nat → List (Nat × Arrival)} (hSources : SourcesMatched sources others)
    {boarded images : List Ride}
    (h : State.boardings problem table position stop (sources stop) = .ok boarded)
    (hOther : State.boardings other (table.renumbered place) position stop (others stop) =
      .ok images) :
    ∀ ride ∈ boarded, ∃ image ∈ images,
      image.trip = ride.trip ∧ image.relativeCost = ride.relativeCost := by
  intro ride hRide
  obtain ⟨source, hSource, hBoard⟩ := (mem_of_boardings h).mp hRide
  obtain ⟨image, hImage, hMatches⟩ := hSources stop source hSource
  obtain ⟨onBoard, hOnBoard, hSame⟩ := exists_board?_of_matches listed hMatches image.1 hBoard
  exact ⟨onBoard, (mem_of_boardings hOther).mpr ⟨image, hImage, hOnBoard⟩, hSame⟩

/-- In fronts that hold the same values there are rides on the same trips at the same costs. -/
theorem OfRides.exists_same {rides others : Front Ride} (ofRides : OfRides direction rides)
    (ofOthers : OfRides direction others) (alike : rides.Alike others) :
    ∀ ride ∈ rides.items, ∃ image ∈ others.items,
      image.trip = ride.trip ∧ image.relativeCost = ride.relativeCost := by
  intro ride hRide
  obtain ⟨entry, hEntry, rfl⟩ := List.mem_map.mp hRide
  obtain ⟨image, hImage, hCriteria⟩ := (alike entry.criteria).mp ⟨entry, hEntry, rfl⟩
  rw [ofRides entry hEntry, ofOthers image hImage, rideEntry_eq_iff] at hCriteria
  exact ⟨image.item, List.mem_map_of_mem hImage, hCriteria⟩

theorem exists_rideEntry_iff {boarded images : List Ride}
    (h : ∀ ride ∈ boarded, ∃ image ∈ images,
      image.trip = ride.trip ∧ image.relativeCost = ride.relativeCost) {values : List Int}
    (hValues : ∃ entry ∈ boarded.map (rideEntry direction), entry.criteria = values) :
    ∃ entry ∈ images.map (rideEntry direction), entry.criteria = values := by
  obtain ⟨_, hEntry, rfl⟩ := hValues
  obtain ⟨ride, hRide, rfl⟩ := List.mem_map.mp hEntry
  obtain ⟨image, hImage, hSame⟩ := h ride hRide
  exact ⟨_, List.mem_map_of_mem hImage, rideEntry_eq_iff.mpr hSame⟩

/-- Passing the same positions offers arrivals that match. The induction is on the positions; what
it carries is that the rides on board are alike. -/
theorem passOffers_matched (relists : problem.Relists other) {round : Nat}
    {sources others : Nat → List (Nat × Arrival)} (hSources : SourcesMatched sources others)
    (hOthers : SourcesMatched others sources) {positions : List Nat} {rides images : Front Ride}
    {offers imageOffers : List Arrival}
    (h : passOffers problem table round sources positions rides = .ok offers)
    (hImage : passOffers other (table.renumbered place) round others positions images =
      .ok imageOffers)
    (alike : rides.Alike images) (tidy : rides.Tidy rideRules) (tidyImages : images.Tidy rideRules)
    (ofRides : OfRides problem.direction rides) (ofImages : OfRides problem.direction images) :
    Arrival.Matched offers imageOffers := by
  induction positions generalizing rides images offers imageOffers with
  | nil =>
      cases h
      exact List.forall_mem_nil _
  | cons position rest ih =>
      obtain ⟨stop, arrivals, boarded, later, hStop, hArrivals, hBoarded, hLater, rfl⟩ :=
        passOffers_cons_eq_ok_iff.mp h
      obtain ⟨same, imageArrivals, imageBoarded, imageLater, hSame, hImageArrivals, hImageBoarded,
        hImageLater, rfl⟩ := passOffers_cons_eq_ok_iff.mp hImage
      have hSame : table.stopAt position = .ok same := hSame
      rw [hStop, Except.ok.injEq] at hSame
      subst hSame
      rw [relists.listed.direction] at hImageLater
      have hRides := boardings_matched relists.listed hSources hBoarded hImageBoarded
      have hImages := @boardings_matched other problem (table.renumbered place) table.pattern
        relists.back _ _ _ _ hOthers _ _ hImageBoarded hBoarded
      have hRest := ih hLater hImageLater
        (alike.offerAll rideRules_orderly tidy tidyImages
          (fun held hHeld => ofRides held hHeld ▸ fits_rideEntry ..)
          (fun entry hEntry => by
            obtain ⟨ride, -, rfl⟩ := List.mem_map.mp hEntry
            exact fits_rideEntry ..)
          (fun values => ⟨exists_rideEntry_iff hRides, exists_rideEntry_iff hImages⟩))
        (tidy.offerAll _) (tidyImages.offerAll _) (ofRides.offerAll _) (ofImages.offerAll _)
      have hHere := alightings_matched relists.listed hArrivals hImageArrivals
        (ofRides.exists_same ofImages alike)
      intro arrival hMem
      rcases List.mem_append.mp hMem with hFirst | hLast
      · obtain ⟨image, hImage, hMatches⟩ := hHere arrival hFirst
        exact ⟨image, List.mem_append_left _ hImage, hMatches⟩
      · obtain ⟨image, hImage, hMatches⟩ := hRest arrival hLast
        exact ⟨image, List.mem_append_right _ hImage, hMatches⟩

/-- Riding along patterns offers arrivals that match, if none of those is left out that can be got
on somewhere. -/
theorem rideOffers_matched (relists : problem.Relists other) {round : Nat}
    {sources others : Nat → List (Nat × Arrival)} (hSources : SourcesMatched sources others)
    (hOthers : SourcesMatched others sources) {patterns places : List Nat}
    {offers imageOffers : List Arrival}
    (h : rideOffers problem round sources patterns = .ok offers)
    (hImage : rideOffers other round others places = .ok imageOffers)
    (hActive : ∀ pattern ∈ patterns, problem.day.activePatterns.contains pattern = true)
    (hTouched : ∀ {place position stop : Nat} {table : TripTable},
      other.day.network.tripTable place = .ok table →
      other.day.activePatterns.contains place = true → table.stopAt position = .ok stop →
      others stop ≠ [] → place ∈ places) :
    Arrival.Matched offers imageOffers := by
  intro arrival hMem
  obtain ⟨pattern, hPattern, table, made, hTable, hMade, hArrival⟩ := (mem_of_rideOffers h).mp hMem
  obtain ⟨place, hPlace, hPlaceActive⟩ := relists.listed.table hTable (hActive pattern hPattern)
  obtain ⟨position, stop, hStop, hSome⟩ := exists_source_of_mem hMade hArrival rfl
  have hOther : others stop ≠ [] := by
    obtain ⟨source, hSource⟩ := List.exists_mem_of_ne_nil _ hSome
    obtain ⟨image, hMatch, -⟩ := hSources stop source hSource
    exact List.ne_nil_of_mem hMatch
  have hTouch := hTouched hPlace hPlaceActive hStop hOther
  obtain ⟨same, imageMade, hSame, hImageMade⟩ := exists_made_of_rideOffers hImage place hTouch
  rw [hPlace, Except.ok.injEq] at hSame
  subst hSame
  have hScan := hImageMade
  rw [scanOffers, relists.listed.direction] at hScan
  obtain ⟨image, hImageMem, hMatches⟩ := passOffers_matched relists hSources hOthers hMade hScan
    (fun _ => Iff.rfl) (Front.tidy_empty _) (Front.tidy_empty _) (List.forall_mem_nil _)
    (List.forall_mem_nil _) arrival hArrival
  exact ⟨image, (mem_of_rideOffers hImage).mpr
    ⟨place, hTouch, _, imageMade, hPlace, hImageMade, hImageMem⟩, hMatches⟩

end MultiCriteria

end Search

end JourneyPlanner
