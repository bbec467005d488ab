import JourneyPlanner.Proofs.Pruning.Exhaustive
import JourneyPlanner.Proofs.Pruning.Offers
import JourneyPlanner.Proofs.Search.MultiCriteria.Fares

/-! A round of a search that leaves out what a way to the destination covers, beside one that leaves
out nothing. What the first one leaves out can only lead to what it would leave out as well. Main
statement: if the fronts of both hold the same but for what is covered, and the same ways to the
destination, before a round, then they do so after it. -/
namespace JourneyPlanner.Search.MultiCriteria

variable {problem : Problem} {time : Int} {state image : State} {covered : List Int → Bool}

/-- The values on which an arrival at a stop compares. -/
def OfStops (problem : Problem) (values : List Int) : Prop :=
  ∃ arrival, values = stopCriteria problem.direction arrival

theorem ofStops_orderly (problem : Problem) : stopRules.Orderly (OfStops problem) :=
  stopRules_orderly.mono fun _ ⟨_, hValues⟩ => hValues ▸ fits_stopCriteria ..

namespace Abreast

/-- What is held or offered on one side and does not meet the test is held or offered on the other. -/
theorem exists_kept (abreast : Abreast problem time covered state image) {offers others : List Arrival}
    (hSifted : Sifted problem covered offers others) {stop : Nat} {entries images : List (Entry Nat)}
    (hEntries : entries.map Entry.criteria =
      (state.admitted problem stop offers).map (stopCriteria problem.direction))
    (hImages : images.map Entry.criteria =
      (image.admitted problem stop others).map (stopCriteria problem.direction)) {values : List Int}
    (hOpen : covered values = false)
    (h : ∃ entry ∈ (state.fronts.get stop).entries ++ entries, entry.criteria = values) :
    ∃ entry ∈ (image.fronts.get stop).entries ++ images, entry.criteria = values := by
  obtain ⟨entry, hEntry, rfl⟩ := h
  rcases List.mem_append.mp hEntry with hOld | hNew
  · obtain ⟨held, hHeld, hSame⟩ := (abreast.fronts stop _ hOpen).mp ⟨entry, hOld, rfl⟩
    exact ⟨held, List.mem_append_left _ hHeld, hSame⟩
  · obtain ⟨arrival, hAdmitted, hCriteria⟩ :=
      (State.exists_entry_iff hEntries).mp ⟨entry, hNew, rfl⟩
    rw [← hCriteria] at hOpen ⊢
    obtain ⟨hMem, hAt⟩ := List.mem_filter.mp hAdmitted
    obtain ⟨other, hOther, hMatches⟩ := hSifted arrival hMem hOpen
    have hSame := stopCriteria_eq_of_matches hMatches problem.direction
    have hKept : other ∈ image.admitted problem stop others := by
      refine List.mem_filter.mpr ⟨hOther, ?_⟩
      rw [hMatches.stop, hSame, abreast.imageAdmits _ hOpen, (Bool.and_eq_true_iff.mp hAt).1]
      rfl
    obtain ⟨held, hHeld, hHeldSame⟩ := (State.exists_entry_iff hImages).mpr ⟨other, hKept, rfl⟩
    exact ⟨held, List.mem_append_right _ hHeld, hHeldSame.trans hSame⟩

/-- Recording arrivals that agree in what does not meet the test leaves fronts that do. -/
theorem foldl (abreast : Abreast problem time covered state image)
    (lasting : Lasting problem covered) {offers others : List Arrival}
    (hOffers : ∀ arrival ∈ offers, Offered problem time state arrival)
    (hOthers : ∀ arrival ∈ others, Offered problem time image arrival)
    (hSifted : Sifted problem covered offers others)
    (hBack : Sifted problem covered others offers) :
    Abreast problem time covered (offers.foldl (State.add problem) state)
      (others.foldl (State.add problem) image) := by
  obtain ⟨hBooks, hSteady⟩ := abreast.books.steady_foldl hOffers
  obtain ⟨hImageBooks, hImageSteady⟩ := abreast.imageBooks.steady_foldl hOthers
  refine ⟨hBooks, hImageBooks, abreast.tally.foldl abreast.books hOffers,
    abreast.imageTally.foldl abreast.imageBooks hOthers, fun values hOpen => ?_,
    fun values hOpen => ?_, ?_, fun stop => ?_⟩
  · rw [State.isCovered, hSteady.destinations]
    exact abreast.admits values hOpen
  · rw [State.isCovered, hImageSteady.destinations]
    exact abreast.imageAdmits values hOpen
  · rw [hSteady.round, hImageSteady.round, abreast.round]
  · obtain ⟨entries, hFront, hEntries⟩ := State.exists_front_foldl problem state offers
      (fun arrival hArrival => abreast.books.size_fronts ▸ (hOffers arrival hArrival).stop_lt) stop
    obtain ⟨images, hImage, hImages⟩ := State.exists_front_foldl problem image others
      (fun arrival hArrival => abreast.imageBooks.size_fronts ▸ (hOthers arrival hArrival).stop_lt)
      stop
    have hShape : ∀ {offered : List Arrival} {entries : List (Entry Nat)},
        entries.map Entry.criteria = offered.map (stopCriteria problem.direction) →
        ∀ entry ∈ entries, OfStops problem entry.criteria := by
      intro offered entries hSame entry hEntry
      obtain ⟨arrival, -, hCriteria⟩ := (State.exists_entry_iff hSame).mp ⟨entry, hEntry, rfl⟩
      exact ⟨arrival, hCriteria.symm⟩
    rw [hFront, hImage]
    refine Front.AlikeWhere.offerAll (ofStops_orderly problem) (abreast.tally.fronts stop)
      (abreast.imageTally.fronts stop) (fun held hHeld => abreast.books.shape hHeld)
      (hShape hEntries) (fun held hHeld => abreast.imageBooks.shape hHeld) (hShape hImages) ?_
      fun values hOpen => ⟨abreast.exists_kept hSifted hEntries hImages hOpen,
        abreast.symm.exists_kept hBack hImages hEntries hOpen⟩
    rintro _ _ ⟨better, rfl⟩ ⟨worse, rfl⟩ hCovers hOpen
    exact lasting.open_of_advances (advances_of_covers hCovers) hOpen

/-- Walking offers on both sides what does not meet the test. -/
theorem walkOffers_sifted (abreast : Abreast problem time covered state image)
    (lasting : Lasting problem covered) (regular : problem.Regular time) (hBegun : 0 < state.round)
    (hRounds : state.round ≤ Request.maxSupportedTransfers + 1) :
    Sifted problem covered (walkOffers problem state) (walkOffers problem image) := by
  intro arrival hMem hOpen
  obtain ⟨source, hSource, hMem⟩ := List.mem_flatMap.mp hMem
  obtain ⟨transfer, hWalk, rfl⟩ := List.mem_map.mp hMem
  obtain ⟨hAt, hFoot⟩ := (abreast.books.mem_walkSources_iff hBegun).mp hSource
  obtain ⟨hId, -⟩ := abreast.books.of_mem_arrivalsAt hAt
  have advances : problem.Advances source.2
      (problem.walkArrival state.round source.1 source.2 transfer) :=
    hFoot ▸ abreast.books.records.advances_walk regular (Arrivals.mem_toList_of_get? hId)
      (source.2.round_le_roundOnFoot.trans (hFoot ▸ hRounds)) hWalk
  obtain ⟨same, hSame, hMatches⟩ :=
    abreast.exists_matching hAt (lasting.open_of_advances advances hOpen)
  have hSameSource : same ∈ image.walkSources := by
    refine (abreast.imageBooks.mem_walkSources_iff (abreast.round ▸ hBegun)).mpr ⟨?_, ?_⟩
    · rwa [hMatches.stop, hMatches.round]
    · rw [abreast.round, ← hFoot, Arrival.roundOnFoot, Arrival.roundOnFoot, hMatches.isTransit,
        hMatches.round]
  refine ⟨_, List.mem_flatMap.mpr ⟨same, hSameSource, List.mem_map_of_mem (hMatches.stop ▸ hWalk)⟩,
    rfl, abreast.round, ?_, ?_, rfl⟩
  · simp only [Problem.walkArrival, hMatches.time]
  · simp only [Problem.walkArrival, hMatches.cost]

end Abreast

namespace Books

variable {arrival : Arrival} {destination : DestinationArrival}

/-- An arrival is covered once a way to the destination is no worse. -/
theorem isCovered_of_endedFor (books : Books problem time state)
    (h : state.found.EndedFor problem.direction arrival.round
      (problem.direction.timeCriterion arrival.time) arrival.cost) :
    state.isCovered (stopCriteria problem.direction arrival) = true := by
  obtain ⟨destination, hMem, hRound, hTime, hCost⟩ := h
  obtain ⟨entry, hEntry, rfl⟩ := List.mem_map.mp hMem
  refine List.any_eq_true.mpr ⟨entry, hEntry, ?_⟩
  rw [books.destinations_entry entry hEntry, covers_take_stopCriteria_iff]
  exact ⟨hTime, hRound, hCost⟩

section Finish

variable (books : Books problem time state) (regular : problem.Regular time)
  (hModest : problem.cost.Modest) (hExact : problem.costSlack = 0)
  (hRounds : state.round ≤ Request.maxSupportedTransfers + 1)

include books regular hModest hRounds

/-- A way to the destination that is no better than one found before is turned away. -/
theorem covers_of_endedFor
    (hFits : Rules.Fits (destinationRules 0).criteria
      (destinationEntry problem.direction destination).criteria)
    (h : state.found.EndedFor problem.direction destination.round
      (problem.direction.timeCriterion destination.time) destination.cost) :
    state.destinations.covers (destinationRules 0)
      (destinationEntry problem.direction destination).criteria = true := by
  obtain ⟨held, hMem, hRound, hTime, hCost⟩ := h
  obtain ⟨entry, hEntry, rfl⟩ := List.mem_map.mp hMem
  have hHeld := books.fits_destinations regular.modest regular.time hModest hRounds entry hEntry
  refine List.any_eq_true.mpr ⟨entry, hEntry, ?_⟩
  rw [books.destinations_entry entry hEntry] at hHeld ⊢
  rw [Rules.covers_iff]
  exact ⟨Criterion.noWorse_less.mpr hTime, Criterion.noWorse_less.mpr (Int.ofNat_le.mpr hRound),
    (Criterion.noWorse_lessWithSlack_zero hHeld.2.2.1 hFits.2.2.1).mpr hCost, trivial⟩

/-- Walking to the destination from an arrival that is covered leads to a way that is turned away. -/
theorem open_of_candidate (hRates : problem.cost.Nonneg) {stop : Nat} {source : Nat × Arrival}
    (hAt : source ∈ state.arrivalsAt stop state.round) (hRide : source.2.isTransit = true)
    {leg : WalkLeg} (hLeg : leg ∈ problem.endLegsAt stop)
    (hOpen : state.destinations.covers (destinationRules 0) (destinationEntry problem.direction
      (problem.destinationArrival state.round source.1 source.2 leg)).criteria = false) :
    state.isCovered (stopCriteria problem.direction source.2) = false := by
  refine Bool.eq_false_iff.mpr fun hCovered => Bool.eq_false_iff.mp hOpen ?_
  obtain ⟨hId, rfl, hRound⟩ := books.of_mem_arrivalsAt hAt
  have hFits := books.fits_candidates regular.modest regular.time hModest hRounds _
    (List.mem_map_of_mem (books.mem_candidates hAt hRide hLeg))
  have hKnown : leg ∈ problem.startLegs ∨ leg ∈ problem.endLegs :=
    Or.inr (Problem.mem_endLegsAt.mp hLeg).1
  have hDuration := (regular.legs leg hKnown).2
  have hCost := Int.mul_nonneg hDuration hRates.walkReluctance
  have hTime := congrArg problem.direction.timeCriterion
    (books.records.plus_eq_along regular.modest regular.time (Arrivals.mem_toList_of_get? hId)
      (hRound ▸ hRounds) (regular.modest.legs leg hKnown))
  rw [Direction.timeCriterion_along] at hTime
  refine books.covers_of_endedFor regular hModest hRounds hFits
    ((books.endedFor_of_isCovered hCovered).of_le (Nat.le_of_eq hRound) ?_ ?_)
  · simp only [Problem.destinationArrival]
    omega
  · simp only [Problem.destinationArrival, CostRates.walkCost]
    omega

include hExact

/-- What is covered stays so at the end of a round. -/
theorem isCovered_finish (h : state.isCovered (stopCriteria problem.direction arrival) = true) :
    (state.finish problem).isCovered (stopCriteria problem.direction arrival) = true :=
  books.ended.1.isCovered_of_endedFor ((books.grows_finish regular hModest hExact hRounds).ended
    (books.endedFor_of_isCovered h))

end Finish

end Books

/-- A way to the destination that is not turned away is found on both sides. -/
theorem Abreast.exists_candidate (abreast : Abreast problem time covered state image)
    (regular : problem.Regular time) (hModest : problem.cost.Modest) (hRates : problem.cost.Nonneg)
    (hRounds : state.round ≤ Request.maxSupportedTransfers + 1)
    (hCovered : ∀ values, state.isCovered values = false → covered values = false)
    {entry : Entry DestinationArrival}
    (hEntry : entry ∈ (state.candidates problem).map (destinationEntry problem.direction))
    (hOpen : state.destinations.covers (destinationRules 0) entry.criteria = false) :
    ∃ same ∈ (image.candidates problem).map (destinationEntry problem.direction),
      same.criteria = entry.criteria := by
  obtain ⟨candidate, hCandidate, rfl⟩ := List.mem_map.mp hEntry
  obtain ⟨stop, source, hAt, hRide, leg, hLeg, rfl⟩ :=
    abreast.books.mem_candidates_iff.mp hCandidate
  obtain ⟨same, hSame, hMatches⟩ := abreast.exists_matching hAt (hCovered _
    (abreast.books.open_of_candidate regular hModest hRounds hRates hAt hRide hLeg hOpen))
  rw [← abreast.round] at hSame
  refine ⟨_, List.mem_map_of_mem (abreast.imageBooks.mem_candidates_iff.mpr
    ⟨stop, same, hSame, hMatches.isTransit.trans hRide, leg, hLeg, rfl⟩), ?_⟩
  rw [destinationEntry_eq_iff]
  simp only [Problem.destinationArrival, hMatches.time, hMatches.cost, abreast.round, and_self]

namespace Abreast

section Finish

variable (abreast : Abreast problem time covered state image)
  (alike : state.destinations.Alike image.destinations)
  (hCovered : ∀ values, state.isCovered values = false → covered values = false)
  (regular : problem.Regular time) (hModest : problem.cost.Modest) (hExact : problem.costSlack = 0)
  (hRounds : state.round ≤ Request.maxSupportedTransfers + 1)

include abreast hCovered regular hModest hExact hRounds

/-- The fronts of the stops agree on what is not covered after walking to the destination. -/
theorem fronts_finish (stop : Nat) :
    ((state.finish problem).fronts.get stop).AlikeWhere
      (fun values => (state.finish problem).isCovered values = false)
      ((image.finish problem).fronts.get stop) := by
  obtain ⟨-, -, -, hFronts, -⟩ := abreast.books.ended
  obtain ⟨-, -, -, hImageFronts, -⟩ := abreast.imageBooks.ended
  have hStill : ∀ {values}, OfStops problem values →
      (state.finish problem).isCovered values = false → covered values = false := by
    rintro _ ⟨arrival, rfl⟩ hOpen
    refine hCovered _ (Bool.eq_false_iff.mpr fun h => ?_)
    rw [abreast.books.isCovered_finish regular hModest hExact hRounds h] at hOpen
    cases hOpen
  rw [hFronts, hImageFronts]
  exact (abreast.fronts stop).imp (fun held hHeld => hStill (abreast.books.shape hHeld))
    fun held hHeld => hStill (abreast.imageBooks.shape hHeld)

include alike

/-- Walking to the destination finds the same ways there. -/
theorem destinations_finish (hRates : problem.cost.Nonneg) :
    (state.finish problem).destinations.Alike (image.finish problem).destinations := by
  have hTidy := abreast.tally.destinations
  have hImageTidy := abreast.imageTally.destinations
  have hImageRounds := abreast.round.symm ▸ hRounds
  rw [hExact] at hTidy hImageTidy
  rw [State.destinations_finish, State.destinations_finish, hExact]
  refine Front.Alike.offerAll_of_covered destinationRules_orderly hTidy hImageTidy
    (abreast.books.fits_destinations regular.modest regular.time hModest hRounds)
    (abreast.books.fits_candidates regular.modest regular.time hModest hRounds)
    (abreast.imageBooks.fits_destinations regular.modest regular.time hModest hImageRounds)
    (abreast.imageBooks.fits_candidates regular.modest regular.time hModest hImageRounds)
    alike (fun entry hEntry hOpen => ?_) fun entry hEntry hOpen => ?_
  · exact abreast.exists_candidate regular hModest hRates hRounds hCovered hEntry hOpen
  · rw [alike.covers_eq] at hOpen
    refine abreast.symm.exists_candidate regular hModest hRates hImageRounds (fun values h => ?_)
      hEntry hOpen
    rw [State.isCovered, ← alike.covers_eq] at h
    exact hCovered values h

end Finish

end Abreast

/-- Other ways to the destination, made from the same records. -/
theorem Books.withEnds (books : Books problem time state) {ends : Front DestinationArrival}
    (hFinishes : ∀ destination ∈ ends.items, problem.Finishes state.arrivals destination)
    (hEntries : ∀ entry ∈ ends.entries, entry = destinationEntry problem.direction entry.item)
    (hRounds : ∀ destination ∈ ends.items, destination.round ≤ state.round) :
    Books problem time (state.withEnds ends) :=
  { books with
    finishes := hFinishes
    destinations_entry := hEntries
    destinations_round := hRounds }

/-- A state that forgets the ways to the destination keeps the rest of its books. -/
theorem Books.blind (books : Books problem time state) : Books problem time state.blind :=
  books.withEnds (List.forall_mem_nil _) (List.forall_mem_nil _) (List.forall_mem_nil _)

theorem Tally.withEnds (tally : Tally problem state) {ends : Front DestinationArrival}
    (tidy : ends.Tidy (destinationRules problem.costSlack)) :
    Tally problem (state.withEnds ends) :=
  ⟨tally.fronts, tidy, tally.current⟩

/-- A search between two rounds, and one that leaves out nothing. Their fronts hold the same, but for
what a way to the destination covers. -/
structure Pruned (problem : Problem) (time : Int) (state full : State) : Prop where
  books : Books problem time state
  fullBooks : Books problem time full
  tally : Tally problem state
  fullTally : Tally problem full
  round : full.round = state.round
  fronts : ∀ stop, (state.fronts.get stop).AlikeWhere (fun values => state.isCovered values = false)
    (full.fronts.get stop)
  destinations : state.destinations.Alike full.destinations

namespace Pruned

variable {full : State}

/-- When a round begins. -/
theorem begun (pruned : Pruned problem time state full) :
    Abreast problem time state.isCovered (state.beginRound (state.round + 1))
      (full.blind.beginRound (full.round + 1)) :=
  ⟨pruned.books.beginRound, pruned.fullBooks.blind.beginRound, pruned.tally.beginRound _,
    (pruned.fullTally.withEnds (Front.tidy_empty _)).beginRound _, fun _ h => h, fun _ _ => rfl,
    congrArg (· + 1) pruned.round, pruned.fronts⟩

section Round

variable (pruned : Pruned problem time state full) (regular : problem.Regular time)
  (hSlack : 0 ≤ problem.boardSlack) (hRates : problem.cost.Nonneg)
  (hRounds : state.round + 1 ≤ Request.maxSupportedTransfers + 1)
  {rides fullRides : List Arrival} {scanned walked fullScanned fullWalked : State}
  (course : Course problem time state rides scanned walked)
  (fullCourse : Course problem time full.blind fullRides fullScanned fullWalked)

include pruned regular hSlack hRates hRounds course fullCourse

/-- Riding and walking record the same, but for what is covered. -/
theorem abreast_walked : Abreast problem time state.isCovered walked fullWalked := by
  have lasting := pruned.books.lasting hRates
  have begun := pruned.begun
  have hLater : state.round + 1 ≤ Request.maxSupportedTransfers + 2 := Nat.le_succ_of_le hRounds
  have hTouched : ∀ {state other : State}, ∀ pattern ∈ (strategy problem).patterns problem.day state,
      ∀ {table position stop}, problem.day.network.tripTable pattern = .ok table →
        table.stopAt position = .ok stop → other.sources stop ≠ [] →
          pattern ∈ (strategy problem).patterns problem.day other :=
    fun pattern hPattern _ _ _ hTable hStop hSome => State.mem_patterns regular.sound.toLinked hTable
      hStop ((strategy problem).patterns_known problem.day _ pattern hPattern).1 hSome
  have scan : Abreast problem time state.isCovered scanned fullScanned := by
    rw [course.scanned_eq, fullCourse.scanned_eq]
    exact begun.foldl lasting course.offered fullCourse.offered
      (begun.rideOffers_sifted lasting regular hSlack (Nat.succ_pos _) hLater course.rideOffers
        fullCourse.rideOffers hTouched)
      (begun.symm.rideOffers_sifted lasting regular hSlack (Nat.succ_pos _) (begun.round ▸ hLater)
        fullCourse.rideOffers course.rideOffers hTouched)
  have hScanned := course.round_scanned
  have hBegun : 0 < scanned.round := hScanned ▸ Nat.succ_pos _
  rw [← hScanned] at hRounds
  rw [course.walked_eq, fullCourse.walked_eq]
  exact scan.foldl lasting course.walks fullCourse.walks
    (scan.walkOffers_sifted lasting regular hBegun hRounds)
    (scan.symm.walkOffers_sifted lasting regular (scan.round ▸ hBegun) (scan.round ▸ hRounds))

/-- So it is with the ways to the destination in sight again. -/
theorem abreast_ended : Abreast problem time state.isCovered walked
    (fullWalked.withEnds full.destinations) := by
  have abreast := pruned.abreast_walked regular hSlack hRates hRounds course fullCourse
  have hLater : full.round ≤ fullWalked.round := fullCourse.round_walked ▸ Nat.le_succ full.round
  have fullBooks : Books problem time (fullWalked.withEnds full.destinations) :=
    fullCourse.walk.withEnds
      (fun destination hMem =>
        (pruned.fullBooks.finishes destination hMem).mono fullCourse.steady.arrivals)
      pruned.fullBooks.destinations_entry
      fun destination hMem => (pruned.fullBooks.destinations_round destination hMem).trans hLater
  exact ⟨abreast.books, fullBooks, abreast.tally,
    abreast.imageTally.withEnds pruned.fullTally.destinations, abreast.admits,
    fun values hOpen => (pruned.destinations.covers_eq _).symm.trans hOpen, abreast.round,
    abreast.fronts⟩

/-- If two searches hold the same but for what is covered, then they do so after a round. -/
theorem after_round (hModest : problem.cost.Modest) (hExact : problem.costSlack = 0) :
    Pruned problem time (walked.finish problem)
      ((fullWalked.withEnds full.destinations).finish problem) := by
  have abreast := pruned.abreast_ended regular hSlack hRates hRounds course fullCourse
  have hEnds : walked.destinations = state.destinations := course.steady.destinations
  have alike : walked.destinations.Alike (fullWalked.withEnds full.destinations).destinations :=
    hEnds ▸ pruned.destinations
  have hCovered : ∀ values, walked.isCovered values = false → state.isCovered values = false := by
    intro values h
    rwa [State.isCovered, hEnds] at h
  rw [← course.round_walked] at hRounds
  obtain ⟨hBooks, hRound, -⟩ := abreast.books.ended
  obtain ⟨hFullBooks, hFullRound, -⟩ := abreast.imageBooks.ended
  refine ⟨hBooks, hFullBooks, abreast.tally.finish abreast.books,
    abreast.imageTally.finish abreast.imageBooks, ?_,
    abreast.fronts_finish hCovered regular hModest hExact hRounds,
    abreast.destinations_finish alike hCovered regular hModest hExact hRounds hRates⟩
  rw [hFullRound, hRound, abreast.round]

end Round

end Pruned

end JourneyPlanner.Search.MultiCriteria
