import JourneyPlanner.Proofs.Relisting.Offers

/-! Two searches for the best compromises side by side, on listings in different order. Their
records and the sets they mark may differ, but the values in their fronts do not. Main statement: if
the fronts hold the same values before a round then they do after it, and both searches go on or
both end. -/
namespace JourneyPlanner.Search.MultiCriteria

variable {problem other : Problem} {time : Int} {state image : State}

/-- The fronts are such as offers leave them, and only stops reached in the round are marked. -/
structure Tally (problem : Problem) (state : State) : Prop where
  fronts : ∀ stop, (state.fronts.get stop).Tidy stopRules
  destinations : state.destinations.Tidy (destinationRules problem.costSlack)
  current : ∀ stop, state.reachedCurrent.contains stop = true →
    state.arrivalsAt stop state.round ≠ []

namespace Tally

theorem initial (problem : Problem) : Tally problem (State.initial problem) := by
  refine ⟨fun stop => ?_, Front.tidy_empty _, fun stop hContains => ?_⟩
  · rw [State.initial, IndexTable.get_uniform]
    exact Front.tidy_empty _
  · simp [State.initial] at hContains

theorem beginRound (tally : Tally problem state) (round : Nat) :
    Tally problem (state.beginRound round) := by
  refine ⟨tally.fronts, tally.destinations, fun stop hContains => ?_⟩
  simp [State.beginRound] at hContains

/-- Offers leave the fronts tidy and the marks on stops reached in the round. -/
theorem add (tally : Tally problem state) (books : Books problem time state) {arrival : Arrival}
    (offered : Offered problem time state arrival) : Tally problem (state.add problem arrival) := by
  have hFronts : ∀ stop, ((state.add problem arrival).fronts.get stop).Tidy stopRules := by
    intro stop
    rw [State.get_fronts_add problem state (books.size_fronts ▸ offered.stop_lt)]
    exact (tally.fronts stop).offerAll _
  refine ⟨hFronts, (State.destinations_add problem state arrival).symm ▸ tally.destinations,
    fun stop hContains => ?_⟩
  rcases state.add_eq_or problem arrival with hSame | ⟨front, hFront, hAdd⟩
  · rw [hSame] at hContains ⊢
    exact tally.current stop hContains
  · rw [hAdd] at hContains ⊢
    by_cases hStop : arrival.stop = stop
    · subst hStop
      refine List.ne_nil_of_mem (a := (state.arrivals.size, arrival)) (List.mem_filter.mpr
        ⟨Arrivals.mem_numbered.mpr ⟨?_, Arrivals.get?_push_size ..⟩, beq_iff_eq.mpr offered.round⟩)
      dsimp only
      rw [IndexTable.get_set, if_pos ⟨rfl, books.size_fronts ▸ offered.stop_lt⟩,
        Front.eq_insert_of_some hFront]
      exact List.mem_map_of_mem (Front.mem_insert.mpr (Or.inr rfl))
    · have hBefore : state.reachedCurrent.contains stop = true := by
        simpa [IndexSet.contains_insert, hStop] using hContains
      obtain ⟨⟨id, held⟩, hHeld⟩ := List.exists_mem_of_ne_nil _ (tally.current stop hBefore)
      obtain ⟨hMem, hRound⟩ := List.mem_filter.mp hHeld
      obtain ⟨hItem, hId⟩ := Arrivals.mem_numbered.mp hMem
      refine List.ne_nil_of_mem (a := (id, held)) (List.mem_filter.mpr
        ⟨Arrivals.mem_numbered.mpr ⟨?_, Arrivals.extends_push _ _ _ _ hId⟩, hRound⟩)
      dsimp only
      rwa [IndexTable.get_set, if_neg fun h => hStop h.1]

/-- Recording arrivals keeps the tally. -/
theorem foldl (tally : Tally problem state) (books : Books problem time state)
    {offers : List Arrival} (hOffers : ∀ arrival ∈ offers, Offered problem time state arrival) :
    Tally problem (offers.foldl (State.add problem) state) := by
  induction offers generalizing state with
  | nil => exact tally
  | cons first rest ih =>
      obtain ⟨hFirst, hRest⟩ := List.forall_mem_cons.mp hOffers
      obtain ⟨hBooks, hSteady⟩ := books.steady_add hFirst
      exact ih (tally.add books hFirst) hBooks fun arrival hArrival =>
        (hRest arrival hArrival).mono hSteady.toOnward

theorem finish (tally : Tally problem state) (books : Books problem time state) :
    Tally problem (state.finish problem) := by
  obtain ⟨-, hRound, hArrivals, hFronts, hCurrent⟩ := books.ended
  refine ⟨fun stop => hFronts ▸ tally.fronts stop, ?_, fun stop hContains => ?_⟩
  · rw [State.destinations_finish]
    exact tally.destinations.offerAll _
  · rw [hCurrent] at hContains
    rw [State.arrivalsAt, hArrivals, hFronts, hRound]
    exact tally.current stop hContains

/-- A stop is marked exactly if it was reached in the round. -/
theorem hasProgressed_iff (tally : Tally problem state) (books : Books problem time state) :
    (strategy problem).hasProgressed state = true ↔
      ∃ stop, state.arrivalsAt stop state.round ≠ [] := by
  have hMarked : (strategy problem).hasProgressed state = true ↔
      ∃ stop, state.reachedCurrent.contains stop = true := by
    rw [← Bool.not_eq_false, not_iff_comm, strategy, strategyWith]
    simp only [Bool.not_eq_false', IndexSet.isEmpty_iff, not_exists, Bool.not_eq_true]
  rw [hMarked]
  refine exists_congr fun stop => ⟨tally.current stop, fun hSome => ?_⟩
  obtain ⟨source, hSource⟩ := List.exists_mem_of_ne_nil _ hSome
  obtain ⟨hId, rfl, hRound⟩ := books.of_mem_arrivalsAt hSource
  exact books.current _ (Arrivals.mem_toList_of_get? hId) hRound

end Tally

theorem stopCriteria_eq_of_matches {arrival same : Arrival} (h : arrival.Matches same)
    (direction : Direction) : stopCriteria direction same = stopCriteria direction arrival :=
  stopCriteria_eq_iff.mpr ⟨h.time, h.round, h.cost, h.isTransit⟩

/-- What is kept at a stop stands in the front there. -/
theorem Books.exists_entry (books : Books problem time state) {stop round : Nat}
    {source : Nat × Arrival} (h : source ∈ state.arrivalsAt stop round) :
    ∃ entry ∈ (state.fronts.get stop).entries,
      entry.criteria = stopCriteria problem.direction source.2 := by
  obtain ⟨hItem, hId⟩ := Arrivals.mem_numbered.mp (List.mem_filter.mp h).1
  obtain ⟨entry, hEntry, hSame⟩ := List.mem_map.mp hItem
  obtain ⟨arrival, hArrival, -, hCriteria⟩ := books.entry hEntry
  rw [hSame, hId, Option.some.injEq] at hArrival
  exact ⟨entry, hEntry, hArrival ▸ hCriteria⟩

/-- If its values stand in the front of its stop, an arrival matches one that is kept there. -/
theorem Books.exists_matching (books : Books problem time state) {stop : Nat} {arrival : Arrival}
    (hStop : arrival.stop = stop)
    (h : ∃ entry ∈ (state.fronts.get stop).entries,
      entry.criteria = stopCriteria problem.direction arrival) :
    ∃ same ∈ state.arrivalsAt stop arrival.round, arrival.Matches same.2 := by
  obtain ⟨held, hHeld, hCriteria⟩ := h
  obtain ⟨found, hFound, hFoundStop, hFoundCriteria⟩ := books.entry hHeld
  rw [hFoundCriteria, stopCriteria_eq_iff] at hCriteria
  obtain ⟨hTime, hRound, hCost, hTransit⟩ := hCriteria
  exact ⟨(held.item, found), List.mem_filter.mpr ⟨Arrivals.mem_numbered.mpr
    ⟨List.mem_map_of_mem hHeld, hFound⟩, beq_iff_eq.mpr hRound⟩, hFoundStop.trans hStop.symm, hRound,
    hTime, hCost, hTransit⟩

structure Alike (state image : State) : Prop where
  round : image.round = state.round
  fronts : ∀ stop, (state.fronts.get stop).Alike (image.fronts.get stop)
  destinations : state.destinations.Alike image.destinations

namespace Alike

theorem symm (alike : Alike state image) : Alike image state :=
  ⟨alike.round.symm, fun stop => (alike.fronts stop).symm, alike.destinations.symm⟩

theorem beginRound (alike : Alike state image) (round : Nat) :
    Alike (state.beginRound round) (image.beginRound round) :=
  ⟨rfl, alike.fronts, alike.destinations⟩

/-- States that are alike cover the same values. -/
theorem isCovered_eq (alike : Alike state image) (criteria : List Int) :
    state.isCovered criteria = image.isCovered criteria :=
  alike.destinations.covers_eq _

variable (relists : problem.Relists other) (alike : Alike state image)
  (books : Books problem time state) (imageBooks : Books other time image)

include relists alike books imageBooks

/-- Whatever stands in a front of one state is matched in the other. -/
theorem exists_matching {stop round : Nat} {source : Nat × Arrival}
    (h : source ∈ state.arrivalsAt stop round) :
    ∃ same ∈ image.arrivalsAt stop round, source.2.Matches same.2 := by
  obtain ⟨-, hStop, rfl⟩ := books.of_mem_arrivalsAt h
  have hHeld := (alike.fronts stop _).mp (books.exists_entry h)
  rw [← relists.listed.direction] at hHeld
  exact imageBooks.exists_matching hStop hHeld

omit books imageBooks in
/-- What a stop admits in one state has the values of something it admits in the other. -/
theorem exists_admitted {offers others : List Arrival} (hMatched : Arrival.Matched offers others)
    {stop : Nat} {values : List Int}
    (h : ∃ arrival ∈ state.admitted problem stop offers,
      stopCriteria problem.direction arrival = values) :
    ∃ arrival ∈ image.admitted other stop others,
      stopCriteria other.direction arrival = values := by
  obtain ⟨arrival, hAdmitted, rfl⟩ := h
  obtain ⟨hMem, hOpen⟩ := List.mem_filter.mp hAdmitted
  obtain ⟨same, hSame, hMatches⟩ := hMatched arrival hMem
  have hCriteria := stopCriteria_eq_of_matches hMatches problem.direction
  rw [← relists.listed.direction] at hCriteria
  refine ⟨same, List.mem_filter.mpr ⟨hSame, ?_⟩, relists.listed.direction ▸ hCriteria⟩
  rw [hMatches.stop, hCriteria, ← alike.isCovered_eq, relists.listed.direction]
  exact hOpen

/-- Recording arrivals that match leaves the same values in the fronts. -/
theorem foldl (tally : Tally problem state) (imageTally : Tally other image)
    {offers others : List Arrival}
    (hOffers : ∀ arrival ∈ offers, Offered problem time state arrival)
    (hOthers : ∀ arrival ∈ others, Offered other time image arrival)
    (hMatched : Arrival.Matched offers others) (hBack : Arrival.Matched others offers) :
    Alike (offers.foldl (State.add problem) state) (others.foldl (State.add other) image) := by
  refine ⟨?_, fun stop => ?_, ?_⟩
  · rw [State.round_foldl_add, State.round_foldl_add, alike.round]
  · obtain ⟨entries, hFront, hCriteria⟩ := State.exists_front_foldl problem state offers
      (fun arrival hArrival => books.size_fronts ▸ (hOffers arrival hArrival).stop_lt) stop
    obtain ⟨images, hImage, hImageCriteria⟩ := State.exists_front_foldl other image others
      (fun arrival hArrival => imageBooks.size_fronts ▸ (hOthers arrival hArrival).stop_lt) stop
    rw [hFront, hImage]
    refine (alike.fronts stop).offerAll stopRules_orderly (tally.fronts stop)
      (imageTally.fronts stop) (books.fits_front stop) (State.fits_entries hCriteria)
      fun values => ?_
    rw [State.exists_entry_iff hCriteria, State.exists_entry_iff hImageCriteria]
    exact ⟨alike.exists_admitted relists hMatched, alike.symm.exists_admitted relists.symm hBack⟩
  · rw [State.destinations_foldl_add, State.destinations_foldl_add]
    exact alike.destinations

/-- Walking on offers arrivals that match. -/
theorem walkOffers_matched (hBegun : 0 < state.round) :
    Arrival.Matched (walkOffers problem state) (walkOffers other image) := by
  intro arrival hMem
  obtain ⟨source, hSource, hMem⟩ := List.mem_flatMap.mp hMem
  obtain ⟨transfer, hWalk, rfl⟩ := List.mem_map.mp hMem
  obtain ⟨hAt, hFoot⟩ := (books.mem_walkSources_iff hBegun).mp hSource
  obtain ⟨same, hSame, hMatches⟩ := alike.exists_matching relists books imageBooks hAt
  have hSameFoot : same.2.roundOnFoot = image.round := by
    rw [alike.round, ← hFoot, Arrival.roundOnFoot, Arrival.roundOnFoot, hMatches.isTransit,
      hMatches.round]
  have hSameSource : same ∈ image.walkSources := by
    refine (imageBooks.mem_walkSources_iff (alike.round ▸ hBegun)).mpr ⟨?_, hSameFoot⟩
    rwa [hMatches.stop, hMatches.round]
  refine ⟨_, List.mem_flatMap.mpr ⟨same, hSameSource, List.mem_map_of_mem
    (relists.listed.transfersAt _ transfer (hMatches.stop ▸ hWalk))⟩, ?_, alike.round, ?_, ?_, rfl⟩
  · simp only [Problem.walkArrival, relists.listed.direction]
  · simp only [Problem.walkArrival, relists.listed.direction, hMatches.time]
  · simp only [Problem.walkArrival, relists.listed.cost, hMatches.cost]

/-- Both states have candidates of the same values for the destination. -/
theorem exists_candidate {values : List Int}
    (h : ∃ entry ∈ (state.candidates problem).map (destinationEntry problem.direction),
      entry.criteria = values) :
    ∃ entry ∈ (image.candidates other).map (destinationEntry other.direction),
      entry.criteria = values := by
  obtain ⟨_, hEntry, rfl⟩ := h
  obtain ⟨candidate, hCandidate, rfl⟩ := List.mem_map.mp hEntry
  obtain ⟨stop, source, hAt, hRide, leg, hLeg, rfl⟩ := books.mem_candidates_iff.mp hCandidate
  obtain ⟨same, hSame, hMatches⟩ := alike.exists_matching relists books imageBooks hAt
  refine ⟨_, List.mem_map_of_mem (imageBooks.mem_candidates_iff.mpr ⟨stop, same,
    alike.round ▸ hSame, hMatches.isTransit.trans hRide, leg,
    relists.listed.endLegsAt stop leg hLeg, rfl⟩), ?_⟩
  rw [relists.listed.direction, destinationEntry_eq_iff]
  simp only [Problem.destinationArrival, relists.listed.direction, relists.listed.cost,
    hMatches.time, hMatches.cost, alike.round, and_self]

/-- Walking to the destination leaves the same values there. -/
theorem finish (tally : Tally problem state) (imageTally : Tally other image)
    (modest : problem.Modest) (hTime : Clock.Within (2 * Clock.modest) time)
    (hRates : problem.cost.Modest) (hExact : problem.costSlack = 0)
    (hRounds : state.round ≤ Request.maxSupportedTransfers + 1) :
    Alike (state.finish problem) (image.finish other) := by
  obtain ⟨-, hRound, -, hFronts, -⟩ := books.ended
  obtain ⟨-, hImageRound, -, hImageFronts, -⟩ := imageBooks.ended
  refine ⟨hImageRound.trans (alike.round.trans hRound.symm), fun stop => ?_, ?_⟩
  · rw [hFronts, hImageFronts]
    exact alike.fronts stop
  · have hTidy := tally.destinations
    have hImageTidy := imageTally.destinations
    rw [relists.listed.costSlack, hExact] at hImageTidy
    rw [hExact] at hTidy
    rw [State.destinations_finish, State.destinations_finish, relists.listed.costSlack, hExact]
    exact alike.destinations.offerAll destinationRules_orderly hTidy hImageTidy
      (books.fits_destinations modest hTime hRates hRounds)
      (books.fits_candidates modest hTime hRates hRounds)
      fun values => ⟨alike.exists_candidate relists books imageBooks,
        alike.symm.exists_candidate relists.symm imageBooks books⟩

end Alike

/-- A pattern that takes part is scanned if there is something to go on from at one of its stops. -/
theorem State.mem_patterns (linked : problem.day.network.Linked) {pattern position stop : Nat}
    {table : TripTable} (hTable : problem.day.network.tripTable pattern = .ok table)
    (hStop : table.stopAt position = .ok stop)
    (hActive : problem.day.activePatterns.contains pattern = true) (hSome : state.sources stop ≠ []) :
    pattern ∈ (strategy problem).patterns problem.day state := by
  refine DayTimetable.mem_patternsTouching linked hTable hStop (IndexSet.mem_toList.mpr ?_) hActive
  unfold State.sources at hSome
  split at hSome
  · assumption
  · exact absurd rfl hSome

structure Twins (problem other : Problem) (time : Int) (state image : State) : Prop where
  books : Books problem time state
  imageBooks : Books other time image
  tally : Tally problem state
  imageTally : Tally other image
  alike : Alike state image

namespace Twins

variable (twins : Twins problem other time state image) (relists : problem.Relists other)

include twins

theorem symm : Twins other problem time image state :=
  ⟨twins.imageBooks, twins.books, twins.imageTally, twins.tally, twins.alike.symm⟩

theorem beginRound :
    Twins problem other time (state.beginRound (state.round + 1))
      (image.beginRound (image.round + 1)) := by
  refine ⟨twins.books.beginRound, twins.imageBooks.beginRound, twins.tally.beginRound _,
    twins.imageTally.beginRound _, ?_⟩
  rw [twins.alike.round]
  exact twins.alike.beginRound _

include relists

theorem sourcesMatched (hBegun : 0 < state.round) : SourcesMatched state.sources image.sources := by
  intro stop source hSource
  rw [twins.books.sources_eq hBegun] at hSource
  rw [twins.imageBooks.sources_eq (twins.alike.round ▸ hBegun), twins.alike.round]
  exact twins.alike.exists_matching relists twins.books twins.imageBooks hSource

/-- Offers that match leave twins. -/
theorem foldl {offers others : List Arrival}
    (hOffers : ∀ arrival ∈ offers, Offered problem time state arrival)
    (hOthers : ∀ arrival ∈ others, Offered other time image arrival)
    (hMatched : Arrival.Matched offers others) (hBack : Arrival.Matched others offers) :
    Twins problem other time (offers.foldl (State.add problem) state)
      (others.foldl (State.add other) image) :=
  ⟨(twins.books.steady_foldl hOffers).1, (twins.imageBooks.steady_foldl hOthers).1,
    twins.tally.foldl twins.books hOffers, twins.imageTally.foldl twins.imageBooks hOthers,
    twins.alike.foldl relists twins.books twins.imageBooks twins.tally twins.imageTally hOffers
      hOthers hMatched hBack⟩

/-- Riding in a round offers arrivals that match, once it has begun. -/
theorem rides_matched (linked : other.day.network.Linked) {rides imageRides : List Arrival}
    {scanned walked imageScanned imageWalked : State}
    (course : Course problem time state rides scanned walked)
    (imageCourse : Course other time image imageRides imageScanned imageWalked) :
    Arrival.Matched rides imageRides := by
  have hImage := imageCourse.rideOffers
  rw [twins.alike.round] at hImage
  have begun := twins.beginRound
  rw [twins.alike.round] at begun
  refine rideOffers_matched relists (begun.sourcesMatched relists (Nat.succ_pos _))
    (begun.symm.sourcesMatched relists.symm (Nat.succ_pos _)) course.rideOffers hImage
    (fun pattern hPattern => ((strategy problem).patterns_known _ _ pattern hPattern).1)
    fun hTable hActive hStop hSome => State.mem_patterns linked hTable hStop hActive hSome

/-- Searches that are alike before a round are alike after it. -/
theorem round (linked : problem.day.network.Linked) (imageLinked : other.day.network.Linked)
    (modest : problem.Modest) (hTime : Clock.Within (2 * Clock.modest) time)
    (hRates : problem.cost.Modest) (hExact : problem.costSlack = 0)
    (hRounds : state.round + 1 ≤ Request.maxSupportedTransfers + 1)
    {rides imageRides : List Arrival} {scanned walked imageScanned imageWalked : State}
    (course : Course problem time state rides scanned walked)
    (imageCourse : Course other time image imageRides imageScanned imageWalked) :
    Twins problem other time (walked.finish problem) (imageWalked.finish other) := by
  have scan : Twins problem other time scanned imageScanned := by
    rw [course.scanned_eq, imageCourse.scanned_eq]
    exact twins.beginRound.foldl relists course.offered imageCourse.offered
      (twins.rides_matched relists imageLinked course imageCourse)
      (twins.symm.rides_matched relists.symm linked imageCourse course)
  have hBegun : 0 < scanned.round := course.round_scanned ▸ Nat.succ_pos _
  have walk : Twins problem other time walked imageWalked := by
    rw [course.walked_eq, imageCourse.walked_eq]
    exact scan.foldl relists course.walks imageCourse.walks
      (scan.alike.walkOffers_matched relists scan.books scan.imageBooks hBegun)
      (scan.alike.symm.walkOffers_matched relists.symm scan.imageBooks scan.books
        (scan.alike.round ▸ hBegun))
  exact ⟨walk.books.ended.1, walk.imageBooks.ended.1, walk.tally.finish walk.books,
    walk.imageTally.finish walk.imageBooks,
    walk.alike.finish relists walk.books walk.imageBooks walk.tally walk.imageTally modest hTime
      hRates hExact (course.round_walked ▸ hRounds)⟩

/-- If one search is to go on then so is the other. -/
theorem hasProgressed_eq :
    (strategy problem).hasProgressed state = (strategy other).hasProgressed image := by
  have hOne : ∀ {problem other : Problem} {state image : State}, problem.Relists other →
      Twins problem other time state image → (strategy problem).hasProgressed state = true →
        (strategy other).hasProgressed image = true := by
    intro problem other state image relists twins h
    obtain ⟨stop, hSome⟩ := (twins.tally.hasProgressed_iff twins.books).mp h
    obtain ⟨source, hSource⟩ := List.exists_mem_of_ne_nil _ hSome
    obtain ⟨same, hSame, -⟩ :=
      twins.alike.exists_matching relists twins.books twins.imageBooks hSource
    rw [← twins.alike.round] at hSame
    exact (twins.imageTally.hasProgressed_iff twins.imageBooks).mpr ⟨stop, List.ne_nil_of_mem hSame⟩
  exact Bool.eq_iff_iff.mpr ⟨hOne relists twins, hOne relists.symm twins.symm⟩

/-- Twins are settled in the same round. -/
theorem isSettled_eq : (strategy problem).isSettled state = (strategy other).isSettled image := by
  have hOne : ∀ {problem other : Problem} {state image : State}, problem.Relists other →
      Twins problem other time state image → (strategy problem).isSettled state = true →
        (strategy other).isSettled image = true := by
    intro problem other state image relists twins h
    obtain ⟨hEnded, hCovered⟩ := twins.books.isSettled_iff.mp h
    refine twins.imageBooks.isSettled_iff.mpr ⟨?_, fun stop source hSource => ?_⟩
    · obtain ⟨entry, hEntry⟩ := List.exists_mem_of_ne_nil _ hEnded
      obtain ⟨held, hHeld, -⟩ := (twins.alike.destinations _).mp ⟨entry, hEntry, rfl⟩
      exact List.ne_nil_of_mem hHeld
    · obtain ⟨same, hSame, hMatches⟩ := twins.alike.symm.exists_matching relists.symm
        twins.imageBooks twins.books hSource
      rw [twins.alike.round] at hSame
      rw [← twins.alike.isCovered_eq, ← stopCriteria_eq_of_matches hMatches,
        relists.listed.direction]
      exact hCovered stop same hSame
  exact Bool.eq_iff_iff.mpr ⟨hOne relists twins, hOne relists.symm twins.symm⟩

end Twins

/-- The searches start alike. -/
theorem Twins.start (relists : problem.Relists other) (sound : problem.day.network.Sound)
    (imageSound : other.day.network.Sound) (legs : problem.KnownLegs)
    (imageLegs : other.KnownLegs) :
    Twins problem other time ((strategy problem).start time) ((strategy other).start time) := by
  have hMatched : ∀ {problem other : Problem}, problem.ListedIn other →
      Arrival.Matched (problem.startLegs.map (problem.accessArrival time))
        (other.startLegs.map (other.accessArrival time)) := by
    intro problem other listed arrival hMem
    obtain ⟨leg, hLeg, rfl⟩ := List.mem_map.mp hMem
    refine ⟨_, List.mem_map_of_mem (listed.startLegs leg hLeg), rfl, rfl, ?_, ?_, rfl⟩
    · simp only [Problem.accessArrival, listed.direction]
    · simp only [Problem.accessArrival, listed.cost]
  have alike : Alike (State.initial problem) (State.initial other) :=
    ⟨rfl, fun stop => by simp [State.initial, Front.Alike], fun _ => Iff.rfl⟩
  have twins : Twins problem other time (State.initial problem) (State.initial other) :=
    ⟨.initial problem time, .initial other time, .initial problem, .initial other, alike⟩
  exact twins.foldl relists (offered_start time sound.toLinked legs)
    (offered_start time imageSound.toLinked imageLegs)
    (hMatched relists.listed) (hMatched relists.back)

end JourneyPlanner.Search.MultiCriteria
