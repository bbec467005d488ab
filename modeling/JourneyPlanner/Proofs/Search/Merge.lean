import JourneyPlanner.Proofs.Pareto.Survivors
import JourneyPlanner.Proofs.Search.Completion
import JourneyPlanner.Proofs.Search.Itinerary
import Mathlib.Algebra.GroupWithZero.Nat
import Mathlib.Data.List.Sigma
import Mathlib.Data.Prod.Lex
import Mathlib.Order.Fin.Basic

/-! The answer over a window against the journeys of all its runs. The front is filled one journey
after the other and sorted at the end; what comes out depends on the list of all journeys alone.
Main statement: the answer lists just the journeys that none of all is better than, of equal ones
the first, by departure, arrival, transfers and cost. Journeys are compared on their durations, so
this is said of journeys whose durations the clock can tell; on a modest network all can. -/
namespace JourneyPlanner

/-- What decides the place of a journey in a list: departure, arrival, transfers and cost. -/
def Journey.rank (journey : Journey) : Int ×ₗ Int ×ₗ Nat ×ₗ Int :=
  toLex (journey.departure, toLex (journey.arrival, toLex (journey.transfers, journey.cost)))

namespace Search

/-- Journeys are listed by their ranks. -/
theorem listedBefore_iff {a b : Journey} : listedBefore a b = true ↔ a.rank ≤ b.rank := by
  simp only [listedBefore, decide_eq_true_eq, Journey.rank, Prod.Lex.toLex_le_toLex]

/-- The journeys at some places of a list are the best of it in their order: just those that none
is better than, of those that compare as the same the first; by rank, and within one rank as
they came. -/
structure Merged (rules : Rules) (criteria : Journey → List Int) (all : List Journey)
    (places : List (Fin all.length)) : Prop where
  mem_iff : ∀ place, place ∈ places ↔
    (∀ other ∈ all, rules.dominates (criteria other) (criteria (all.get place)) = false) ∧
      ∀ earlier < place, criteria (all.get earlier) ≠ criteria (all.get place)
  ordered : places.Pairwise fun first second =>
    toLex ((all.get first).rank, first) < toLex ((all.get second).rank, second)

/-- There is only one way to merge a list. -/
theorem Merged.unique {rules : Rules} {criteria : Journey → List Int} {all : List Journey}
    {places others : List (Fin all.length)} (first : Merged rules criteria all places)
    (second : Merged rules criteria all others) : places = others := by
  have hNodup : ∀ {places}, Merged rules criteria all places → places.Nodup := fun merged =>
    List.nodup_iff_pairwise_ne.mpr (merged.ordered.imp fun hLt hSame => by
      subst hSame
      exact lt_irrefl _ hLt)
  refine List.Perm.eq_of_pairwise ?_ first.ordered second.ordered ?_
  · exact fun _ _ _ _ hLt hBack => absurd hLt (lt_asymm hBack)
  · exact (List.perm_ext_iff_of_nodup (hNodup first) (hNodup second)).mpr fun place =>
      (first.mem_iff place).trans (second.mem_iff place).symm

/-- Sorting ascending places by the rank of what is there leaves those of one rank ascending. -/
theorem pairwise_mergeSort_places {n : Nat} {β : Type} [LinearOrder β] (rank : Fin n → β)
    {places : List (Fin n)} (hOrder : places.Pairwise (· < ·)) :
    (places.mergeSort fun first second => decide (rank first ≤ rank second)).Pairwise
      fun first second => toLex (rank first, first) < toLex (rank second, second) := by
  -- each place with its number in the list, by which a stable sort breaks ties
  have hSorted : (places.zipIdx.mergeSort (List.zipIdxLE fun first second =>
      decide (rank first ≤ rank second))).Pairwise fun a b => List.zipIdxLE (fun first second =>
        decide (rank first ≤ rank second)) a b = true :=
    List.pairwise_mergeSort
      (List.zipIdxLE_trans (by simpa using fun _ _ _ => le_trans))
      (List.zipIdxLE_total (by simpa using fun first second => le_total (rank first) (rank second)))
      places.zipIdx
  have hDistinct : (places.zipIdx.mergeSort (List.zipIdxLE fun first second =>
      decide (rank first ≤ rank second))).Nodup :=
    (List.mergeSort_perm ..).nodup_iff.mpr (List.nodup_zipIdx_map_snd places).of_map
  rw [← List.mergeSort_zipIdx, List.pairwise_map]
  refine (hSorted.and hDistinct).imp_of_mem fun {a b} hA hB ⟨hLe, hDiffer⟩ => ?_
  rw [List.mem_mergeSort, List.mem_zipIdx_iff_getElem?] at hA hB
  rw [Prod.Lex.toLex_lt_toLex]
  simp only [List.zipIdxLE, decide_eq_true_eq] at hLe
  split at hLe
  · rename_i hRank
    split at hLe
    · rename_i hBack
      refine Or.inr ⟨le_antisymm hRank hBack, ?_⟩
      have hLt : a.2 < b.2 := by
        refine Nat.lt_of_le_of_ne (by simpa using hLe) fun hSame => hDiffer ?_
        rw [hSame, hB, Option.some.injEq] at hA
        exact Prod.ext hA.symm hSame
      obtain ⟨hInsideA, hAtA⟩ := List.getElem?_eq_some_iff.mp hA
      obtain ⟨hInsideB, hAtB⟩ := List.getElem?_eq_some_iff.mp hB
      rw [← hAtA, ← hAtB]
      exact List.pairwise_iff_getElem.mp hOrder _ _ hInsideA hInsideB hLt
    · rename_i hBack
      exact Or.inl (lt_of_not_ge hBack)
  · cases hLe

/-- Places below a bound as indices of a list. -/
theorem filterMap_getElem?_eq_map_get {α : Type} (items : List α) {places : List Nat}
    (hInside : ∀ place ∈ places, place < items.length) :
    places.filterMap (fun place => items[place]?) = (places.pmap Fin.mk hInside).map items.get := by
  induction places with
  | nil => rfl
  | cons place rest ih =>
      obtain ⟨hFirst, hRest⟩ := List.forall_mem_cons.mp hInside
      rw [List.filterMap_cons, List.getElem?_eq_getElem hFirst, ih hRest]
      rfl

/-- What stays of the values of some journeys, said of the journeys. -/
theorem stays_map_iff {rules : Rules} {criteria : Journey → List Int} {all : List Journey}
    (place : Fin all.length) :
    Front.Stays rules (all.map criteria) place ↔
      (∀ other ∈ all, rules.dominates (criteria other) (criteria (all.get place)) = false) ∧
        ∀ earlier < place, criteria (all.get earlier) ≠ criteria (all.get place) := by
  have hValues : ∀ index : Fin all.length,
      (all.map criteria)[(index : Nat)]? = some (criteria (all.get index)) := fun index => by
    rw [List.getElem?_map, List.getElem?_eq_getElem index.isLt]
    rfl
  constructor
  · rintro ⟨own, hOwn, hNone, hFirst⟩
    rw [hValues place, Option.some.injEq] at hOwn
    subst hOwn
    refine ⟨fun other hOther => hNone _ (List.mem_map_of_mem hOther), fun earlier hLt hSame => ?_⟩
    exact hFirst earlier hLt ((hValues earlier).trans (congrArg some hSame))
  · rintro ⟨hNone, hFirst⟩
    refine ⟨_, hValues place, fun values hMem => ?_, fun earlier hLt hSame => ?_⟩
    · obtain ⟨other, hOther, rfl⟩ := List.mem_map.mp hMem
      exact hNone other hOther
    · have hInside : earlier < all.length := Nat.lt_trans hLt place.isLt
      rw [hValues ⟨earlier, hInside⟩, Option.some.injEq] at hSame
      exact hFirst ⟨earlier, hInside⟩ hLt hSame

/-- If comparing is an order, the best of some journeys are those that stay, in order. -/
theorem exists_merged {direction : Direction} {profile : Profile} {costSlack : Int}
    {shape : List Int → Prop} (orderly : (journeyRules profile costSlack).Orderly shape)
    {all : List Journey}
    (hShape : ∀ journey ∈ all, shape (journeyCriteria direction profile journey)) :
    ∃ places, bestJourneys direction profile costSlack all = places.map all.get ∧
      Merged (journeyRules profile costSlack) (journeyCriteria direction profile) all places := by
  obtain ⟨kept, hOrder, hEntries, hKept⟩ := Front.survive_offerAll orderly
    (all.map fun journey =>
      { item := journey, criteria := journeyCriteria direction profile journey }) (by
      intro entry hEntry
      obtain ⟨journey, hMem, rfl⟩ := List.mem_map.mp hEntry
      exact hShape journey hMem)
  rw [List.map_map] at hKept
  have hInside : ∀ place ∈ kept, place < all.length := fun place hPlace => by
    simpa using ((hKept place).mp hPlace).lt_length
  have hItems : (Front.empty.offerAll (journeyRules profile costSlack) (all.map fun journey =>
      ({ item := journey, criteria := journeyCriteria direction profile journey } :
        Entry Journey))).items = (kept.pmap Fin.mk hInside).map all.get := by
    rw [← filterMap_getElem?_eq_map_get, Front.items, hEntries, List.map_filterMap]
    exact List.filterMap_congr fun place hPlace => by
      rw [List.getElem?_map, Option.map_map]
      exact Option.map_id'
  refine ⟨(kept.pmap Fin.mk hInside).mergeSort fun first second =>
    decide ((all.get first).rank ≤ (all.get second).rank), ?_, fun place => ?_, ?_⟩
  · rw [bestJourneys, hItems]
    refine (List.map_mergeSort fun first _ second _ => ?_).symm
    rw [Bool.eq_iff_iff, decide_eq_true_eq, listedBefore_iff]
  · rw [List.mem_mergeSort, List.mem_pmap, ← stays_map_iff]
    refine Iff.trans ?_ (hKept place)
    constructor
    · rintro ⟨index, hMem, rfl⟩
      exact hMem
    · intro hMem
      exact ⟨place, hMem, rfl⟩
  · exact pairwise_mergeSort_places _ (hOrder.pmap hInside fun _ _ _ _ hLt => hLt)

theorem map_eq_of_map_ok {ε α β γ : Type} {read : α → Except ε β} {items : List α}
    {values : List β} {f : α → γ} {g : β → γ} (h : items.map read = values.map .ok)
    (hEach : ∀ item ∈ items, ∃ value, read item = .ok value ∧ f item = g value) :
    items.map f = values.map g := by
  induction items generalizing values with
  | nil =>
      cases values with
      | nil => rfl
      | cons => cases h
  | cons item rest ih =>
      cases values with
      | nil => cases h
      | cons value others =>
          rw [List.map_cons, List.map_cons, List.cons.injEq] at h
          obtain ⟨⟨other, hOther, hSame⟩, hRest⟩ := List.forall_mem_cons.mp hEach
          rw [h.1, Except.ok.injEq] at hOther
          rw [List.map_cons, List.map_cons, hSame, hOther, ih h.2 hRest]

/-- Journeys compare exactly, unless costs are compared with slack. -/
theorem isExact_journeyRules {profile : Profile} {costSlack : Int}
    (hSlack : profile = .multiCriteria → costSlack = 0) :
    ∀ criterion ∈ (journeyRules profile costSlack).criteria, criterion.IsExact := by
  cases profile with
  | standard => simp [journeyRules, Criterion.IsExact]
  | bestTime => simp [journeyRules, Criterion.IsExact]
  | multiCriteria => simp [journeyRules, Criterion.IsExact, hSlack rfl]

theorem fits_journeyCriteria {direction : Direction} {profile : Profile} {costSlack : Int}
    {journey : Journey} (hCost : profile = .multiCriteria →
      Criterion.lowest ≤ journey.cost ∧ journey.cost ≤ Criterion.highest) :
    Rules.Fits (journeyRules profile costSlack).criteria
      (journeyCriteria direction profile journey) := by
  cases profile with
  | standard => exact ⟨trivial, trivial, trivial, trivial⟩
  | bestTime => exact ⟨trivial, trivial⟩
  | multiCriteria => exact ⟨trivial, trivial, trivial, hCost rfl, trivial⟩

/-- No journey of an answer is better than another, whatever the slack. -/
theorem pairwise_bestJourneys (direction : Direction) (profile : Profile) (costSlack : Int)
    (all : List Journey) :
    (bestJourneys direction profile costSlack all).Pairwise fun first second =>
      (journeyRules profile costSlack).dominates (journeyCriteria direction profile first)
          (journeyCriteria direction profile second) = false ∧
        (journeyRules profile costSlack).dominates (journeyCriteria direction profile second)
          (journeyCriteria direction profile first) = false := by
  have hTidy := (Front.tidy_empty (journeyRules profile costSlack)).offerAll (all.map fun journey =>
    { item := journey, criteria := journeyCriteria direction profile journey })
  refine (List.mergeSort_perm ..).symm.pairwise ?_ (fun h => h.symm)
  rw [Front.items, List.pairwise_map]
  have hCriteria : ∀ entry ∈ (Front.empty.offerAll (journeyRules profile costSlack)
      (all.map fun journey =>
        { item := journey, criteria := journeyCriteria direction profile journey })).entries,
      entry.criteria = journeyCriteria direction profile entry.item := by
    intro entry hEntry
    obtain ⟨journey, -, rfl⟩ := exists_of_mem_kept hEntry
    rfl
  refine hTidy.imp_of_mem fun {first second} hFirst hSecond h => ?_
  rwa [hCriteria first hFirst, hCriteria second hSecond] at h

/-- The best time is one, so the answer of a search for it is at most one journey. -/
theorem Merged.length_le_one {direction : Direction} {costSlack : Int} {all : List Journey}
    {places : List (Fin all.length)}
    (merged : Merged (journeyRules .bestTime costSlack) (journeyCriteria direction .bestTime) all
      places) : places.length ≤ 1 := by
  have orderly : (journeyRules .bestTime costSlack).Orderly _ :=
    Rules.orderly_of_exact (isExact_journeyRules (by simp))
  have hFits : ∀ journey, Rules.Fits (journeyRules .bestTime costSlack).criteria
      (journeyCriteria direction .bestTime journey) := fun _ => fits_journeyCriteria (by simp)
  -- of two values one covers the other, so if neither is better they are the same
  have hSame : ∀ first ∈ places, ∀ second ∈ places,
      journeyCriteria direction .bestTime (all.get first) =
        journeyCriteria direction .bestTime (all.get second) := by
    intro first hFirst second hSecond
    by_contra hDiffer
    have hFirst := ((merged.mem_iff first).mp hFirst).1 _ (List.get_mem all second)
    have hSecond := ((merged.mem_iff second).mp hSecond).1 _ (List.get_mem all first)
    rw [Bool.eq_false_iff, ne_eq, orderly.dominates_iff (hFits _) (hFits _), Rules.covers_iff]
      at hFirst hSecond
    simp only [journeyRules, journeyCriteria, Rules.NoWorse, Criterion.noWorse_less, and_true,
      List.cons.injEq, ne_eq] at hFirst hSecond hDiffer
    omega
  cases places with
  | nil => exact Nat.zero_le _
  | cons first rest =>
    cases rest with
    | nil => exact Nat.le_refl _
    | cons second rest =>
      have hLt := (List.pairwise_cons.mp merged.ordered).1 second (List.mem_cons_self ..)
      have hFirst := List.mem_cons_self (a := first) (l := second :: rest)
      have hSecond : second ∈ first :: second :: rest := by simp
      have hEqual := hSame first hFirst second hSecond
      rcases Nat.lt_trichotomy first second with hBefore | hEq | hAfter
      · exact absurd hEqual (((merged.mem_iff second).mp hSecond).2 first hBefore)
      · rw [Fin.ext hEq, Prod.Lex.toLex_lt_toLex] at hLt
        simp at hLt
      · exact absurd hEqual.symm (((merged.mem_iff first).mp hFirst).2 second hAfter)

end Search

/-- The times of a window are those a whole number of steps into it, as far as it goes. -/
theorem Request.getElem?_iterationTimes {request : Request} {step : Int}
    (hWindow : 0 ≤ request.searchWindow) (hStep : 0 < step) (count : Nat) :
    (request.iterationTimes step)[count]? =
      if count * step ≤ request.searchWindow then
        some (request.direction.plus request.time (count * step))
      else none := by
  obtain ⟨window, hWindow⟩ := Int.eq_ofNat_of_zero_le hWindow
  obtain ⟨stride, rfl⟩ := Int.eq_ofNat_of_zero_le (Int.le_of_lt hStep)
  have hMax : (max (stride : Int) 1).toNat = stride := by omega
  have hReach : count < window / stride + 1 ↔ (count : Int) * stride ≤ window := by
    rw [Nat.lt_succ_iff, Nat.le_div_iff_mul_le (by omega)]
    exact_mod_cast Iff.rfl
  rw [iterationTimes, if_neg (by omega), hMax, hWindow, Int.toNat_natCast]
  split
  · rename_i hInside
    rw [List.getElem?_map, List.getElem?_range (hReach.mpr hInside)]
    simp
  · rename_i hOutside
    rw [List.getElem?_eq_none]
    simpa using Nat.le_of_not_lt (mt hReach.mp hOutside)

/-- A window holds one run for each whole step, and one for its start. -/
theorem Request.length_iterationTimes {request : Request} {step : Int}
    (hWindow : 0 ≤ request.searchWindow) (hStep : 0 < step) :
    ((request.iterationTimes step).length : Int) = request.searchWindow / step + 1 := by
  obtain ⟨window, hWindow⟩ := Int.eq_ofNat_of_zero_le hWindow
  obtain ⟨stride, rfl⟩ := Int.eq_ofNat_of_zero_le (Int.le_of_lt hStep)
  have hMax : (max (stride : Int) 1).toNat = stride := by omega
  rw [iterationTimes, if_neg (by omega), hMax, hWindow]
  simp

/-- A journey whose duration is between the limits of the clock. -/
def Journey.IsTellable (journey : Journey) : Prop :=
  Clock.earliest ≤ journey.duration ∧ journey.duration ≤ Clock.latest

namespace Query

variable {query : Query} {time : Int}

/-- A ride brings a journey back near the timetable, so only the walks of one round after the other
take it away from there. -/
theorem Reaches.within (hNetwork : query.network.Modest) (hRequest : query.request.Modest)
    (hTime : Clock.Within (2 * Clock.modest) time) {manner : Manner} {round stop : Nat}
    {reached : Int} (h : query.Reaches time manner round stop reached) :
    Clock.Within ((manner.roundOnFoot round + 2) * Clock.modest) reached := by
  rw [← query.direction.within_timeCriterion] at hTime ⊢
  induction h with
  | access hLeg =>
      have hDuration := hRequest.legs _ (Request.mem_legs_iff.mpr (Or.inl hLeg))
      rw [Direction.timeCriterion_along]
      simp only [Clock.Within, Clock.modest, Manner.roundOnFoot] at hTime hDuration ⊢
      omega
  | ride before hRide hReady ih =>
      obtain ⟨hTable, -, -, -, -, -, -, -, hLater⟩ := hRide
      have hTimes := hNetwork.timeAt hTable hLater
      cases query.direction <;>
        simp only [Direction.alightTime, Direction.timeCriterion, Clock.Within, Clock.modest,
          Manner.roundOnFoot] at hTimes ⊢ <;> omega
  | walk before hWalk ih =>
      have hDuration := hNetwork.transfers hWalk
      rw [Direction.timeCriterion_along]
      simp only [Clock.Within, Clock.modest, Manner.roundOnFoot] at ih hDuration ⊢
      omega

/-- The journeys that a modest query is about have durations that the clock can tell. -/
theorem Traced.isTellable {journey : Journey} (traced : query.Traced time journey)
    (linked : query.network.Linked) (hNetwork : query.network.Modest)
    (hRequest : query.request.Modest) (hTime : Clock.Within (2 * Clock.modest) time)
    (hTransfers : query.request.maxTransfers ≤ Request.maxSupportedTransfers) :
    journey.IsTellable := by
  have hStart := (traced.itinerary linked).start
  obtain ⟨round, hRound, hEnds⟩ := traced.exists_ends
  generalize hFinish : journey.finish query.direction = finish at hEnds
  obtain ⟨last, hLeg⟩ := hEnds
  rename_i leg reached
  have hReached := last.within hNetwork hRequest hTime
  have hDuration := hRequest.legs leg (Request.mem_legs_iff.mpr (Or.inr hLeg))
  simp only [Request.maxSupportedTransfers] at hTransfers
  simp only [Clock.Within, Clock.modest, Manner.roundOnFoot] at hTime hReached hDuration
  simp only [Journey.IsTellable, Journey.duration, Clock.earliest, Clock.latest]
  cases hDirection : query.direction <;>
    simp only [hDirection, Journey.start, Journey.finish, Direction.along] at hStart hFinish <;>
    omega

end Query

variable {draft : Draft} {query : Query} {day : DayTimetable} {config : SearchConfig}

/-- The runs of a window, one for each of its times, are completed, and the journeys of each can be
read off. On a modest network the clock can tell the durations of all. -/
theorem Search.exists_runs_of_window (sound : query.network.Sound)
    (hDay : query.network.onDate query.date query.modes = .ok day) {planner : Planner}
    (hPlanner : Planner.ofRequest day query.request config = .ok planner)
    (watches : Nat → Stopwatch) :
    ∃ runs : List Run, ∃ found : List (List Journey),
      planner.runAll (query.request.iterationTimes config.iterationStep) watches =
        runs.map .ok ∧
      runs.map Run.journeys = found.map .ok ∧
      (runs.map fun run => run.found.destinations.map
          (Journey.ofDestination run.found.arrivals query.direction)) =
        found.map (List.map .ok) ∧
      (query.request.timeLimit = none → ∀ run ∈ runs, run.timedOut = false) ∧
      (query.network.Modest → query.request.Modest →
        ∀ journey ∈ found.flatten, journey.IsTellable) := by
  have hEach := Planner.exists_journeys sound hDay hPlanner
  obtain ⟨runs, hRuns⟩ := Planner.exists_runAll watches
    fun time (_ : time ∈ query.request.iterationTimes config.iterationStep) watch =>
      (hEach time watch).imp fun run ⟨_, hRun, _⟩ => hRun
  have hRead : ∀ run ∈ runs, ∃ journeys, run.journeys = .ok journeys ∧
      run.found.destinations.map (Journey.ofDestination run.found.arrivals query.direction) =
        journeys.map .ok ∧ (query.request.timeLimit = none → run.timedOut = false) := by
    intro run hRun
    obtain ⟨place, time, -, hMade⟩ := (Planner.mem_runs_iff hRuns).mp hRun
    obtain ⟨other, journeys, hOther, -, hJourneys, hMap, hInTime⟩ := hEach time (watches place)
    rw [hMade, Except.ok.injEq] at hOther
    subst hOther
    exact ⟨journeys, hJourneys, hMap, hInTime⟩
  obtain ⟨found, hFound⟩ : ∃ found : List (List Journey),
      runs.map Run.journeys = found.map .ok := exists_map_ok fun run hRun =>
    (hRead run hRun).imp fun _ h => h.1
  refine ⟨runs, found, hRuns, hFound, ?_, fun hLimit run hRun => ?_,
    fun hNetwork hRequest journey hJourney => ?_⟩
  · exact map_eq_of_map_ok hFound fun run hRun => (hRead run hRun).imp fun _ h => ⟨h.1, h.2.1⟩
  · obtain ⟨_, -, -, hInTime⟩ := hRead run hRun
    exact hInTime hLimit
  · obtain ⟨journeys, hMem, hJourney⟩ := List.mem_flatten.mp hJourney
    obtain ⟨run, hRun, hOwn⟩ := (mem_iff_of_map_ok hFound).mp hMem
    obtain ⟨place, time, hPlace, hMade⟩ := (Planner.mem_runs_iff hRuns).mp hRun
    have hTime := hRequest.within_of_mem_iterationTimes (List.mem_of_getElem? hPlace)
    obtain ⟨other, hOther, answers, -⟩ := Planner.exists_answer sound hDay hPlanner hNetwork
      hRequest hTime (watches place)
    rw [hMade, Except.ok.injEq] at hOther
    subst hOther
    exact (answers.traced hOwn journey hJourney).isTellable sound.toLinked hNetwork hRequest hTime
      (Planner.ofRequest_eq_ok_iff.mp hPlanner).1.maxTransfers_le

/-- If the clock can tell the durations of all journeys of its runs, as it can on a modest network,
a search answers with the best of these journeys, whatever the order in which they came into the
front: just those that none of all is better than, of equal ones the first, in order. With a slack
on cost the answer still has no journey that is better than another. -/
theorem Search.answer_merges_runs (hBuild : draft.build = .ok query.network)
    (hDay : query.network.onDate query.date query.modes = .ok day)
    (hValid : query.request.validate day.numStops config = .ok ())
    (hLimit : query.request.timeLimit = none) (watches : Nat → Stopwatch) :
    ∃ planner, ∃ runs : List Run, ∃ found : List (List Journey),
      Planner.ofRequest day query.request config = .ok planner ∧
      planner.runAll (query.request.iterationTimes config.iterationStep) watches =
        runs.map .ok ∧
      (∀ count : Nat, (query.request.iterationTimes config.iterationStep)[count]? =
        if count * config.iterationStep ≤ query.request.searchWindow then
          some (query.direction.plus query.request.time (count * config.iterationStep))
        else none) ∧
      (runs.map fun run => run.found.destinations.map
          (Journey.ofDestination run.found.arrivals query.direction)) =
        found.map (List.map .ok) ∧
      (query.network.Modest → query.request.Modest →
        ∀ journey ∈ found.flatten, journey.IsTellable) ∧
      ((query.request.profile ≠ .bestTime → ∀ journey ∈ found.flatten, journey.IsTellable) →
        ∃ response, search day query.request config watches = .ok response ∧
          ((query.request.profile = .multiCriteria → config.costSlack = 0 ∧
              ∀ journey ∈ found.flatten,
                Criterion.lowest ≤ journey.cost ∧ journey.cost ≤ Criterion.highest) →
            ∃ places, response.journeys = places.map found.flatten.get ∧
              Merged (journeyRules query.request.profile config.costSlack)
                (journeyCriteria query.direction query.request.profile) found.flatten places) ∧
          (query.request.profile = .bestTime → response.journeys.length ≤ 1) ∧
          (response.journeys.Pairwise fun first second =>
            (journeyRules query.request.profile config.costSlack).dominates
                (journeyCriteria query.direction query.request.profile first)
                (journeyCriteria query.direction query.request.profile second) = false ∧
              (journeyRules query.request.profile config.costSlack).dominates
                (journeyCriteria query.direction query.request.profile second)
                (journeyCriteria query.direction query.request.profile first) = false) ∧
          response.timedOut = false ∧
          (response.stats.iterations : Int) =
            query.request.searchWindow / config.iterationStep + 1 ∧
          response.stats.rounds = (runs.map Run.rounds).sum ∧
          response.stats.arrivals = (runs.map fun run => run.found.arrivals.size).sum) := by
  have valid := Request.validate_eq_ok_iff.mp hValid
  obtain ⟨planner, hPlanner⟩ :
      ∃ planner, Planner.ofRequest day query.request config = .ok planner :=
    ⟨_, Planner.ofRequest_eq_ok_iff.mpr ⟨valid, rfl⟩⟩
  obtain ⟨runs, found, hRuns, hFound, hRead, hInTime, hTellable⟩ :=
    exists_runs_of_window (.of_build hBuild) hDay hPlanner watches
  refine ⟨planner, runs, found, hPlanner, hRuns,
    Request.getElem?_iterationTimes valid.searchWindow_nonneg valid.iterationStep_pos, hRead,
    hTellable, fun _ => ⟨_, search_eq hPlanner hRuns hFound, fun hExact => ?_, fun hProfile => ?_,
    pairwise_bestJourneys .., ?_, ?_, ?_, ?_⟩⟩
  · exact exists_merged (Rules.orderly_of_exact (isExact_journeyRules fun h => (hExact h).1))
      fun journey hMem => fits_journeyCriteria fun h => (hExact h).2 journey hMem
  · dsimp only
    rw [hProfile]
    obtain ⟨places, hBest, merged⟩ : ∃ places, bestJourneys query.direction .bestTime
        config.costSlack found.flatten = places.map found.flatten.get ∧ Merged _ _ _ places :=
      exists_merged (Rules.orderly_of_exact (isExact_journeyRules (by simp)))
        fun journey _ => fits_journeyCriteria (by simp)
    rw [← Query.direction, hBest, List.length_map]
    exact merged.length_le_one
  · exact List.any_eq_false.mpr fun run hRun => Bool.eq_false_iff.mp (hInTime hLimit run hRun)
  · rw [← Request.length_iterationTimes valid.searchWindow_nonneg valid.iterationStep_pos]
    have hLength := congrArg List.length hRuns
    rw [Planner.runAll, List.length_map, List.length_zipIdx, List.length_map] at hLength
    exact congrArg Nat.cast hLength.symm
  · exact List.length_flatMap
  · simp [statsOf, List.length_flatMap, Arrivals.toList, Arrivals.size]

/-- What the three runs of the connection's window find: the slow bus and the first train from the
first time, both again a quarter of an hour later, and only the second train after that. -/
def connectionJourneys : List (List Journey) :=
  [[.ofLegs [.access 0 (-60) 0, .transit 0 2 0 2000 2 0, .egress 2 2000 2030] 224000,
    .ofLegs [.access 0 (-60) 0, .transit 0 1 0 600 0 0, .transit 1 2 1600 1900 1 0,
      .egress 2 1900 1930] 220000],
   [.ofLegs [.access 0 840 900, .transit 0 2 900 2400 2 1, .egress 2 2400 2430] 174000,
    .ofLegs [.access 0 840 900, .transit 0 1 900 1500 0 1, .transit 1 2 1600 1900 1 0,
      .egress 2 1900 1930] 130000],
   [.ofLegs [.access 0 1740 1800, .transit 0 1 1800 2400 0 2, .transit 1 2 2500 2800 1 1,
      .egress 2 2800 2830] 130000]]

theorem Search.found_eq_connectionJourneys {profile : Profile} (hProfile : profile ≠ .multiCriteria)
    {planner : Planner}
    (hPlanner : Planner.ofRequest DayTimetable.connection { Query.connection.request with profile }
      SearchConfig.shuttle = .ok planner) {runs : List Run} {found : List (List Journey)}
    (hRuns : planner.runAll (Query.connection.request.iterationTimes 900) (fun _ => .stopped) =
      runs.map .ok)
    (hFound : (runs.map fun run => run.found.destinations.map
      (Journey.ofDestination run.found.arrivals .forward)) = found.map (List.map .ok)) :
    found = connectionJourneys := by
  have hRead : (planner.runAll (Query.connection.request.iterationTimes 900)
      fun _ => .stopped).map (fun result => result.toOption.map fun run =>
        run.found.destinations.map (Journey.ofDestination run.found.arrivals .forward)) =
      (connectionJourneys.map (List.map .ok)).map some := by
    obtain ⟨-, rfl⟩ := Planner.ofRequest_eq_ok_iff.mp hPlanner
    cases profile with
    | multiCriteria => exact absurd rfl hProfile
    | standard => decide +kernel
    | bestTime => decide +kernel
  rw [hRuns, List.map_map] at hRead
  have hSame : (runs.map fun run => run.found.destinations.map
      (Journey.ofDestination run.found.arrivals .forward)) = connectionJourneys.map (List.map .ok) :=
    List.map_injective_iff.mpr (fun _ _ => Option.some.inj) ((List.map_map ..).trans hRead)
  exact List.map_injective_iff.mpr (List.map_injective_iff.mpr fun _ _ => Except.ok.inj)
    (hFound.symm.trans hSame)

/-- Where transfers and durations count too, the first train found from the second time takes the
place of the same train found from the first, and the second train comes too late. Where only the
time counts, the first train takes the place of the slow bus, and is kept as found first. -/
theorem Search.answer_merges_runs_connection :
    ∃ first second : Response, ∃ firstPlaces secondPlaces,
      search DayTimetable.connection Query.connection.request SearchConfig.shuttle = .ok first ∧
      first.journeys = firstPlaces.map connectionJourneys.flatten.get ∧
      Merged (journeyRules .standard 0) (journeyCriteria .forward .standard)
        connectionJourneys.flatten firstPlaces ∧
      firstPlaces.map Fin.val = [0, 3, 2] ∧
      search DayTimetable.connection { Query.connection.request with profile := .bestTime }
        SearchConfig.shuttle = .ok second ∧
      second.journeys = secondPlaces.map connectionJourneys.flatten.get ∧
      Merged (journeyRules .bestTime 0) (journeyCriteria .forward .bestTime)
        connectionJourneys.flatten secondPlaces ∧
      secondPlaces.map Fin.val = [1] := by
  have hMerged : ∀ profile ≠ .multiCriteria, ∃ response : Response, ∃ places,
      search DayTimetable.connection { Query.connection.request with profile }
        SearchConfig.shuttle = .ok response ∧
      response.journeys = places.map connectionJourneys.flatten.get ∧
      Merged (journeyRules profile 0) (journeyCriteria .forward profile)
        connectionJourneys.flatten places := by
    intro profile hProfile
    obtain ⟨planner, runs, found, hPlanner, hRuns, -, hFound, hTellable, hAnswer⟩ :=
      @Search.answer_merges_runs Draft.connection
        { Query.connection with request := { Query.connection.request with profile } } _
        SearchConfig.shuttle Draft.build_connection Query.onDate_connection
        (Request.validate_eq_ok_iff.mpr { Query.valid_connection with }) rfl fun _ => .stopped
    obtain rfl := found_eq_connectionJourneys hProfile hPlanner hRuns hFound
    obtain ⟨response, hResponse, hBest, -⟩ := hAnswer fun _ =>
      hTellable Network.modest_connection { Query.modest_connection with }
    obtain ⟨places, hJourneys, merged⟩ := hBest fun h => absurd h hProfile
    exact ⟨response, places, hResponse, hJourneys, merged⟩
  obtain ⟨first, firstPlaces, hFirst, hFirstJourneys, firstMerged⟩ := hMerged .standard (by decide)
  obtain ⟨second, secondPlaces, hSecond, hSecondJourneys, secondMerged⟩ :=
    hMerged .bestTime (by decide)
  have hFirstPlaces := firstMerged.unique
    (⟨by decide +kernel, by decide +kernel⟩ : Merged _ _ _
      [⟨0, by decide⟩, ⟨3, by decide⟩, ⟨2, by decide⟩])
  have hSecondPlaces := secondMerged.unique
    (⟨by decide +kernel, List.pairwise_singleton ..⟩ : Merged _ _ _ [⟨1, by decide⟩])
  exact ⟨first, second, firstPlaces, secondPlaces, hFirst, hFirstJourneys, firstMerged,
    congrArg (List.map Fin.val) hFirstPlaces, hSecond, hSecondJourneys, secondMerged,
    congrArg (List.map Fin.val) hSecondPlaces⟩

end JourneyPlanner
