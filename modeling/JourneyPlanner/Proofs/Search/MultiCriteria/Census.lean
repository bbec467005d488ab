import JourneyPlanner.Proofs.Search.MultiCriteria.Fronts

/-! The fronts of a search for the best compromises, held against all that it has recorded. Main
statement: whatever is recorded, the front of a stop is made of the records at that stop which no
other is better than, and the marks of a round are those of its records. -/
namespace JourneyPlanner.Search.MultiCriteria

/-- Of all records at the stop of an arrival, none is better. -/
def Undominated (direction : Direction) (arrivals : Arrivals) (arrival : Arrival) : Prop :=
  ∀ other ∈ arrivals.toList, other.stop = arrival.stop →
    stopRules.dominates (stopCriteria direction other) (stopCriteria direction arrival) = false

/-- The fronts and marks of a state, as told by its records. -/
structure State.Census (state : State) (problem : Problem) : Prop where
  size_fronts : state.fronts.cells.size = problem.numStops
  size_current : state.reachedCurrent.marks.size = problem.numStops
  size_last : state.reachedLast.marks.size = problem.numStops
  size_byTransit : state.reachedByTransit.marks.size = problem.numStops
  round_le : ∀ arrival ∈ state.arrivals.toList, arrival.round ≤ state.round
  /-- In the front of a stop are those records there that no other is better than, each with its
  own values. -/
  mem_front : ∀ stop entry, entry ∈ (state.fronts.get stop).entries ↔
    ∃ arrival, state.arrivals.get? entry.item = some arrival ∧ arrival.stop = stop ∧
      entry.criteria = stopCriteria problem.direction arrival ∧
      Undominated problem.direction state.arrivals arrival
  /-- They stand in the order in which they were made, each once. -/
  ascending : ∀ stop, (state.fronts.get stop).items.Pairwise (· < ·)
  /-- For every record one that is as good is in the front of its stop. -/
  covered : ∀ arrival ∈ state.arrivals.toList, ∃ entry ∈ (state.fronts.get arrival.stop).entries,
    stopRules.covers entry.criteria (stopCriteria problem.direction arrival) = true
  /-- No two records at a stop have the same values. -/
  apart : ∀ id other first second, state.arrivals.get? id = some first →
    state.arrivals.get? other = some second → first.stop = second.stop →
    stopCriteria problem.direction first = stopCriteria problem.direction second → id = other
  reachedCurrent_iff : ∀ stop, state.reachedCurrent.contains stop = true ↔
    ∃ arrival ∈ state.arrivals.toList, arrival.stop = stop ∧ arrival.round = state.round
  reachedLast_iff : ∀ stop, state.reachedLast.contains stop = true ↔
    ∃ arrival ∈ state.arrivals.toList, arrival.stop = stop ∧ arrival.round + 1 = state.round
  reachedByTransit_iff : ∀ stop, state.reachedByTransit.contains stop = true ↔
    ∃ arrival ∈ state.arrivals.toList, arrival.stop = stop ∧ arrival.round = state.round ∧
      arrival.isTransit = true

variable {problem : Problem} {state : State} {arrival other : Arrival} {direction : Direction}

theorem dominates_stopCriteria_self (direction : Direction) (arrival : Arrival) :
    stopRules.dominates (stopCriteria direction arrival) (stopCriteria direction arrival) =
      false := by
  refine Bool.eq_false_iff.mpr fun h => ?_
  have hFits := fits_stopCriteria direction arrival
  exact ((stopRules_orderly.dominates_iff hFits hFits).mp h).2 rfl

/-- A new record can only make a difference to those at its stop that it is better than. -/
theorem undominated_push_iff {arrivals : Arrivals} :
    Undominated direction (arrivals.push arrival) other ↔
      Undominated direction arrivals other ∧ (arrival.stop = other.stop →
        stopRules.dominates (stopCriteria direction arrival) (stopCriteria direction other) =
          false) := by
  simp only [Undominated, Arrivals.mem_push, or_imp, forall_and, forall_eq]

/-- What is recorded ousts only what it is better than. -/
theorem Undominated.add (hBest : Undominated problem.direction state.arrivals other)
    (hNot : stopRules.dominates (stopCriteria problem.direction arrival)
      (stopCriteria problem.direction other) = false) :
    Undominated problem.direction (state.add problem arrival).arrivals other := by
  rcases state.add_eq_or problem arrival with hSame | ⟨front, -, hAdd⟩
  · rwa [hSame]
  · rw [hAdd]
    exact undominated_push_iff.mpr ⟨hBest, fun _ => hNot⟩

namespace State.Census

theorem initial (problem : Problem) : (State.initial problem).Census problem := by
  have hNone : ∀ id, Arrivals.empty.get? id = none := by simp [Arrivals.empty, Arrivals.get?]
  have hNil : Arrivals.empty.toList = [] := rfl
  constructor
  case size_fronts => exact Array.size_replicate
  case size_current | size_last | size_byTransit => exact Array.size_replicate
  all_goals simp [State.initial, hNone, hNil, Front.empty, Front.items]

section Push

variable (census : state.Census problem) {front : Front Nat}
  (hFront : (state.fronts.get arrival.stop).offer? stopRules
    { item := state.arrivals.size, criteria := stopCriteria problem.direction arrival } =
      some front)

include census

theorem shape {stop : Nat} {entry : Entry Nat} (hEntry : entry ∈ (state.fronts.get stop).entries) :
    ∃ arrival, entry.criteria = stopCriteria problem.direction arrival := by
  obtain ⟨arrival, -, -, hCriteria, -⟩ := (census.mem_front stop entry).mp hEntry
  exact ⟨arrival, hCriteria⟩

include hFront

/-- No record at the stop is as good as a record that is taken in. -/
theorem not_covered (hMem : other ∈ state.arrivals.toList) (hStop : other.stop = arrival.stop) :
    stopRules.covers (stopCriteria problem.direction other)
      (stopCriteria problem.direction arrival) = false := by
  obtain ⟨entry, hEntry, hOver⟩ := census.covered other hMem
  obtain ⟨held, hCriteria⟩ := census.shape hEntry
  refine Bool.eq_false_iff.mpr fun hCovers => ?_
  have hNone := mt Front.offer?_eq_none_iff.mpr (Option.ne_none_iff_exists'.mpr ⟨front, hFront⟩)
  refine hNone (List.any_eq_true.mpr ⟨entry, hStop ▸ hEntry, ?_⟩)
  rw [hCriteria] at hOver ⊢
  exact stopRules_orderly.trans (fits_stopCriteria ..) (fits_stopCriteria ..)
    (fits_stopCriteria ..) hOver hCovers

theorem undominated_new :
    Undominated problem.direction (state.arrivals.push arrival) arrival := by
  refine undominated_push_iff.mpr ⟨fun other hMem hStop => ?_,
    fun _ => dominates_stopCriteria_self ..⟩
  refine Bool.eq_false_iff.mpr fun h => ?_
  exact Bool.eq_false_iff.mp (census.not_covered hFront hMem hStop) (Rules.covers_of_dominates h)

omit census in
/-- What the new record is better than leaves the front, and it enters. -/
theorem mem_taken {entry : Entry Nat} : entry ∈ front.entries ↔
    entry ∈ (state.fronts.get arrival.stop).entries ∧
        stopRules.dominates (stopCriteria problem.direction arrival) entry.criteria = false ∨
      entry = { item := state.arrivals.size
                criteria := stopCriteria problem.direction arrival } := by
  rw [Front.eq_insert_of_some hFront, Front.mem_insert]

/-- A front that takes in a record is still made of those that no other is better than. -/
theorem mem_front_push {entry : Entry Nat} : entry ∈ front.entries ↔
    ∃ other, (state.arrivals.push arrival).get? entry.item = some other ∧
      other.stop = arrival.stop ∧ entry.criteria = stopCriteria problem.direction other ∧
      Undominated problem.direction (state.arrivals.push arrival) other := by
  rw [mem_taken hFront, census.mem_front]
  constructor
  · rintro (⟨⟨other, hOther, hStop, hCriteria, hBest⟩, hNot⟩ | rfl)
    · exact ⟨other, Arrivals.extends_push _ _ _ _ hOther, hStop, hCriteria,
        undominated_push_iff.mpr ⟨hBest, fun _ => hCriteria ▸ hNot⟩⟩
    · exact ⟨arrival, Arrivals.get?_push_size .., rfl, rfl, census.undominated_new hFront⟩
  · rintro ⟨other, hOther, hStop, hCriteria, hBest⟩
    rw [Arrivals.get?_push] at hOther
    split at hOther
    · rename_i hLast
      cases hOther
      exact Or.inr (by rw [← hLast, ← hCriteria])
    · obtain ⟨hBefore, hNot⟩ := undominated_push_iff.mp hBest
      exact Or.inl ⟨⟨other, hOther, hStop, hCriteria, hBefore⟩, hCriteria ▸ hNot hStop.symm⟩

/-- The new record comes last. -/
theorem ascending_push : front.items.Pairwise (· < ·) := by
  rw [Front.eq_insert_of_some hFront, Front.items, Front.insert, List.map_append, List.map_singleton]
  refine List.pairwise_append.mpr ⟨?_, List.pairwise_singleton .., ?_⟩
  · exact (census.ascending arrival.stop).sublist (List.filter_sublist.map _)
  · intro id hId last hLast
    obtain ⟨entry, hEntry, rfl⟩ := List.mem_map.mp hId
    obtain ⟨other, hOther, -⟩ :=
      (census.mem_front _ entry).mp (List.mem_filter.mp hEntry).1
    exact List.mem_singleton.mp hLast ▸ Arrivals.lt_size_of_get? hOther

/-- What the new record pushes out is covered by it, so all records stay covered. -/
theorem covered_push (hMem : other ∈ (state.arrivals.push arrival).toList)
    (hStop : other.stop = arrival.stop) : ∃ entry ∈ front.entries,
      stopRules.covers entry.criteria (stopCriteria problem.direction other) = true := by
  have hShape : ∀ entry ∈ (state.fronts.get arrival.stop).entries,
      ∃ arrival, entry.criteria = stopCriteria problem.direction arrival :=
    fun entry hEntry => census.shape hEntry
  rw [← Front.offer_eq_of_some hFront]
  rcases Arrivals.mem_push.mp hMem with hBefore | rfl
  · exact Front.offer_keeps (stopRules_entails problem.direction) hShape ⟨arrival, rfl⟩
      ⟨other, rfl⟩ (hStop ▸ census.covered other hBefore)
  · exact Front.exists_of_offer (stopRules_entails problem.direction) hShape ⟨other, rfl⟩

/-- No two records at a stop have the same values. -/
theorem apart_push {id place : Nat} {first second : Arrival}
    (hFirst : (state.arrivals.push arrival).get? id = some first)
    (hSecond : (state.arrivals.push arrival).get? place = some second)
    (hStop : first.stop = second.stop)
    (hSame : stopCriteria problem.direction first = stopCriteria problem.direction second) :
    id = place := by
  have hNew : ∀ {earlier other}, state.arrivals.get? earlier = some other →
      other.stop = arrival.stop →
      stopCriteria problem.direction other ≠ stopCriteria problem.direction arrival := by
    intro earlier other hOther hStop hSame
    have hNot := census.not_covered hFront (Arrivals.mem_toList_of_get? hOther) hStop
    rw [hSame, stopRules_orderly.refl (fits_stopCriteria ..)] at hNot
    cases hNot
  rw [Arrivals.get?_push] at hFirst hSecond
  split at hFirst <;> split at hSecond
  · rename_i hId hPlace
    rw [hId, hPlace]
  · cases hFirst
    exact absurd hSame.symm (hNew hSecond hStop.symm)
  · cases hSecond
    exact absurd hSame (hNew hFirst hStop)
  · exact census.apart id place first second hFirst hSecond hStop hSame

/-- A record makes no difference to the fronts of other stops. -/
theorem mem_front_set (hStop : arrival.stop < problem.numStops) (stop : Nat) (entry : Entry Nat) :
    entry ∈ ((state.fronts.set arrival.stop front).get stop).entries ↔
      ∃ other, (state.arrivals.push arrival).get? entry.item = some other ∧ other.stop = stop ∧
        entry.criteria = stopCriteria problem.direction other ∧
        Undominated problem.direction (state.arrivals.push arrival) other := by
  rw [IndexTable.get_set_of_lt (census.size_fronts ▸ hStop)]
  split
  · rename_i hSame
    exact hSame ▸ census.mem_front_push hFront
  · rename_i hElse
    rw [census.mem_front]
    constructor
    · rintro ⟨other, hOther, rfl, hCriteria, hBest⟩
      exact ⟨other, Arrivals.extends_push _ _ _ _ hOther, rfl, hCriteria,
        undominated_push_iff.mpr ⟨hBest, fun hSame => absurd hSame hElse⟩⟩
    · rintro ⟨other, hOther, rfl, hCriteria, hBest⟩
      rw [Arrivals.get?_push] at hOther
      split at hOther
      · cases hOther
        exact absurd rfl hElse
      · exact ⟨other, hOther, rfl, hCriteria, (undominated_push_iff.mp hBest).1⟩

/-- A record of the round is taken into the front of its stop. -/
theorem push (hStop : arrival.stop < problem.numStops) (hRound : arrival.round = state.round) :
    State.Census { state with
      arrivals := state.arrivals.push arrival
      fronts := state.fronts.set arrival.stop front
      reachedCurrent := state.reachedCurrent.insert arrival.stop
      reachedByTransit :=
        if arrival.isTransit then state.reachedByTransit.insert arrival.stop
        else state.reachedByTransit } problem := by
  have hFronts := @IndexTable.get_set_of_lt _ state.fronts _ (census.size_fronts ▸ hStop)
  constructor
  · exact (IndexTable.size_set ..).trans census.size_fronts
  · exact (IndexSet.size_insert ..).trans census.size_current
  · exact census.size_last
  · dsimp only
    split
    · exact (IndexSet.size_insert ..).trans census.size_byTransit
    · exact census.size_byTransit
  · intro other hMem
    rcases Arrivals.mem_push.mp hMem with hBefore | rfl
    · exact census.round_le other hBefore
    · exact Nat.le_of_eq hRound
  · exact census.mem_front_set hFront hStop
  · intro stop
    rw [hFronts]
    split
    · exact census.ascending_push hFront
    · exact census.ascending stop
  · intro other hMem
    rw [hFronts]
    split
    · rename_i hSame
      exact census.covered_push hFront hMem hSame.symm
    · rename_i hElse
      rcases Arrivals.mem_push.mp hMem with hBefore | rfl
      · exact census.covered other hBefore
      · exact absurd rfl hElse
  · exact fun id place first second => census.apart_push hFront
  · intro stop
    rw [IndexSet.contains_insert_iff (census.size_current ▸ hStop), census.reachedCurrent_iff]
    simp only [Arrivals.mem_push, or_and_right, exists_or, exists_eq_left, hRound, and_true]
  · intro stop
    rw [census.reachedLast_iff]
    simp only [Arrivals.mem_push, or_and_right, exists_or, exists_eq_left, hRound,
      Nat.succ_ne_self, and_false, or_false]
  · intro stop
    dsimp only
    cases hRide : arrival.isTransit with
    | true =>
        rw [if_pos rfl, IndexSet.contains_insert_iff (census.size_byTransit ▸ hStop),
          census.reachedByTransit_iff]
        simp only [Arrivals.mem_push, or_and_right, exists_or, exists_eq_left, hRound, hRide,
          and_true]
    | false =>
        rw [if_neg Bool.false_ne_true, census.reachedByTransit_iff]
        simp only [Arrivals.mem_push, or_and_right, exists_or, exists_eq_left, hRide,
          Bool.false_eq_true, and_false, or_false]

end Push

/-- Recording an arrival of the round, or turning it away, leaves the fronts right. -/
theorem add (census : state.Census problem) (hStop : arrival.stop < problem.numStops)
    (hRound : arrival.round = state.round) : (state.add problem arrival).Census problem := by
  rcases state.add_eq_or problem arrival with hSame | ⟨front, hFront, hAdd⟩
  · rwa [hSame]
  · rw [hAdd]
    exact census.push hFront hStop hRound

/-- The records kept at a stop from a round are among those that no other is better than. -/
theorem of_mem_arrivalsAt (census : state.Census problem) {stop round : Nat}
    {source : Nat × Arrival} (h : source ∈ state.arrivalsAt stop round) :
    state.arrivals.get? source.1 = some source.2 ∧ source.2.round = round ∧
      Undominated problem.direction state.arrivals source.2 := by
  obtain ⟨hMem, hRound⟩ := List.mem_filter.mp h
  obtain ⟨hItem, hSource⟩ := Arrivals.mem_numbered.mp hMem
  obtain ⟨entry, hEntry, hSame⟩ := List.mem_map.mp hItem
  obtain ⟨arrival, hArrival, -, -, hBest⟩ := (census.mem_front stop entry).mp hEntry
  rw [hSame, hSource, Option.some.injEq] at hArrival
  exact ⟨hSource, beq_iff_eq.mp hRound, hArrival ▸ hBest⟩

/-- The front of a stop holds the records there that no other is better than. -/
theorem mem_items_iff (census : state.Census problem) {stop id : Nat} :
    id ∈ (state.fronts.get stop).items ↔ ∃ arrival, state.arrivals.get? id = some arrival ∧
      arrival.stop = stop ∧ Undominated problem.direction state.arrivals arrival := by
  rw [Front.items, List.mem_map]
  constructor
  · rintro ⟨entry, hEntry, rfl⟩
    obtain ⟨arrival, hArrival, hStop, -, hBest⟩ := (census.mem_front stop entry).mp hEntry
    exact ⟨arrival, hArrival, hStop, hBest⟩
  · rintro ⟨arrival, hArrival, hStop, hBest⟩
    exact ⟨⟨id, _⟩, (census.mem_front stop _).mpr ⟨arrival, hArrival, hStop, rfl, hBest⟩, rfl⟩

/-- When a round begins it has no records, and the last one has those of the current round. -/
theorem beginRound (census : state.Census problem) :
    (state.beginRound (state.round + 1)).Census problem := by
  have hNone : ∀ arrival ∈ state.arrivals.toList, arrival.round ≠ state.round + 1 :=
    fun arrival hMem hRound => by
      have := census.round_le arrival hMem
      omega
  constructor
  · exact census.size_fronts
  · exact Array.size_replicate.trans census.size_last
  · exact census.size_current
  · exact Array.size_replicate.trans census.size_byTransit
  · exact fun arrival hMem => Nat.le_succ_of_le (census.round_le arrival hMem)
  · exact census.mem_front
  · exact census.ascending
  · exact census.covered
  · exact census.apart
  · intro stop
    simp only [State.beginRound, IndexSet.contains_clear, Bool.false_eq_true, false_iff]
    rintro ⟨arrival, hMem, -, hRound⟩
    exact hNone arrival hMem hRound
  · intro stop
    simp only [State.beginRound, Nat.succ_inj]
    exact census.reachedCurrent_iff stop
  · intro stop
    simp only [State.beginRound, IndexSet.contains_clear, Bool.false_eq_true, false_iff]
    rintro ⟨arrival, hMem, -, hRound, -⟩
    exact hNone arrival hMem hRound

/-- A way to the destination leaves the fronts as they are. -/
theorem offerDestination (census : state.Census problem) (destination : DestinationArrival) :
    (state.offerDestination problem destination).Census problem := by
  unfold State.offerDestination
  split
  · exact census
  · exact ⟨census.size_fronts, census.size_current, census.size_last, census.size_byTransit,
      census.round_le, census.mem_front, census.ascending, census.covered, census.apart,
      census.reachedCurrent_iff, census.reachedLast_iff, census.reachedByTransit_iff⟩

end State.Census

end JourneyPlanner.Search.MultiCriteria
