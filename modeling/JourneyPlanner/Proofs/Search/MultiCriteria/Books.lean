import JourneyPlanner.Proofs.Pareto
import JourneyPlanner.Proofs.Search.Steps

/-! What every step of a search for the best compromises keeps true of its state. A front may
drop a record, but only for one that is no worse; and since rounds are compared too, never for
one of a later round. -/
namespace JourneyPlanner.Search.MultiCriteria

section Criteria

variable {direction : Direction}

/-- A record covers another made by the same means if it is no worse in time, round and cost. -/
theorem covers_stopCriteria_iff {arrival other : Arrival} :
    stopRules.covers (stopCriteria direction arrival) (stopCriteria direction other) = true ↔
      direction.timeCriterion arrival.time ≤ direction.timeCriterion other.time ∧
        arrival.round ≤ other.round ∧ arrival.cost ≤ other.cost ∧
        arrival.isTransit = other.isTransit := by
  rw [Rules.covers_iff]
  simp only [stopRules, stopCriteria, travelCriteria, List.cons_append, List.nil_append,
    Rules.NoWorse, Criterion.noWorse_less, Criterion.noWorse_mustDiffer, Int.ofNat_le, and_true]
  cases arrival.isTransit <;> cases other.isTransit <;> simp

/-- A ride covers another if its trip is no later and it is no dearer. -/
theorem covers_rideEntry_iff {ride other : Ride} :
    rideRules.covers (rideEntry direction ride).criteria (rideEntry direction other).criteria =
        true ↔
      direction.tripCriterion ride.trip ≤ direction.tripCriterion other.trip ∧
        ride.relativeCost ≤ other.relativeCost := by
  rw [Rules.covers_iff]
  simp only [rideRules, rideEntry, Rules.NoWorse, Criterion.noWorse_less, and_true]

theorem covers_take_stopCriteria_iff {destination : DestinationArrival} {arrival : Arrival} :
    pruningRules.covers (destinationEntry direction destination).criteria
        ((stopCriteria direction arrival).take pruningRules.criteria.length) = true ↔
      direction.timeCriterion destination.time ≤ direction.timeCriterion arrival.time ∧
        destination.round ≤ arrival.round ∧ destination.cost ≤ arrival.cost := by
  rw [Rules.covers_iff]
  simp only [pruningRules, destinationEntry, stopCriteria, travelCriteria, List.length_cons,
    List.length_nil, List.cons_append, List.nil_append, List.take, Rules.NoWorse,
    Criterion.noWorse_less, Int.ofNat_le, and_true]

theorem stopRules_entails (direction : Direction) :
    stopRules.Entails (fun values => ∃ arrival, values = stopCriteria direction arrival)
      (fun left right => stopRules.covers left right = true) := by
  constructor
  · rintro _ ⟨arrival, rfl⟩
    simp [covers_stopCriteria_iff]
  · rintro _ _ _ ⟨first, rfl⟩ ⟨second, rfl⟩ ⟨third, rfl⟩ hFirst hSecond
    rw [covers_stopCriteria_iff] at *
    exact ⟨Int.le_trans hFirst.1 hSecond.1, Nat.le_trans hFirst.2.1 hSecond.2.1,
      Int.le_trans hFirst.2.2.1 hSecond.2.2.1, hFirst.2.2.2.trans hSecond.2.2.2⟩
  · exact fun _ _ h => h

theorem rideRules_entails (direction : Direction) :
    rideRules.Entails (fun values => ∃ ride, values = (rideEntry direction ride).criteria)
      (fun left right => rideRules.covers left right = true) := by
  constructor
  · rintro _ ⟨ride, rfl⟩
    simp [covers_rideEntry_iff]
  · rintro _ _ _ ⟨first, rfl⟩ ⟨second, rfl⟩ ⟨third, rfl⟩ hFirst hSecond
    rw [covers_rideEntry_iff] at *
    exact ⟨Int.le_trans hFirst.1 hSecond.1, Int.le_trans hFirst.2 hSecond.2⟩
  · exact fun _ _ h => h

/-- Whatever the slack on cost, no way to the destination takes the place of one that is better in
time or round. -/
theorem destinationRules_entails (direction : Direction) (costSlack : Int) :
    (destinationRules costSlack).Entails
      (fun values => ∃ destination, values = (destinationEntry direction destination).criteria)
      (Rules.NoWorse [.less, .less]) := by
  constructor
  · rintro _ ⟨destination, rfl⟩
    simp [destinationEntry, travelCriteria, Rules.NoWorse]
  · rintro _ _ _ ⟨first, rfl⟩ ⟨second, rfl⟩ ⟨third, rfl⟩ hFirst hSecond
    simp only [destinationEntry, travelCriteria, Rules.NoWorse, Criterion.noWorse_less,
      and_true] at *
    exact ⟨Int.le_trans hFirst.1 hSecond.1, Int.le_trans hFirst.2 hSecond.2⟩
  · rintro _ _ ⟨first, rfl⟩ ⟨second, rfl⟩ hCovers
    rw [Rules.covers_iff] at hCovers
    simp only [destinationRules, destinationEntry, travelCriteria, Rules.NoWorse] at hCovers ⊢
    exact ⟨hCovers.1, hCovers.2.1, trivial⟩

end Criteria

def State.found (state : State) : Found :=
  { arrivals := state.arrivals
    destinations := state.destinations.items
    accepted := state.accepted }

/-- The records of a state come from each other, and its fronts and sets sum them up. -/
structure Books (problem : Problem) (time : Int) (state : State) : Prop where
  records : Records problem time state.arrivals
  finishes : ∀ destination ∈ state.destinations.items, problem.Finishes state.arrivals destination
  round_le : ∀ arrival ∈ state.arrivals.toList, arrival.round ≤ state.round
  /-- The entries in the front of a stop are records made there. -/
  entry : ∀ {stop entry}, entry ∈ (state.fronts.get stop).entries → ∃ arrival,
    state.arrivals.get? entry.item = some arrival ∧ arrival.stop = stop ∧
      entry.criteria = stopCriteria problem.direction arrival
  /-- Every record is in the front of its stop, or one that covers it. -/
  kept : ∀ arrival ∈ state.arrivals.toList, ∃ entry ∈ (state.fronts.get arrival.stop).entries,
    stopRules.covers entry.criteria (stopCriteria problem.direction arrival) = true
  size_fronts : state.fronts.cells.size = problem.numStops
  size_current : state.reachedCurrent.marks.size = problem.numStops
  size_last : state.reachedLast.marks.size = problem.numStops
  size_byTransit : state.reachedByTransit.marks.size = problem.numStops
  current : ∀ arrival ∈ state.arrivals.toList, arrival.round = state.round →
    state.reachedCurrent.contains arrival.stop = true
  last : ∀ arrival ∈ state.arrivals.toList, arrival.round + 1 = state.round →
    state.reachedLast.contains arrival.stop = true
  byTransit : ∀ arrival ∈ state.arrivals.toList, arrival.round = state.round →
    arrival.isTransit = true → state.reachedByTransit.contains arrival.stop = true
  destinations_entry : ∀ entry ∈ state.destinations.entries,
    entry = destinationEntry problem.direction entry.item
  destinations_round : ∀ destination ∈ state.destinations.items, destination.round ≤ state.round

/-- Within a round, a state only gains records of that round. -/
structure Onward (problem : Problem) (before after : State) : Prop where
  round : after.round = before.round
  reachedLast : after.reachedLast = before.reachedLast
  destinations : after.destinations = before.destinations
  arrivals : after.arrivals.Extends before.arrivals
  new : ∀ arrival ∈ after.arrivals.toList,
    arrival ∈ before.arrivals.toList ∨ arrival.round = before.round

namespace Onward

variable {problem : Problem} {first second third : State}

theorem refl (problem : Problem) (state : State) : Onward problem state state :=
  ⟨rfl, rfl, rfl, Arrivals.Extends.refl _, fun _ h => Or.inl h⟩

theorem trans (hFirst : Onward problem first second) (hSecond : Onward problem second third) :
    Onward problem first third := by
  refine ⟨hSecond.round.trans hFirst.round, hSecond.reachedLast.trans hFirst.reachedLast,
    hSecond.destinations.trans hFirst.destinations, hSecond.arrivals.trans hFirst.arrivals,
    fun arrival hMem => ?_⟩
  rcases hSecond.new arrival hMem with hBefore | hRound
  · exact hFirst.new arrival hBefore
  · exact Or.inr (hRound.trans hFirst.round)

theorem found (h : Onward problem first second) :
    second.found.Extends first.found problem.direction := by
  refine ⟨h.arrivals, fun hEnded => ?_⟩
  obtain ⟨destination, hMem, hRest⟩ := hEnded
  have hMem : destination ∈ second.destinations.items := h.destinations ▸ hMem
  exact ⟨destination, hMem, hRest⟩

end Onward

namespace Books

variable {problem : Problem} {time : Int} {state : State} {arrival : Arrival}

theorem shape (books : Books problem time state) {stop : Nat} {entry : Entry Nat}
    (hEntry : entry ∈ (state.fronts.get stop).entries) :
    ∃ arrival, entry.criteria = stopCriteria problem.direction arrival := by
  obtain ⟨arrival, -, -, hCriteria⟩ := books.entry hEntry
  exact ⟨arrival, hCriteria⟩

/-- For every record one that is no worse, made in the same manner, is in the front of its stop. -/
theorem exists_kept (books : Books problem time state) (hMem : arrival ∈ state.arrivals.toList) :
    ∃ id other, state.arrivals.get? id = some other ∧ problem.NoWorse other arrival ∧
      other.isTransit = arrival.isTransit ∧ other.cost ≤ arrival.cost ∧
      (id, other) ∈ state.arrivalsAt arrival.stop other.round := by
  obtain ⟨entry, hEntry, hCovers⟩ := books.kept arrival hMem
  obtain ⟨other, hOther, hStop, hCriteria⟩ := books.entry hEntry
  rw [hCriteria, covers_stopCriteria_iff] at hCovers
  obtain ⟨hTime, hRound, hCost, hTransit⟩ := hCovers
  refine ⟨entry.item, other, hOther, ⟨hStop, hRound, hTime⟩, hTransit, hCost, ?_⟩
  refine List.mem_filter.mpr ⟨Arrivals.mem_numbered.mpr ⟨?_, hOther⟩, by simp⟩
  exact List.mem_map_of_mem hEntry

/-- The arrivals at a stop in a round are records made there in that round. -/
theorem of_mem_arrivalsAt (books : Books problem time state) {stop round : Nat}
    {source : Nat × Arrival} (h : source ∈ state.arrivalsAt stop round) :
    state.arrivals.get? source.1 = some source.2 ∧ source.2.stop = stop ∧
      source.2.round = round := by
  obtain ⟨hMem, hRound⟩ := List.mem_filter.mp h
  obtain ⟨hItem, hSource⟩ := Arrivals.mem_numbered.mp hMem
  obtain ⟨entry, hEntry, hSame⟩ := List.mem_map.mp hItem
  obtain ⟨arrival, hArrival, hStop, -⟩ := books.entry hEntry
  rw [hSame, hSource, Option.some.injEq] at hArrival
  exact ⟨hSource, hArrival ▸ hStop, beq_iff_eq.mp hRound⟩

/-- A record that a way to the destination covers is of no use. -/
theorem ended_of_isCovered (books : Books problem time state)
    (h : state.isCovered (stopCriteria problem.direction arrival) = true) :
    state.found.Ended problem.direction arrival.round
      (problem.direction.timeCriterion arrival.time) := by
  obtain ⟨entry, hEntry, hCovers⟩ := List.any_eq_true.mp h
  rw [books.destinations_entry entry hEntry, covers_take_stopCriteria_iff] at hCovers
  exact ⟨entry.item, List.mem_map_of_mem hEntry, hCovers.2.1, hCovers.1⟩

section Push

variable {front : Front Nat}
  (hFront : (state.fronts.get arrival.stop).offer? stopRules
    { item := state.arrivals.size, criteria := stopCriteria problem.direction arrival } =
      some front)

include hFront

/-- The entries of a front that took in a new record are records of its stop. -/
theorem entry_push (books : Books problem time state) {entry : Entry Nat}
    (hEntry : entry ∈ front.entries) :
    ∃ other, (state.arrivals.push arrival).get? entry.item = some other ∧
      other.stop = arrival.stop ∧ entry.criteria = stopCriteria problem.direction other := by
  rw [← Front.offer_eq_of_some hFront] at hEntry
  rcases Front.mem_of_mem_offer hEntry with hOld | rfl
  · obtain ⟨other, hOther, hRest⟩ := books.entry hOld
    exact ⟨other, Arrivals.extends_push _ _ _ _ hOther, hRest⟩
  · exact ⟨arrival, Arrivals.get?_push_size .., rfl, rfl⟩

/-- A front that took in a new record covers it, and all that it covered before. -/
theorem kept_push (books : Books problem time state) {other : Arrival}
    (hOther : other ∈ (state.arrivals.push arrival).toList) (hSame : other.stop = arrival.stop) :
    ∃ entry ∈ front.entries,
      stopRules.covers entry.criteria (stopCriteria problem.direction other) = true := by
  have hShape : ∀ held ∈ (state.fronts.get arrival.stop).entries,
      ∃ arrival, held.criteria = stopCriteria problem.direction arrival :=
    fun held hHeld => books.shape hHeld
  rw [← Front.offer_eq_of_some hFront]
  rcases Arrivals.mem_push.mp hOther with hBefore | rfl
  · exact Front.offer_keeps (stopRules_entails problem.direction) hShape ⟨arrival, rfl⟩
      ⟨other, rfl⟩ (hSame ▸ books.kept other hBefore)
  · exact Front.exists_of_offer (stopRules_entails problem.direction) hShape ⟨other, rfl⟩

/-- A record of this round is put in the front of its stop. -/
theorem push (books : Books problem time state) (hStop : arrival.stop < problem.numStops)
    (hDerives : problem.Derives time state.arrivals arrival)
    (hRound : arrival.round = state.round) :
    Books problem time { state with
      arrivals := state.arrivals.push arrival
      fronts := state.fronts.set arrival.stop front
      reachedCurrent := state.reachedCurrent.insert arrival.stop
      reachedByTransit :=
        if arrival.isTransit then state.reachedByTransit.insert arrival.stop
        else state.reachedByTransit } := by
  have hExtends := Arrivals.extends_push state.arrivals arrival
  have hFronts : ∀ stop, (state.fronts.set arrival.stop front).get stop =
      if arrival.stop = stop then front else state.fronts.get stop :=
    fun stop => IndexTable.get_set_of_lt (books.size_fronts ▸ hStop) stop front
  have hMarked : ∀ (set : IndexSet), set.marks.size = problem.numStops →
      (set.insert arrival.stop).contains arrival.stop = true :=
    fun set hSize => (IndexSet.contains_insert_iff (hSize ▸ hStop)).mpr (Or.inr rfl)
  have hKept : ∀ (set : IndexSet) {stop}, set.contains stop = true →
      (set.insert arrival.stop).contains stop = true := by
    intro set stop h
    simp [IndexSet.contains_insert, h]
  constructor
  · exact books.records.push hDerives
  · exact fun destination hMem => (books.finishes destination hMem).mono hExtends
  · intro other hOther
    rcases Arrivals.mem_push.mp hOther with hBefore | rfl
    · exact books.round_le other hBefore
    · exact Nat.le_of_eq hRound
  · intro stop entry hEntry
    rw [hFronts] at hEntry
    split at hEntry
    · rename_i hSame
      exact hSame ▸ books.entry_push hFront hEntry
    · obtain ⟨other, hOther, hRest⟩ := books.entry hEntry
      exact ⟨other, hExtends _ _ hOther, hRest⟩
  · intro other hOther
    rw [hFronts]
    split
    · rename_i hSame
      exact books.kept_push hFront hOther hSame.symm
    · rename_i hElse
      rcases Arrivals.mem_push.mp hOther with hBefore | rfl
      · exact books.kept other hBefore
      · exact absurd rfl hElse
  · simp [books.size_fronts]
  · simp [books.size_current]
  · exact books.size_last
  · split <;> simp [books.size_byTransit]
  · intro other hOther hCurrent
    rcases Arrivals.mem_push.mp hOther with hBefore | rfl
    · exact hKept _ (books.current other hBefore hCurrent)
    · exact hMarked _ books.size_current
  · intro other hOther hLast
    rcases Arrivals.mem_push.mp hOther with hBefore | rfl
    · exact books.last other hBefore hLast
    · have hLast : other.round + 1 = state.round := hLast
      omega
  · intro other hOther hCurrent hRide
    rcases Arrivals.mem_push.mp hOther with hBefore | rfl
    · have hContains := books.byTransit other hBefore hCurrent hRide
      split
      · exact hKept _ hContains
      · exact hContains
    · rw [if_pos hRide]
      exact hMarked _ books.size_byTransit
  · exact books.destinations_entry
  · exact books.destinations_round

end Push

/-- Adding an arrival leaves its stop reached in the same manner no later, unless the destination
was. -/
theorem add (books : Books problem time state) (hStop : arrival.stop < problem.numStops)
    (hDerives : problem.Derives time state.arrivals arrival) (hRound : arrival.round = state.round) :
    Books problem time (state.add problem arrival) ∧
      Onward problem state (state.add problem arrival) ∧
      ((∃ other ∈ (state.add problem arrival).arrivals.toList, problem.NoWorse other arrival ∧
          other.isTransit = arrival.isTransit) ∨
        (state.add problem arrival).found.Ended problem.direction arrival.round
          (problem.direction.timeCriterion arrival.time)) := by
  unfold State.add
  split
  · rename_i hCovered
    exact ⟨books, Onward.refl .., Or.inr (books.ended_of_isCovered hCovered)⟩
  · unfold State.keep
    dsimp only
    split
    · rename_i hNone
      obtain ⟨entry, hEntry, hCovers⟩ := List.any_eq_true.mp (Front.offer?_eq_none_iff.mp hNone)
      obtain ⟨other, hOther, hSame, hCriteria⟩ := books.entry hEntry
      rw [hCriteria, covers_stopCriteria_iff] at hCovers
      exact ⟨books, Onward.refl .., Or.inl ⟨other, Arrivals.mem_toList_of_get? hOther,
        ⟨hSame, hCovers.2.1, hCovers.1⟩, hCovers.2.2.2⟩⟩
    · rename_i front hFront
      refine ⟨books.push hFront hStop hDerives hRound, ⟨rfl, rfl, rfl,
        Arrivals.extends_push _ _, fun other hOther => ?_⟩, Or.inl ⟨arrival,
          Arrivals.mem_push.mpr (Or.inr rfl), Problem.NoWorse.refl .., rfl⟩⟩
      exact (Arrivals.mem_push.mp hOther).imp id (by rintro rfl; exact hRound)

end Books

end JourneyPlanner.Search.MultiCriteria
