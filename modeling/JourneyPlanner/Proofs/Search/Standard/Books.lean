import JourneyPlanner.Proofs.Search.Standard.Ledger

/-! What every step of a search for the best time keeps true of its state. Main statements: each
way of adding a record keeps it, loses nothing that was found, and leaves the stop reached, or
the destination, no later than the record says. -/
namespace JourneyPlanner.Search

namespace BestTimes

variable {best better : BestTimes} {direction : Direction} {stop : Nat} {time : Int}

theorem improve?_eq_none_iff : best.improve? direction stop time = none ↔
    direction.timeCriterion (best.times.get stop) ≤ direction.timeCriterion time := by
  rw [← Direction.isBetter_eq_false_iff]
  change _ ↔ direction.isBetter time (best.time stop) = false
  by_cases hBetter : direction.isBetter time (best.time stop) = true <;> simp [improve?, hBetter]

/-- A time is an improvement exactly when it beats the best one, and replaces it then. -/
theorem improve?_eq_some_iff : best.improve? direction stop time = some better ↔
    direction.timeCriterion time < direction.timeCriterion (best.times.get stop) ∧
      better = { best with
        times := best.times.set stop time
        reachedCurrent := best.reachedCurrent.insert stop } := by
  rw [← Direction.isBetter_iff]
  change _ ↔ direction.isBetter time (best.time stop) = true ∧ _
  by_cases hBetter : direction.isBetter time (best.time stop) = true <;>
    simp [improve?, hBetter, eq_comm]

theorem improveTransit?_eq_none_iff : best.improveTransit? direction stop time = none ↔
    direction.timeCriterion (best.transitTimes.get stop) ≤ direction.timeCriterion time := by
  rw [← Direction.isBetter_eq_false_iff]
  change _ ↔ direction.isBetter time (best.transitTime stop) = false
  by_cases hBetter : direction.isBetter time (best.transitTime stop) = true <;>
    simp [improveTransit?, hBetter]

/-- A ride is an improvement exactly when it beats the best ride, and replaces it then. -/
theorem improveTransit?_eq_some_iff : best.improveTransit? direction stop time = some better ↔
    direction.timeCriterion time < direction.timeCriterion (best.transitTimes.get stop) ∧
      better = { best with
        transitTimes := best.transitTimes.set stop time
        reachedByTransit := best.reachedByTransit.insert stop } := by
  rw [← Direction.isBetter_iff]
  change _ ↔ direction.isBetter time (best.transitTime stop) = true ∧ _
  by_cases hBetter : direction.isBetter time (best.transitTime stop) = true <;>
    simp [improveTransit?, hBetter, eq_comm]

end BestTimes

namespace Standard

def State.found (state : State) : Found :=
  { arrivals := state.arrivals
    destinations := state.destinations
    accepted := state.destinations }

/-- What a state has recorded comes from each other and is in order. -/
structure Chronicle (problem : Problem) (time : Int) (state : State) : Prop where
  records : Records problem time state.arrivals
  finishes : ∀ destination ∈ state.destinations, problem.Finishes state.arrivals destination
  round_le : ∀ arrival ∈ state.arrivals.toList, arrival.round ≤ state.round
  lt_unreached : ∀ arrival ∈ state.arrivals.toList,
    problem.direction.timeCriterion arrival.time <
      problem.direction.timeCriterion problem.direction.unreached
  held_last : ∀ {stop id}, state.lastId? stop = some id → ∃ arrival,
    state.arrivals.get? id = some arrival ∧ arrival.stop = stop ∧ arrival.round + 1 = state.round
  /-- For every record of the last round there is one no worse among those to go on from, or in
  a round before. -/
  last_serves : ∀ arrival ∈ state.arrivals.toList, arrival.round + 1 = state.round →
    (∃ id other, state.lastId? arrival.stop = some id ∧ state.arrivals.get? id = some other ∧
      problem.NoWorse other arrival) ∨
    ∃ other ∈ state.arrivals.toList, problem.NoWorse other arrival ∧ other.round < arrival.round
  destinationTime : state.destinationTime = problem.direction.unreached ∨
    ∃ destination ∈ state.destinations, destination.time = state.destinationTime
  destinations_round : ∀ destination ∈ state.destinations, destination.round ≤ state.round
  /-- Every way to the destination is better than those found in earlier rounds. -/
  improving : state.destinations.Pairwise fun earlier later => earlier.round < later.round ∧
    problem.direction.isBetter later.time earlier.time = true
  destinationTime_le : ∀ destination ∈ state.destinations,
    problem.direction.isBetter destination.time state.destinationTime = false

/-- The tables of a state sum up what it has recorded. -/
structure Books (problem : Problem) (time : Int) (state : State) : Prop
    extends Chronicle problem time state where
  best : Ledger problem.direction problem.numStops (fun _ => true) state.arrivals state.round
    state.best.times state.best.reachedCurrent state.current
  byTransit : Ledger problem.direction problem.numStops Arrival.isTransit state.arrivals state.round
    state.best.transitTimes state.best.reachedByTransit state.byTransit
  last : Marked problem.numStops state.best.reachedLast state.last

/-- Within a round, a state only gains records of that round. -/
structure Onward (problem : Problem) (before after : State) : Prop where
  round : after.round = before.round
  last : after.last = before.last
  reachedLast : after.best.reachedLast = before.best.reachedLast
  destinations : after.destinations = before.destinations
  destinationTime : after.destinationTime = before.destinationTime
  arrivals : after.arrivals.Extends before.arrivals
  new : ∀ arrival ∈ after.arrivals.toList,
    arrival ∈ before.arrivals.toList ∨ arrival.round = before.round

namespace Onward

variable {problem : Problem} {first second third : State}

theorem refl (problem : Problem) (state : State) : Onward problem state state :=
  ⟨rfl, rfl, rfl, rfl, rfl, Arrivals.Extends.refl _, fun _ h => Or.inl h⟩

theorem trans (hFirst : Onward problem first second) (hSecond : Onward problem second third) :
    Onward problem first third := by
  refine ⟨hSecond.round.trans hFirst.round, hSecond.last.trans hFirst.last,
    hSecond.reachedLast.trans hFirst.reachedLast, hSecond.destinations.trans hFirst.destinations,
    hSecond.destinationTime.trans hFirst.destinationTime, hSecond.arrivals.trans hFirst.arrivals,
    fun arrival hMem => ?_⟩
  rcases hSecond.new arrival hMem with hBefore | hRound
  · exact hFirst.new arrival hBefore
  · exact Or.inr (hRound.trans hFirst.round)

theorem lastId? (h : Onward problem first second) (stop : Nat) :
    second.lastId? stop = first.lastId? stop := by
  rw [State.lastId?, h.last, h.reachedLast, State.lastId?]

theorem found (h : Onward problem first second) :
    second.found.Extends first.found problem.direction := by
  refine ⟨h.arrivals, fun hEnded => ?_⟩
  obtain ⟨destination, hMem, hRest⟩ := hEnded
  exact ⟨destination, (h.destinations ▸ hMem : destination ∈ second.destinations), hRest⟩

end Onward

namespace State

def settle (problem : Problem) (state : State) (arrival : Arrival) : State :=
  match state.best.improve? problem.direction arrival.stop arrival.time with
  | none => state
  | some best =>
    { state with
      best
      arrivals := state.arrivals.push arrival
      current := state.current.set arrival.stop (some state.arrivals.size) }

theorem enter_eq_settle (problem : Problem) (time : Int) (state : State) (leg : WalkLeg) :
    state.enter problem time leg = state.settle problem (problem.accessArrival time leg) := rfl

/-- A walk is settled if it can still improve the destination. -/
theorem walkAlong_eq_settle (problem : Problem) (source : Nat × Arrival) (state : State)
    (transfer : Transfer) :
    state.walkAlong problem source transfer =
      if state.canImproveDestination problem
          (problem.walkArrival state.round source.1 source.2 transfer).time then
        state.settle problem (problem.walkArrival state.round source.1 source.2 transfer)
      else state := rfl

end State

variable {problem : Problem} {time : Int} {state : State} {arrival : Arrival}

/-- A record of this round may be added. -/
theorem Chronicle.push (chronicle : Chronicle problem time state) {after : State}
    (onward : Onward problem state after)
    (hArrivals : after.arrivals = state.arrivals.push arrival)
    (hDerives : problem.Derives time state.arrivals arrival) (hRound : arrival.round = state.round)
    (hTime : problem.direction.timeCriterion arrival.time <
      problem.direction.timeCriterion problem.direction.unreached) :
    Chronicle problem time after := by
  have hNew : ∀ other ∈ after.arrivals.toList, other ∈ state.arrivals.toList ∨ other = arrival :=
    fun other hOther => Arrivals.mem_push.mp (hArrivals ▸ hOther)
  constructor
  · exact hArrivals ▸ chronicle.records.push hDerives
  · intro destination hMem
    exact (chronicle.finishes destination (onward.destinations ▸ hMem)).mono onward.arrivals
  · intro other hOther
    rw [onward.round]
    rcases hNew other hOther with hBefore | rfl
    · exact chronicle.round_le other hBefore
    · exact Nat.le_of_eq hRound
  · intro other hOther
    rcases hNew other hOther with hBefore | rfl
    · exact chronicle.lt_unreached other hBefore
    · exact hTime
  · intro stop id hLast
    obtain ⟨other, hOther, hRest⟩ := chronicle.held_last (onward.lastId? _ ▸ hLast)
    exact ⟨other, onward.arrivals _ _ hOther, onward.round ▸ hRest⟩
  · intro other hOther hLastRound
    rw [onward.round] at hLastRound
    rw [onward.lastId?]
    rcases hNew other hOther with hBefore | rfl
    · rcases chronicle.last_serves other hBefore hLastRound with
        ⟨id, found, hLast, hFound, hNoWorse⟩ | ⟨found, hFound, hRest⟩
      · exact Or.inl ⟨id, found, hLast, onward.arrivals _ _ hFound, hNoWorse⟩
      · exact Or.inr ⟨found, onward.arrivals.mem_toList hFound, hRest⟩
    · omega
  · rw [onward.destinationTime, onward.destinations]
    exact chronicle.destinationTime
  · rw [onward.destinations, onward.round]
    exact chronicle.destinations_round
  · rw [onward.destinations]
    exact chronicle.improving
  · rw [onward.destinationTime, onward.destinations]
    exact chronicle.destinationTime_le

/-- A time that cannot improve the time at the destination is no better than a way there. -/
theorem Chronicle.ended_of_not_improving (chronicle : Chronicle problem time state) {reached : Int}
    (hTime : problem.direction.timeCriterion reached <
      problem.direction.timeCriterion problem.direction.unreached)
    (hNot : state.canImproveDestination problem reached = false) :
    state.found.Ended problem.direction state.round (problem.direction.timeCriterion reached) := by
  rw [State.canImproveDestination, Direction.isBetter_eq_false_iff] at hNot
  rcases chronicle.destinationTime with hUnreached | ⟨destination, hMem, hSame⟩
  · rw [hUnreached] at hNot
    omega
  · exact ⟨destination, hMem, chronicle.destinations_round destination hMem, hSame ▸ hNot⟩

namespace Books

/-- Recording an arrival on foot leaves its stop reached no later. -/
theorem settle (books : Books problem time state) (hStop : arrival.stop < problem.numStops)
    (hFoot : arrival.isTransit = false)
    (hDerives : problem.Derives time state.arrivals arrival) (hRound : arrival.round = state.round)
    (hTime : problem.direction.timeCriterion arrival.time <
      problem.direction.timeCriterion problem.direction.unreached) :
    Books problem time (state.settle problem arrival) ∧
      Onward problem state (state.settle problem arrival) ∧
      (state.settle problem arrival).found.Reached problem.direction arrival.stop arrival.round
        (problem.direction.timeCriterion arrival.time) := by
  unfold State.settle
  split
  · rename_i hNone
    obtain ⟨other, hOther, -, hSame, hNoLater, -⟩ :=
      books.best.exists_of_le (BestTimes.improve?_eq_none_iff.mp hNone) hTime
    exact ⟨books, Onward.refl .., other, hOther, hSame,
      hRound ▸ books.round_le other hOther, hNoLater⟩
  · rename_i best hBest
    obtain ⟨hBetter, rfl⟩ := BestTimes.improve?_eq_some_iff.mp hBest
    have onward : Onward problem state
        { state with
          best := { state.best with
            times := state.best.times.set arrival.stop arrival.time
            reachedCurrent := state.best.reachedCurrent.insert arrival.stop }
          arrivals := state.arrivals.push arrival
          current := state.current.set arrival.stop (some state.arrivals.size) } :=
      ⟨rfl, rfl, rfl, rfl, rfl, Arrivals.extends_push _ _, fun other hOther =>
        (Arrivals.mem_push.mp hOther).imp id (by rintro rfl; exact hRound)⟩
    refine ⟨⟨books.toChronicle.push onward rfl hDerives hRound hTime,
      books.best.push_entered hStop rfl hRound hBetter,
      books.byTransit.push_passed (by simp [hFoot]), books.last⟩, onward, arrival, ?_⟩
    exact ⟨Arrivals.mem_push.mpr (Or.inr rfl), rfl, Nat.le_refl _, Int.le_refl _⟩

/-- Leaving a ride leaves the stop reached by transit no later, unless the destination was. -/
theorem alight (books : Books problem time state) {pattern stop : Nat} {ride : Ride} {left : Int}
    (hArrival : arrival = ride.arrival problem state.round pattern stop left)
    (hStop : arrival.stop < problem.numStops)
    (hDerives : problem.Derives time state.arrivals arrival)
    (hTime : problem.direction.timeCriterion arrival.time <
      problem.direction.timeCriterion problem.direction.unreached) :
    Books problem time (state.alight problem pattern stop ride left) ∧
      Onward problem state (state.alight problem pattern stop ride left) ∧
      ((state.alight problem pattern stop ride left).found.Ridden problem.direction stop state.round
          (problem.direction.timeCriterion left) ∨
        (state.alight problem pattern stop ride left).found.Ended problem.direction state.round
          (problem.direction.timeCriterion left)) := by
  have hRound : arrival.round = state.round := by rw [hArrival]; rfl
  have hRide : arrival.isTransit = true := by rw [hArrival]; rfl
  obtain rfl : arrival.time = left := by rw [hArrival]; rfl
  obtain rfl : arrival.stop = stop := by rw [hArrival]; rfl
  unfold State.alight
  split
  swap
  · rename_i hNot
    exact ⟨books, Onward.refl .., Or.inr (books.ended_of_not_improving hTime
      (Bool.eq_false_iff.mpr hNot))⟩
  rw [← hArrival]
  split
  · rename_i hNone
    obtain ⟨other, hOther, hRideOther, hSame, hNoLater, -⟩ :=
      books.byTransit.exists_of_le (BestTimes.improveTransit?_eq_none_iff.mp hNone) hTime
    exact ⟨books, Onward.refl .., Or.inl ⟨other, hOther, hRideOther, hSame,
      books.round_le other hOther, hNoLater⟩⟩
  rename_i best hBest
  obtain ⟨hBetter, rfl⟩ := BestTimes.improveTransit?_eq_some_iff.mp hBest
  have hNew : ∀ other ∈ (state.arrivals.push arrival).toList,
      other ∈ state.arrivals.toList ∨ other.round = state.round := fun other hOther =>
    (Arrivals.mem_push.mp hOther).imp id (by rintro rfl; exact hRound)
  have hByTransit := books.byTransit.push_entered hStop hRide hRound hBetter
  have hRidden : ∃ other ∈ (state.arrivals.push arrival).toList, other.isTransit = true ∧
      other.stop = arrival.stop ∧ other.round ≤ state.round ∧
        problem.direction.timeCriterion other.time ≤
          problem.direction.timeCriterion arrival.time :=
    ⟨arrival, Arrivals.mem_push.mpr (Or.inr rfl), hRide, rfl, Nat.le_of_eq hRound, Int.le_refl _⟩
  dsimp only
  split
  · rename_i hNone
    have hLe := BestTimes.improve?_eq_none_iff.mp hNone
    have onward : Onward problem state
        { state with
          best := { state.best with
            transitTimes := state.best.transitTimes.set arrival.stop arrival.time
            reachedByTransit := state.best.reachedByTransit.insert arrival.stop }
          arrivals := state.arrivals.push arrival
          byTransit := state.byTransit.set arrival.stop (some state.arrivals.size) } :=
      ⟨rfl, rfl, rfl, rfl, rfl, Arrivals.extends_push _ _, hNew⟩
    exact ⟨⟨books.toChronicle.push onward rfl hDerives hRound hTime,
      books.best.push_passed fun _ => hLe, hByTransit,
      books.last⟩, onward, Or.inl hRidden⟩
  · rename_i better hSettled
    obtain ⟨hBeatsAll, rfl⟩ := BestTimes.improve?_eq_some_iff.mp hSettled
    have onward : Onward problem state
        { state with
          best := { state.best with
            times := state.best.times.set arrival.stop arrival.time
            transitTimes := state.best.transitTimes.set arrival.stop arrival.time
            reachedCurrent := state.best.reachedCurrent.insert arrival.stop
            reachedByTransit := state.best.reachedByTransit.insert arrival.stop }
          arrivals := state.arrivals.push arrival
          current := state.current.set arrival.stop (some state.arrivals.size)
          byTransit := state.byTransit.set arrival.stop (some state.arrivals.size) } :=
      ⟨rfl, rfl, rfl, rfl, rfl, Arrivals.extends_push _ _, hNew⟩
    exact ⟨⟨books.toChronicle.push onward rfl hDerives hRound hTime,
      books.best.push_entered hStop rfl hRound hBeatsAll, hByTransit, books.last⟩, onward,
      Or.inl hRidden⟩

end Books

end Standard

end JourneyPlanner.Search
