import JourneyPlanner.Proofs.Search.Induction

/-! What a search for the best time records is new. Main statement: a record on foot is earlier than
every record before it at its stop, and one by transit is earlier than all of those by transit. -/
namespace JourneyPlanner.Search.Standard

/-- A record at the stop of an earlier one improves on it, unless it is the first one to come by
transit. -/
def Improves (direction : Direction) (earlier later : Arrival) : Prop :=
  later.stop = earlier.stop → (later.isTransit = true → earlier.isTransit = true) →
    direction.timeCriterion later.time < direction.timeCriterion earlier.time

/-- The best times are no later than the records, each of which improved on those before it. -/
structure Paced (problem : Problem) (state : State) : Prop where
  size_times : state.best.times.cells.size = problem.numStops
  size_transitTimes : state.best.transitTimes.cells.size = problem.numStops
  time_le : ∀ arrival ∈ state.arrivals.toList,
    problem.direction.timeCriterion (state.best.times.get arrival.stop) ≤
      problem.direction.timeCriterion arrival.time
  transitTime_le : ∀ arrival ∈ state.arrivals.toList, arrival.isTransit = true →
    problem.direction.timeCriterion (state.best.transitTimes.get arrival.stop) ≤
      problem.direction.timeCriterion arrival.time
  improving : state.arrivals.toList.Pairwise (Improves problem.direction)

namespace Paced

variable {problem : Problem} {state : State} {arrival : Arrival}

theorem initial (problem : Problem) : Paced problem (State.initial problem) := by
  constructor <;> simp [State.initial, BestTimes.initial, IndexTable.uniform, Arrivals.empty,
    Arrivals.toList]

theorem beginRound (paced : Paced problem state) (round : Nat) :
    Paced problem (state.beginRound round) :=
  ⟨paced.size_times, paced.size_transitTimes, paced.time_le, paced.transitTime_le,
    paced.improving⟩

theorem finish (paced : Paced problem state) : Paced problem (state.finish problem) := by
  unfold State.finish
  split
  · exact ⟨paced.size_times, paced.size_transitTimes, paced.time_le, paced.transitTime_le,
      paced.improving⟩
  · exact paced

/-- A record that improves on all the earlier ones keeps the records improving. -/
theorem improving_push (paced : Paced problem state) (arrival : Arrival)
    (hImproves : ∀ earlier ∈ state.arrivals.toList, Improves problem.direction earlier arrival) :
    (state.arrivals.push arrival).toList.Pairwise (Improves problem.direction) := by
  rw [Arrivals.toList_push, List.pairwise_append]
  exact ⟨paced.improving, List.pairwise_singleton .., fun earlier hEarlier other hOther =>
    List.mem_singleton.mp hOther ▸ hImproves earlier hEarlier⟩

end Paced

/-- A table of times that no record of its stop beats, after a better one was written. -/
theorem get_set_le {direction : Direction} {times : IndexTable Int} {arrivals : Arrivals}
    (counts : Arrival → Prop) (arrival : Arrival)
    (hTimes : ∀ other ∈ arrivals.toList, counts other →
      direction.timeCriterion (times.get other.stop) ≤ direction.timeCriterion other.time)
    (hStop : arrival.stop < times.cells.size)
    (hBetter : direction.timeCriterion arrival.time <
      direction.timeCriterion (times.get arrival.stop)) :
    ∀ other ∈ (arrivals.push arrival).toList, counts other →
      direction.timeCriterion ((times.set arrival.stop arrival.time).get other.stop) ≤
        direction.timeCriterion other.time := by
  intro other hOther hCounts
  rw [IndexTable.get_set]
  rcases Arrivals.mem_push.mp hOther with hBefore | rfl
  · have hLe := hTimes other hBefore hCounts
    split
    · rename_i hSame
      rw [← hSame.1] at hLe
      exact Int.le_trans (Int.le_of_lt hBetter) hLe
    · exact hLe
  · refine Int.le_of_eq ?_
    rw [if_pos ⟨rfl, hStop⟩]

namespace Paced

variable {problem : Problem} {state : State} {arrival : Arrival}

/-- An arrival on foot is recorded if it improves on all records of its stop. -/
theorem settle (paced : Paced problem state) (hStop : arrival.stop < problem.numStops)
    (hFoot : arrival.isTransit = false) : Paced problem (state.settle problem arrival) := by
  unfold State.settle
  split
  · exact paced
  · rename_i best hBest
    obtain ⟨hBetter, rfl⟩ := BestTimes.improve?_eq_some_iff.mp hBest
    refine ⟨by simp [paced.size_times], paced.size_transitTimes, fun other hOther => ?_,
      fun other hOther hRide => ?_, paced.improving_push arrival
        fun earlier hEarlier hSame _ => ?_⟩
    · exact get_set_le (fun _ => True) arrival (fun other hOther _ => paced.time_le other hOther)
        (paced.size_times ▸ hStop) hBetter other hOther trivial
    · rcases Arrivals.mem_push.mp hOther with hBefore | rfl
      · exact paced.transitTime_le other hBefore hRide
      · rw [hFoot] at hRide
        cases hRide
    · exact Int.lt_of_lt_of_le hBetter (hSame ▸ paced.time_le earlier hEarlier)

/-- Leaving a ride is recorded if it improves on all records of its stop that came by transit. -/
theorem alight (paced : Paced problem state) {pattern stop : Nat} {ride : Ride} {left : Int}
    (hStop : stop < problem.numStops) :
    Paced problem (state.alight problem pattern stop ride left) := by
  unfold State.alight
  split
  swap
  · exact paced
  split
  · exact paced
  rename_i best hBest
  obtain ⟨hBetter, rfl⟩ := BestTimes.improveTransit?_eq_some_iff.mp hBest
  have hTransit := get_set_le (fun other => other.isTransit = true)
    (ride.arrival problem state.round pattern stop left) paced.transitTime_le
    (paced.size_transitTimes ▸ hStop) hBetter
  have hImproving := paced.improving_push (ride.arrival problem state.round pattern stop left)
    fun earlier hEarlier (hSame : stop = earlier.stop) hRide =>
      Int.lt_of_lt_of_le hBetter (hSame ▸ paced.transitTime_le earlier hEarlier (hRide rfl))
  dsimp only
  split
  · rename_i hNone
    refine ⟨paced.size_times, by simp [paced.size_transitTimes], fun other hOther => ?_, hTransit,
      hImproving⟩
    rcases Arrivals.mem_push.mp hOther with hBefore | rfl
    · exact paced.time_le other hBefore
    · exact BestTimes.improve?_eq_none_iff.mp hNone
  · rename_i better hSettled
    obtain ⟨hBeatsAll, rfl⟩ := BestTimes.improve?_eq_some_iff.mp hSettled
    exact ⟨by simp [paced.size_times], by simp [paced.size_transitTimes], fun other hOther =>
      get_set_le (fun _ => True) (ride.arrival problem state.round pattern stop left)
        (fun other hOther _ => paced.time_le other hOther)
        (paced.size_times ▸ hStop) hBeatsAll other hOther trivial, hTransit, hImproving⟩

theorem start (time : Int) (legs : problem.KnownLegs) :
    Paced problem ((strategy problem).start time) :=
  List.foldlRecOn (motive := Paced problem) _ _ (initial problem) fun state paced leg hLeg => by
    rw [State.enter_eq_settle]
    exact paced.settle (legs leg (Or.inl hLeg)).1 rfl

/-- A round between known stops keeps the pace. -/
theorem round (paced : Paced problem state) (linked : problem.day.network.Linked) {count : Nat}
    {after : State} (h : (strategy problem).Round problem.day count state after) :
    Paced problem after :=
  round_induction (Paced problem) (paced.beginRound count)
    (fun _ _ _ _ _ _ _ hTable hStop hBefore => hBefore.alight (linked.stop_lt hTable hStop))
    (fun _ _ _ hWalk hBefore => hBefore.settle (linked.transfers hWalk).1 rfl)
    (fun _ hBefore => hBefore.finish) h

end Paced

/-- The records of a completed run improved one on the other. -/
theorem improving_of_run {planner : Planner} {time : Int} {watch : Stopwatch} {run : Run}
    (linked : planner.problem.day.network.Linked) (legs : planner.problem.KnownLegs)
    (hRun : planner.runWith (strategy planner.problem) time watch = .ok run) :
    run.found.arrivals.toList.Pairwise (Improves planner.problem.direction) := by
  obtain ⟨state, hFound, paced, -⟩ := Planner.runWith_induction
    (fun _ => Paced planner.problem) (Paced.start time legs)
    (fun _ _ _ hBefore hRound => hBefore.round linked hRound) hRun
  rw [hFound]
  exact paced.improving

end JourneyPlanner.Search.Standard
