import JourneyPlanner.Proofs.Search.Stages
import JourneyPlanner.Proofs.Search.Induction

/-! The tables of a search for the best time against all of its records. A stop is marked exactly if
a record of the round was better than every record before it, and only then does its entry count.
Main statement: the tables say so in every state that a search comes to, whatever the size of the
numbers. -/
namespace JourneyPlanner

namespace Arrivals

variable {arrivals later : Arrivals} {direction : Direction} {counts : Arrival → Bool} {id : Nat}
  {arrival : Arrival}

/-- The record is better than every record of some kind that was made before it at its stop. -/
def Leading (arrivals : Arrivals) (direction : Direction) (counts : Arrival → Bool) (id : Nat)
    (arrival : Arrival) : Prop :=
  ∀ earlier < id, ∀ other, arrivals.get? earlier = some other → counts other = true →
    other.stop = arrival.stop → direction.isBetter arrival.time other.time = true

/-- Later records have no part in whether a record was leading. -/
theorem Leading.iff_of_extends (hExtends : later.Extends arrivals) (hId : id < arrivals.size) :
    later.Leading direction counts id arrival ↔ arrivals.Leading direction counts id arrival := by
  constructor
  · exact fun h earlier hEarlier other hOther =>
      h earlier hEarlier other (hExtends _ _ hOther)
  · intro h earlier hEarlier other hOther
    have hInside : earlier < arrivals.records.size := Nat.lt_trans hEarlier hId
    have hKnown : arrivals.get? earlier = some arrivals.records[earlier] :=
      Array.getElem?_eq_getElem hInside
    have hSame := hExtends _ _ hKnown
    rw [hOther, Option.some.injEq] at hSame
    exact h earlier hEarlier other (hSame ▸ hKnown)

/-- A new record is leading if it is better than all there are at its stop. -/
theorem leading_push (h : ∀ other ∈ arrivals.toList, counts other = true →
      other.stop = arrival.stop → direction.isBetter arrival.time other.time = true) :
    (arrivals.push arrival).Leading direction counts arrivals.size arrival := by
  intro earlier hEarlier other hOther
  rw [get?_push, if_neg (Nat.ne_of_lt hEarlier)] at hOther
  exact h other (mem_toList_of_get? hOther)

/-- A record that was added is one of those before, or the new one. -/
theorem get?_push_cases {other : Arrival} (h : (arrivals.push arrival).get? id = some other) :
    id < arrivals.size ∧ arrivals.get? id = some other ∨ id = arrivals.size ∧ other = arrival := by
  rw [get?_push] at h
  split at h
  · cases h
    exact Or.inr ⟨‹_›, rfl⟩
  · exact Or.inl ⟨lt_size_of_get? h, h⟩

end Arrivals

namespace Search.Standard

/-- The marks and entries of a table are those of the last round before a turn. The stops at which a
record of some kind was leading in it are marked, and their entries lead to the best of them. -/
structure Standings (direction : Direction) (counts : Arrival → Bool) (arrivals : Arrivals)
    (turn : Nat) (marks : IndexSet) (holders : IndexTable (Option Nat)) : Prop where
  held : ∀ {stop id}, holder? marks holders stop = some id → ∃ arrival,
    arrivals.get? id = some arrival ∧ counts arrival = true ∧ arrival.stop = stop ∧
      arrival.round + 1 = turn ∧ arrivals.Leading direction counts id arrival ∧
      ∀ other ∈ arrivals.toList, counts other = true → other.stop = stop → other.round < turn →
        direction.isBetter other.time arrival.time = false
  marked : ∀ {id arrival}, arrivals.get? id = some arrival → counts arrival = true →
    arrival.round + 1 = turn → arrivals.Leading direction counts id arrival →
      marks.contains arrival.stop = true

namespace Standings

variable {direction : Direction} {counts : Arrival → Bool} {arrivals : Arrivals} {turn numStops : Nat}
  {marks : IndexSet} {holders : IndexTable (Option Nat)} {arrival : Arrival}

/-- Without a record of the round nothing is marked. -/
theorem empty (bound : Nat) (holders : IndexTable (Option Nat))
    (hRound : ∀ arrival ∈ arrivals.toList, arrival.round + 1 ≠ turn) :
    Standings direction counts arrivals turn (IndexSet.empty bound) holders := by
  refine ⟨by simp [holder?], fun hId _ hTurn => ?_⟩
  exact absurd hTurn (hRound _ (Arrivals.mem_toList_of_get? hId))

/-- A record that is not of the kind or the round, or is no better than one that is there, changes
nothing. -/
theorem push_passed (standings : Standings direction counts arrivals turn marks holders)
    (hPassed : counts arrival = true → turn ≤ arrival.round ∨
      ∃ other ∈ arrivals.toList, counts other = true ∧ other.stop = arrival.stop ∧
        other.round < turn ∧ direction.isBetter arrival.time other.time = false) :
    Standings direction counts (arrivals.push arrival) turn marks holders := by
  have hExtends := Arrivals.extends_push arrivals arrival
  constructor
  · intro stop id hHolder
    obtain ⟨found, hFound, hCounts, hStop, hTurn, leading, hBest⟩ := standings.held hHolder
    refine ⟨found, hExtends _ _ hFound, hCounts, hStop, hTurn,
      (Arrivals.Leading.iff_of_extends hExtends (Arrivals.lt_size_of_get? hFound)).mpr leading, ?_⟩
    intro other hOther hCountsOther hStopOther hRound
    rcases Arrivals.mem_push.mp hOther with hBefore | rfl
    · exact hBest other hBefore hCountsOther hStopOther hRound
    · rcases hPassed hCountsOther with hLater | ⟨before, hMem, hKind, hSame, hEarlier, hNot⟩
      · omega
      · have hNotBefore := hBest before hMem hKind (hSame.trans hStopOther) hEarlier
        rw [Direction.isBetter_eq_false_iff] at hNot hNotBefore ⊢
        omega
  · intro id other hOther hCounts hTurn leading
    rcases Arrivals.get?_push_cases hOther with ⟨hId, hBefore⟩ | ⟨rfl, rfl⟩
    · exact standings.marked hBefore hCounts hTurn
        ((Arrivals.Leading.iff_of_extends hExtends hId).mp leading)
    · rcases hPassed hCounts with hLater | ⟨before, hMem, hKind, hSame, -, hNot⟩
      · omega
      · obtain ⟨earlier, hEarlier⟩ := Arrivals.mem_toList_iff.mp hMem
        have hBetter := leading earlier (Arrivals.lt_size_of_get? hEarlier) before
          (hExtends _ _ hEarlier) hKind hSame
        rw [hNot] at hBetter
        cases hBetter

/-- A record that is better than all there are at its stop is marked and entered. -/
theorem push_entered (standings : Standings direction counts arrivals turn marks holders)
    (marked : Marked numStops marks holders) (hStop : arrival.stop < numStops)
    (hCounts : counts arrival = true) (hTurn : arrival.round + 1 = turn)
    (hBetter : ∀ other ∈ arrivals.toList, counts other = true → other.stop = arrival.stop →
      direction.isBetter arrival.time other.time = true) :
    Standings direction counts (arrivals.push arrival) turn (marks.insert arrival.stop)
      (holders.set arrival.stop (some arrivals.size)) := by
  have hExtends := Arrivals.extends_push arrivals arrival
  constructor
  · intro stop id hHolder
    rw [marked.holder?_set hStop] at hHolder
    split at hHolder
    · rename_i hSame
      cases hHolder
      refine ⟨arrival, Arrivals.get?_push_size .., hCounts, hSame, hTurn,
        Arrivals.leading_push hBetter, ?_⟩
      intro other hOther hCountsOther hStopOther _
      rcases Arrivals.mem_push.mp hOther with hBefore | rfl
      · have hLt := hBetter other hBefore hCountsOther (hStopOther.trans hSame.symm)
        rw [Direction.isBetter_iff] at hLt
        rw [Direction.isBetter_eq_false_iff]
        omega
      · exact direction.isBetter_irrefl _
    · rename_i hOtherStop
      obtain ⟨found, hFound, hKind, hStop, hRound, leading, hBest⟩ := standings.held hHolder
      refine ⟨found, hExtends _ _ hFound, hKind, hStop, hRound,
        (Arrivals.Leading.iff_of_extends hExtends (Arrivals.lt_size_of_get? hFound)).mpr leading, ?_⟩
      intro other hOther hCountsOther hStopOther
      rcases Arrivals.mem_push.mp hOther with hBefore | rfl
      · exact hBest other hBefore hCountsOther hStopOther
      · exact absurd hStopOther hOtherStop
  · intro id other hOther hCountsOther hTurnOther leading
    rw [IndexSet.contains_insert, marked.size_marks]
    rcases Arrivals.get?_push_cases hOther with ⟨hId, hBefore⟩ | ⟨rfl, rfl⟩
    · rw [standings.marked hBefore hCountsOther hTurnOther
        ((Arrivals.Leading.iff_of_extends hExtends hId).mp leading), Bool.true_or]
    · simp [hStop]

/-- A stop is marked exactly if a record of the round was leading there. -/
theorem contains_iff (standings : Standings direction counts arrivals turn marks holders)
    (marked : Marked numStops marks holders) {stop : Nat} :
    marks.contains stop = true ↔ ∃ id arrival, arrivals.get? id = some arrival ∧
      counts arrival = true ∧ arrival.stop = stop ∧ arrival.round + 1 = turn ∧
      arrivals.Leading direction counts id arrival := by
  constructor
  · intro hMark
    obtain ⟨id, hHolder⟩ := (marked.contains_iff stop).mp hMark
    obtain ⟨arrival, hArrival, hCounts, hStop, hTurn, leading, -⟩ := standings.held hHolder
    exact ⟨id, arrival, hArrival, hCounts, hStop, hTurn, leading⟩
  · rintro ⟨id, arrival, hArrival, hCounts, rfl, hTurn, leading⟩
    exact standings.marked hArrival hCounts hTurn leading

/-- The entry of a marked stop leads to the best record of the round. -/
theorem exists_best (standings : Standings direction counts arrivals turn marks holders)
    (marked : Marked numStops marks holders) {stop : Nat} (hMark : marks.contains stop = true) :
    ∃ id arrival, holders.get stop = some id ∧ arrivals.get? id = some arrival ∧
      counts arrival = true ∧ arrival.stop = stop ∧ arrival.round + 1 = turn ∧
      ∀ other ∈ arrivals.toList, counts other = true → other.stop = stop → other.round + 1 = turn →
        direction.isBetter other.time arrival.time = false := by
  obtain ⟨id, hHolder⟩ := (marked.contains_iff stop).mp hMark
  obtain ⟨arrival, hArrival, hCounts, hStop, hTurn, -, hBest⟩ := standings.held hHolder
  exact ⟨id, arrival, (holder?_eq_some_iff.mp hHolder).2, hArrival, hCounts, hStop, hTurn,
    fun other hOther hCountsOther hStopOther hTurnOther =>
      hBest other hOther hCountsOther hStopOther (Nat.lt_of_succ_le (Nat.le_of_eq hTurnOther))⟩

end Standings

/-- The tables of a state of a round sum up its records. -/
structure Accounts (problem : Problem) (round : Nat) (state : State) : Prop where
  round_eq : state.round = round
  round_le : ∀ arrival ∈ state.arrivals.toList, arrival.round ≤ round
  lt_unreached : ∀ arrival ∈ state.arrivals.toList,
    problem.direction.timeCriterion arrival.time <
      problem.direction.timeCriterion problem.direction.unreached
  best : Ledger problem.direction problem.numStops (fun _ => true) state.arrivals round
    state.best.times state.best.reachedCurrent state.current
  byTransit : Ledger problem.direction problem.numStops Arrival.isTransit state.arrivals round
    state.best.transitTimes state.best.reachedByTransit state.byTransit
  last : Marked problem.numStops state.best.reachedLast state.last
  currentStandings : Standings problem.direction (fun _ => true) state.arrivals (round + 1)
    state.best.reachedCurrent state.current
  lastStandings : Standings problem.direction (fun _ => true) state.arrivals round
    state.best.reachedLast state.last
  transitStandings : Standings problem.direction Arrival.isTransit state.arrivals (round + 1)
    state.best.reachedByTransit state.byTransit
  /-- Only rides that are better than all others to their stop are recorded. -/
  ride_leading : ∀ {id arrival}, state.arrivals.get? id = some arrival → arrival.isTransit = true →
    state.arrivals.Leading problem.direction Arrival.isTransit id arrival
  destinationTime : state.destinationTime =
    (state.destinations.getLast?.map DestinationArrival.time).getD problem.direction.unreached
  destinationTime_le : ∀ destination ∈ state.destinations,
    problem.direction.isBetter destination.time state.destinationTime = false

namespace Ledger

variable {direction : Direction} {numStops round : Nat} {counts : Arrival → Bool}
  {arrivals : Arrivals} {times : IndexTable Int} {marks : IndexSet}
  {holders : IndexTable (Option Nat)}

/-- The best time of a stop is the worst there is at most. -/
theorem le_unreached (ledger : Ledger direction numStops counts arrivals round times marks holders)
    (hLt : ∀ arrival ∈ arrivals.toList,
      direction.timeCriterion arrival.time < direction.timeCriterion direction.unreached)
    (stop : Nat) :
    direction.timeCriterion (times.get stop) ≤ direction.timeCriterion direction.unreached := by
  rcases ledger.attained stop with
    hUnreached | ⟨id, hHolder⟩ | ⟨found, hFound, -, -, hSame, -⟩
  · exact Int.le_of_eq (congrArg _ hUnreached)
  · obtain ⟨found, hFound, -, -, -, hSame⟩ := ledger.held hHolder
    exact hSame ▸ Int.le_of_lt (hLt found (Arrivals.mem_toList_of_get? hFound))
  · exact hSame ▸ Int.le_of_lt (hLt found hFound)

/-- What beats the best time of a stop is better than all the records that time sums up. -/
theorem isBetter_of_lt
    (ledger : Ledger direction numStops counts arrivals round times marks holders) {stop : Nat}
    {time : Int}
    (hBetter : direction.timeCriterion time < direction.timeCriterion (times.get stop)) :
    ∀ other ∈ arrivals.toList, counts other = true → other.stop = stop →
      direction.isBetter time other.time = true := by
  intro other hOther hCounts hStop
  have hLe := ledger.time_le other hOther hCounts
  rw [hStop] at hLe
  rw [Direction.isBetter_iff]
  omega

end Ledger

namespace Accounts

variable {problem : Problem} {round : Nat} {state : State} {arrival : Arrival}

theorem initial (problem : Problem) : Accounts problem 0 (State.initial problem) := by
  have hNone : ∀ turn, ∀ arrival ∈ Arrivals.empty.toList, arrival.round + 1 ≠ turn := by
    simp [Arrivals.empty, Arrivals.toList]
  refine ⟨rfl, ?_, ?_, Ledger.initial .., Ledger.initial .., Marked.initial _,
    Standings.empty _ _ (hNone _), Standings.empty _ _ (hNone _), Standings.empty _ _ (hNone _),
    ?_, rfl, ?_⟩
  all_goals simp [State.initial, Arrivals.empty, Arrivals.toList, Arrivals.get?]

/-- A record of the round may be added. -/
theorem round_le_push (accounts : Accounts problem round state) (hRound : arrival.round = round) :
    ∀ other ∈ (state.arrivals.push arrival).toList, other.round ≤ round := by
  intro other hOther
  rcases Arrivals.mem_push.mp hOther with hBefore | rfl
  · exact accounts.round_le other hBefore
  · exact Nat.le_of_eq hRound

theorem lt_unreached_push (accounts : Accounts problem round state)
    (hTime : problem.direction.timeCriterion arrival.time <
      problem.direction.timeCriterion problem.direction.unreached) :
    ∀ other ∈ (state.arrivals.push arrival).toList,
      problem.direction.timeCriterion other.time <
        problem.direction.timeCriterion problem.direction.unreached := by
  intro other hOther
  rcases Arrivals.mem_push.mp hOther with hBefore | rfl
  · exact accounts.lt_unreached other hBefore
  · exact hTime

/-- With a ride that beats those before it at its stop, each ride leads when it is made. -/
theorem ride_leading_push (accounts : Accounts problem round state)
    (hBetter : arrival.isTransit = true → ∀ other ∈ state.arrivals.toList, other.isTransit = true →
      other.stop = arrival.stop → problem.direction.isBetter arrival.time other.time = true) :
    ∀ {id other}, (state.arrivals.push arrival).get? id = some other → other.isTransit = true →
      (state.arrivals.push arrival).Leading problem.direction Arrival.isTransit id other := by
  intro id other hOther hRide
  rcases Arrivals.get?_push_cases hOther with ⟨hId, hBefore⟩ | ⟨rfl, rfl⟩
  · exact (Arrivals.Leading.iff_of_extends (Arrivals.extends_push _ _) hId).mpr
      (accounts.ride_leading hBefore hRide)
  · exact Arrivals.leading_push (hBetter hRide)

/-- Recording an arrival on foot keeps the accounts. -/
theorem settle (accounts : Accounts problem round state) (hStop : arrival.stop < problem.numStops)
    (hFoot : arrival.isTransit = false) (hRound : arrival.round = round) :
    Accounts problem round (state.settle problem arrival) := by
  unfold State.settle
  split
  · exact accounts
  · rename_i best hBest
    obtain ⟨hBetter, rfl⟩ := BestTimes.improve?_eq_some_iff.mp hBest
    have hTime := Int.lt_of_lt_of_le hBetter
      (accounts.best.le_unreached accounts.lt_unreached arrival.stop)
    exact ⟨accounts.round_eq, accounts.round_le_push hRound, accounts.lt_unreached_push hTime,
      accounts.best.push_entered hStop rfl hRound hBetter,
      accounts.byTransit.push_passed (by simp [hFoot]), accounts.last,
      accounts.currentStandings.push_entered accounts.best.marked hStop rfl
        (congrArg (· + 1) hRound) (accounts.best.isBetter_of_lt hBetter),
      accounts.lastStandings.push_passed fun _ => Or.inl (Nat.le_of_eq hRound.symm),
      accounts.transitStandings.push_passed (by simp [hFoot]),
      accounts.ride_leading_push (by simp [hFoot]), accounts.destinationTime,
      accounts.destinationTime_le⟩

/-- Leaving a ride keeps the accounts. -/
theorem alight (accounts : Accounts problem round state) {stop : Nat}
    (hStop : stop < problem.numStops) (pattern : Nat) (ride : Ride) (left : Int) :
    Accounts problem round (state.alight problem pattern stop ride left) := by
  unfold State.alight
  split
  swap
  · exact accounts
  split
  · exact accounts
  rename_i best hBest
  obtain ⟨hBetter, rfl⟩ := BestTimes.improveTransit?_eq_some_iff.mp hBest
  generalize hArrival : ride.arrival problem state.round pattern stop left = arrival
  obtain rfl : arrival.stop = stop := hArrival ▸ rfl
  obtain rfl : arrival.time = left := hArrival ▸ rfl
  have hRide : arrival.isTransit = true := hArrival ▸ rfl
  have hRound : arrival.round = round := hArrival ▸ accounts.round_eq
  have hTime := Int.lt_of_lt_of_le hBetter
    (accounts.byTransit.le_unreached accounts.lt_unreached arrival.stop)
  have hByTransit := accounts.byTransit.push_entered hStop hRide hRound hBetter
  have hBeats := accounts.byTransit.isBetter_of_lt hBetter
  have hTransitStandings := accounts.transitStandings.push_entered accounts.byTransit.marked hStop
    hRide (congrArg (· + 1) hRound) hBeats
  have hLastStandings := @Standings.push_passed _ _ _ _ _ _ arrival accounts.lastStandings
    fun _ => Or.inl (Nat.le_of_eq hRound.symm)
  have hLeading := @ride_leading_push _ _ _ arrival accounts fun _ => hBeats
  dsimp only
  split
  · rename_i hNone
    have hLe := BestTimes.improve?_eq_none_iff.mp hNone
    obtain ⟨other, hOther, -, hSame, hNoLater, hEarlier⟩ := accounts.best.exists_of_le hLe hTime
    refine ⟨accounts.round_eq, accounts.round_le_push hRound, accounts.lt_unreached_push hTime,
      accounts.best.push_passed fun _ => hLe, hByTransit, accounts.last,
      accounts.currentStandings.push_passed fun _ => Or.inr ⟨other, hOther, rfl, hSame, ?_, ?_⟩,
      hLastStandings, hTransitStandings, hLeading, accounts.destinationTime,
      accounts.destinationTime_le⟩
    · exact Nat.lt_succ_of_le (accounts.round_le other hOther)
    · rwa [Direction.isBetter_eq_false_iff]
  · rename_i better hSettled
    obtain ⟨hBeatsAll, rfl⟩ := BestTimes.improve?_eq_some_iff.mp hSettled
    exact ⟨accounts.round_eq, accounts.round_le_push hRound, accounts.lt_unreached_push hTime,
      accounts.best.push_entered hStop rfl hRound hBeatsAll, hByTransit, accounts.last,
      accounts.currentStandings.push_entered accounts.best.marked hStop rfl
        (congrArg (· + 1) hRound) (accounts.best.isBetter_of_lt hBeatsAll),
      hLastStandings, hTransitStandings, hLeading, accounts.destinationTime,
      accounts.destinationTime_le⟩

/-- When a round begins, what stood for this round stands for the last one. -/
theorem beginRound (accounts : Accounts problem round state) :
    Accounts problem (round + 1) (state.beginRound (round + 1)) := by
  have hNone : ∀ arrival ∈ state.arrivals.toList, arrival.round + 1 ≠ round + 1 + 1 := by
    intro arrival hMem
    have := accounts.round_le arrival hMem
    omega
  exact ⟨rfl, fun arrival hMem => Nat.le_succ_of_le (accounts.round_le arrival hMem),
    accounts.lt_unreached, accounts.best.next accounts.last,
    accounts.byTransit.next accounts.byTransit.marked, accounts.best.marked,
    Standings.empty _ _ hNone, accounts.currentStandings, Standings.empty _ _ hNone,
    accounts.ride_leading, accounts.destinationTime, accounts.destinationTime_le⟩

/-- Walking to the destination keeps the accounts. -/
theorem finish (accounts : Accounts problem round state) :
    Accounts problem round (state.finish problem) := by
  obtain ⟨-, -, hNone | ⟨best, -, hSome, hBetter⟩⟩ := State.foldl_bestCandidate
    problem.direction (state.candidates problem) state.destinationTime none
  · have hSame : state.finish problem = state := by
      simp only [State.finish, State.bestCandidate, hNone]
    rw [hSame]
    exact accounts
  · have hNext : state.finish problem = { state with
        destinationTime := best.time
        destinations := state.destinations ++ [best] } := by
      simp only [State.finish, State.bestCandidate, hSome]
    rw [hNext]
    refine ⟨accounts.round_eq, accounts.round_le, accounts.lt_unreached, accounts.best,
      accounts.byTransit, accounts.last, accounts.currentStandings, accounts.lastStandings,
      accounts.transitStandings, accounts.ride_leading, by simp, fun destination hMem => ?_⟩
    rcases List.mem_append.mp hMem with hBefore | hLast
    · have hLe := accounts.destinationTime_le destination hBefore
      rw [Direction.isBetter_eq_false_iff] at hLe ⊢
      exact Int.le_trans (Int.le_of_lt hBetter) hLe
    · rw [List.mem_singleton.mp hLast]
      exact problem.direction.isBetter_irrefl _

end Accounts

variable {planner : Planner} {time : Int}

/-- Every state that a search for the best time comes to has its accounts in order. -/
theorem accounts_of_visits (linked : planner.problem.day.network.Linked)
    (hLegs : planner.problem.KnownLegs) {round : Nat} {stage : Stage} {state : State}
    (visits : planner.Visits (strategy planner.problem) time round stage state) :
    Accounts planner.problem round state := by
  induction visits with
  | start =>
      refine List.foldlRecOn (motive := Accounts planner.problem 0) _ _ (Accounts.initial _) ?_
      intro state accounts leg hLeg
      rw [State.enter_eq_settle]
      exact accounts.settle (hLegs leg (Or.inl hLeg)).1 rfl rfl
  | turn before hLeft hGoesOn accounts => exact accounts.beginRound
  | scan before hTable hStops hScan accounts =>
      refine State.pass_induction (Accounts planner.problem _) ?_ hScan accounts
      intro position stop ride left before hStop accounts
      exact accounts.alight (linked.stop_lt hTable hStop) _ ride left
  | walk before accounts =>
      refine State.walk_induction (Accounts planner.problem _) ?_ accounts
      intro source before transfer hTransfer accounts
      exact accounts.settle (linked.transfers hTransfer).1 rfl accounts.round_eq
  | finish before accounts => exact accounts.finish

end Search.Standard

end JourneyPlanner
