import JourneyPlanner.Proofs.Search.Closure
import JourneyPlanner.Proofs.Search.Prices

/-! What journeys cost, and what a search that prices its records may leave out. An arrival gives
place to one that is no later and costs no more. That one may have to wait longer for the next trip,
but no longer than if it was there as early as any journey can be. Main statement: if every record,
or one that takes its place, has got what it is owed at its cost, then to each journey there is a
way to the destination that is no worse, but for the price of waiting from as early as that. -/
namespace JourneyPlanner

namespace CostRates

/-- Rates at which nothing that takes time is a gain, and waiting is no cheaper than riding. -/
structure Fair (rates : CostRates) : Prop where
  boardCost : 0 ≤ rates.boardCost
  walkReluctance : 0 ≤ rates.walkReluctance
  transitReluctance : 0 ≤ rates.transitReluctance
  transit_le_wait : rates.transitReluctance ≤ rates.waitReluctance

theorem fair_standard : standard.Fair := by
  constructor <;> decide

/-- What it costs to wait for a ride, to get on it and to ride. -/
def fare (rates : CostRates) (direction : Direction) (reached boarded left : Int) : Int :=
  rates.waitCost (direction.duration reached boarded) + rates.boardingCost +
    rates.transitCostAt (direction.duration boarded left)

variable {rates : CostRates} {direction : Direction} {duration : Int}

theorem Fair.walkCost_nonneg (fair : rates.Fair) (h : 0 ≤ duration) :
    0 ≤ rates.walkCost duration :=
  Int.mul_nonneg h fair.walkReluctance

theorem Fair.waitCost_nonneg (fair : rates.Fair) (h : 0 ≤ duration) :
    0 ≤ rates.waitCost duration :=
  Int.mul_nonneg h (Int.le_trans fair.transitReluctance fair.transit_le_wait)

/-- At fair rates no ride is a gain. -/
theorem Fair.fare_nonneg (fair : rates.Fair) {reached boarded left : Int}
    (hWait : direction.timeCriterion reached ≤ direction.timeCriterion boarded)
    (hRide : direction.timeCriterion boarded ≤ direction.timeCriterion left) :
    0 ≤ rates.fare direction reached boarded left := by
  have hBoard := fair.boardCost
  have hWaitCost := fair.waitCost_nonneg (Int.sub_nonneg_of_le hWait)
  have hRideCost := Int.mul_nonneg (Int.sub_nonneg_of_le hRide) fair.transitReluctance
  rw [fare, Direction.duration_eq, Direction.duration_eq, transitCostAt, boardingCost]
  omega

/-- Waits of several times cost as much as one wait of their sum. -/
theorem waitCost_add (rates : CostRates) (duration more : Int) :
    rates.waitCost (duration + more) = rates.waitCost duration + rates.waitCost more :=
  Int.add_mul ..

/-- To wait since earlier costs just the longer wait more. -/
theorem fare_eq_add (rates : CostRates) (direction : Direction) (early reached boarded left : Int) :
    rates.fare direction early boarded left =
      rates.fare direction reached boarded left +
        rates.waitCost (direction.duration early reached) := by
  simp only [fare, Direction.duration_eq, waitCost, Int.sub_mul]
  omega

end CostRates

namespace Query

/-- Where journeys can be, as before, with what they cost so far and how much later they came to the
stops where they boarded than these early times. -/
inductive Travels (query : Query) (rates : CostRates) (early : (round stop : Nat) → Int)
    (time : Int) : Manner → (round stop : Nat) → (reached cost delay : Int) → Prop where
  | access {leg : WalkLeg} (hLeg : leg ∈ query.request.startLegs) :
      Travels query rates early time .access 0 leg.stop (query.direction.along time leg.duration)
        (rates.walkCost leg.duration) 0
  | ride {manner : Manner} {round origin target pattern trip : Nat}
      {reached boarded left cost delay : Int}
      (before : Travels query rates early time manner round origin reached cost delay)
      (hRide : query.network.Carries query.date query.modes query.direction pattern trip
        origin target boarded left)
      (hReady : query.direction.isBetter boarded
        (query.direction.along reached (query.slackAfter round)) = false) :
      Travels query rates early time .ride (round + 1) target left
        (cost + rates.fare query.direction reached boarded left)
        (delay + query.direction.duration (early round origin) reached)
  | walk {manner : Manner} {round stop : Nat} {reached cost delay : Int} {transfer : Transfer}
      (before : Travels query rates early time manner round stop reached cost delay)
      (hWalk : transfer ∈ query.direction.transfers query.network stop) :
      Travels query rates early time .walk (manner.roundOnFoot round)
        (query.direction.transferTarget transfer)
        (query.direction.along reached transfer.duration)
        (cost + rates.walkCost transfer.duration) delay

inductive Completes (query : Query) (rates : CostRates) (early : (round stop : Nat) → Int)
    (time : Int) : (round : Nat) → (finish cost delay : Int) → Prop where
  | egress {round : Nat} {leg : WalkLeg} {reached cost delay : Int}
      (last : Travels query rates early time .ride round leg.stop reached cost delay)
      (hLeg : leg ∈ query.request.endLegs) :
      Completes query rates early time round (query.direction.along reached leg.duration)
        (cost + rates.walkCost leg.duration) delay

/-- No journey of so many rounds is at a stop before these early times. -/
def NoneBefore (query : Query) (time : Int) (early : (round stop : Nat) → Int) : Prop :=
  ∀ {manner fewer round stop reached}, query.Reaches time manner fewer stop reached →
    fewer ≤ round → query.direction.isBetter reached (early round stop) = false

variable {query : Query} {rates : CostRates} {early : (round stop : Nat) → Int} {time : Int}
  {manner : Manner} {round stop : Nat} {reached cost delay : Int}

/-- Whatever is reached at some cost is reached. -/
theorem Travels.reaches
    (travels : query.Travels rates early time manner round stop reached cost delay) :
    query.Reaches time manner round stop reached := by
  induction travels with
  | access hLeg => exact .access hLeg
  | ride before hRide hReady ih => exact .ride ih hRide hReady
  | walk before hWalk ih => exact .walk ih hWalk

end Query

/-- A record in the manner of a ride or on foot, at a stop, in a round and at a time no later than
these, for no more than this cost. -/
structure Arrival.Meets (arrival : Arrival) (direction : Direction) (transit : Bool)
    (stop round : Nat) (criterion cost : Int) : Prop where
  isTransit : arrival.isTransit = transit
  stop : arrival.stop = stop
  round_le : arrival.round ≤ round
  time_le : direction.timeCriterion arrival.time ≤ criterion
  cost_le : arrival.cost ≤ cost

namespace Search

namespace Found

/-- The destination was reached in a round and at a time no later than these, for no more than this
cost. -/
def EndedFor (found : Found) (direction : Direction) (round : Nat) (criterion cost : Int) : Prop :=
  ∃ destination ∈ found.destinations, destination.round ≤ round ∧
    direction.timeCriterion destination.time ≤ criterion ∧ destination.cost ≤ cost

/-- Some record meets these, or the destination was reached no worse. -/
def Serves (found : Found) (direction : Direction) (transit : Bool) (stop round : Nat)
    (criterion cost : Int) : Prop :=
  (∃ arrival ∈ found.arrivals.toList, arrival.Meets direction transit stop round criterion cost) ∨
    found.EndedFor direction round criterion cost

/-- Nothing that was found is lost, but for ways to the destination that are no worse. -/
structure Grows (later earlier : Found) (direction : Direction) : Prop where
  arrivals : later.arrivals.Extends earlier.arrivals
  ended : ∀ {round criterion cost}, earlier.EndedFor direction round criterion cost →
    later.EndedFor direction round criterion cost

variable {found later : Found} {direction : Direction} {transit : Bool} {stop round other : Nat}
  {criterion cost bound limit : Int}

theorem EndedFor.of_le (hRound : round ≤ other) (hTime : criterion ≤ bound) (hCost : cost ≤ limit)
    (h : found.EndedFor direction round criterion cost) :
    found.EndedFor direction other bound limit := by
  obtain ⟨destination, hMem, hLe, hNoLater, hNoDearer⟩ := h
  exact ⟨destination, hMem, Nat.le_trans hLe hRound, Int.le_trans hNoLater hTime,
    Int.le_trans hNoDearer hCost⟩

/-- What serves a demand serves every weaker one. -/
theorem Serves.of_le (hRound : round ≤ other) (hTime : criterion ≤ bound) (hCost : cost ≤ limit)
    (h : found.Serves direction transit stop round criterion cost) :
    found.Serves direction transit stop other bound limit := by
  rcases h with ⟨arrival, hMem, meets⟩ | hEnded
  · exact Or.inl ⟨arrival, hMem, meets.isTransit, meets.stop, Nat.le_trans meets.round_le hRound,
      Int.le_trans meets.time_le hTime, Int.le_trans meets.cost_le hCost⟩
  · exact Or.inr (hEnded.of_le hRound hTime hCost)

/-- Demands once served stay so as more is found. -/
theorem Serves.mono (grows : later.Grows found direction)
    (h : found.Serves direction transit stop round criterion cost) :
    later.Serves direction transit stop round criterion cost := by
  rcases h with ⟨arrival, hMem, meets⟩ | hEnded
  · exact Or.inl ⟨arrival, grows.arrivals.mem_toList hMem, meets⟩
  · exact Or.inr (grows.ended hEnded)

theorem Grows.trans {last : Found} (hLast : last.Grows later direction)
    (hLater : later.Grows found direction) : last.Grows found direction :=
  ⟨hLast.arrivals.trans hLater.arrivals, fun h => hLast.ended (hLater.ended h)⟩

end Found

namespace Problem

variable {problem : Problem} {found later : Found} {arrival other : Arrival}

/-- A record can take the place of another at no more than its cost. -/
structure Replaces (problem : Problem) (arrival than : Arrival) : Prop
    extends NoWorse problem arrival than where
  isTransit : arrival.isTransit = than.isTransit
  cost_le : arrival.cost ≤ than.cost

theorem Replaces.refl (problem : Problem) (arrival : Arrival) : problem.Replaces arrival arrival :=
  ⟨.refl .., rfl, Int.le_refl _⟩

theorem Replaces.trans {third : Arrival} (h : problem.Replaces arrival other)
    (hNext : problem.Replaces other third) : problem.Replaces arrival third :=
  ⟨⟨h.stop_eq.trans hNext.stop_eq, Nat.le_trans h.round_le hNext.round_le,
    Int.le_trans h.time_le hNext.time_le⟩, h.isTransit.trans hNext.isTransit,
    Int.le_trans h.cost_le hNext.cost_le⟩

/-- A record that replaces another can walk on no later. -/
theorem Replaces.roundOnFoot_le (h : problem.Replaces arrival other) :
    arrival.roundOnFoot ≤ other.roundOnFoot := by
  have := h.round_le
  simp only [Arrival.roundOnFoot, h.isTransit]
  split <;> omega

/-- Every ride that can be caught after a record was made at its cost, or needed not to be. -/
def RidesPriced (problem : Problem) (found : Found) (arrival : Arrival) : Prop :=
  ∀ ⦃pattern trip first second target : Nat⦄ ⦃table : TripTable⦄ ⦃boarded left : Int⦄,
    problem.day.network.tripTable pattern = .ok table →
    problem.day.activePatterns.contains pattern = true →
    table.stopAt first = .ok arrival.stop → table.stopAt second = .ok target →
    problem.Passage table trip first second boarded left →
    problem.direction.timeCriterion arrival.time + problem.slackAfter arrival.round ≤
      problem.direction.timeCriterion boarded →
    found.Serves problem.direction true target (arrival.round + 1)
      (problem.direction.timeCriterion left)
      (arrival.cost + problem.cost.fare problem.direction arrival.time boarded left)

/-- Every walk from a record was made at its cost, or needed not to be. -/
def WalksPriced (problem : Problem) (found : Found) (arrival : Arrival) : Prop :=
  ∀ transfer ∈ problem.transfersAt arrival.stop,
    found.Serves problem.direction false (problem.direction.transferTarget transfer)
      arrival.roundOnFoot (problem.direction.timeCriterion arrival.time + transfer.duration)
      (arrival.cost + problem.cost.walkCost transfer.duration)

/-- Every egress leg was walked from a record at its cost, or needed not to be. -/
def EndsPriced (problem : Problem) (found : Found) (arrival : Arrival) : Prop :=
  ∀ leg ∈ problem.endLegsAt arrival.stop,
    found.EndedFor problem.direction arrival.round
      (problem.direction.timeCriterion arrival.time + leg.duration)
      (arrival.cost + problem.cost.walkCost leg.duration)

/-- The rounds up to one miss nothing at its cost. Rides need only be made from some record that
takes the place of each. -/
structure Priced (problem : Problem) (time : Int) (rounds : Nat) (found : Found) : Prop where
  start : ∀ leg ∈ problem.startLegs, found.Serves problem.direction false leg.stop 0
    (problem.direction.timeCriterion time + leg.duration) (problem.cost.walkCost leg.duration)
  rides : ∀ arrival ∈ found.arrivals.toList, arrival.round < rounds →
    ∃ other ∈ found.arrivals.toList, problem.Replaces other arrival ∧
      problem.RidesPriced found other
  walks : ∀ arrival ∈ found.arrivals.toList, arrival.roundOnFoot ≤ rounds →
    problem.WalksPriced found arrival
  ends : ∀ arrival ∈ found.arrivals.toList, arrival.isTransit = true → arrival.round ≤ rounds →
    problem.EndsPriced found arrival

theorem RidesPriced.mono (grows : later.Grows found problem.direction)
    (h : problem.RidesPriced found arrival) : problem.RidesPriced later arrival := by
  intro pattern trip first second target table boarded left hTable hActive hOrigin hTarget passage
    hReady
  exact (h hTable hActive hOrigin hTarget passage hReady).mono grows

theorem WalksPriced.mono (grows : later.Grows found problem.direction)
    (h : problem.WalksPriced found arrival) : problem.WalksPriced later arrival :=
  fun transfer hWalk => (h transfer hWalk).mono grows

theorem EndsPriced.mono (grows : later.Grows found problem.direction)
    (h : problem.EndsPriced found arrival) : problem.EndsPriced later arrival :=
  fun leg hLeg => grows.ended (h leg hLeg)

/-- Walks from a record are no dearer than from what it replaces. -/
theorem WalksPriced.of_replaces (replaces : problem.Replaces arrival other)
    (h : problem.WalksPriced found arrival) : problem.WalksPriced found other := by
  intro transfer hWalk
  have hTime := replaces.time_le
  have hCost := replaces.cost_le
  rw [← replaces.stop_eq] at hWalk
  exact (h transfer hWalk).of_le replaces.roundOnFoot_le (by omega) (by omega)

/-- Egress from a record is no dearer than from what it replaces. -/
theorem EndsPriced.of_replaces (replaces : problem.Replaces arrival other)
    (h : problem.EndsPriced found arrival) : problem.EndsPriced found other := by
  intro leg hLeg
  have hTime := replaces.time_le
  have hCost := replaces.cost_le
  rw [← replaces.stop_eq] at hLeg
  exact (h leg hLeg).of_le replaces.round_le (by omega) (by omega)

section Ended

variable (fair : problem.cost.Fair) (hEnded : found.EndedFor problem.direction arrival.round
  (problem.direction.timeCriterion arrival.time) arrival.cost)

include fair hEnded

/-- Nothing is to be gained from a record once the destination was reached no worse. -/
theorem RidesPriced.of_ended (sound : problem.day.network.Sound) (hSlack : 0 ≤ problem.boardSlack) :
    problem.RidesPriced found arrival := by
  intro pattern trip first second target table boarded left hTable _ hOrigin hTarget passage hReady
  obtain ⟨time, hTime, rfl⟩ := passage.boards
  obtain ⟨later, hLater, rfl⟩ := passage.alights
  have hRide := (sound.table hTable).boardTime_le_alightTime passage.order
    (TripTable.lt_numStops_of_stopAt hOrigin) (TripTable.lt_numStops_of_stopAt hTarget) hTime hLater
  have hNonneg := slackAfter_nonneg hSlack arrival.round
  have hFare := fair.fare_nonneg (show problem.direction.timeCriterion arrival.time ≤
    problem.direction.timeCriterion (problem.direction.boardTime time) by omega) hRide
  exact Or.inr (hEnded.of_le (Nat.le_succ _) (by omega) (by omega))

/-- Once the destination is reached no worse, no walk is missed. -/
theorem WalksPriced.of_ended (linked : problem.day.network.Linked) :
    problem.WalksPriced found arrival := by
  intro transfer hWalk
  have hDuration := (linked.transfers hWalk).2
  have hCost := fair.walkCost_nonneg hDuration
  exact Or.inr (hEnded.of_le arrival.round_le_roundOnFoot (by omega) (by omega))

end Ended

namespace Priced

variable {time : Int} {rounds : Nat}

/-- A start that reached the stops of all legs at their cost, and any others on foot only, has
missed nothing. -/
theorem of_start
    (hStart : ∀ leg ∈ problem.startLegs, found.Serves problem.direction false leg.stop 0
      (problem.direction.timeCriterion time + leg.duration) (problem.cost.walkCost leg.duration))
    (records : Records problem time found.arrivals)
    (hRound : ∀ arrival ∈ found.arrivals.toList, arrival.round ≤ 0) :
    problem.Priced time 0 found := by
  have hFoot : ∀ arrival ∈ found.arrivals.toList, arrival.isTransit = false :=
    fun arrival hMem => records.isTransit_eq_false hMem (hRound arrival hMem)
  refine ⟨hStart, fun arrival _ hBefore => absurd hBefore (Nat.not_lt_zero _), ?_, ?_⟩
  · intro arrival hMem hRound
    rw [Arrival.roundOnFoot, hFoot arrival hMem] at hRound
    simp at hRound
  · intro arrival hMem hRide
    rw [hFoot arrival hMem] at hRide
    cases hRide

/-- No further round is needed once, for every record of the last one, the destination was reached
no worse or a record of an earlier round takes its place. -/
theorem of_spent (priced : problem.Priced time rounds found) (fair : problem.cost.Fair)
    (sound : problem.day.network.Sound) (hSlack : 0 ≤ problem.boardSlack)
    (hRounds : ∀ arrival ∈ found.arrivals.toList, arrival.round ≤ rounds)
    (hSpent : ∀ arrival ∈ found.arrivals.toList, arrival.round = rounds →
      found.EndedFor problem.direction arrival.round
          (problem.direction.timeCriterion arrival.time) arrival.cost ∨
        ∃ other ∈ found.arrivals.toList, problem.Replaces other arrival ∧ other.round < rounds)
    (more : Nat) : problem.Priced time more found := by
  refine ⟨priced.start, fun arrival hMem _ => ?_, fun arrival hMem _ => ?_,
    fun arrival hMem hRide _ => priced.ends arrival hMem hRide (hRounds arrival hMem)⟩
  · rcases Nat.lt_or_eq_of_le (hRounds arrival hMem) with hBefore | hLast
    · exact priced.rides arrival hMem hBefore
    · rcases hSpent arrival hMem hLast with hEnded | ⟨other, hOther, replaces, hBefore⟩
      · exact ⟨arrival, hMem, .refl .., .of_ended fair hEnded sound hSlack⟩
      · obtain ⟨third, hThird, replacesOther, hPriced⟩ := priced.rides other hOther hBefore
        exact ⟨third, hThird, replacesOther.trans replaces, hPriced⟩
  · have hFootLe := arrival.roundOnFoot_le
    rcases Nat.lt_or_eq_of_le (hRounds arrival hMem) with hBefore | hLast
    · exact priced.walks arrival hMem (by omega)
    · rcases hSpent arrival hMem hLast with hEnded | ⟨other, hOther, replaces, hBefore⟩
      · exact .of_ended fair hEnded sound.toLinked
      · have hOtherFoot := other.roundOnFoot_le
        exact (priced.walks other hOther (by omega)).of_replaces replaces

variable {query : Query} {early : (round stop : Nat) → Int}
  (posed : query.Posed problem) (sound : query.network.Sound)
  (hSlack : 0 ≤ query.request.boardSlack) (fair : problem.cost.Fair)
  (hEarly : query.NoneBefore time early)
  (hReaches : ∀ arrival ∈ found.arrivals.toList, arrival.round ≤ rounds →
    query.Reaches time arrival.manner arrival.round arrival.stop arrival.time)

include posed sound hSlack fair hEarly hReaches

/-- Where a journey boards, the record that takes its place may be earlier and so wait longer, but
it is no earlier than any journey can be there. -/
theorem serves_ride (priced : problem.Priced time rounds found) {manner : Query.Manner}
    {round origin target pattern trip : Nat} {reached boarded left cost delay : Int}
    (before : query.Travels problem.cost early time manner round origin reached cost delay)
    (hRide : query.network.Carries query.date query.modes query.direction pattern trip origin target
      boarded left)
    (hReady : query.direction.isBetter boarded
      (query.direction.along reached (query.slackAfter round)) = false)
    (hRound : round < rounds)
    (hBefore : found.Serves problem.direction (decide (manner = .ride)) origin round
      (problem.direction.timeCriterion reached) (cost + problem.cost.waitCost delay)) :
    found.Serves problem.direction true target (round + 1) (problem.direction.timeCriterion left)
      (cost + problem.cost.fare problem.direction reached boarded left +
        problem.cost.waitCost
          (delay + problem.direction.duration (early round origin) reached)) := by
  have hNonneg : 0 ≤ problem.boardSlack := posed.boardSlack ▸ hSlack
  have hLeft := hRide.boarded_le_left sound
  rw [← posed.direction] at hLeft
  rw [← posed.direction, Direction.isBetter_eq_false_iff, Direction.timeCriterion_along,
    ← posed.slackAfter] at hReady
  rw [CostRates.waitCost_add]
  rcases hBefore with ⟨arrival, hMem, meets⟩ | hEnded
  · obtain ⟨table, first, second, hTable, hActive, hOrigin, hTarget, passage⟩ :=
      posed.carries_iff.mp hRide
    obtain ⟨other, hOther, replaces, hPriced⟩ :=
      priced.rides arrival hMem (Nat.lt_of_le_of_lt meets.round_le hRound)
    have hOtherRound := Nat.le_trans replaces.round_le meets.round_le
    have hOtherStop := replaces.stop_eq.trans meets.stop
    have hOtherTime := Int.le_trans replaces.time_le meets.time_le
    have hOtherCost := Int.le_trans replaces.cost_le meets.cost_le
    have hOtherSlack := slackAfter_le hNonneg hOtherRound
    refine (hPriced hTable hActive (hOtherStop ▸ hOrigin) hTarget passage (by omega)).of_le
      (Nat.succ_le_succ hOtherRound) (Int.le_refl _) ?_
    have hNotEarlier := hEarly (hReaches other hOther (by omega)) hOtherRound
    rw [hOtherStop, ← posed.direction, Direction.isBetter_eq_false_iff] at hNotEarlier
    have hLonger := fair.waitCost_nonneg (Int.sub_nonneg_of_le hNotEarlier)
    rw [← Direction.duration_eq] at hLonger
    have hOwn := problem.cost.fare_eq_add problem.direction (early round origin) reached boarded
      left
    have hTaken := problem.cost.fare_eq_add problem.direction (early round origin) other.time
      boarded left
    omega
  · have hNotEarlier := hEarly before.reaches (Nat.le_refl _)
    rw [← posed.direction, Direction.isBetter_eq_false_iff] at hNotEarlier
    have hLonger := fair.waitCost_nonneg (Int.sub_nonneg_of_le hNotEarlier)
    rw [← Direction.duration_eq] at hLonger
    have hWait := slackAfter_nonneg hNonneg round
    have hFare := fair.fare_nonneg (show problem.direction.timeCriterion reached ≤
      problem.direction.timeCriterion boarded by omega) hLeft
    exact Or.inr (hEnded.of_le (Nat.le_succ _) (by omega) (by omega))

/-- If nothing is missed, every place that a journey can reach was reached no worse, but for the
price of its delay, unless the destination was. -/
theorem serves (priced : problem.Priced time rounds found) {manner : Query.Manner}
    {round stop : Nat} {reached cost delay : Int}
    (travels : query.Travels problem.cost early time manner round stop reached cost delay)
    (hRound : round ≤ rounds) :
    found.Serves problem.direction (decide (manner = .ride)) stop round
      (problem.direction.timeCriterion reached) (cost + problem.cost.waitCost delay) := by
  induction travels with
  | @access leg hLeg =>
      rw [← posed.direction, Direction.timeCriterion_along]
      exact (priced.start leg (posed.startLegs ▸ hLeg)).of_le (Nat.le_refl _) (Int.le_refl _)
        (by simp [CostRates.waitCost])
  | ride before hRide hReady ih =>
      rw [← posed.direction]
      exact priced.serves_ride posed sound hSlack fair hEarly hReaches before hRide hReady hRound
        (ih (Nat.le_of_succ_le hRound))
  | @walk manner round stop reached cost delay transfer before hWalk ih =>
      rw [← posed.transfersAt] at hWalk
      rw [← posed.direction, Direction.timeCriterion_along]
      have hDuration := ((posed.network ▸ sound.toLinked :
        problem.day.network.Linked).transfers hWalk).2
      have hWalkCost := fair.walkCost_nonneg hDuration
      have hOnFoot : round ≤ manner.roundOnFoot round := by
        cases manner <;> simp [Query.Manner.roundOnFoot]
      rcases ih (by omega) with ⟨arrival, hMem, meets⟩ | hEnded
      · have hFoot : arrival.roundOnFoot ≤ manner.roundOnFoot round := by
          have hRoundLe := meets.round_le
          rw [Arrival.roundOnFoot, meets.isTransit]
          cases manner <;> simpa [Query.Manner.roundOnFoot] using hRoundLe
        have hTime := meets.time_le
        have hCost := meets.cost_le
        exact (priced.walks arrival hMem (by omega) transfer (meets.stop ▸ hWalk)).of_le hFoot
          (by omega) (by omega)
      · exact Or.inr (hEnded.of_le hOnFoot (by omega) (by omega))

/-- If nothing is missed, the destination was reached no worse than by any journey, but for the
price of its delay. -/
theorem ended (priced : problem.Priced time rounds found) (hLegs : problem.KnownLegs)
    {round : Nat} {finish cost delay : Int}
    (completes : query.Completes problem.cost early time round finish cost delay)
    (hRound : round ≤ rounds) :
    found.EndedFor problem.direction round (problem.direction.timeCriterion finish)
      (cost + problem.cost.waitCost delay) := by
  cases completes with
  | @egress leg reached cost delay last hLeg =>
      rw [← posed.endLegs] at hLeg
      rw [← posed.direction, Direction.timeCriterion_along]
      have hDuration := (hLegs leg (Or.inr hLeg)).2
      have hWalkCost := fair.walkCost_nonneg hDuration
      rcases priced.serves posed sound hSlack fair hEarly hReaches last hRound with
        ⟨arrival, hMem, meets⟩ | hEnded
      · have hRoundLe := meets.round_le
        have hTime := meets.time_le
        have hCost := meets.cost_le
        have hEnd := priced.ends arrival hMem (by simpa using meets.isTransit) (by omega) leg
          (Problem.mem_endLegsAt.mpr ⟨hLeg, meets.stop.symm⟩)
        exact hEnd.of_le hRoundLe (by omega) (by omega)
      · exact hEnded.of_le (Nat.le_refl _) (by omega) (by omega)

end Priced

end Problem

end Search

end JourneyPlanner
