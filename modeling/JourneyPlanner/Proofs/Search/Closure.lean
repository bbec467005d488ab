import JourneyPlanner.Proofs.Search.Records

/-! When a search has missed nothing. Each record owes what rides, walks and egress legs make of
it; the search need not have recorded just that, only something at the same stop that is no
later, or a way to the destination that is no later either. Main statement: if every record
has got what it is owed, then so has every journey. -/
namespace JourneyPlanner.Search

namespace Found

/-- Some record stands at a stop, in a round and at a time no later than these. -/
def Reached (found : Found) (direction : Direction) (stop round : Nat) (criterion : Int) : Prop :=
  ∃ arrival ∈ found.arrivals.toList, arrival.stop = stop ∧ arrival.round ≤ round ∧
    direction.timeCriterion arrival.time ≤ criterion

def Ridden (found : Found) (direction : Direction) (stop round : Nat) (criterion : Int) : Prop :=
  ∃ arrival ∈ found.arrivals.toList, arrival.isTransit = true ∧ arrival.stop = stop ∧
    arrival.round ≤ round ∧ direction.timeCriterion arrival.time ≤ criterion

def Ended (found : Found) (direction : Direction) (round : Nat) (criterion : Int) : Prop :=
  ∃ destination ∈ found.destinations, destination.round ≤ round ∧
    direction.timeCriterion destination.time ≤ criterion

/-- Nothing that was found is lost, although a way to the destination may have given place to
one that is no worse. -/
structure Extends (later earlier : Found) (direction : Direction) : Prop where
  arrivals : later.arrivals.Extends earlier.arrivals
  ended : ∀ {round criterion}, earlier.Ended direction round criterion →
    later.Ended direction round criterion

variable {found later : Found} {direction : Direction} {stop round : Nat} {criterion : Int}

theorem Extends.refl (found : Found) (direction : Direction) : found.Extends found direction :=
  ⟨Arrivals.Extends.refl _, id⟩

theorem Extends.trans {last : Found} (hLast : last.Extends later direction)
    (hLater : later.Extends found direction) : last.Extends found direction :=
  ⟨hLast.arrivals.trans hLater.arrivals, fun h => hLast.ended (hLater.ended h)⟩

theorem Reached.mono (hExtends : later.Extends found direction)
    (h : found.Reached direction stop round criterion) :
    later.Reached direction stop round criterion := by
  obtain ⟨arrival, hMem, hRest⟩ := h
  exact ⟨arrival, hExtends.arrivals.mem_toList hMem, hRest⟩

theorem Ridden.mono (hExtends : later.Extends found direction)
    (h : found.Ridden direction stop round criterion) :
    later.Ridden direction stop round criterion := by
  obtain ⟨arrival, hMem, hRest⟩ := h
  exact ⟨arrival, hExtends.arrivals.mem_toList hMem, hRest⟩

/-- A record that meets a bound meets every weaker one. -/
theorem Reached.of_le {other : Nat} {bound : Int} (hRound : round ≤ other)
    (hTime : criterion ≤ bound) (h : found.Reached direction stop round criterion) :
    found.Reached direction stop other bound := by
  obtain ⟨arrival, hMem, hStop, hLe, hNoLater⟩ := h
  exact ⟨arrival, hMem, hStop, Nat.le_trans hLe hRound, Int.le_trans hNoLater hTime⟩

theorem Ridden.of_le {other : Nat} {bound : Int} (hRound : round ≤ other)
    (hTime : criterion ≤ bound) (h : found.Ridden direction stop round criterion) :
    found.Ridden direction stop other bound := by
  obtain ⟨arrival, hMem, hRide, hStop, hLe, hNoLater⟩ := h
  exact ⟨arrival, hMem, hRide, hStop, Nat.le_trans hLe hRound, Int.le_trans hNoLater hTime⟩

theorem Ended.of_le {other : Nat} {bound : Int} (hRound : round ≤ other)
    (hTime : criterion ≤ bound) (h : found.Ended direction round criterion) :
    found.Ended direction other bound := by
  obtain ⟨destination, hMem, hLe, hNoLater⟩ := h
  exact ⟨destination, hMem, Nat.le_trans hLe hRound, Int.le_trans hNoLater hTime⟩

theorem Ridden.reached (h : found.Ridden direction stop round criterion) :
    found.Reached direction stop round criterion := by
  obtain ⟨arrival, hMem, -, hRest⟩ := h
  exact ⟨arrival, hMem, hRest⟩

end Found

namespace Problem

variable {problem : Problem} {found later : Found} {arrival : Arrival}

theorem slackAfter_nonneg (hSlack : 0 ≤ problem.boardSlack) (round : Nat) :
    0 ≤ problem.slackAfter round := by
  unfold slackAfter
  split
  · exact Int.le_refl _
  · exact hSlack

/-- Later rounds wait no less before boarding. -/
theorem slackAfter_le (hSlack : 0 ≤ problem.boardSlack) {fewer round : Nat} (h : fewer ≤ round) :
    problem.slackAfter fewer ≤ problem.slackAfter round := by
  unfold slackAfter
  split
  · exact slackAfter_nonneg hSlack round
  · exact Int.le_of_eq (if_neg (by omega)).symm

/-- A record can take the place of another: it is at the same stop, in a round and at a time no
later. -/
structure NoWorse (problem : Problem) (arrival than : Arrival) : Prop where
  stop_eq : arrival.stop = than.stop
  round_le : arrival.round ≤ than.round
  time_le : problem.direction.timeCriterion arrival.time ≤
    problem.direction.timeCriterion than.time

theorem NoWorse.refl (problem : Problem) (arrival : Arrival) : problem.NoWorse arrival arrival :=
  ⟨rfl, Nat.le_refl _, Int.le_refl _⟩

/-- Every ride that can be caught after a record was made, or needed not to be. -/
def RidesCovered (problem : Problem) (found : Found) (arrival : Arrival) : Prop :=
  ∀ ⦃pattern trip first second target : Nat⦄ ⦃table : TripTable⦄ ⦃boarded left : Int⦄,
    problem.day.network.tripTable pattern = .ok table →
    problem.day.activePatterns.contains pattern = true →
    table.stopAt first = .ok arrival.stop → table.stopAt second = .ok target →
    problem.Passage table trip first second boarded left →
    problem.direction.timeCriterion arrival.time + problem.slackAfter arrival.round ≤
      problem.direction.timeCriterion boarded →
    found.Ridden problem.direction target (arrival.round + 1)
        (problem.direction.timeCriterion left) ∨
      found.Ended problem.direction (arrival.round + 1) (problem.direction.timeCriterion left)

/-- Leaving a trip at a position in a round was recorded, or something no later was. -/
def AlightingCovered (problem : Problem) (found : Found) (round : Nat) (table : TripTable)
    (trip position : Nat) : Prop :=
  ∀ ⦃stop : Nat⦄ ⦃time : StopTime⦄, table.stopAt position = .ok stop →
    table.timeAt trip position = .ok time →
    found.Ridden problem.direction stop round
        (problem.direction.timeCriterion (problem.direction.alightTime time)) ∨
      found.Ended problem.direction round
        (problem.direction.timeCriterion (problem.direction.alightTime time))

/-- Every walk from a record was made, or needed not to be. -/
def WalksCovered (problem : Problem) (found : Found) (arrival : Arrival) : Prop :=
  ∀ transfer ∈ problem.transfersAt arrival.stop,
    found.Reached problem.direction (problem.direction.transferTarget transfer)
        arrival.roundOnFoot
        (problem.direction.timeCriterion arrival.time + transfer.duration) ∨
      found.Ended problem.direction arrival.roundOnFoot
        (problem.direction.timeCriterion arrival.time + transfer.duration)

/-- Every egress leg was walked from a record, or needed not to be. -/
def EndsCovered (problem : Problem) (found : Found) (arrival : Arrival) : Prop :=
  ∀ leg ∈ problem.endLegsAt arrival.stop,
    found.Ended problem.direction arrival.round
      (problem.direction.timeCriterion arrival.time + leg.duration)

/-- The rounds up to one miss nothing. A walk is made in the round it belongs to, so the walks of
the last of these rounds from places on foot are still to come. -/
structure Closed (problem : Problem) (time : Int) (rounds : Nat) (found : Found) : Prop where
  start : ∀ leg ∈ problem.startLegs, found.Reached problem.direction leg.stop 0
    (problem.direction.timeCriterion time + leg.duration)
  rides : ∀ arrival ∈ found.arrivals.toList, arrival.round < rounds →
    problem.RidesCovered found arrival
  walks : ∀ arrival ∈ found.arrivals.toList, arrival.roundOnFoot ≤ rounds →
    problem.WalksCovered found arrival
  ends : ∀ arrival ∈ found.arrivals.toList, arrival.isTransit = true → arrival.round ≤ rounds →
    problem.EndsCovered found arrival

/-- Rides once covered stay so as more is found. -/
theorem RidesCovered.mono (hExtends : later.Extends found problem.direction)
    (h : problem.RidesCovered found arrival) : problem.RidesCovered later arrival := by
  intro pattern trip first second target table boarded left hTable hActive hOrigin hTarget passage
    hReady
  rcases h hTable hActive hOrigin hTarget passage hReady with hRidden | hEnded
  · exact Or.inl (hRidden.mono hExtends)
  · exact Or.inr (hExtends.ended hEnded)

theorem AlightingCovered.mono {round trip position : Nat} {table : TripTable}
    (hExtends : later.Extends found problem.direction)
    (h : problem.AlightingCovered found round table trip position) :
    problem.AlightingCovered later round table trip position := by
  intro stop time hStop hTime
  rcases h hStop hTime with hRidden | hEnded
  · exact Or.inl (hRidden.mono hExtends)
  · exact Or.inr (hExtends.ended hEnded)

/-- Trips keep their order, so to leave one makes up for leaving any that comes after it. -/
theorem AlightingCovered.of_tripCriterion_le {round first second position : Nat}
    {table : TripTable} (sound : table.Sound)
    (hOrder : problem.direction.tripCriterion first ≤ problem.direction.tripCriterion second)
    (hFirst : first < table.numTrips)
    (h : problem.AlightingCovered found round table first position) :
    problem.AlightingCovered found round table second position := by
  intro stop later hStop hLater
  have hPosition := TripTable.lt_numStops_of_stopAt hStop
  obtain ⟨time, hTime⟩ := sound.exists_timeAt hFirst hPosition
  have hLe := sound.alightTime_le_of_tripCriterion_le hOrder hPosition hTime hLater
  rcases h hStop hTime with hRidden | hEnded
  · exact Or.inl (hRidden.of_le (Nat.le_refl _) hLe)
  · exact Or.inr (hEnded.of_le (Nat.le_refl _) hLe)

/-- The rides after a record are covered if every leaving of them is. -/
theorem RidesCovered.of_alightings
    (h : ∀ {pattern trip first second : Nat} {table : TripTable} {time : StopTime},
      problem.day.network.tripTable pattern = .ok table →
      problem.day.activePatterns.contains pattern = true →
      table.stopAt first = .ok arrival.stop → table.Runs problem.day.isActive trip →
      table.timeAt trip first = .ok time →
      problem.direction.timeCriterion arrival.time + problem.slackAfter arrival.round ≤
        problem.direction.timeCriterion (problem.direction.boardTime time) →
      problem.direction.Precedes first second → second < table.numStops →
      problem.AlightingCovered found (arrival.round + 1) table trip second) :
    problem.RidesCovered found arrival := by
  intro pattern trip first second target table boarded left hTable hActive hOrigin hTarget passage
    hReady
  obtain ⟨time, hTime, rfl⟩ := passage.boards
  obtain ⟨later, hLater, rfl⟩ := passage.alights
  exact h hTable hActive hOrigin passage.runs hTime hReady passage.order
    (TripTable.lt_numStops_of_stopAt hTarget) hTarget hLater

/-- Walks once covered stay so as more is found. -/
theorem WalksCovered.mono (hExtends : later.Extends found problem.direction)
    (h : problem.WalksCovered found arrival) : problem.WalksCovered later arrival := by
  intro transfer hWalk
  rcases h transfer hWalk with hReached | hEnded
  · exact Or.inl (hReached.mono hExtends)
  · exact Or.inr (hExtends.ended hEnded)

theorem EndsCovered.mono (hExtends : later.Extends found problem.direction)
    (h : problem.EndsCovered found arrival) : problem.EndsCovered later arrival :=
  fun leg hLeg => hExtends.ended (h leg hLeg)

section NoWorse

variable {other : Arrival}

/-- The slack is what a record of round 0 has over a later one, so it must not be negative. -/
theorem RidesCovered.of_noWorse (hSlack : 0 ≤ problem.boardSlack)
    (hNoWorse : problem.NoWorse arrival other) (h : problem.RidesCovered found arrival) :
    problem.RidesCovered found other := by
  intro pattern trip first second target table boarded left hTable hActive hOrigin hTarget passage
    hReady
  have hTime := hNoWorse.time_le
  have hRound := hNoWorse.round_le
  have hSlackLe := slackAfter_le hSlack hRound
  rw [← hNoWorse.stop_eq] at hOrigin
  rcases h hTable hActive hOrigin hTarget passage (by omega) with hRidden | hEnded
  · exact Or.inl (hRidden.of_le (by omega) (Int.le_refl _))
  · exact Or.inr (hEnded.of_le (by omega) (Int.le_refl _))

/-- Walks from a record cover those from any that is no better. -/
theorem WalksCovered.of_noWorse (hNoWorse : problem.NoWorse arrival other)
    (hFoot : arrival.roundOnFoot ≤ other.roundOnFoot) (h : problem.WalksCovered found arrival) :
    problem.WalksCovered found other := by
  intro transfer hWalk
  have hTime := hNoWorse.time_le
  rw [← hNoWorse.stop_eq] at hWalk
  rcases h transfer hWalk with hReached | hEnded
  · exact Or.inl (hReached.of_le hFoot (by omega))
  · exact Or.inr (hEnded.of_le hFoot (by omega))

/-- Egress from a record covers that from any that is no better. -/
theorem EndsCovered.of_noWorse (hNoWorse : problem.NoWorse arrival other)
    (h : problem.EndsCovered found arrival) : problem.EndsCovered found other := by
  intro leg hLeg
  have hTime := hNoWorse.time_le
  rw [← hNoWorse.stop_eq] at hLeg
  exact (h leg hLeg).of_le hNoWorse.round_le (by omega)

end NoWorse

section Ended

variable (hEnded : found.Ended problem.direction arrival.round
  (problem.direction.timeCriterion arrival.time))

include hEnded

/-- Nothing is to be gained from a record once the destination was reached no later. -/
theorem RidesCovered.of_ended (sound : problem.day.network.Sound) (hSlack : 0 ≤ problem.boardSlack) :
    problem.RidesCovered found arrival := by
  intro pattern trip first second target table boarded left hTable _ hOrigin hTarget passage hReady
  obtain ⟨time, hTime, rfl⟩ := passage.boards
  obtain ⟨later, hLater, rfl⟩ := passage.alights
  have hRide := (sound.table hTable).boardTime_le_alightTime passage.order
    (TripTable.lt_numStops_of_stopAt hOrigin) (TripTable.lt_numStops_of_stopAt hTarget) hTime hLater
  have hNonneg := slackAfter_nonneg hSlack arrival.round
  exact Or.inr (hEnded.of_le (Nat.le_succ _) (by omega))

/-- Once the destination is reached no later, no walk is missed. -/
theorem WalksCovered.of_ended (linked : problem.day.network.Linked) :
    problem.WalksCovered found arrival := by
  intro transfer hWalk
  have hDuration := (linked.transfers hWalk).2
  exact Or.inr (hEnded.of_le arrival.round_le_roundOnFoot (by omega))

end Ended

end Problem

variable {problem : Problem} {time : Int} {rounds : Nat} {found : Found}

namespace Problem.Closed

/-- One more round misses nothing if it serves the records of the last round and its own, as far
as no record served before takes their place. -/
theorem step (closed : problem.Closed time rounds found) (hSlack : 0 ≤ problem.boardSlack)
    {later : Found} (hExtends : later.Extends found problem.direction)
    (hNew : ∀ arrival ∈ later.arrivals.toList,
      arrival ∈ found.arrivals.toList ∨ arrival.round = rounds + 1)
    (hRides : ∀ arrival ∈ later.arrivals.toList, arrival.round = rounds →
      problem.RidesCovered later arrival ∨ ∃ other ∈ found.arrivals.toList,
        problem.NoWorse other arrival ∧ other.round < rounds)
    (hWalks : ∀ arrival ∈ later.arrivals.toList, arrival.roundOnFoot = rounds + 1 →
      problem.WalksCovered later arrival ∨ ∃ other ∈ found.arrivals.toList,
        problem.NoWorse other arrival ∧ other.roundOnFoot ≤ rounds)
    (hEnds : ∀ arrival ∈ later.arrivals.toList, arrival.isTransit = true →
      arrival.round = rounds + 1 →
      problem.EndsCovered later arrival ∨ ∃ other ∈ found.arrivals.toList,
        other.isTransit = true ∧ problem.NoWorse other arrival ∧ other.round ≤ rounds) :
    problem.Closed time (rounds + 1) later := by
  refine ⟨fun leg hLeg => (closed.start leg hLeg).mono hExtends, ?_, ?_, ?_⟩
  · intro arrival hMem hRound
    rcases hNew arrival hMem with hOld | hRoundEq
    · rcases Nat.lt_succ_iff_lt_or_eq.mp hRound with hBefore | hLast
      · exact (closed.rides arrival hOld hBefore).mono hExtends
      · rcases hRides arrival hMem hLast with hCovered | ⟨other, hOther, hNoWorse, hBefore⟩
        · exact hCovered
        · exact ((closed.rides other hOther hBefore).mono hExtends).of_noWorse hSlack hNoWorse
    · omega
  · intro arrival hMem hRound
    rcases Nat.lt_succ_iff_lt_or_eq.mp (Nat.lt_succ_of_le hRound) with hBefore | hLast
    · rcases hNew arrival hMem with hOld | hRoundEq
      · exact (closed.walks arrival hOld (Nat.le_of_lt_succ hBefore)).mono hExtends
      · have := arrival.round_le_roundOnFoot
        omega
    · rcases hWalks arrival hMem hLast with hCovered | ⟨other, hOther, hNoWorse, hBefore⟩
      · exact hCovered
      · exact ((closed.walks other hOther hBefore).mono hExtends).of_noWorse hNoWorse (by omega)
  · intro arrival hMem hRide hRound
    rcases hNew arrival hMem with hOld | hRoundEq
    · rcases Nat.lt_succ_iff_lt_or_eq.mp (Nat.lt_succ_of_le hRound) with hBefore | hLast
      · exact (closed.ends arrival hOld hRide (Nat.le_of_lt_succ hBefore)).mono hExtends
      · rcases hEnds arrival hMem hRide hLast with
          hCovered | ⟨other, hOther, hRideOther, hNoWorse, hBefore⟩
        · exact hCovered
        · exact ((closed.ends other hOther hRideOther hBefore).mono hExtends).of_noWorse hNoWorse
    · rcases hEnds arrival hMem hRide hRoundEq with
        hCovered | ⟨other, hOther, hRideOther, hNoWorse, hBefore⟩
      · exact hCovered
      · exact ((closed.ends other hOther hRideOther hBefore).mono hExtends).of_noWorse hNoWorse

/-- No further round is needed once, for every record of the last one, the destination was
reached or the stop was reached in an earlier round no later. -/
theorem of_spent (closed : problem.Closed time rounds found) (sound : problem.day.network.Sound)
    (hSlack : 0 ≤ problem.boardSlack)
    (hRounds : ∀ arrival ∈ found.arrivals.toList, arrival.round ≤ rounds)
    (hSpent : ∀ arrival ∈ found.arrivals.toList, arrival.round = rounds →
      found.Ended problem.direction arrival.round
          (problem.direction.timeCriterion arrival.time) ∨
        ∃ other ∈ found.arrivals.toList, problem.NoWorse other arrival ∧ other.round < rounds)
    (more : Nat) : problem.Closed time more found := by
  have hRides : ∀ arrival ∈ found.arrivals.toList, problem.RidesCovered found arrival := by
    intro arrival hMem
    rcases Nat.lt_or_eq_of_le (hRounds arrival hMem) with hBefore | hLast
    · exact closed.rides arrival hMem hBefore
    · rcases hSpent arrival hMem hLast with hEnded | ⟨other, hOther, hNoWorse, hBefore⟩
      · exact .of_ended hEnded sound hSlack
      · exact (closed.rides other hOther hBefore).of_noWorse hSlack hNoWorse
  have hWalks : ∀ arrival ∈ found.arrivals.toList, problem.WalksCovered found arrival := by
    intro arrival hMem
    have hFoot := arrival.round_le_roundOnFoot
    have hFootLe := arrival.roundOnFoot_le
    rcases Nat.lt_or_eq_of_le (hRounds arrival hMem) with hBefore | hLast
    · exact closed.walks arrival hMem (by omega)
    · rcases hSpent arrival hMem hLast with hEnded | ⟨other, hOther, hNoWorse, hBefore⟩
      · exact .of_ended hEnded sound.toLinked
      · have hOtherFoot := other.roundOnFoot_le
        exact (closed.walks other hOther (by omega)).of_noWorse hNoWorse (by omega)
  exact ⟨closed.start, fun arrival hMem _ => hRides arrival hMem,
    fun arrival hMem _ => hWalks arrival hMem,
    fun arrival hMem hRide _ => closed.ends arrival hMem hRide (hRounds arrival hMem)⟩

section Complete

variable {query : Query} (posed : query.Posed problem) (sound : query.network.Sound)
  (hSlack : 0 ≤ query.request.boardSlack)

include posed sound hSlack

/-- If nothing is missed, every place that a journey can reach was reached no later, unless the
destination was. -/
theorem reached_or_ended (closed : problem.Closed time rounds found) {manner : Query.Manner}
    {round stop : Nat} {reached : Int} (hReaches : query.Reaches time manner round stop reached)
    (hRound : round ≤ rounds) :
    found.Reached problem.direction stop round (problem.direction.timeCriterion reached) ∧
        (manner = .ride → found.Ridden problem.direction stop round
          (problem.direction.timeCriterion reached)) ∨
      found.Ended problem.direction round (problem.direction.timeCriterion reached) := by
  induction hReaches with
  | @access leg hLeg =>
      rw [← posed.direction, Direction.timeCriterion_along]
      exact Or.inl ⟨closed.start leg (posed.startLegs ▸ hLeg), by simp⟩
  | @ride manner round origin target pattern trip reached boarded left before hRide hReady ih =>
      rw [← posed.direction, Direction.isBetter_eq_false_iff, Direction.timeCriterion_along,
        ← posed.slackAfter] at hReady
      have hLeft := hRide.boarded_le_left sound
      rw [← posed.direction] at hLeft
      obtain ⟨table, first, second, hTable, hActive, hOrigin, hTarget, passage⟩ :=
        posed.carries_iff.mp hRide
      rcases ih (by omega) with ⟨⟨arrival, hMem, rfl, hLe, hTime⟩, -⟩ | hEnded
      · have hNoWorse : problem.NoWorse arrival { arrival with round, time := reached } :=
          ⟨rfl, hLe, hTime⟩
        have hCovered := (closed.rides arrival hMem (by omega)).of_noWorse
          (posed.boardSlack ▸ hSlack) hNoWorse
        rcases hCovered hTable hActive hOrigin hTarget passage hReady with hRidden | hEnded
        · exact Or.inl ⟨hRidden.reached, fun _ => hRidden⟩
        · exact Or.inr hEnded
      · have hNonneg := slackAfter_nonneg (posed.boardSlack ▸ hSlack) round
        exact Or.inr (hEnded.of_le (Nat.le_succ _) (by omega))
  | @walk manner round stop reached transfer before hWalk ih =>
      rw [← posed.transfersAt] at hWalk
      rw [← posed.direction, Direction.timeCriterion_along]
      have hDuration := ((posed.network ▸ sound.toLinked :
        problem.day.network.Linked).transfers hWalk).2
      have hOnFoot : round ≤ manner.roundOnFoot round := by
        cases manner <;> simp [Query.Manner.roundOnFoot]
      rcases ih (by omega) with ⟨hReached, hRidden⟩ | hEnded
      · obtain ⟨arrival, hMem, hFoot, rfl, hTime⟩ : ∃ arrival ∈ found.arrivals.toList,
            arrival.roundOnFoot ≤ manner.roundOnFoot round ∧ arrival.stop = stop ∧
              problem.direction.timeCriterion arrival.time ≤
                problem.direction.timeCriterion reached := by
          by_cases hManner : manner = .ride
          · obtain ⟨arrival, hMem, hRide, hStop, hLe, hTime⟩ := hRidden hManner
            subst hManner
            exact ⟨arrival, hMem, by rw [Arrival.roundOnFoot, if_pos hRide]; exact hLe, hStop, hTime⟩
          · obtain ⟨arrival, hMem, hStop, hLe, hTime⟩ := hReached
            have hOnFoot : manner.roundOnFoot round = round + 1 := by
              cases manner <;> simp_all [Query.Manner.roundOnFoot]
            have := arrival.roundOnFoot_le
            exact ⟨arrival, hMem, by omega, hStop, hTime⟩
        rcases closed.walks arrival hMem (by omega) transfer hWalk with hReached | hEnded
        · exact Or.inl ⟨hReached.of_le hFoot (by omega), by simp⟩
        · exact Or.inr (hEnded.of_le hFoot (by omega))
      · exact Or.inr (hEnded.of_le hOnFoot (by omega))

/-- If nothing is missed, the destination was reached no later than any journey reaches it. -/
theorem ended (closed : problem.Closed time rounds found) (hLegs : problem.KnownLegs)
    {round : Nat} {finish : Int} (hEnds : query.Ends time round finish) (hRound : round ≤ rounds) :
    found.Ended problem.direction round (problem.direction.timeCriterion finish) := by
  cases hEnds with
  | @egress leg reached last hLeg =>
      rw [← posed.endLegs] at hLeg
      rw [← posed.direction, Direction.timeCriterion_along]
      have hDuration := (hLegs leg (Or.inr hLeg)).2
      rcases closed.reached_or_ended posed sound hSlack last hRound with ⟨-, hRidden⟩ | hEnded
      · obtain ⟨arrival, hMem, hRide, hStop, hLe, hTime⟩ := hRidden rfl
        have hEnd := closed.ends arrival hMem hRide (by omega) leg
          (Problem.mem_endLegsAt.mpr ⟨hLeg, hStop.symm⟩)
        exact hEnd.of_le hLe (by omega)
      · exact hEnded.of_le (Nat.le_refl _) (by omega)

end Complete

end Problem.Closed

end JourneyPlanner.Search
