import JourneyPlanner.Proofs.Relaxation.Growth
import JourneyPlanner.Proofs.Search.Runs

/-! A query is relaxed: more runs, more legs can be walked, less time is kept free and more rides
are allowed. Main statements: whoever starts no later than a journey of the one query can be wherever
that journey is, in the same round and no later, by a journey of the relaxed one; so a run for
the relaxed query ends no worse, for every bound on the rounds. -/
namespace JourneyPlanner

namespace Network.GrownTo

variable {network grown : Network}

/-- Every transfer is still there in the grown network. -/
theorem transfers (grows : network.GrownTo grown) (direction : Direction) {stop : Nat}
    {transfer : Transfer} (h : transfer ∈ direction.transfers network stop) :
    transfer ∈ direction.transfers grown stop := by
  cases direction with
  | forward => exact grows.transfersFrom h
  | reverse => exact grows.transfersTo h

/-- A ride has another number at most, on any date on which its service runs still. -/
theorem carries (grows : network.GrownTo grown) {date other : Date} {modes more : ModeSet}
    (hModes : ∀ mode, modes.contains mode = true → more.contains mode = true)
    (hServices : ∀ service, network.calendar.runsOn service date = true →
      grown.calendar.runsOn service other = true)
    {direction : Direction} {pattern trip origin target : Nat} {boarded left : Int}
    (h : network.Carries date modes direction pattern trip origin target boarded left) :
    ∃ place, grown.Carries other more direction pattern place origin target boarded left := by
  cases h with
  | ride hTable hMode hService hRuns hOrder hOrigin hTarget hTime hLater =>
      obtain ⟨later, hGrown, table⟩ := grows.table hTable
      obtain ⟨place, hPlace, hTimes⟩ := table.trip hService
      have hFirst := TripTable.lt_numStops_of_stopAt hOrigin
      have hSecond := TripTable.lt_numStops_of_stopAt hTarget
      rw [← table.stopAt] at hOrigin hTarget
      rw [← table.mode] at hMode
      exact ⟨place, .ride hGrown (hModes _ hMode) hPlace (hServices _ hRuns) hOrder hOrigin hTarget
        (hTimes hFirst hTime) (hTimes hSecond hLater)⟩

end Network.GrownTo

/-- A request in the same direction that allows for more than another one. -/
structure Request.RelaxedTo (request relaxed : Request) : Prop where
  arriveBy : relaxed.arriveBy = request.arriveBy
  access : ∀ leg ∈ request.access, leg ∈ relaxed.access
  egress : ∀ leg ∈ request.egress, leg ∈ relaxed.egress
  boardSlack_nonneg : 0 ≤ relaxed.boardSlack
  boardSlack_le : relaxed.boardSlack ≤ request.boardSlack
  maxTransfers_le : request.maxTransfers ≤ relaxed.maxTransfers

namespace Request.RelaxedTo

variable {request relaxed : Request}

theorem direction (relaxes : request.RelaxedTo relaxed) :
    relaxed.direction = request.direction := by
  simp only [Request.direction, relaxes.arriveBy]

theorem startLegs (relaxes : request.RelaxedTo relaxed) :
    ∀ leg ∈ request.startLegs, leg ∈ relaxed.startLegs := by
  unfold Request.startLegs
  rw [relaxes.arriveBy]
  split
  · exact relaxes.egress
  · exact relaxes.access

theorem endLegs (relaxes : request.RelaxedTo relaxed) :
    ∀ leg ∈ request.endLegs, leg ∈ relaxed.endLegs := by
  unfold Request.endLegs
  rw [relaxes.arriveBy]
  split
  · exact relaxes.access
  · exact relaxes.egress

end Request.RelaxedTo

/-- A query on a grown network, for more modes and services, with a relaxed request. -/
structure Query.RelaxedTo (query relaxed : Query) : Prop where
  network : query.network.GrownTo relaxed.network
  modes : ∀ mode, query.modes.contains mode = true → relaxed.modes.contains mode = true
  services : ∀ service, query.network.calendar.runsOn service query.date = true →
    relaxed.network.calendar.runsOn service relaxed.date = true
  request : query.request.RelaxedTo relaxed.request

namespace Query.RelaxedTo

variable {query relaxed : Query} {time start : Int}

theorem direction (relaxes : query.RelaxedTo relaxed) : relaxed.direction = query.direction :=
  relaxes.request.direction

/-- The relaxed query never asks for more slack before boarding. -/
theorem slackAfter_le (relaxes : query.RelaxedTo relaxed) (round : Nat) :
    relaxed.slackAfter round ≤ query.slackAfter round := by
  unfold Query.slackAfter
  split
  · exact Int.le_refl 0
  · exact relaxes.request.boardSlack_le

/-- Every ride of the query is there in the relaxed one. -/
theorem carries (relaxes : query.RelaxedTo relaxed) {pattern trip origin target : Nat}
    {boarded left : Int}
    (h : query.network.Carries query.date query.modes query.direction pattern trip origin target
      boarded left) :
    ∃ place, relaxed.network.Carries relaxed.date relaxed.modes relaxed.direction pattern place
      origin target boarded left := by
  rw [relaxes.direction]
  exact relaxes.network.carries relaxes.modes relaxes.services h

/-- Whoever starts no later gets by the same legs, rides and walks to the same stop, no later.
The earlier arrival need not be what a search records: it may have boarded a better trip. -/
theorem reaches (relaxes : query.RelaxedTo relaxed)
    (hStart : query.direction.isBetter time start = false) {manner : Manner} {round stop : Nat}
    {reached : Int} (h : query.Reaches time manner round stop reached) :
    ∃ earlier, relaxed.Reaches start manner round stop earlier ∧
      query.direction.isBetter reached earlier = false := by
  induction h with
  | access hLeg =>
      have hAccess := @Reaches.access relaxed start _ (relaxes.request.startLegs _ hLeg)
      rw [relaxes.direction] at hAccess
      refine ⟨_, hAccess, ?_⟩
      rw [Direction.isBetter_eq_false_iff] at hStart ⊢
      rw [Direction.timeCriterion_along, Direction.timeCriterion_along]
      omega
  | @ride manner round origin target pattern trip reached boarded left before hRide hReady ih =>
      obtain ⟨earlier, hEarlier, hLe⟩ := ih
      obtain ⟨place, hPlace⟩ := relaxes.carries hRide
      have hSlack := relaxes.slackAfter_le round
      -- The ride is caught as before: there was time for it with a later arrival and more slack.
      refine ⟨left, .ride hEarlier hPlace ?_, Direction.isBetter_irrefl ..⟩
      rw [relaxes.direction, Direction.isBetter_eq_false_iff, Direction.timeCriterion_along]
      rw [Direction.isBetter_eq_false_iff] at hLe
      rw [Direction.isBetter_eq_false_iff, Direction.timeCriterion_along] at hReady
      omega
  | walk before hWalk ih =>
      obtain ⟨earlier, hEarlier, hLe⟩ := ih
      have hGrown := relaxes.network.transfers query.direction hWalk
      rw [← relaxes.direction] at hGrown
      have hReached := Reaches.walk hEarlier hGrown
      rw [relaxes.direction] at hReached
      refine ⟨_, hReached, ?_⟩
      rw [Direction.isBetter_eq_false_iff] at hLe ⊢
      rw [Direction.timeCriterion_along, Direction.timeCriterion_along]
      omega

/-- A journey ends no worse once the query is relaxed. -/
theorem ends (relaxes : query.RelaxedTo relaxed)
    (hStart : query.direction.isBetter time start = false) {round : Nat} {finish : Int}
    (h : query.Ends time round finish) :
    ∃ sooner, relaxed.Ends start round sooner ∧
      query.direction.isBetter finish sooner = false := by
  cases h with
  | egress last hLeg =>
      obtain ⟨earlier, hEarlier, hLe⟩ := relaxes.reaches hStart last
      have hEnds := Ends.egress hEarlier (relaxes.request.endLegs _ hLeg)
      rw [relaxes.direction] at hEnds
      refine ⟨_, hEnds, ?_⟩
      rw [Direction.isBetter_eq_false_iff] at hLe ⊢
      rw [Direction.timeCriterion_along, Direction.timeCriterion_along]
      omega

end Query.RelaxedTo

/-- What an exact run found for a relaxed query is no worse, for every bound on the rounds. -/
theorem Search.Found.Exact.no_worse {query relaxed : Query} {time start : Int}
    {found better : Search.Found} {rounds more : Nat} (relaxes : query.RelaxedTo relaxed)
    (hStart : query.direction.isBetter time start = false)
    (exact : found.Exact query time rounds) (hBetter : better.Exact relaxed start more)
    (hRounds : rounds ≤ more) {bound : Nat} {destination : DestinationArrival}
    (hMem : destination ∈ found.destinations) (hBound : destination.round ≤ bound) :
    ∃ other ∈ better.destinations, other.round ≤ bound ∧
      query.direction.isBetter destination.time other.time = false := by
  obtain ⟨-, hRound, hEnds⟩ := exact.ends destination hMem
  obtain ⟨sooner, hSooner, hLe⟩ := relaxes.ends hStart hEnds
  obtain ⟨other, hOther, hOtherRound, hTime⟩ := hBetter.ended hSooner (hRound.trans hRounds)
  rw [relaxes.direction] at hTime
  refine ⟨other, hOther, hOtherRound.trans hBound, ?_⟩
  rw [Direction.isBetter_eq_false_iff] at hLe ⊢
  exact Int.le_trans hTime hLe

variable {draft later : Draft} {query relaxed : Query} {day relaxedDay : DayTimetable}
  {config relaxedConfig : SearchConfig} {planner relaxedPlanner : Search.Planner}
  {time start : Int}

/-- More of everything never makes a result worse: on a timetable to which more was added, with no
fewer modes, services, legs and transfers, no more slack and no later start, a run ends at
least as well in every number of rounds. -/
theorem Search.Planner.run_no_worse_when_relaxed (hBuild : draft.build = .ok query.network)
    (continues : draft.Continues later) (hLater : later.build = .ok relaxed.network)
    (hDay : query.network.onDate query.date query.modes = .ok day)
    (hRelaxedDay : relaxed.network.onDate relaxed.date relaxed.modes = .ok relaxedDay)
    (hModes : ∀ mode, query.modes.contains mode = true → relaxed.modes.contains mode = true)
    (hServices : ∀ service, day.isActive service = true → relaxedDay.isActive service = true)
    (hRelaxed : query.request.RelaxedTo relaxed.request)
    (hPlanner : Planner.ofRequest day query.request config = .ok planner)
    (hRelaxedPlanner :
      Planner.ofRequest relaxedDay relaxed.request relaxedConfig = .ok relaxedPlanner)
    (hLimit : query.request.timeLimit = none) (hRelaxedLimit : relaxed.request.timeLimit = none)
    (hStart : query.direction.isBetter time start = false)
    (hNetwork : query.network.Modest) (hRelaxedNetwork : relaxed.network.Modest)
    (hRequest : query.request.Modest) (hRelaxedRequest : relaxed.request.Modest)
    (hTime : Clock.Within Clock.modest time) (hStartTime : Clock.Within Clock.modest start)
    (watch otherWatch : Stopwatch) :
    ∃ run relaxedRun, planner.run time watch = .ok run ∧
      relaxedPlanner.run start otherWatch = .ok relaxedRun ∧
      ∀ rounds, ∀ destination ∈ run.found.destinations, destination.round ≤ rounds →
        ∃ other ∈ relaxedRun.found.destinations, other.round ≤ rounds ∧
          query.direction.isBetter destination.time other.time = false := by
  have relaxes : query.RelaxedTo relaxed := by
    refine ⟨continues.network hBuild hLater, hModes, fun service hRuns => ?_, hRelaxed⟩
    rw [← DayTimetable.isActive_onDate hDay] at hRuns
    rw [← DayTimetable.isActive_onDate hRelaxedDay]
    exact hServices service hRuns
  obtain ⟨run, hRun, -, hExact, -⟩ := Planner.exists_answer (.of_build hBuild) hDay hPlanner
    hNetwork hRequest (Clock.Within.double hTime) watch
  obtain ⟨relaxedRun, hRelaxedRun, -, hRelaxedExact, -⟩ := Planner.exists_answer
    (.of_build hLater) hRelaxedDay hRelaxedPlanner hRelaxedNetwork hRelaxedRequest
    (Clock.Within.double hStartTime) otherWatch
  have exact := hExact hLimit (Int.le_trans hRelaxed.boardSlack_nonneg hRelaxed.boardSlack_le)
  have relaxedExact := hRelaxedExact hRelaxedLimit hRelaxed.boardSlack_nonneg
  refine ⟨run, relaxedRun, hRun, hRelaxedRun, fun rounds destination hMem hBound => ?_⟩
  exact exact.no_worse relaxes hStart relaxedExact (Nat.succ_le_succ hRelaxed.maxTransfers_le)
    hMem hBound

/-- An earlier bus, which can be added as the first of a line of its own. -/
def TripDraft.express : TripDraft :=
  { service := 0, times := [⟨-60, -60⟩, ⟨100, 100⟩] }

/-- The shuttle after further calls: an earlier bus runs too, and one can walk on to a third
stop. -/
def Draft.extended : Draft :=
  { shuttle with
    stops := ["A", "B", "C"]
    patterns := shuttle.patterns ++
      [{ name := "2", mode := .bus, stops := [0, 1], trips := [TripDraft.express] }]
    transfers := [⟨1, 2, 60⟩] }

theorem Draft.continues_extended : Draft.shuttle.Continues Draft.extended := by
  have hLine := ((@Continues.refl shuttle).addStop "C").addPattern "2" .bus [0, 1]
  have hTrip := @Continues.addTrip shuttle _ _ 1 TripDraft.express hLine rfl
  exact hTrip.addTransfer ⟨1, 2, 60⟩

theorem Draft.modest_extended : Draft.extended.Modest := by
  constructor <;> simp [extended, shuttle, TripDraft.express, Clock.Within, Clock.modest]

/-- A ride on the earlier bus, a minute before it. One may change, and go to the third stop. -/
def Query.extended : Query :=
  { shuttle with
    network := Draft.extended.pack Draft.extended.arranged
    request := { shuttle.request with
      time := -120, maxTransfers := 1, egress := [⟨2, 10⟩, ⟨1, 30⟩] } }

theorem Query.relaxedTo_extended : Query.shuttle.request.RelaxedTo Query.extended.request := by
  constructor <;> simp [shuttle, extended]

theorem Query.modest_extended : Query.extended.request.Modest := by
  constructor <;> simp [shuttle, extended, Clock.Within, Clock.modest]

theorem Query.valid_extended : Query.extended.request.Valid 3 SearchConfig.shuttle := by
  constructor <;>
    simp [shuttle, extended, SearchConfig.shuttle, Request.maxSupportedTransfers]

theorem Search.Planner.run_no_worse_when_extended :
    ∃ planner relaxedPlanner run relaxedRun,
      (∃ day, Query.shuttle.network.onDate Query.shuttle.date Query.shuttle.modes = .ok day ∧
        Planner.ofRequest day Query.shuttle.request SearchConfig.shuttle = .ok planner) ∧
      (∃ day, Query.extended.network.onDate Query.extended.date Query.extended.modes = .ok day ∧
        Planner.ofRequest day Query.extended.request SearchConfig.shuttle = .ok relaxedPlanner) ∧
      planner.run (-60) = .ok run ∧ relaxedPlanner.run (-120) = .ok relaxedRun ∧
      (∃ destination ∈ run.found.destinations, destination.round = 1 ∧ destination.time = 630) ∧
      ∃ other ∈ relaxedRun.found.destinations, other.round ≤ 1 ∧ other.time ≤ 630 := by
  obtain ⟨day, planner, hDay, hPlanner, first, hFirst, hFound⟩ : ∃ day planner,
      Query.shuttle.network.onDate Query.shuttle.date Query.shuttle.modes = .ok day ∧
      Planner.ofRequest day Query.shuttle.request SearchConfig.shuttle = .ok planner ∧
      ∃ run, planner.run (-60) = .ok run ∧ (run.found.destinations.any fun destination =>
        decide (destination.round = 1 ∧ destination.time = 630)) = true :=
    ⟨_, _, rfl, Planner.ofRequest_eq_ok_iff.mpr ⟨Query.valid_shuttle, rfl⟩,
      Planner.exists_run_of_any (by decide +kernel)⟩
  obtain ⟨relaxedDay, relaxedPlanner, hRelaxedDay, hRelaxedPlanner, hServices⟩ :
      ∃ relaxedDay relaxedPlanner,
      Query.extended.network.onDate Query.extended.date Query.extended.modes = .ok relaxedDay ∧
      Planner.ofRequest relaxedDay Query.extended.request SearchConfig.shuttle =
        .ok relaxedPlanner ∧
      ∀ service, day.isActive service = true → relaxedDay.isActive service = true := by
    refine ⟨_, _, rfl, Planner.ofRequest_eq_ok_iff.mpr ⟨Query.valid_extended, rfl⟩, ?_⟩
    cases hDay
    exact fun _ h => h
  obtain ⟨run, relaxedRun, hRun, hRelaxedRun, hNoWorse⟩ :=
    @Search.Planner.run_no_worse_when_relaxed Draft.shuttle Draft.extended Query.shuttle
      Query.extended day relaxedDay SearchConfig.shuttle SearchConfig.shuttle planner
      relaxedPlanner (-60) (-120) (Draft.build_eq_ok_iff.mpr ⟨Draft.sound_shuttle, rfl⟩)
      Draft.continues_extended (Draft.build_of_isOk (by decide +kernel)) hDay hRelaxedDay
      (fun _ h => h) hServices Query.relaxedTo_extended hPlanner hRelaxedPlanner rfl rfl (by decide)
      Draft.modest_shuttle.pack Draft.modest_extended.pack Query.modest_shuttle
      Query.modest_extended ⟨by decide, by decide⟩ ⟨by decide, by decide⟩ .stopped .stopped
  rw [hFirst, Except.ok.injEq] at hRun
  subst hRun
  simp only [List.any_eq_true, decide_eq_true_eq] at hFound
  obtain ⟨destination, hMem, hRound, hArrives⟩ := hFound
  obtain ⟨other, hOther, hOtherRound, hBetter⟩ := hNoWorse 1 destination hMem hRound.le
  rw [Direction.isBetter_eq_false_iff, hArrives] at hBetter
  exact ⟨planner, relaxedPlanner, first, relaxedRun, ⟨day, hDay, hPlanner⟩,
    ⟨relaxedDay, hRelaxedDay, hRelaxedPlanner⟩, hFirst, hRelaxedRun,
    ⟨destination, hMem, hRound, hArrives⟩, other, hOther, hOtherRound, hBetter⟩

end JourneyPlanner
