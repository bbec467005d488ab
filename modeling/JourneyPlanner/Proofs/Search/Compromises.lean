import JourneyPlanner.Proofs.Search.Exact
import JourneyPlanner.Proofs.Search.MultiCriteria.Fares

/-! The best compromises between time, rounds and cost, and how far a search may stay behind them.
Of two arrivals at a stop it keeps the earlier one if it is no dearer, although the other one has
less time to wait there. Main statements: each journey is met, but for the price of the time by
which it comes later to its boardings than others can; and that much may indeed be lost. -/
namespace JourneyPlanner

namespace Query

variable {query : Query} {time : Int}

/-- No journey is anywhere before it starts. -/
theorem Reaches.start_le (sound : query.network.Sound) (hSlack : 0 ≤ query.request.boardSlack)
    (hLegs : ∀ leg ∈ query.request.startLegs, 0 ≤ leg.duration) {manner : Manner}
    {round stop : Nat} {reached : Int} (h : query.Reaches time manner round stop reached) :
    query.direction.timeCriterion time ≤ query.direction.timeCriterion reached := by
  induction h with
  | access hLeg =>
      have hDuration := hLegs _ hLeg
      rw [Direction.timeCriterion_along]
      omega
  | @ride manner round origin target pattern trip reached boarded left before hRide hReady ih =>
      rw [Direction.isBetter_eq_false_iff, Direction.timeCriterion_along] at hReady
      have hLeft := hRide.boarded_le_left sound
      have hNonneg : 0 ≤ query.slackAfter round := by
        unfold slackAfter
        split
        · exact Int.le_refl _
        · exact hSlack
      omega
  | walk before hWalk ih =>
      have hDuration := (sound.toLinked.transfers hWalk).2
      rw [Direction.timeCriterion_along]
      omega

end Query

variable {draft : Draft} {query : Query} {day : DayTimetable} {config : SearchConfig}
  {planner : Search.Planner} {time : Int}

/-- A search for the best compromises finds, for each journey, a way to the destination that is no
later, of no more rounds and no dearer, but for the price of the time by which the journey comes
later to the stops where it boards than any journey of so many rounds can. -/
theorem Search.Planner.compromises_but_for_delay (hBuild : draft.build = .ok query.network)
    (hDay : query.network.onDate query.date query.modes = .ok day)
    (hPlanner : Planner.ofRequest day query.request config = .ok planner)
    (hProfile : query.request.profile = .multiCriteria) (hSlack : 0 ≤ query.request.boardSlack)
    (hLimit : query.request.timeLimit = none) (hExact : config.costSlack = 0)
    (fair : config.cost.Fair) (hRates : config.cost.Modest) (hNetwork : query.network.Modest)
    (hRequest : query.request.Modest) (hTime : Clock.Within Clock.modest time)
    {early : (round stop : Nat) → Int} (hEarly : query.NoneBefore time early) (watch : Stopwatch) :
    ∃ run, planner.run time watch = .ok run ∧
      ∀ {round finish cost delay}, round ≤ query.request.maxTransfers + 1 →
        query.Completes config.cost early time round finish cost delay →
        ∃ destination ∈ run.found.destinations, destination.round ≤ round ∧
          query.direction.isBetter finish destination.time = false ∧
          destination.cost ≤ cost + config.cost.waitCost delay := by
  have sound := Network.Sound.of_build hBuild
  obtain ⟨regular, hRounds, hTransfers⟩ := Planner.regular_ofRequest sound hDay hPlanner hNetwork
    hRequest (Clock.Within.double hTime)
  obtain ⟨-, rfl⟩ := Planner.ofRequest_eq_ok_iff.mp hPlanner
  have posed := Query.posed_ofRequest hDay config
  obtain ⟨run, hRun, records, priced⟩ := MultiCriteria.exists_run_priced regular hTransfers fair
    hRates hExact hSlack hLimit watch
  refine ⟨run, by rw [Planner.run, hProfile]; exact hRun, fun hRound completes => ?_⟩
  have hReaches : ∀ arrival ∈ run.found.arrivals.toList, arrival.round ≤ _ →
      query.Reaches time arrival.manner arrival.round arrival.stop arrival.time :=
    fun arrival hMem hRound => records.reaches regular.modest regular.time posed sound hMem
      (Nat.le_trans hRound hTransfers)
  obtain ⟨destination, hMem, hLe, hNoLater, hNoDearer⟩ :=
    priced.ended posed sound hSlack fair hEarly hReaches regular.legs completes (hRounds ▸ hRound)
  exact ⟨destination, hMem, hLe, Direction.isBetter_eq_false_iff.mpr hNoLater, hNoDearer⟩

/-- Two buses to a stop from which a third one leaves. The bus that gets there first is the cheaper
one up to there, but what it gains is spent waiting. -/
def Draft.feeders : Draft :=
  { calendar := Draft.shuttle.calendar
    stops := ["A", "B", "C", "D"]
    patterns :=
      [{ name := "1", mode := .bus, stops := [0, 2]
         trips := [{ service := 0, times := [⟨100, 100⟩, ⟨110, 110⟩] }] },
       { name := "2", mode := .bus, stops := [1, 2]
         trips := [{ service := 0, times := [⟨0, 0⟩, ⟨250, 250⟩] }] },
       { name := "3", mode := .bus, stops := [2, 3]
         trips := [{ service := 0, times := [⟨300, 300⟩, ⟨400, 400⟩] }] }]
    transfers := [] }

/-- The best compromises with a walk to the stop of the first bus, or none to that of the second. -/
def Query.feeders : Query :=
  { network := Draft.feeders.pack Draft.feeders.patterns
    date := Query.shuttle.date
    modes := ModeSet.full
    request := { time := 0, arriveBy := false, searchWindow := 0, maxTransfers := 1
                 profile := .multiCriteria, access := [⟨0, 100⟩, ⟨1, 0⟩], egress := [⟨3, 0⟩]
                 boardSlack := 0, timeLimit := none, tracing := ⟨[], false⟩ } }

theorem Draft.build_feeders : Draft.feeders.build = .ok Query.feeders.network :=
  Draft.build_of_pairwise (by decide +kernel) rfl

theorem Network.modest_feeders : Query.feeders.network.Modest := by
  have modest : Draft.feeders.Modest := by
    constructor <;> simp [Draft.feeders, Clock.Within, Clock.modest]
  rw [(Draft.build_eq_ok_iff.mp Draft.build_feeders).2]
  exact modest.pack

theorem Query.modest_feeders : Query.feeders.request.Modest := by
  constructor <;> simp [feeders, Clock.Within, Clock.modest]

theorem Query.valid_feeders : Query.feeders.request.Valid 4 SearchConfig.shuttle := by
  constructor <;> simp [feeders, SearchConfig.shuttle, Request.maxSupportedTransfers]

/-- By the second bus the destination is reached at 400 and at a cost of 52000. -/
theorem Query.completes_feeders :
    Query.feeders.Completes CostRates.standard (fun _ _ => 0) 0 2 400 52000 250 := by
  have access : Query.feeders.Travels CostRates.standard (fun _ _ => 0) 0 .access 0 1 0 0 0 :=
    @Travels.access Query.feeders CostRates.standard (fun _ _ => 0) 0 ⟨1, 0⟩ (by decide)
  have hSecond : Query.feeders.network.Carries Query.feeders.date Query.feeders.modes .forward 1 0
      1 2 0 250 :=
    @Network.Carries.ride _ _ _ .forward _ _ _ 0 0 1 1 2 ⟨0, 0⟩ ⟨250, 250⟩ rfl rfl rfl
      (by decide +kernel) Nat.one_pos rfl rfl rfl rfl
  have hThird : Query.feeders.network.Carries Query.feeders.date Query.feeders.modes .forward 2 0
      2 3 300 400 :=
    @Network.Carries.ride _ _ _ .forward _ _ _ 0 0 1 2 3 ⟨300, 300⟩ ⟨400, 400⟩ rfl rfl rfl
      (by decide +kernel) Nat.one_pos rfl rfl rfl rfl
  exact @Completes.egress _ _ _ _ _ ⟨3, 0⟩ _ _ _
    (.ride (.ride access hSecond (by decide)) hThird (by decide)) (by decide)

theorem Search.Planner.compromises_but_for_delay_feeders :
    ∃ day planner run,
      Query.feeders.network.onDate Query.feeders.date Query.feeders.modes = .ok day ∧
      Planner.ofRequest day Query.feeders.request SearchConfig.shuttle = .ok planner ∧
      planner.run 0 = .ok run ∧ ∃ destination ∈ run.found.destinations,
        destination.round ≤ 2 ∧ destination.time ≤ 400 ∧ destination.cost ≤ 77000 := by
  have hEarly : Query.feeders.NoneBefore 0 fun _ _ => 0 := fun reaches _ =>
    Direction.isBetter_eq_false_iff.mpr
      (reaches.start_le (.of_build Draft.build_feeders) (by decide) (by decide))
  obtain ⟨run, hRun, hMet⟩ := @Search.Planner.compromises_but_for_delay Draft.feeders
    Query.feeders _ SearchConfig.shuttle _ 0 Draft.build_feeders rfl
    (Planner.ofRequest_eq_ok_iff.mpr ⟨Query.valid_feeders, rfl⟩) rfl (by decide) rfl rfl
    CostRates.fair_standard CostRates.modest_standard Network.modest_feeders Query.modest_feeders
    ⟨by decide, by decide⟩ _ hEarly .stopped
  obtain ⟨destination, hMem, hRound, hTime, hCost⟩ := hMet (by decide) Query.completes_feeders
  exact ⟨_, _, run, rfl, Planner.ofRequest_eq_ok_iff.mpr ⟨Query.valid_feeders, rfl⟩, hRun,
    destination, hMem, hRound, Direction.isBetter_eq_false_iff.mp hTime, hCost⟩

/-- The delay cannot be left out: the journey by the second bus is met by none that costs no more.
-/
theorem Search.compromise_lost_by_waiting :
    ∃ day planner run, Draft.feeders.build = .ok Query.feeders.network ∧
      Query.feeders.network.onDate Query.feeders.date Query.feeders.modes = .ok day ∧
      Planner.ofRequest day Query.feeders.request SearchConfig.shuttle = .ok planner ∧
      Query.feeders.request.profile = .multiCriteria ∧ Query.feeders.request.boardSlack = 0 ∧
      Query.feeders.request.timeLimit = none ∧ SearchConfig.shuttle.costSlack = 0 ∧
      SearchConfig.shuttle.cost.Fair ∧ SearchConfig.shuttle.cost.Modest ∧
      Query.feeders.network.Modest ∧ Query.feeders.request.Modest ∧ planner.run 0 = .ok run ∧
      ¬ ∀ early round finish cost delay, round ≤ Query.feeders.request.maxTransfers + 1 →
        Query.feeders.Completes SearchConfig.shuttle.cost early 0 round finish cost delay →
        ∃ destination ∈ run.found.destinations, destination.round ≤ round ∧
          Query.feeders.direction.isBetter finish destination.time = false ∧
          destination.cost ≤ cost := by
  obtain ⟨day, planner, hDay, hPlanner, run, hRun, hDearer⟩ : ∃ day planner,
      Query.feeders.network.onDate Query.feeders.date Query.feeders.modes = .ok day ∧
      Planner.ofRequest day Query.feeders.request SearchConfig.shuttle = .ok planner ∧
      ∃ run, planner.run 0 = .ok run ∧
        run.found.destinations.all (fun destination => 52000 < destination.cost) = true :=
    ⟨_, _, rfl, Planner.ofRequest_eq_ok_iff.mpr ⟨Query.valid_feeders, rfl⟩,
      Planner.exists_run_of_any (by decide +kernel)⟩
  refine ⟨day, planner, run, Draft.build_feeders, hDay, hPlanner, rfl, rfl, rfl, rfl,
    CostRates.fair_standard, CostRates.modest_standard, Network.modest_feeders,
    Query.modest_feeders, hRun, fun hMet => ?_⟩
  obtain ⟨destination, hMem, -, -, hCost⟩ := hMet _ _ _ _ _ (by decide) Query.completes_feeders
  have hMore := of_decide_eq_true (List.all_eq_true.mp hDearer destination hMem)
  omega

end JourneyPlanner
