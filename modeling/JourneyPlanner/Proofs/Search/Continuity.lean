import JourneyPlanner.Proofs.Search.Itinerary

/-! Whether time runs forward along a journey. Main statement: no leg ends before it starts, and the
next one starts no earlier than it ends, but for the time by which a negative slack lets a
search board early; and with such a slack a journey can indeed board before it has arrived. -/
namespace JourneyPlanner

namespace Query

variable {query : Query} {time : Int} {journey : Journey}

/-- What is on offer does not end before it starts. -/
theorem Offers.departure_le_arrival {leg : Leg} (offers : query.Offers leg)
    (sound : query.network.Sound) : leg.departure ≤ leg.arrival := by
  cases offers with
  | transit hRide => exact hRide.boarded_le_left sound
  | @transfer transfer departure arrival hWalk hArrival =>
      have hDuration := (sound.transfersFrom hWalk).2.duration_nonneg
      simp only [Leg.departure, Leg.arrival]
      omega

/-- Where one leg joins another, the slack is the only time that can be missing. -/
theorem Joins.arrival_add_le_departure {leg next : Leg} (joins : query.Joins leg next) :
    leg.arrival + min 0 query.request.boardSlack ≤ next.departure := by
  obtain ⟨-, hTime⟩ := joins
  have hSlack : min 0 query.request.boardSlack ≤ query.slackBetween leg next := by
    unfold slackBetween
    split <;> omega
  cases hDirection : query.direction with
  | forward =>
      rw [hDirection] at hTime
      dsimp only at hTime
      split at hTime <;> omega
  | reverse =>
      rw [hDirection] at hTime
      dsimp only at hTime
      split at hTime <;> omega

/-- No leg of a journey that can be travelled ends before it starts. -/
theorem Itinerary.departure_le_arrival (itinerary : query.Itinerary time journey)
    (sound : query.network.Sound)
    (hLegs : ∀ leg ∈ query.request.access ++ query.request.egress, 0 ≤ leg.duration) :
    ∀ leg ∈ journey.legs, leg.departure ≤ leg.arrival := by
  obtain ⟨first, hFirst, last, hLast, departure, middle, final, hJourney, hOffers⟩ := itinerary.legs
  have hAccess := hLegs first (List.mem_append_left _ hFirst)
  have hEgress := hLegs last (List.mem_append_right _ hLast)
  rw [hJourney, List.forall_mem_cons]
  refine ⟨?_, fun leg hLeg => ?_⟩
  · simp only [Leg.departure, Leg.arrival]
    omega
  · rcases List.mem_append.mp hLeg with hMiddle | hEnd
    · exact (hOffers leg hMiddle).departure_le_arrival sound
    · rw [List.mem_singleton.mp hEnd]
      simp only [Leg.departure, Leg.arrival]
      omega

end Query

variable {draft : Draft} {query : Query} {day : DayTimetable} {config : SearchConfig}

/-- Along every journey of an answer time runs forward, unless the slack is negative; then a leg may
start before the one before it ends, by no more than the slack. It makes no difference when the time
limit cuts the search off. -/
theorem Search.journeys_run_forward (hBuild : draft.build = .ok query.network)
    (hDay : query.network.onDate query.date query.modes = .ok day)
    (hValid : query.request.validate day.numStops config = .ok ())
    (hNetwork : query.network.Modest) (hRequest : query.request.Modest)
    (watches : Nat → Stopwatch) :
    ∃ response, search day query.request config watches = .ok response ∧
      ∀ journey ∈ response.journeys,
        (∀ leg ∈ journey.legs, leg.departure ≤ leg.arrival) ∧
        (journey.legs.IsChain fun leg next =>
          leg.arrival + min 0 query.request.boardSlack ≤ next.departure) ∧
        (0 ≤ query.request.boardSlack →
          journey.legs.IsChain fun leg next => leg.arrival ≤ next.departure) := by
  have sound := Network.Sound.of_build hBuild
  obtain ⟨response, hResponse, hTraced, -⟩ :=
    exists_response sound hDay hValid hNetwork hRequest watches
  refine ⟨response, hResponse, fun journey hJourney => ?_⟩
  obtain ⟨time, -, traced⟩ := hTraced journey hJourney
  have itinerary := traced.itinerary sound.toLinked
  refine ⟨itinerary.departure_le_arrival sound fun leg hLeg =>
    ((Request.validate_eq_ok_iff.mp hValid).legs leg hLeg).2,
    itinerary.joined.imp fun _ _ joins => joins.arrival_add_le_departure, fun hSlack => ?_⟩
  refine itinerary.joined.imp fun _ _ joins => ?_
  have hLe := joins.arrival_add_le_departure
  omega

theorem Search.journeys_run_forward_hurried :
    ∃ response, Draft.connection.build = .ok Query.hurried.network ∧
      search DayTimetable.connection Query.hurried.request SearchConfig.shuttle .ofPlace =
        .ok response ∧
      response.timedOut = true ∧ (response.journeys.map Journey.arrival).Perm [2030, 1930, 2430] ∧
      ∀ journey ∈ response.journeys,
        journey.legs.IsChain fun leg next => leg.arrival ≤ next.departure := by
  obtain ⟨response, hResponse, hJourneys⟩ :=
    @Search.journeys_run_forward Draft.connection Query.hurried _ SearchConfig.shuttle
      Draft.build_connection Query.onDate_connection
      (Request.validate_eq_ok_iff.mpr Query.valid_hurried) Network.modest_connection
      Query.modest_hurried .ofPlace
  obtain ⟨hCut, -, hArrivals⟩ := Search.response_hurried hResponse
  exact ⟨response, Draft.build_connection, hResponse, hCut, hArrivals, fun journey hJourney =>
    (hJourneys journey hJourney).2.2 (by decide)⟩

/-- Two buses, of which the second one leaves their common stop before the first one gets there. -/
def Draft.missed : Draft :=
  { calendar := Draft.shuttle.calendar
    stops := ["A", "B", "C"]
    patterns :=
      [{ name := "1", mode := .bus, stops := [0, 1]
         trips := [{ service := 0, times := [⟨0, 0⟩, ⟨600, 600⟩] }] },
       { name := "2", mode := .bus, stops := [1, 2]
         trips := [{ service := 0, times := [⟨500, 500⟩, ⟨700, 700⟩] }] }]
    transfers := [] }

/-- A request that lets a search board a hundred seconds too early. -/
def Request.missed : Request :=
  { time := 0, arriveBy := false, searchWindow := 0, maxTransfers := 1, profile := .standard
    access := [⟨0, 0⟩], egress := [⟨2, 0⟩], boardSlack := -100, timeLimit := none
    tracing := ⟨[], false⟩ }

/-- The journey found: it reaches the stop at 600 and leaves it at 500. -/
def missedJourney : Journey :=
  .ofLegs [.access 0 0 0, .transit 0 1 0 600 0 0, .transit 1 2 500 700 1 0, .egress 2 700 700]
    82000

/-- A request that passes the check is answered with a journey that takes the second bus. -/
theorem Search.journey_boards_before_arriving :
    ∃ network day response, Draft.missed.build = .ok network ∧ Draft.missed.Modest ∧
      network.onDate ⟨0, by decide, by decide⟩ ModeSet.full = .ok day ∧
      Request.missed.validate day.numStops SearchConfig.shuttle = .ok () ∧
      Request.missed.Modest ∧
      search day Request.missed SearchConfig.shuttle = .ok response ∧
      ¬ ∀ journey ∈ response.journeys,
        journey.legs.IsChain fun leg next => leg.arrival ≤ next.departure := by
  refine ⟨Draft.missed.pack Draft.missed.arranged, _, ⟨[missedJourney], false, ⟨1, 2, 3⟩⟩,
    Draft.build_of_isOk (by decide +kernel), ?_, rfl, ?_, ?_, ?_, ?_⟩
  · constructor <;> simp [Draft.missed, Clock.Within, Clock.modest]
  · decide
  · constructor <;> simp [Request.missed, Clock.Within, Clock.modest]
  · decide +kernel
  · decide

end JourneyPlanner
