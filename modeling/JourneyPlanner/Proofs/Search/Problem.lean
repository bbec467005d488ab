import JourneyPlanner.Proofs.Search.Query

/-! The problem that a search works on is the query it was asked, and what the check of a
request promises about it. -/
namespace JourneyPlanner

namespace Request

/-- Legs are accepted exactly if their stops are known and they take no negative time. -/
theorem legError?_eq_none_iff {numStops : Nat} {legs : List WalkLeg} :
    legError? numStops legs = none ↔ ∀ leg ∈ legs, leg.stop < numStops ∧ 0 ≤ leg.duration := by
  induction legs with
  | nil => simp [legError?]
  | cons leg rest ih =>
      rw [legError?, List.forall_mem_cons]
      split
      · simp only [reduceCtorEq, false_iff]
        omega
      · split
        · simp only [reduceCtorEq, false_iff]
          omega
        · rw [ih]
          exact ⟨fun h => ⟨by omega, h⟩, fun h => h.2⟩

/-- A request whose legs start and end at known stops, with its numbers in range. -/
structure Valid (request : Request) (numStops : Nat) (config : SearchConfig) : Prop where
  searchWindow_nonneg : 0 ≤ request.searchWindow
  iterationStep_pos : 0 < config.iterationStep
  maxTransfers_le : request.maxTransfers ≤ maxSupportedTransfers
  access_ne_nil : request.access ≠ []
  egress_ne_nil : request.egress ≠ []
  legs : ∀ leg ∈ request.access ++ request.egress, leg.stop < numStops ∧ 0 ≤ leg.duration

/-- The check lets exactly the valid requests pass. -/
theorem validate_eq_ok_iff {request : Request} {numStops : Nat} {config : SearchConfig} :
    request.validate numStops config = .ok () ↔ request.Valid numStops config := by
  unfold validate
  constructor
  · intro h
    split at h
    · cases h
    split at h
    · cases h
    split at h
    · cases h
    split at h
    · cases h
    split at h
    · cases h
    split at h
    · cases h
    rename_i hWindow hStep hTransfers hAccess hEgress _ hLegs
    exact ⟨by omega, by omega, by omega, by simpa using hAccess, by simpa using hEgress,
      legError?_eq_none_iff.mp hLegs⟩
  · intro valid
    have := valid.searchWindow_nonneg
    have := valid.iterationStep_pos
    have := valid.maxTransfers_le
    rw [if_neg (by omega), if_neg (by omega), if_neg (by omega),
      if_neg (by simpa using valid.access_ne_nil), if_neg (by simpa using valid.egress_ne_nil),
      legError?_eq_none_iff.mpr valid.legs]

theorem Valid.maxRounds_eq {request : Request} {numStops : Nat} {config : SearchConfig}
    (valid : request.Valid numStops config) : request.maxRounds = request.maxTransfers + 1 := by
  have := valid.maxTransfers_le
  simp only [maxRounds]
  omega

theorem mem_legs_iff {request : Request} {leg : WalkLeg} :
    leg ∈ request.access ++ request.egress ↔
      leg ∈ request.startLegs ∨ leg ∈ request.endLegs := by
  cases hDirection : request.arriveBy <;>
    simp [startLegs, endLegs, hDirection, or_comm]

end Request

namespace Search

namespace Problem

structure Modest (problem : Problem) : Prop where
  network : problem.day.network.Modest
  boardSlack : Clock.Within Clock.modest problem.boardSlack
  legs : ∀ leg, leg ∈ problem.startLegs ∨ leg ∈ problem.endLegs →
    Clock.Within Clock.modest leg.duration

/-- The legs of a problem are walks to and from known stops. -/
def KnownLegs (problem : Problem) : Prop :=
  ∀ leg, leg ∈ problem.startLegs ∨ leg ∈ problem.endLegs →
    leg.stop < problem.numStops ∧ 0 ≤ leg.duration

theorem mem_endLegs_ofRequest {day : DayTimetable} {request : Request} {config : SearchConfig}
    {leg : WalkLeg} : leg ∈ (ofRequest day request config).endLegs ↔ leg ∈ request.endLegs :=
  List.mem_mergeSort

/-- A valid request only has legs at known stops. -/
theorem knownLegs_ofRequest {day : DayTimetable} {request : Request} {config : SearchConfig}
    (valid : request.Valid day.numStops config) : (ofRequest day request config).KnownLegs :=
  fun leg hLeg => valid.legs leg
    (Request.mem_legs_iff.mpr (hLeg.imp_right mem_endLegs_ofRequest.mp))

theorem mem_endLegsAt {problem : Problem} {stop : Nat} {leg : WalkLeg} :
    leg ∈ problem.endLegsAt stop ↔ leg ∈ problem.endLegs ∧ leg.stop = stop := by
  simp [endLegsAt]

end Problem

/-- A search is set up exactly for the requests that pass the check. -/
theorem Planner.ofRequest_eq_ok_iff {day : DayTimetable} {request : Request}
    {config : SearchConfig} {planner : Planner} :
    Planner.ofRequest day request config = .ok planner ↔
      request.Valid day.numStops config ∧
        planner = { problem := Problem.ofRequest day request config
                    profile := request.profile
                    maxRounds := request.maxRounds
                    timeLimit := request.timeLimit } := by
  unfold Planner.ofRequest
  rw [← Request.validate_eq_ok_iff]
  cases hValid : request.validate day.numStops config with
  | error error => simp
  | ok _ => simp [eq_comm]

end Search

namespace Query

variable {query : Query} {problem : Search.Problem}

structure Posed (query : Query) (problem : Search.Problem) : Prop where
  onDate : query.network.onDate query.date query.modes = .ok problem.day
  direction : problem.direction = query.direction
  boardSlack : problem.boardSlack = query.request.boardSlack
  startLegs : problem.startLegs = query.request.startLegs
  endLegs : ∀ {leg}, leg ∈ problem.endLegs ↔ leg ∈ query.request.endLegs

/-- The problem of a request poses its query. -/
theorem posed_ofRequest {day : DayTimetable}
    (hDay : query.network.onDate query.date query.modes = .ok day) (config : SearchConfig) :
    query.Posed (Search.Problem.ofRequest day query.request config) :=
  ⟨hDay, rfl, rfl, rfl, Search.Problem.mem_endLegs_ofRequest⟩

namespace Posed

theorem network (posed : query.Posed problem) : problem.day.network = query.network :=
  DayTimetable.network_onDate posed.onDate

theorem slackAfter (posed : query.Posed problem) (round : Nat) :
    problem.slackAfter round = query.slackAfter round := by
  simp only [Search.Problem.slackAfter, Query.slackAfter, posed.boardSlack]

theorem transfersAt (posed : query.Posed problem) (stop : Nat) :
    problem.transfersAt stop = query.direction.transfers query.network stop := by
  simp only [Search.Problem.transfersAt, posed.direction, posed.network]

theorem knownLegs (posed : query.Posed problem) {config : SearchConfig}
    (valid : query.request.Valid problem.numStops config) : problem.KnownLegs := by
  intro leg hLeg
  rw [posed.startLegs, posed.endLegs] at hLeg
  exact valid.legs leg (Request.mem_legs_iff.mpr hLeg)

/-- Modest networks and requests pose modest problems. -/
theorem modest (posed : query.Posed problem) (hNetwork : query.network.Modest)
    (hRequest : query.request.Modest) : problem.Modest := by
  refine ⟨posed.network ▸ hNetwork, posed.boardSlack ▸ hRequest.boardSlack, fun leg hLeg => ?_⟩
  rw [posed.startLegs, posed.endLegs] at hLeg
  exact hRequest.legs leg (Request.mem_legs_iff.mpr hLeg)

end Posed

end Query

def Draft.shuttle : Draft :=
  { calendar := Calendar.daily ⟨0, by decide, by decide⟩ 1
    stops := ["A", "B"]
    patterns := [{ name := "1", mode := .bus, stops := [0, 1]
                   trips := [{ service := 0, times := [⟨0, 0⟩, ⟨600, 600⟩] }] }]
    transfers := [] }

/-- A ride on the bus on its only day, departing a minute before it. -/
def Query.shuttle : Query :=
  { network := Draft.shuttle.pack Draft.shuttle.arranged
    date := ⟨0, by decide, by decide⟩
    modes := ModeSet.full
    request := { time := -60, arriveBy := false, searchWindow := 0, maxTransfers := 0
                 profile := .standard, access := [⟨0, 60⟩], egress := [⟨1, 30⟩]
                 boardSlack := 0, timeLimit := none, tracing := ⟨[], false⟩ } }

/-- Search a quarter of an hour at a time, at standard rates. -/
def SearchConfig.shuttle : SearchConfig :=
  { iterationStep := 900, parallel := false, cost := CostRates.standard, costSlack := 0 }

theorem Draft.sound_shuttle : Draft.shuttle.Sound := by
  refine ⟨fun pattern hPattern => ?_, by simp [shuttle]⟩
  obtain rfl := List.mem_singleton.mp hPattern
  constructor
  · simp
  · simp [shuttle]
  · intro trip hTrip
    obtain rfl := List.mem_singleton.mp hTrip
    constructor <;> simp [shuttle, Calendar.daily]
  · simp [PatternDraft.sorted]

theorem Draft.modest_shuttle : Draft.shuttle.Modest := by
  constructor <;> simp [shuttle, Clock.Within, Clock.modest]

theorem Query.modest_shuttle : Query.shuttle.request.Modest := by
  constructor <;> simp [shuttle, Clock.Within, Clock.modest]

theorem Query.valid_shuttle : Query.shuttle.request.Valid 2 SearchConfig.shuttle := by
  constructor <;> simp [shuttle, SearchConfig.shuttle, Request.maxSupportedTransfers]

/-- A bus to a station with a train on from there, each a quarter of an hour after the one before,
and a slow bus that goes all the way. -/
def Draft.connection : Draft :=
  { calendar := Calendar.daily ⟨0, by decide, by decide⟩ 1
    stops := ["A", "B", "C"]
    patterns :=
      [{ name := "1", mode := .bus, stops := [0, 1]
         trips := [{ service := 0, times := [⟨0, 0⟩, ⟨600, 600⟩] },
                   { service := 0, times := [⟨900, 900⟩, ⟨1500, 1500⟩] },
                   { service := 0, times := [⟨1800, 1800⟩, ⟨2400, 2400⟩] }] },
       { name := "2", mode := .rail, stops := [1, 2]
         trips := [{ service := 0, times := [⟨1600, 1600⟩, ⟨1900, 1900⟩] },
                   { service := 0, times := [⟨2500, 2500⟩, ⟨2800, 2800⟩] }] },
       { name := "3", mode := .bus, stops := [0, 2]
         trips := [{ service := 0, times := [⟨0, 0⟩, ⟨2000, 2000⟩] },
                   { service := 0, times := [⟨900, 900⟩, ⟨2400, 2400⟩] }] }]
    transfers := [] }

/-- From the first stop to the last, departing within half an hour, with one change at most. -/
def Query.connection : Query :=
  { network := Draft.connection.pack Draft.connection.patterns
    date := ⟨0, by decide, by decide⟩
    modes := ModeSet.full
    request := { time := -60, arriveBy := false, searchWindow := 1800, maxTransfers := 1
                 profile := .standard, access := [⟨0, 60⟩], egress := [⟨2, 30⟩]
                 boardSlack := 60, timeLimit := none, tracing := ⟨[], false⟩ } }

/-- The same with two seconds to answer in. -/
def Query.hurried : Query :=
  { connection with request := { connection.request with timeLimit := some 2000 } }

/-- The watch of a run of a window where every round takes a second and every run is begun a
second after the one before. -/
def Stopwatch.ofPlace (place : Nat) : Stopwatch := ⟨fun rounds => 1000 * (place + rounds)⟩

def DayTimetable.connection : DayTimetable :=
  { network := Query.connection.network
    services := { date := Query.connection.date, running := #[true] }
    activePatterns := { marks := #[true, true, true] } }

theorem Draft.build_connection : Draft.connection.build = .ok Query.connection.network :=
  Draft.build_of_pairwise (by decide +kernel) rfl

theorem Query.onDate_connection : Query.connection.network.onDate Query.connection.date
    Query.connection.modes = .ok DayTimetable.connection := by
  have hDate : Query.connection.network.calendar.dayOf? Query.connection.date = some 0 := by decide
  have hRunning : Query.connection.network.calendar.services.map (·.getLsbD 0) = #[true] := by
    decide +kernel
  have hActive : Query.connection.network.patterns.map (Query.connection.network.isPatternActive
      DayTimetable.connection.services Query.connection.modes) = #[true, true, true] := by
    decide +kernel
  refine DayTimetable.onDate_eq_ok_iff.mpr
    ⟨DayTimetable.connection.services, ?_, by rw [hActive]; rfl⟩
  rw [Calendar.servicesOn, hDate]
  simp only [hRunning]
  rfl

theorem Network.modest_connection : Query.connection.network.Modest := by
  rw [(Draft.build_eq_ok_iff.mp Draft.build_connection).2]
  apply Draft.Modest.pack
  constructor <;> simp [Draft.connection, Clock.Within, Clock.modest]

theorem Query.modest_connection : Query.connection.request.Modest := by
  constructor <;> simp [connection, Clock.Within, Clock.modest]

theorem Query.valid_connection : Query.connection.request.Valid 3 SearchConfig.shuttle := by
  constructor <;> simp [connection, SearchConfig.shuttle, Request.maxSupportedTransfers]

theorem Query.modest_hurried : Query.hurried.request.Modest :=
  { Query.modest_connection with }

theorem Query.valid_hurried : Query.hurried.request.Valid 3 SearchConfig.shuttle :=
  { Query.valid_connection with }

end JourneyPlanner
