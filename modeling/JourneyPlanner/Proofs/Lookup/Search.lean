import JourneyPlanner.Proofs.Lookup.MultiCriteria
import JourneyPlanner.Proofs.Lookup.Standard
import JourneyPlanner.Proofs.Search.Completion

/-! A search that gives up as soon as a lookup falls outside its table, from the first round to
the last journey. Main statement: on a network that was built, every valid request is answered,
wherever its time limit cuts its runs off, and such a search gives the same answer; so no lookup of a
search ever falls outside. -/
namespace JourneyPlanner

/-- The record and those it was reached from, last one first. Each of them must have been made, and
before the one reached from it. -/
def Arrivals.strictChain (arrivals : Arrivals) (id : Nat) : Checked (List Arrival) :=
  match arrivals.get? id with
  | none => .error .outOfRange
  | some arrival =>
    match arrival.predecessor with
    | none => .ok [arrival]
    | some previous =>
      if _ : previous < id then (arrivals.strictChain previous).map (arrival :: ·)
      else .error .outOfRange
termination_by id

def Journey.strictOfDestination (arrivals : Arrivals) (direction : Direction)
    (destination : DestinationArrival) : Checked Journey := do
  let chain ← arrivals.strictChain destination.arrival
  match brokenAt? chain with
  | some arrival => .error (.integrity (.brokenArrivalChain arrival.stop arrival.round))
  | none => return ofLegs (legsOf direction chain destination) destination.cost

namespace Search

namespace Planner

def strictRun (planner : Planner) (tables : Tables) (time : Int) (watch : Stopwatch) :
    Checked Run :=
  match planner.profile with
  | .standard | .bestTime =>
    (Standard.strict planner.problem tables).run tables planner time watch
  | .multiCriteria =>
    (MultiCriteria.strict planner.problem tables).run tables planner time watch

def strictJourneys (planner : Planner) (tables : Tables) (time : Int) (watch : Stopwatch) :
    Checked (Run × List Journey) := do
  let run ← planner.strictRun tables time watch
  let journeys ← run.found.destinations.mapM
    (Journey.strictOfDestination run.found.arrivals run.direction)
  return (run, journeys)

end Planner

def strictSearch (tables : Tables) (day : DayTimetable) (request : Request)
    (config : SearchConfig) (watches : Nat → Stopwatch) : Except SearchError Response :=
  match Planner.ofRequest day request config with
  | .error error => .error (.invalidRequest error)
  | .ok planner =>
    match (request.iterationTimes config.iterationStep).zipIdx.mapM fun entry =>
      planner.strictJourneys tables entry.1 (watches entry.2) with
    | .error fault => .error (.fault fault)
    | .ok results =>
      .ok { journeys := bestJourneys request.direction request.profile config.costSlack
              (results.flatMap Prod.snd)
            timedOut := results.any fun result => result.1.timedOut
            stats := statsOf (results.map Prod.fst) }

namespace Records

variable {problem : Problem} {time : Int} {arrivals : Arrivals}

/-- The records of a search point backwards only. -/
theorem predecessor_lt (records : Records problem time arrivals) {id previous : Nat}
    {arrival : Arrival} (h : arrivals.get? id = some arrival)
    (hPrevious : arrival.predecessor = some previous) : previous < id := by
  obtain ⟨before, -, rfl, hDerives⟩ := records.derives_of_get? h
  cases hDerives with
  | access hLeg => cases hPrevious
  | ride hSource hTable hActive hOrder hOrigin hTarget hBoard hLeft =>
      cases hPrevious
      rw [(boarded_of_board? hBoard).predecessor_eq]
      exact Arrivals.lt_size_of_get? hSource
  | walk hSource hWalk =>
      cases hPrevious
      exact Arrivals.lt_size_of_get? hSource

/-- The records can be followed back from each of them, down to one that has no predecessor. -/
theorem strictChain_eq (records : Records problem time arrivals) {id : Nat} {arrival : Arrival}
    (h : arrivals.get? id = some arrival) :
    arrivals.strictChain id = .ok (arrivals.chain id) := by
  induction id using Nat.strongRecOn generalizing arrival with
  | ind id ih =>
      rw [Arrivals.strictChain, h]
      dsimp only
      cases hPrevious : arrival.predecessor with
      | none => rw [Arrivals.chain_of_none h hPrevious]
      | some previous =>
          have hLt := records.predecessor_lt h hPrevious
          have hInside := Nat.lt_trans hLt (Arrivals.lt_size_of_get? h)
          have hEarlier : arrivals.get? previous = some arrivals.records[previous] :=
            Array.getElem?_eq_getElem hInside
          dsimp only
          rw [dif_pos hLt, ih previous hLt hEarlier, Arrivals.chain_of_some h hPrevious hLt]
          rfl

/-- Reading a journey off the records of a search looks up no record in vain. -/
theorem strictOfDestination_eq (records : Records problem time arrivals) (direction : Direction)
    {destination : DestinationArrival} (hFinishes : problem.Finishes arrivals destination) :
    Journey.strictOfDestination arrivals direction destination =
      Journey.ofDestination arrivals direction destination := by
  cases hFinishes with
  | @egress id source leg hSource hRide hLeg =>
      obtain ⟨rest, hChain, hSound⟩ := records.exists_chain hSource
      have hStrict := records.strictChain_eq hSource
      rw [hChain] at hStrict
      rw [Journey.strictOfDestination, Journey.ofDestination, Problem.destinationArrival, hStrict,
        hChain]
      simp only [bind, Except.bind, hSound]
      rfl

end Records

namespace Planner

variable {planner : Planner} {tables : Tables}

/-- The strict run is the run. -/
theorem strictRun_eq (linked : planner.problem.day.network.Linked)
    (legs : planner.problem.KnownLegs) (sorted : planner.problem.HasSortedLegs)
    (hold : tables.Hold planner.problem.day.network) (time : Int) (watch : Stopwatch) :
    planner.strictRun tables time watch = (planner.run time watch).mapError BrokenRun.fault := by
  cases hProfile : planner.profile with
  | multiCriteria =>
      rw [strictRun, run, hProfile]
      exact (MultiCriteria.agrees_strict linked legs sorted hold).run hold time watch
  | standard =>
      rw [strictRun, run, hProfile]
      exact (Standard.agrees_strict linked legs sorted hold).run hold time watch
  | bestTime =>
      rw [strictRun, run, hProfile]
      exact (Standard.agrees_strict linked legs sorted hold).run hold time watch

/-- On a network that was built the strict run of a valid request is completed, and so is reading
off its journeys. -/
theorem exists_strictJourneys {query : Query} {day : DayTimetable} {config : SearchConfig}
    (sound : query.network.Sound) (hold : tables.Hold query.network)
    (hDay : query.network.onDate query.date query.modes = .ok day)
    (hPlanner : Planner.ofRequest day query.request config = .ok planner) (time : Int)
    (watch : Stopwatch) :
    ∃ run journeys, planner.run time watch = .ok run ∧ run.journeys = .ok journeys ∧
      planner.strictJourneys tables time watch = .ok (run, journeys) := by
  obtain ⟨run, journeys, hRun, hDirection, hJourneys, hRead, -⟩ :=
    exists_journeys sound hDay hPlanner time watch
  obtain ⟨valid, hSame⟩ := Planner.ofRequest_eq_ok_iff.mp hPlanner
  have hProblem : planner.problem = Problem.ofRequest day query.request config := by rw [hSame]
  have posed : query.Posed planner.problem := hProblem ▸ Query.posed_ofRequest hDay config
  have legs : planner.problem.KnownLegs := hProblem ▸
    (Query.posed_ofRequest hDay config).knownLegs valid
  have sorted : planner.problem.HasSortedLegs := hProblem ▸
    Problem.hasSortedLegs_ofRequest day query.request config
  rw [← posed.network] at sound hold
  have hStrict := strictRun_eq sound.toLinked legs sorted hold time watch
  obtain ⟨other, hOther, -, complete⟩ := exists_run_of_known planner sound legs time watch
  rw [hRun, Except.ok.injEq] at hOther
  subst hOther
  refine ⟨run, journeys, hRun, hJourneys, ?_⟩
  rw [← hDirection, ← List.map_congr_left fun destination hMem =>
    complete.records.strictOfDestination_eq run.direction
      (complete.finishes destination hMem)] at hRead
  rw [strictJourneys, hStrict, hRun]
  simp only [Except.mapError, bind, Except.bind, mapM_eq_of_map_eq hRead]
  rfl

end Planner

end Search

variable {draft : Draft} {network : Network} {date : Date} {offset : Nat}

/-- On a network that was built every search for a valid request succeeds, on each day of the
calendar and for all modes, whenever its time limit runs out; and it looks up nothing outside of its
tables, since a search that gives up there gives the same answer. -/
theorem Search.search_stays_in_range (hBuild : draft.build = .ok network)
    (hDate : network.calendar.dayOf? date = some offset) (modes : ModeSet) :
    ∃ day, network.onDate date modes = .ok day ∧
      ∀ request config watches, request.validate network.numStops config = .ok () →
        ∃ response, search day request config watches = .ok response ∧
          strictSearch (network.tables draft.transfers) day request config watches =
            .ok response := by
  have hServices : network.calendar.servicesOn date =
      .ok { date, running := network.calendar.services.map (·.getLsbD offset) } := by
    rw [Calendar.servicesOn, hDate]
  obtain ⟨day, hDay⟩ : ∃ day, network.onDate date modes = .ok day :=
    ⟨_, DayTimetable.onDate_eq_ok_iff.mpr ⟨_, hServices, rfl⟩⟩
  refine ⟨day, hDay, fun request config watches hValid => ?_⟩
  have hNetwork := DayTimetable.network_onDate hDay
  have hNumStops : day.numStops = network.numStops := by rw [DayTimetable.numStops, hNetwork]
  obtain ⟨planner, hPlanner⟩ : ∃ planner, Planner.ofRequest day request config = .ok planner :=
    ⟨_, Planner.ofRequest_eq_ok_iff.mpr
      ⟨hNumStops ▸ Request.validate_eq_ok_iff.mp hValid, rfl⟩⟩
  choose run journeys hRun hJourneys hStrict using
    @Planner.exists_strictJourneys planner (network.tables draft.transfers)
      ⟨network, date, modes, request⟩ day config (.of_build hBuild) (Draft.hold_tables hBuild) hDay
      hPlanner
  let entries := (request.iterationTimes config.iterationStep).zipIdx
  have hRuns : planner.runAll (request.iterationTimes config.iterationStep) watches =
      (entries.map fun entry => run entry.1 (watches entry.2)).map .ok := by
    rw [List.map_map]
    exact List.map_congr_left fun entry _ => hRun entry.1 (watches entry.2)
  have hFound : (entries.map fun entry => run entry.1 (watches entry.2)).map Run.journeys =
      (entries.map fun entry => journeys entry.1 (watches entry.2)).map .ok := by
    rw [List.map_map, List.map_map]
    exact List.map_congr_left fun entry _ => hJourneys entry.1 (watches entry.2)
  refine ⟨_, search_eq hPlanner hRuns hFound, ?_⟩
  rw [strictSearch, hPlanner]
  have hResults : entries.mapM (fun entry =>
      planner.strictJourneys (network.tables draft.transfers) entry.1 (watches entry.2)) = _ :=
    mapM_eq_ok fun entry _ => hStrict entry.1 (watches entry.2)
  simp only [entries] at hResults
  simp only [hResults]
  simp [entries, List.flatMap_def, Function.comp_def]

theorem Search.search_stays_in_range_hurried :
    ∃ response, Draft.connection.build = .ok Query.hurried.network ∧
      Query.hurried.network.onDate Query.hurried.date Query.hurried.modes =
        .ok DayTimetable.connection ∧
      search DayTimetable.connection Query.hurried.request SearchConfig.shuttle .ofPlace =
        .ok response ∧
      strictSearch (Query.hurried.network.tables []) DayTimetable.connection
        Query.hurried.request SearchConfig.shuttle .ofPlace = .ok response ∧
      response.timedOut = true ∧ response.stats = ⟨3, 3, 8⟩ := by
  obtain ⟨day, hDay, hSearch⟩ := @Search.search_stays_in_range Draft.connection
    Query.hurried.network Query.hurried.date 0 Draft.build_connection (by decide)
    Query.hurried.modes
  obtain rfl := Except.ok.inj (hDay.symm.trans Query.onDate_connection)
  obtain ⟨response, hResponse, hStrict⟩ := hSearch Query.hurried.request SearchConfig.shuttle
    .ofPlace (Request.validate_eq_ok_iff.mpr Query.valid_hurried)
  obtain ⟨hCut, hStats, -⟩ := Search.response_hurried hResponse
  exact ⟨response, Draft.build_connection, hDay, hResponse, hStrict, hCut, hStats⟩

end JourneyPlanner
