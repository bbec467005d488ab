import JourneyPlanner.Proofs.Search.Answer
import JourneyPlanner.Proofs.Search.MultiCriteria.Register
import JourneyPlanner.Proofs.Search.Standard.Register

/-! Runs come to an end. Main statement: on a network that was built every run of a valid request is
completed and its journeys can be read off its records, whatever the size of the numbers. -/
namespace JourneyPlanner

namespace Search

namespace Records

variable {problem : Problem} {time : Int} {arrivals : Arrivals}

/-- Following the records back from one of them ends at the start of the search, and each of them
can follow the one before it. -/
theorem exists_chain (records : Records problem time arrivals) {id : Nat} {arrival : Arrival}
    (h : arrivals.get? id = some arrival) :
    ∃ rest, arrivals.chain id = arrival :: rest ∧ Journey.brokenAt? (arrival :: rest) = none := by
  induction id using Nat.strongRecOn generalizing arrival with
  | ind id ih =>
      obtain ⟨before, hExtends, rfl, hDerives⟩ := records.derives_of_get? h
      cases hDerives with
      | access hLeg => exact ⟨[], Arrivals.chain_of_none h rfl, rfl⟩
      | @ride pattern first second previous target table source bound ride left hSource hTable
          hActive hOrder hOrigin hTarget hBoard hLeft =>
          have hLt := Arrivals.lt_size_of_get? hSource
          obtain ⟨rest, hChain, hSound⟩ := ih previous hLt (hExtends _ _ hSource)
          refine ⟨source :: rest, ?_, ?_⟩
          · rw [Arrivals.chain_of_some h (congrArg some (boarded_of_board? hBoard).predecessor_eq)
              hLt, hChain]
          · have hFollow : (ride.arrival problem (source.round + 1) table.pattern target
                left).canFollow source = true := decide_eq_true (Nat.lt_succ_self _)
            rw [Journey.brokenAt?, if_pos hFollow, hSound]
      | @walk previous source transfer hSource hWalk =>
          have hLt := Arrivals.lt_size_of_get? hSource
          obtain ⟨rest, hChain, hSound⟩ := ih previous hLt (hExtends _ _ hSource)
          refine ⟨source :: rest, ?_, ?_⟩
          · rw [Arrivals.chain_of_some h rfl hLt, hChain]
          · have hFollow : (problem.walkArrival source.roundOnFoot previous source
                transfer).canFollow source = true := decide_eq_true source.round_le_roundOnFoot
            rw [Journey.brokenAt?, if_pos hFollow, hSound]

/-- Each way to the destination makes a journey. -/
theorem exists_ofDestination (records : Records problem time arrivals)
    {destination : DestinationArrival} (hFinishes : problem.Finishes arrivals destination) :
    ∃ journey, Journey.ofDestination arrivals problem.direction destination = .ok journey := by
  cases hFinishes with
  | @egress id source leg hSource hRide hLeg =>
      obtain ⟨rest, hChain, hSound⟩ := records.exists_chain hSource
      simp only [Journey.ofDestination, Problem.destinationArrival, hChain, hSound]
      exact ⟨_, rfl⟩

end Records

/-- A search for which it is never too late does not end for that. -/
theorem Strategy.termination_ne_deadline {State : Type} {strategy : Strategy State}
    {day : DayTimetable} {left : Nat} {scanned : List Nat} {state : State}
    {completed : Completed State}
    (h : strategy.rounds day (fun _ => false) left scanned state = .ok completed) :
    completed.termination ≠ .deadline := by
  induction left generalizing scanned state with
  | zero =>
      rw [rounds, Except.ok.injEq] at h
      rw [← h]
      exact Termination.noConfusion
  | succ left ih =>
      rw [rounds] at h
      simp only [Bool.false_eq_true, if_false] at h
      split at h
      · cases h
      · split at h
        · rw [Except.ok.injEq] at h
          rw [← h]
          exact Termination.noConfusion
        · split at h
          · rw [Except.ok.injEq] at h
            rw [← h]
            exact Termination.noConfusion
          · exact ih h

namespace Planner

variable {planner : Planner} {time : Int} {watch : Stopwatch} {run : Run}

/-- Without a limit no run is cut. -/
theorem timedOut_of_runWith {State : Type} {strategy : Strategy State}
    (hLimit : planner.timeLimit = none) (hRun : planner.runWith strategy time watch = .ok run) :
    run.timedOut = false := by
  rw [runWith, hLimit] at hRun
  split at hRun
  · cases hRun
  · rename_i completed hCompleted
    cases hRun
    exact beq_eq_false_iff_ne.mpr (Strategy.termination_ne_deadline hCompleted)

/-- Without a limit no run is cut, whatever the profile. -/
theorem timedOut_of_run (hLimit : planner.timeLimit = none)
    (hRun : planner.run time watch = .ok run) : run.timedOut = false := by
  rw [Planner.run] at hRun
  split at hRun
  · exact timedOut_of_runWith hLimit hRun
  · exact timedOut_of_runWith hLimit hRun
  · exact timedOut_of_runWith hLimit hRun

/-- On a linked network every run from and to known stops is completed, and its records come from
each other, unless a trip goes back in time. -/
theorem run_yields (planner : Planner) (linked : planner.problem.day.network.Linked)
    (legs : planner.problem.KnownLegs) (time : Int) (watch : Stopwatch) :
    Yields
      (fun run => run.direction = planner.problem.direction ∧
        run.found.Complete planner.problem time planner.maxRounds)
      (fun broken => planner.problem.day.network.GoesBack planner.problem.direction broken.fault)
      (planner.run time watch) := by
  cases hProfile : planner.profile with
  | multiCriteria =>
      rw [Planner.run, hProfile]
      exact MultiCriteria.run_yields planner linked legs time watch
  | standard =>
      rw [Planner.run, hProfile]
      exact Standard.run_yields planner linked time watch
  | bestTime =>
      rw [Planner.run, hProfile]
      exact Standard.run_yields planner linked time watch

/-- On a sound network every run from and to known stops is completed. -/
theorem exists_run_of_known (planner : Planner) (sound : planner.problem.day.network.Sound)
    (legs : planner.problem.KnownLegs) (time : Int) (watch : Stopwatch) :
    ∃ run, planner.run time watch = .ok run ∧ run.direction = planner.problem.direction ∧
      run.found.Complete planner.problem time planner.maxRounds :=
  (planner.run_yields sound.toLinked legs time watch).exists_ok fun broken =>
    sound.not_goesBack broken.fault

/-- On a network that was built every run of a valid request is completed, and its journeys can be
read off. -/
theorem exists_journeys {query : Query} {day : DayTimetable} {config : SearchConfig}
    (sound : query.network.Sound)
    (hDay : query.network.onDate query.date query.modes = .ok day)
    (hPlanner : Planner.ofRequest day query.request config = .ok planner) (time : Int)
    (watch : Stopwatch) :
    ∃ run journeys, planner.run time watch = .ok run ∧ run.direction = query.direction ∧
      run.journeys = .ok journeys ∧
      run.found.destinations.map (Journey.ofDestination run.found.arrivals query.direction) =
        journeys.map .ok ∧
      (query.request.timeLimit = none → run.timedOut = false) := by
  obtain ⟨valid, rfl⟩ := Planner.ofRequest_eq_ok_iff.mp hPlanner
  have posed := Query.posed_ofRequest hDay config
  obtain ⟨run, hRun, hDirection, complete⟩ := exists_run_of_known
    { problem := Problem.ofRequest day query.request config
      profile := query.request.profile
      maxRounds := query.request.maxRounds
      timeLimit := query.request.timeLimit }
    (posed.network ▸ sound) (posed.knownLegs valid) time watch
  rw [posed.direction] at hDirection
  obtain ⟨journeys, hJourneys⟩ := exists_map_ok fun destination hMem =>
    posed.direction ▸ complete.records.exists_ofDestination (complete.finishes destination hMem)
  refine ⟨run, journeys, hRun, hDirection, ?_, hJourneys, fun hLimit => ?_⟩
  · rw [Run.journeys, hDirection]
    exact ofDestinations_eq hJourneys
  · exact timedOut_of_run hLimit hRun

end Planner

end Search

end JourneyPlanner
