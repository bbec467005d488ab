import JourneyPlanner.Proofs.Search.MultiCriteria.Offers
import Mathlib.Logic.Relation

/-! A search for the best compromises, one operation after the other. Main statement: unless it meets
a stop that the timetable does not have, a run comes to its end, or to where it is given up, by such
operations. -/
namespace JourneyPlanner

/-- The patterns and transfers of a timetable lead to stops that it has. -/
structure DayTimetable.KnowsStops (day : DayTimetable) : Prop where
  stop_lt : ∀ {index table position stop}, day.network.tripTable index = .ok table →
    table.stopAt position = .ok stop → stop < day.numStops
  target_lt : ∀ {direction : Direction} {stop transfer},
    transfer ∈ direction.transfers day.network stop →
    direction.transferTarget transfer < day.numStops

theorem Network.Linked.knowsStops {day : DayTimetable} (linked : day.network.Linked) :
    day.KnowsStops :=
  ⟨linked.stop_lt, fun hTransfer => (linked.transfers hTransfer).1⟩

end JourneyPlanner

namespace JourneyPlanner.Search.MultiCriteria

structure Riding where
  /-- The patterns to be scanned after it. -/
  patterns : List Nat
  table : TripTable
  /-- The positions still to be passed. -/
  positions : List Nat
  rides : Front Ride

/-- Where arrivals to be recorded come from. -/
inductive Cause where
  | start
  /-- Rides are left at a stop of the pattern. -/
  | ride (riding : Riding) (position stop : Nat)
  | walk

/-- What a search is at between two operations. -/
inductive Doing where
  /-- These arrivals are still to be recorded. -/
  | recording (rest : List Arrival) (cause : Cause)
  /-- These patterns are still to be scanned. -/
  | scanning (patterns : List Nat)
  | passing (riding : Riding)
  /-- These rides were got on, and are still to be compared with those on board. -/
  | boarding (riding : Riding) (rest : List Ride)
  /-- These ways to the destination are still to be offered; without any the round is over. -/
  | ending (rest : List DestinationArrival)

/-- A point of a run between two operations. -/
structure Moment where
  doing : Doing
  state : State

/-- The operations of a search. -/
inductive Step (planner : Planner) : Moment → Moment → Prop where
  /-- The front of a stop is looked up, so the stop must be there. -/
  | record {arrival : Arrival} {rest : List Arrival} {cause : Cause} {state : State}
      (hStop : arrival.stop < planner.problem.numStops) :
      Step planner ⟨.recording (arrival :: rest) cause, state⟩
        ⟨.recording rest cause, state.add planner.problem arrival⟩
  | started {state : State} : Step planner ⟨.recording [] .start, state⟩ ⟨.ending [], state⟩
  /-- A time limit may end the search here. -/
  | turn {state : State} (hLeft : state.round < planner.maxRounds)
      (hGoesOn : state.round = 0 ∨
        state.reachedCurrent.isEmpty = false ∧ state.isSettled planner.problem = false) :
      Step planner ⟨.ending [], state⟩
        ⟨.scanning (planner.problem.day.patternsTouching state.reachedCurrent.toList),
          state.beginRound (state.round + 1)⟩
  | scan {pattern : Nat} {rest : List Nat} {table : TripTable} {state : State}
      (hTable : planner.problem.day.network.tripTable pattern = .ok table)
      (hStops : table.numStops ≠ 0) :
      Step planner ⟨.scanning (pattern :: rest), state⟩
        ⟨.passing ⟨rest, table, planner.problem.direction.positions table.numStops, Front.empty⟩,
          state⟩
  | leave {patterns positions : List Nat} {table : TripTable} {rides : Front Ride}
      {position stop : Nat} {arrivals : List Arrival} {state : State}
      (hStop : table.stopAt position = .ok stop)
      (hArrivals : State.alightings planner.problem table state.round position stop rides.items =
        .ok arrivals) :
      Step planner ⟨.passing ⟨patterns, table, position :: positions, rides⟩, state⟩
        ⟨.recording arrivals (.ride ⟨patterns, table, positions, rides⟩ position stop), state⟩
  | board {riding : Riding} {position stop : Nat} {boarded : List Ride} {state : State}
      (hBoarded : state.boardingsAt planner.problem riding.table position stop = .ok boarded) :
      Step planner ⟨.recording [] (.ride riding position stop), state⟩
        ⟨.boarding riding boarded, state⟩
  | keepUp {riding : Riding} {ride : Ride} {rest : List Ride} {state : State} :
      Step planner ⟨.boarding riding (ride :: rest), state⟩
        ⟨.boarding { riding with
          rides := riding.rides.offer rideRules (rideEntry planner.problem.direction ride) } rest,
          state⟩
  | goOn {riding : Riding} {state : State} :
      Step planner ⟨.boarding riding [], state⟩ ⟨.passing riding, state⟩
  | arrive {patterns : List Nat} {table : TripTable} {rides : Front Ride} {state : State} :
      Step planner ⟨.passing ⟨patterns, table, [], rides⟩, state⟩ ⟨.scanning patterns, state⟩
  | walk {state : State} :
      Step planner ⟨.scanning [], state⟩
        ⟨.recording (walkOffers planner.problem state) .walk, state⟩
  | finish {state : State} :
      Step planner ⟨.recording [] .walk, state⟩
        ⟨.ending (state.candidates planner.problem), state⟩
  | reach {destination : DestinationArrival} {rest : List DestinationArrival} {state : State} :
      Step planner ⟨.ending (destination :: rest), state⟩
        ⟨.ending rest, state.offerDestination planner.problem destination⟩

def Steps (planner : Planner) : Moment → Moment → Prop := Relation.ReflTransGen (Step planner)

def Moment.first (planner : Planner) (time : Int) : Moment :=
  ⟨.recording (planner.problem.startLegs.map (planner.problem.accessArrival time)) .start,
    State.initial planner.problem⟩

namespace Doing

def pending : Doing → List Arrival
  | recording rest _ => rest
  | _ => []

def table? : Doing → Option TripTable
  | recording _ (.ride riding _ _) => some riding.table
  | passing riding => some riding.table
  | boarding riding _ => some riding.table
  | _ => none

end Doing

/-- The arrivals still to be recorded are at stops that the timetable has. -/
def Moment.Known (planner : Planner) (moment : Moment) : Prop :=
  ∀ arrival ∈ moment.doing.pending, arrival.stop < planner.problem.numStops

/-- From a moment on no stop is met that the timetable does not have. -/
def Moment.Safe (planner : Planner) (moment : Moment) : Prop :=
  ∀ later, Steps planner moment later → later.Known planner

/-- Operations lead from a moment to what a part of the search comes to, in the same round. -/
inductive Moment.LeadsTo (planner : Planner) (moment : Moment) (doing : Doing) :
    Except (Stopped State) State → Prop where
  | reached {after : State} (hRound : after.round = moment.state.round)
      (steps : Steps planner moment ⟨doing, after⟩) : LeadsTo planner moment doing (.ok after)
  | givenUp {stopped : Stopped State} {given : Doing}
      (steps : Steps planner moment ⟨given, stopped.state⟩) :
      LeadsTo planner moment doing (.error stopped)

/-- Operations lead from a moment to the end of a search, or to where it is given up. -/
inductive Moment.EndsIn (planner : Planner) (moment : Moment) :
    Except (Interrupted State) (Completed State) → Prop where
  | completed {completed : Completed State}
      (steps : Steps planner moment ⟨.ending [], completed.state⟩) :
      EndsIn planner moment (.ok completed)
  | givenUp {interrupted : Interrupted State} {given : Doing}
      (steps : Steps planner moment ⟨given, interrupted.state⟩) :
      EndsIn planner moment (.error interrupted)

variable {planner : Planner} {moment next later : Moment} {state : State} {doing : Doing}

/-- What is safe from a moment on is safe from every later one. -/
theorem Moment.Safe.mono (safe : moment.Safe planner) (steps : Steps planner moment later) :
    later.Safe planner :=
  fun last hLast => safe last (steps.trans hLast)

theorem Moment.LeadsTo.prepend {result : Except (Stopped State) State}
    (leads : next.LeadsTo planner doing result) (hRound : next.state.round = moment.state.round)
    (steps : Steps planner moment next) : moment.LeadsTo planner doing result := by
  cases leads with
  | reached hAfter hSteps => exact .reached (hAfter.trans hRound) (steps.trans hSteps)
  | givenUp hSteps => exact .givenUp (steps.trans hSteps)

theorem Moment.EndsIn.prepend {result : Except (Interrupted State) (Completed State)}
    (ends : next.EndsIn planner result) (steps : Steps planner moment next) :
    moment.EndsIn planner result := by
  cases ends with
  | completed hSteps => exact .completed (steps.trans hSteps)
  | givenUp hSteps => exact .givenUp (steps.trans hSteps)

/-- Arrivals are recorded one by one. -/
theorem steps_foldl_add {arrivals : List Arrival} {cause : Cause}
    (safe : Moment.Safe planner ⟨.recording arrivals cause, state⟩) :
    Steps planner ⟨.recording arrivals cause, state⟩
      ⟨.recording [] cause, arrivals.foldl (State.add planner.problem) state⟩ := by
  induction arrivals generalizing state with
  | nil => exact .refl
  | cons first rest ih =>
      have hStep : Step planner ⟨.recording (first :: rest) cause, state⟩
          ⟨.recording rest cause, state.add planner.problem first⟩ :=
        .record (safe _ .refl first (List.mem_cons_self ..))
      exact .head hStep (ih (safe.mono (.single hStep)))

/-- Rides are compared with those on board one by one. -/
theorem steps_boarding (riding : Riding) (boarded : List Ride) (state : State) :
    Steps planner ⟨.boarding riding boarded, state⟩
      ⟨.boarding { riding with
        rides := riding.rides.offerAll rideRules
          (boarded.map (rideEntry planner.problem.direction)) } [], state⟩ := by
  induction boarded generalizing riding with
  | nil => exact .refl
  | cons first rest ih => exact .head .keepUp (ih _)

theorem steps_ending (destinations : List DestinationArrival) (state : State) :
    Steps planner ⟨.ending destinations, state⟩
      ⟨.ending [], destinations.foldl (State.offerDestination planner.problem) state⟩ := by
  induction destinations generalizing state with
  | nil => exact .refl
  | cons first rest ih => exact .head .reach (ih _)

/-- Finishing a round is offering its candidates in turn. -/
theorem steps_candidates (state : State) :
    Steps planner ⟨.ending (state.candidates planner.problem), state⟩
      ⟨.ending [], state.finish planner.problem⟩ :=
  steps_ending _ _

/-- Positions of a pattern are passed one by one. -/
theorem leadsTo_pass {riding : Riding} (safe : Moment.Safe planner ⟨.passing riding, state⟩) :
    Moment.LeadsTo planner ⟨.passing riding, state⟩ (.scanning riding.patterns)
      (State.pass planner.problem riding.table (State.add planner.problem) riding.positions
        riding.rides state) := by
  obtain ⟨patterns, table, positions, rides⟩ := riding
  induction positions generalizing rides state with
  | nil => exact .reached rfl (.single .arrive)
  | cons position rest ih =>
      dsimp only
      rw [State.pass]
      cases hStop : table.stopAt position with
      | error fault => exact .givenUp .refl
      | ok stop =>
          dsimp only
          cases hArrivals : State.alightings planner.problem table state.round position stop
              rides.items with
          | error fault => exact .givenUp .refl
          | ok arrivals =>
              dsimp only
              have hLeave : Step planner ⟨.passing ⟨patterns, table, position :: rest, rides⟩, state⟩
                  ⟨.recording arrivals (.ride ⟨patterns, table, rest, rides⟩ position stop),
                    state⟩ := .leave hStop hArrivals
              have hLeft := (Relation.ReflTransGen.single hLeave).trans
                (steps_foldl_add (safe.mono (.single hLeave)))
              cases hBoarded : (arrivals.foldl (State.add planner.problem) state).boardingsAt
                  planner.problem table position stop with
              | error fault => exact .givenUp hLeft
              | ok boarded =>
                  dsimp only
                  have hOn := (hLeft.tail (.board hBoarded)).trans
                    ((steps_boarding _ boarded _).tail .goOn)
                  exact (ih _ (safe.mono hOn)).prepend (State.round_foldl_add ..) hOn

/-- Patterns are scanned one by one. -/
theorem leadsTo_scanAll {patterns : List Nat}
    (safe : Moment.Safe planner ⟨.scanning patterns, state⟩) :
    Moment.LeadsTo planner ⟨.scanning patterns, state⟩ (.scanning [])
      ((strategy planner.problem).scanAll planner.problem.day.network patterns state) := by
  induction patterns generalizing state with
  | nil => exact .reached rfl .refl
  | cons pattern rest ih =>
      rw [Strategy.scanAll]
      cases hTable : planner.problem.day.network.tripTable pattern with
      | error fault => exact .givenUp .refl
      | ok table =>
          dsimp only
          split
          · exact .givenUp .refl
          · rename_i hStops
            have hScan : Steps planner ⟨.scanning (pattern :: rest), state⟩ _ :=
              .single (.scan hTable hStops)
            have hPass : Moment.LeadsTo planner _ (.scanning rest)
                ((strategy planner.problem).scan table state) := leadsTo_pass (safe.mono hScan)
            cases hAfter : (strategy planner.problem).scan table state with
            | error stopped =>
                rw [hAfter] at hPass
                cases hPass with
                | givenUp steps => exact .givenUp (hScan.trans steps)
            | ok after =>
                rw [hAfter] at hPass
                cases hPass with
                | reached hRound steps =>
                    have hOn := hScan.trans steps
                    exact (ih (safe.mono hOn)).prepend hRound hOn

/-- Once all patterns are scanned, the round goes on with walks and with ways to the destination. -/
theorem steps_finish (safe : Moment.Safe planner ⟨.scanning [], state⟩) :
    Steps planner ⟨.scanning [], state⟩ ⟨.ending [], (strategy planner.problem).finish
      ((strategy planner.problem).walk state)⟩ := by
  have hWalk : Steps planner ⟨.scanning [], state⟩ _ := .single .walk
  have hWalked := hWalk.trans (steps_foldl_add (safe.mono hWalk))
  rw [← State.walk_eq] at hWalked
  exact (hWalked.tail .finish).trans (steps_candidates _)

theorem State.round_finish (problem : Problem) (state : State) :
    (state.finish problem).round = state.round := by
  rw [finish]
  generalize state.candidates problem = candidates
  obtain ⟨accepted, hFinish⟩ := foldl_offerDestination problem candidates state
  rw [hFinish]

theorem round_finish_walk (problem : Problem) (state : State) :
    ((strategy problem).finish ((strategy problem).walk state)).round = state.round := by
  have hWalk : ((strategy problem).walk state).round = state.round := by
    change (state.walk problem (State.add problem)).round = state.round
    rw [State.walk_eq, State.round_foldl_add]
  exact (State.round_finish problem _).trans hWalk

/-- A round begins and scans its patterns. -/
theorem leadsTo_scanRound (safe : Moment.Safe planner ⟨.ending [], state⟩)
    (hLeft : state.round < planner.maxRounds)
    (hGoesOn : state.round = 0 ∨
      state.reachedCurrent.isEmpty = false ∧ state.isSettled planner.problem = false) :
    ∃ begun, begun.state.round = state.round + 1 ∧ Steps planner ⟨.ending [], state⟩ begun ∧
      begun.LeadsTo planner (.scanning [])
        ((strategy planner.problem).scanRound planner.problem.day (state.round + 1) state) := by
  have hTurn : Steps planner ⟨.ending [], state⟩ _ := .single (.turn hLeft hGoesOn)
  exact ⟨_, rfl, hTurn, leadsTo_scanAll (safe.mono hTurn)⟩

/-- Rounds are run one by one, until the search ends or is given up. -/
theorem endsIn_rounds {late : Nat → Bool} {left : Nat} {scanned : List Nat}
    (safe : Moment.Safe planner ⟨.ending [], state⟩) (hRound : state.round = scanned.length)
    (hLeft : scanned.length + left = planner.maxRounds)
    (hGoesOn : scanned.length = 0 ∨
      state.reachedCurrent.isEmpty = false ∧ state.isSettled planner.problem = false) :
    Moment.EndsIn planner ⟨.ending [], state⟩
      ((strategy planner.problem).rounds planner.problem.day late left scanned state) := by
  induction left generalizing scanned state with
  | zero => exact .completed .refl
  | succ left ih =>
      rw [Strategy.rounds]
      cases late scanned.length with
      | true => exact .completed .refl
      | false =>
          obtain ⟨begun, hNext, hBegun, hScan⟩ :=
            leadsTo_scanRound safe (by omega) (hRound ▸ hGoesOn)
          rw [hRound, Strategy.scanRound] at hScan
          rw [if_neg Bool.false_ne_true]
          dsimp only
          cases hAfter : (strategy planner.problem).scanAll planner.problem.day.network
              ((strategy planner.problem).patterns planner.problem.day
                ((strategy planner.problem).beginRound (scanned.length + 1) state))
              ((strategy planner.problem).beginRound (scanned.length + 1) state) with
          | error stopped =>
              rw [hAfter] at hScan
              cases hScan with
              | givenUp steps => exact .givenUp (hBegun.trans steps)
          | ok after =>
              rw [hAfter] at hScan
              cases hScan with
              | reached hSame steps =>
                  have hScanned := hBegun.trans steps
                  have hEnded := hScanned.trans (steps_finish (safe.mono hScanned))
                  have hTurned := (round_finish_walk planner.problem after).trans (hSame.trans hNext)
                  dsimp only
                  generalize (strategy planner.problem).finish
                    ((strategy planner.problem).walk after) = ended at hEnded hTurned ⊢
                  split
                  · exact .completed hEnded
                  · rename_i hProgress
                    split
                    · exact .completed hEnded
                    · rename_i hSettled
                      have hOn : ended.reachedCurrent.isEmpty = false ∧
                          ended.isSettled planner.problem = false :=
                        ⟨by simpa [strategy, strategyWith] using hProgress,
                          Bool.eq_false_iff.mpr hSettled⟩
                      refine (ih (safe.mono hEnded) ?_ ?_ (Or.inr hOn)).prepend hEnded
                      · rw [hTurned, hRound, List.length_append, List.length_singleton]
                      · rw [List.length_append, List.length_singleton]
                        omega

/-- A run is read from a moment: a completed one from its end, another one from where it is given
up. -/
inductive Moment.Concludes (moment : Moment) : Except BrokenRun Run → Prop where
  | completed {run : Run} (hOver : moment.doing = .ending [])
      (hFound : run.found = moment.state.found) : Concludes moment (.ok run)
  | givenUp {broken : BrokenRun} (hFound : broken.found = moment.state.found) :
      Concludes moment (.error broken)

/-- A run that meets no unknown stop is what the operations come to. -/
theorem exists_concludes {time : Int} (safe : (Moment.first planner time).Safe planner)
    (watch : Stopwatch) :
    ∃ moment, Steps planner (.first planner time) moment ∧
      moment.Concludes (planner.runWith (strategy planner.problem) time watch) := by
  have hStarted := (steps_foldl_add safe).tail .started
  have hRound : ((strategy planner.problem).start time).round = 0 := State.round_foldl_add ..
  have hEnds : Moment.EndsIn planner ⟨.ending [], (strategy planner.problem).start time⟩ _ :=
    @endsIn_rounds _ _ (watch.isPast planner.timeLimit) _ [] (safe.mono hStarted) hRound
      (Nat.zero_add _) (Or.inl rfl)
  have hEnds := hEnds.prepend hStarted
  rw [Planner.runWith]
  generalize (strategy planner.problem).rounds planner.problem.day
    (watch.isPast planner.timeLimit) planner.maxRounds []
      ((strategy planner.problem).start time) = result at hEnds ⊢
  cases hEnds with
  | completed steps => exact ⟨_, steps, .completed rfl rfl⟩
  | givenUp steps => exact ⟨_, steps, .givenUp rfl⟩

structure Moment.Charted (planner : Planner) (moment : Moment) : Prop where
  known : moment.Known planner
  table : ∀ table ∈ moment.doing.table?,
    ∃ pattern, planner.problem.day.network.tripTable pattern = .ok table

/-- No operation leaves the timetable. -/
theorem Step.charted (step : Step planner moment next) (charted : moment.Charted planner)
    (knows : planner.problem.day.KnowsStops) : next.Charted planner := by
  obtain ⟨hKnown, hTable⟩ := charted
  cases step with
  | @record new rest cause state hStop =>
      refine ⟨fun arrival hMem => hKnown arrival (List.mem_cons_of_mem _ hMem), ?_⟩
      cases cause <;> exact hTable
  | scan hScanned =>
      refine ⟨List.forall_mem_nil _, ?_⟩
      rintro _ ⟨⟩
      exact ⟨_, hScanned⟩
  | leave hStop hArrivals =>
      refine ⟨fun arrival hMem => ?_, hTable⟩
      obtain ⟨ride, -, left, -, rfl⟩ := (mem_of_alightings hArrivals).mp hMem
      obtain ⟨pattern, hPattern⟩ := hTable _ rfl
      exact knows.stop_lt hPattern hStop
  | walk =>
      refine ⟨fun arrival hMem => ?_, by rintro _ ⟨⟩⟩
      obtain ⟨source, -, hWalk⟩ := List.mem_flatMap.mp hMem
      obtain ⟨transfer, hTransfer, rfl⟩ := List.mem_map.mp hWalk
      exact knows.target_lt hTransfer
  | board | keepUp | goOn => exact ⟨List.forall_mem_nil _, hTable⟩
  | started | turn | arrive | finish | reach =>
      exact ⟨List.forall_mem_nil _, by rintro _ ⟨⟩⟩

/-- On a timetable that knows its stops no other is met. -/
theorem known_of_steps {time : Int} (knows : planner.problem.day.KnowsStops)
    (legs : planner.problem.KnownLegs) (steps : Steps planner (.first planner time) moment) :
    moment.Known planner := by
  have charted : moment.Charted planner := by
    induction steps with
    | refl =>
        refine ⟨fun arrival hMem => ?_, by rintro _ ⟨⟩⟩
        obtain ⟨leg, hLeg, rfl⟩ := List.mem_map.mp hMem
        exact (legs leg (Or.inl hLeg)).1
    | tail _ step ih => exact step.charted ih knows
  exact charted.known

end JourneyPlanner.Search.MultiCriteria
