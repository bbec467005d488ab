import JourneyPlanner.Proofs.Mirror.Journeys
import JourneyPlanner.Proofs.Mirror.MultiCriteria
import JourneyPlanner.Proofs.Mirror.Standard
import JourneyPlanner.Proofs.Search.Answer

/-! Whole runs and their mirror images. Main statement: to search for the last journeys that arrive
by some time is to search the mirror image of the timetable for the first ones that depart
after it; the two runs record the same, one in the image of the other. -/
namespace JourneyPlanner

namespace Request

def mirror (request : Request) : Request :=
  { request with
    time := -request.time
    arriveBy := !request.arriveBy
    access := request.egress
    egress := request.access }

variable {request : Request}

theorem startLegs_mirror : request.mirror.startLegs = request.startLegs := by
  cases h : request.arriveBy <;> simp [startLegs, mirror, h]

theorem endLegs_mirror : request.mirror.endLegs = request.endLegs := by
  cases h : request.arriveBy <;> simp [endLegs, mirror, h]

/-- The mirrored request passes the same checks. -/
theorem Valid.mirror {numStops : Nat} {config : SearchConfig}
    (valid : request.Valid numStops config) : request.mirror.Valid numStops config := by
  refine ⟨valid.searchWindow_nonneg, valid.iterationStep_pos, valid.maxTransfers_le,
    valid.egress_ne_nil, valid.access_ne_nil, fun leg hLeg => valid.legs leg ?_⟩
  exact List.mem_append.mpr (List.mem_append.mp hLeg).symm

end Request

namespace Search

variable {problem image : Problem} {time : Int}

/-- Mirrored requests on mirrored days pose mirrored problems. -/
theorem Problem.mirrors_ofRequest {day other : DayTimetable} (mirrors : day.Mirrors other)
    {request : Request} (hArriveBy : request.arriveBy = true) (config : SearchConfig) :
    (ofRequest day request config).Mirrors (ofRequest other request.mirror config) where
  day := mirrors
  direction := by simp [ofRequest, Request.direction, hArriveBy]
  imageDirection := by simp [ofRequest, Request.direction, Request.mirror, hArriveBy]
  boardSlack := rfl
  cost := rfl
  costSlack := rfl
  startLegs := Request.startLegs_mirror
  endLegs := by rw [ofRequest, ofRequest, Request.endLegs_mirror]

namespace Planner

variable {planner other : Planner} {watch : Stopwatch}

/-- Searches set up alike but for the problem, which is the image of the other one. -/
structure Mirrors (planner other : Planner) : Prop where
  problem : planner.problem.Mirrors other.problem
  profile : other.profile = planner.profile
  maxRounds : other.maxRounds = planner.maxRounds
  timeLimit : other.timeLimit = planner.timeLimit

/-- A search for a request has an image: the search for the image of the request. -/
theorem exists_ofRequest_mirror {day image : DayTimetable} (mirrors : day.Mirrors image)
    {request : Request} {config : SearchConfig} (hArriveBy : request.arriveBy = true)
    (hPlanner : Planner.ofRequest day request config = .ok planner) :
    ∃ other, Planner.ofRequest image request.mirror config = .ok other ∧
      planner.Mirrors other := by
  obtain ⟨valid, rfl⟩ := ofRequest_eq_ok_iff.mp hPlanner
  exact ⟨_, ofRequest_eq_ok_iff.mpr ⟨mirrors.numStops ▸ valid.mirror, rfl⟩,
    Problem.mirrors_ofRequest mirrors hArriveBy config, rfl, rfl, rfl⟩

/-- Runs whose rounds go through the images of the same states find images of the same. -/
theorem Mirrors.runWith {State : Type} (mirrors : planner.Mirrors other)
    {strategy image : Strategy State} (turn : State → State) (Holds : Nat → State → Prop)
    (hStart : Holds 0 (strategy.start time))
    (hImageStart : image.start (-time) = turn (strategy.start time))
    (hRound : ∀ count state, count < planner.maxRounds → Holds count state →
      ∃ next, strategy.RoundsAlike image planner.problem.day other.problem.day turn (count + 1)
        state next ∧ Holds (count + 1) next)
    (hProgress : ∀ state, image.hasProgressed (turn state) = strategy.hasProgressed state)
    (hSettled : ∀ state, image.isSettled (turn state) = strategy.isSettled state)
    (hFound : ∀ state, image.found (turn state) =
      (strategy.found state).mirror planner.problem.day.network) :
    ∃ run, planner.runWith strategy time watch = .ok run ∧
      other.runWith image (-time) watch = .ok (run.mirror planner.problem.day.network) := by
  obtain ⟨run, state, hRun, hTime, hState, hImage⟩ := Planner.runWith_image mirrors.maxRounds
    mirrors.timeLimit hStart hImageStart hRound hProgress hSettled
  refine ⟨run, hRun, hImage.trans ?_⟩
  rw [Run.mirror, hTime, hState, ← hFound, mirrors.problem.imageDirection]

/-- A reverse run is never given up, and the forward one on the image finds its image. -/
theorem Mirrors.exists_run (mirrors : planner.Mirrors other)
    (regular : planner.problem.Regular time)
    (hRounds : planner.maxRounds ≤ Request.maxSupportedTransfers + 1) (watch : Stopwatch) :
    ∃ run, planner.run time watch = .ok run ∧
      other.run (-time) watch = .ok (run.mirror planner.problem.day.network) := by
  have hStandard : ∃ run,
      planner.runWith (Standard.strategy planner.problem) time watch = .ok run ∧
      other.runWith (Standard.strategy other.problem) (-time) watch =
        .ok (run.mirror planner.problem.day.network) := by
    refine mirrors.runWith (Standard.State.mirror planner.problem.day.network)
      (fun count state =>
        Standard.Books planner.problem time state ∧ state.round = count) ?_
      (Standard.Books.start_mirror regular mirrors.problem) ?_ (fun _ => rfl) (fun _ => rfl)
      fun _ => rfl
    · obtain ⟨books, hRound, -⟩ := Standard.Books.start regular
      exact ⟨books, hRound⟩
    · rintro _ state hLt ⟨books, rfl⟩
      exact books.roundsAlike regular (by omega) mirrors.problem
  cases hProfile : planner.profile with
  | standard =>
      simpa only [Planner.run, mirrors.profile, hProfile] using hStandard
  | bestTime =>
      simpa only [Planner.run, mirrors.profile, hProfile] using hStandard
  | multiCriteria =>
      simp only [Planner.run, mirrors.profile, hProfile]
      refine mirrors.runWith (MultiCriteria.State.mirror planner.problem.day.network)
        (fun count state =>
          MultiCriteria.Books planner.problem time state ∧ state.round = count) ?_
        (MultiCriteria.Books.start_mirror regular mirrors.problem) ?_ (fun _ => rfl)
        (fun _ => MultiCriteria.State.isSettled_mirror mirrors.problem) fun state => ?_
      · obtain ⟨books, hRound, -⟩ := MultiCriteria.Books.start regular
        exact ⟨books, hRound⟩
      · rintro _ state hLt ⟨books, rfl⟩
        exact books.roundsAlike regular mirrors.problem (by omega)
      · have hItems : (state.destinations.map MultiCriteria.destinationImage).items =
            state.destinations.items.map DestinationArrival.mirror := by
          simp only [Front.items, Front.map, List.map_map]
          rfl
        simp only [MultiCriteria.strategy, MultiCriteria.strategyWith, MultiCriteria.State.mirror,
          Found.mirror, hItems]

end Planner

end Search

variable {draft : Draft} {query : Query} {day : DayTimetable} {config : SearchConfig}
  {planner : Search.Planner} {time : Int}

/-- The search for journeys that arrive by some time is the forward search on the mirror image of
the timetable: the image can be built and asked, its run records the image of every record, and
the journeys read off them are the images of the journeys. -/
theorem Search.Planner.run_mirror (hBuild : draft.build = .ok query.network)
    (hDay : query.network.onDate query.date query.modes = .ok day)
    (hPlanner : Planner.ofRequest day query.request config = .ok planner)
    (hArriveBy : query.request.arriveBy = true) (hNetwork : query.network.Modest)
    (hRequest : query.request.Modest) (hTime : Clock.Within Clock.modest time)
    (watch : Stopwatch) :
    ∃ network image other run journeys, draft.mirror.build = .ok network ∧
      network.onDate query.date query.modes = .ok image ∧
      Planner.ofRequest image query.request.mirror config = .ok other ∧
      planner.run time watch = .ok run ∧
      other.run (-time) watch = .ok (run.mirror query.network) ∧
      run.journeys = .ok journeys ∧
      (run.mirror query.network).journeys =
        .ok (journeys.map (Journey.mirror query.network)) := by
  obtain ⟨sound, hNetworkEq⟩ := Draft.build_eq_ok_iff.mp hBuild
  have hSound := Network.Sound.of_build hBuild
  have hDouble := Clock.Within.double hTime
  obtain ⟨run, hRun, answers, -⟩ :=
    Planner.exists_answer hSound hDay hPlanner hNetwork hRequest hDouble watch
  obtain ⟨journeys, hJourneys, -⟩ := answers.exists_journeys
  obtain ⟨image, hImage, days⟩ := sound.exists_onDate_mirror (hNetworkEq ▸ hDay)
  obtain ⟨other, hOther, mirrors⟩ := Planner.exists_ofRequest_mirror days hArriveBy hPlanner
  obtain ⟨regular, -, hTransfers⟩ :=
    Planner.regular_ofRequest hSound hDay hPlanner hNetwork hRequest hDouble
  obtain ⟨same, hSame, hMirror⟩ := mirrors.exists_run regular hTransfers watch
  rw [hRun, Except.ok.injEq] at hSame
  subst hSame
  have hImageOf : planner.problem.day.network = query.network := by
    obtain ⟨-, rfl⟩ := Planner.ofRequest_eq_ok_iff.mp hPlanner
    exact DayTimetable.network_onDate hDay
  rw [hImageOf] at hMirror
  have hDirection : run.direction = .reverse := by
    rw [answers.direction, Query.direction, Request.direction, if_pos hArriveBy]
  refine ⟨_, image, other, run, journeys, Draft.build_eq_ok_iff.mpr ⟨sound.mirror, rfl⟩, hImage,
    hOther, hRun, hMirror, hJourneys, ?_⟩
  rw [Run.journeys_mirror hDirection, hJourneys]
  rfl

/-- The ride on the bus, to arrive a little after it does. -/
def Query.shuttleArriveBy : Query :=
  { Query.shuttle with request := { Query.shuttle.request with time := 700, arriveBy := true } }

theorem Search.Planner.run_mirror_shuttle :
    ∃ day planner network image other run,
      Query.shuttleArriveBy.network.onDate Query.shuttle.date Query.shuttle.modes = .ok day ∧
      Planner.ofRequest day Query.shuttleArriveBy.request SearchConfig.shuttle = .ok planner ∧
      Draft.shuttle.mirror.build = .ok network ∧
      network.onDate Query.shuttle.date Query.shuttle.modes = .ok image ∧
      Planner.ofRequest image Query.shuttleArriveBy.request.mirror SearchConfig.shuttle = .ok other ∧
      planner.run 700 = .ok run ∧
      other.run (-700) = .ok (run.mirror Query.shuttleArriveBy.network) := by
  have valid : Query.shuttleArriveBy.request.Valid 2 SearchConfig.shuttle :=
    { Query.valid_shuttle with }
  have modest : Query.shuttleArriveBy.request.Modest :=
    { Query.modest_shuttle with time := ⟨by decide, by decide⟩ }
  obtain ⟨network, image, other, run, -, hBuild, hImage, hOther, hRun, hMirror, -⟩ :=
    @Search.Planner.run_mirror Draft.shuttle Query.shuttleArriveBy _ SearchConfig.shuttle _ 700
      (Draft.build_eq_ok_iff.mpr ⟨Draft.sound_shuttle, rfl⟩) rfl
      (Planner.ofRequest_eq_ok_iff.mpr ⟨valid, rfl⟩) rfl Draft.modest_shuttle.pack modest
      ⟨by decide, by decide⟩ .stopped
  exact ⟨_, _, network, image, other, run, rfl, Planner.ofRequest_eq_ok_iff.mpr ⟨valid, rfl⟩,
    hBuild, hImage, hOther, hRun, hMirror⟩

end JourneyPlanner
