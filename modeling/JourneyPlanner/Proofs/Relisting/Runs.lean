import JourneyPlanner.Proofs.Relisting.Rounds
import JourneyPlanner.Proofs.Search.Runs
import Mathlib.Data.List.Sort

/-! Runs on listings in different order. Main statement: a run finds ways to the destination at the
same times, in the same rounds and, if it looks for the best compromises, at the same costs,
whichever way the timetable and the request are listed. -/
namespace JourneyPlanner

namespace Search

namespace Strategy

variable {State : Type}

/-- Two searches of which every round of one goes alongside that of the other end after as many
rounds and for the same reason. -/
theorem rounds_alongside (strategy other : Strategy State) (day image : DayTimetable)
    (late : Nat → Bool) (left : Nat) (scanned places : List Nat)
    (hLength : places.length = scanned.length) (Holds : Nat → State → State → Prop)
    {state same : State}
    (hRound : ∀ count state same, count < scanned.length + left → Holds count state same →
      ∃ next sameNext, strategy.Round day (count + 1) state next ∧
        other.Round image (count + 1) same sameNext ∧ Holds (count + 1) next sameNext ∧
        strategy.hasProgressed next = other.hasProgressed sameNext ∧
        strategy.isSettled next = other.isSettled sameNext)
    (hState : Holds scanned.length state same) :
    ∃ completed ended, strategy.rounds day late left scanned state = .ok completed ∧
      other.rounds image late left places same = .ok ended ∧
      Holds completed.scanned.length completed.state ended.state ∧
      ended.scanned.length = completed.scanned.length ∧
      ended.termination = completed.termination := by
  induction left generalizing scanned places state same with
  | zero => exact ⟨_, _, rfl, rfl, hState, hLength, rfl⟩
  | succ left ih =>
      rw [rounds, rounds, hLength]
      cases late scanned.length with
      | true => exact ⟨_, _, rfl, rfl, hState, hLength, rfl⟩
      | false =>
          obtain ⟨_, _, ⟨after, hAfter, rfl⟩, ⟨sameAfter, hSameAfter, rfl⟩, hNext, hProgress,
            hSettled⟩ := hRound _ _ _ (by omega) hState
          simp only [Bool.false_eq_true, if_false, hAfter, hSameAfter, ← hProgress, ← hSettled]
          cases strategy.hasProgressed (strategy.finish (strategy.walk after)) with
          | false => exact ⟨_, _, rfl, rfl, by simpa using hNext, by simp [hLength], rfl⟩
          | true =>
              cases strategy.isSettled (strategy.finish (strategy.walk after)) with
              | true => exact ⟨_, _, rfl, rfl, by simpa using hNext, by simp [hLength], rfl⟩
              | false =>
                  refine ih _ _ (by simp [hLength]) (fun count state same hLt => ?_)
                    (by simpa using hNext)
                  refine hRound count state same ?_
                  simp only [List.length_append, List.length_singleton] at hLt
                  omega

end Strategy

namespace Found

def roundsAndTimes (found : Found) : List (Nat × Int) :=
  found.destinations.map fun destination => (destination.round, destination.time)

variable {found : Found} {query : Query} {time : Int} {rounds : Nat}

/-- If every way to the destination betters the one before, they are just those of so many rounds
that no journey of fewer rounds is as good. -/
theorem Exact.mem_roundsAndTimes_iff (exact : found.Exact query time rounds)
    (hImproving : found.destinations.Pairwise fun earlier later =>
      earlier.round < later.round ∧ query.direction.isBetter later.time earlier.time = true)
    {round : Nat} {finish : Int} :
    (round, finish) ∈ found.roundsAndTimes ↔ round ≤ rounds ∧ query.IsBest time round finish ∧
      ∀ fewer < round, ¬ query.IsBest time fewer finish := by
  -- of two ways the one of more rounds is the better one
  have hCompare : ∀ first ∈ found.destinations, ∀ second ∈ found.destinations,
      first.round ≤ second.round → first = second ∨ first.round < second.round ∧
        query.direction.isBetter second.time first.time = true := by
    refine List.Pairwise.forall_of_forall_of_flip (fun _ _ _ => Or.inl rfl)
      (hImproving.imp fun hOrder _ => Or.inr hOrder) (hImproving.imp fun hOrder hBack => ?_)
    omega
  simp only [Direction.isBetter_iff] at hCompare
  constructor
  · intro hFound
    obtain ⟨destination, hMem, hSame⟩ := List.mem_map.mp hFound
    cases hSame
    obtain ⟨-, hBound, -⟩ := exact.ends destination hMem
    refine ⟨hBound, (exact.isBest_iff hBound).mp ⟨⟨destination, hMem, Nat.le_refl _, rfl⟩,
      fun other hOther hRound => ?_⟩, fun fewer hFewer hBest => ?_⟩
    · rw [Direction.isBetter_eq_false_iff]
      rcases hCompare other hOther destination hMem hRound with rfl | ⟨-, hBetter⟩
      · exact Int.le_refl _
      · exact Int.le_of_lt hBetter
    · obtain ⟨⟨other, hOther, hRound, hTime⟩, -⟩ :=
        (exact.isBest_iff (Nat.le_trans (Nat.le_of_lt hFewer) hBound)).mpr hBest
      rcases hCompare other hOther destination hMem (by omega) with rfl | ⟨-, hBetter⟩
      · omega
      · rw [hTime] at hBetter
        exact absurd hBetter (Int.lt_irrefl _)
  · rintro ⟨hBound, hBest, hFewer⟩
    obtain ⟨⟨destination, hMem, hRound, rfl⟩, hNone⟩ := (exact.isBest_iff hBound).mpr hBest
    rcases Nat.lt_or_eq_of_le hRound with hLt | rfl
    · refine absurd ?_ (hFewer _ hLt)
      exact (exact.isBest_iff (Nat.le_trans hRound hBound)).mp
        ⟨⟨destination, hMem, Nat.le_refl _, rfl⟩, fun other hOther hLe =>
          hNone other hOther (Nat.le_trans hLe hRound)⟩
    · exact List.mem_map_of_mem hMem

/-- Searches that find what is best in so many rounds, for queries with the same journeys, find it
in the same order. -/
theorem Exact.roundsAndTimes_eq {other : Found} {image : Query}
    (exact : found.Exact query time rounds) (imageExact : other.Exact image time rounds)
    (hDirection : image.direction = query.direction)
    (hEnds : ∀ round finish, image.Ends time round finish ↔ query.Ends time round finish)
    (hImproving : found.destinations.Pairwise fun earlier later =>
      earlier.round < later.round ∧ query.direction.isBetter later.time earlier.time = true)
    (hOther : other.destinations.Pairwise fun earlier later =>
      earlier.round < later.round ∧ image.direction.isBetter later.time earlier.time = true) :
    other.roundsAndTimes = found.roundsAndTimes := by
  have hBest : ∀ round finish, image.IsBest time round finish ↔ query.IsBest time round finish := by
    intro round finish
    simp only [Query.IsBest, hEnds, hDirection]
  have hMem : ∀ entry, entry ∈ other.roundsAndTimes ↔ entry ∈ found.roundsAndTimes := by
    rintro ⟨round, finish⟩
    rw [imageExact.mem_roundsAndTimes_iff hOther, exact.mem_roundsAndTimes_iff hImproving]
    simp only [hBest]
  have hOrder : ∀ {found : Found} {direction : Direction},
      (found.destinations.Pairwise fun earlier later => earlier.round < later.round ∧
        direction.isBetter later.time earlier.time = true) →
      found.roundsAndTimes.Pairwise fun earlier later => earlier.1 < later.1 := by
    intro found direction h
    exact List.pairwise_map.mpr (h.imp fun hBoth => hBoth.1)
  have hNodup : ∀ {entries : List (Nat × Int)},
      (entries.Pairwise fun earlier later => earlier.1 < later.1) → entries.Nodup := by
    intro entries h
    refine h.imp fun hLt hSame => ?_
    rw [hSame] at hLt
    exact Nat.lt_irrefl _ hLt
  refine List.Perm.eq_of_pairwise (fun first second _ _ hLt hGt => ?_) (hOrder hOther)
    (hOrder hImproving) ((List.perm_ext_iff_of_nodup (hNodup (hOrder hOther))
      (hNodup (hOrder hImproving))).mpr hMem)
  exact absurd hGt (Nat.lt_asymm hLt)

def Reports (found : Found) (finish : Int) (round : Nat) (cost : Int) : Prop :=
  ∃ destination ∈ found.destinations, destination.time = finish ∧ destination.round = round ∧
    destination.cost = cost

end Found

/-- The ways to the destination are those whose values are in the front there. -/
theorem MultiCriteria.Books.reports_iff {problem : Problem} {time : Int} {state : State}
    (books : Books problem time state) {finish : Int} {round : Nat} {cost : Int} :
    state.found.Reports finish round cost ↔ ∃ held ∈ state.destinations.entries,
      held.criteria = travelCriteria problem.direction finish round cost := by
  have hValues : ∀ destination : DestinationArrival,
      (destinationEntry problem.direction destination).criteria =
          travelCriteria problem.direction finish round cost ↔
        destination.time = finish ∧ destination.round = round ∧ destination.cost = cost :=
    fun destination => @destinationEntry_eq_iff problem.direction destination
      { arrival := 0, egress := ⟨0, 0⟩, time := finish, round, cost }
  constructor
  · rintro ⟨destination, hMem, hSame⟩
    obtain ⟨held, hHeld, rfl⟩ := List.mem_map.mp hMem
    refine ⟨held, hHeld, ?_⟩
    rw [books.destinations_entry held hHeld]
    exact (hValues _).mpr hSame
  · rintro ⟨held, hHeld, hSame⟩
    rw [books.destinations_entry held hHeld] at hSame
    exact ⟨held.item, List.mem_map_of_mem hHeld, (hValues _).mp hSame⟩

/-- Searches for the best compromises on listings in different order end alike. -/
theorem MultiCriteria.exists_runs_alongside {planner other : Planner} {time : Int}
    {watch otherWatch : Stopwatch}
    (relists : planner.problem.Relists other.problem) (regular : planner.problem.Regular time)
    (imageSound : other.problem.day.network.Sound) (imageLegs : other.problem.KnownLegs)
    (hRates : planner.problem.cost.Modest) (hExact : planner.problem.costSlack = 0)
    (hMax : other.maxRounds = planner.maxRounds)
    (hLate : otherWatch.isPast other.timeLimit = watch.isPast planner.timeLimit)
    (hRounds : planner.maxRounds ≤ Request.maxSupportedTransfers + 1) :
    ∃ run same, planner.runWith (strategy planner.problem) time watch = .ok run ∧
      other.runWith (strategy other.problem) time otherWatch = .ok same ∧
      (∀ finish round cost,
        same.found.Reports finish round cost ↔ run.found.Reports finish round cost) ∧
      same.rounds = run.rounds ∧ same.termination = run.termination := by
  have hStart : ((strategy planner.problem).start time).round = 0 :=
    (Books.start_of_known time regular.sound.toLinked regular.legs).2.round
  obtain ⟨completed, ended, hCompleted, hEnded, ⟨twins, -⟩, hLength, hTermination⟩ :=
    (strategy planner.problem).rounds_alongside (strategy other.problem) planner.problem.day
      other.problem.day (watch.isPast planner.timeLimit) planner.maxRounds [] [] rfl
      (fun count state same =>
        Twins planner.problem other.problem time state same ∧ state.round = count)
      (by
        rintro _ state same hLt ⟨twins, rfl⟩
        rw [List.length_nil, Nat.zero_add] at hLt
        obtain ⟨rides, scanned, walked, course⟩ :=
          twins.books.exists_course regular.sound regular.legs
        obtain ⟨imageRides, imageScanned, imageWalked, imageCourse⟩ :=
          twins.imageBooks.exists_course imageSound imageLegs
        have next := twins.round relists regular.sound.toLinked imageSound.toLinked regular.modest
          regular.time hRates hExact (by omega) course imageCourse
        have hImageRound := imageCourse.round imageSound
        rw [twins.alike.round] at hImageRound
        exact ⟨_, _, course.round regular.sound, hImageRound,
          ⟨next, course.walk.ended.2.1.trans course.round_walked⟩, next.hasProgressed_eq relists,
          next.isSettled_eq relists⟩)
      ⟨.start relists regular.sound imageSound regular.legs imageLegs, hStart⟩
  have hRun : planner.runWith (strategy planner.problem) time watch = .ok
      { time, direction := planner.problem.direction
        found := (strategy planner.problem).found completed.state
        scanned := completed.scanned
        termination := completed.termination } := by
    rw [Planner.runWith, hCompleted]
  have hSame : other.runWith (strategy other.problem) time otherWatch = .ok
      { time, direction := other.problem.direction
        found := (strategy other.problem).found ended.state
        scanned := ended.scanned
        termination := ended.termination } := by
    rw [Planner.runWith, hMax, hLate, hEnded]
  refine ⟨_, _, hRun, hSame, fun finish round cost => ?_, hLength, hTermination⟩
  exact (twins.imageBooks.reports_iff.trans (relists.listed.direction ▸
    (twins.alike.destinations _).symm)).trans twins.books.reports_iff.symm

/-- Two searches set up for requests on listings in different order. -/
structure Planner.Relists (planner other : Planner) : Prop where
  problem : planner.problem.Relists other.problem
  profile : other.profile = planner.profile
  maxRounds : other.maxRounds = planner.maxRounds
  timeLimit : other.timeLimit = planner.timeLimit

/-- A request that is accepted is accepted in whatever order it is listed. -/
theorem Planner.exists_relisted {query asked : Query} {day image : DayTimetable}
    {config : SearchConfig} {planner : Planner} (listed : query.ListedIn asked)
    (back : asked.ListedIn query) (hListed : query.request.Relists asked.request)
    (hDay : query.network.onDate query.date query.modes = .ok day)
    (hImage : asked.network.onDate asked.date asked.modes = .ok image)
    (hPlanner : Planner.ofRequest day query.request config = .ok planner) :
    ∃ other, Planner.ofRequest image asked.request config = .ok other ∧ planner.Relists other := by
  obtain ⟨valid, rfl⟩ := Planner.ofRequest_eq_ok_iff.mp hPlanner
  have hStops : image.numStops = day.numStops := by
    rw [DayTimetable.numStops, DayTimetable.numStops, DayTimetable.network_onDate hDay,
      DayTimetable.network_onDate hImage, listed.network.numStops]
  refine ⟨_, Planner.ofRequest_eq_ok_iff.mpr ⟨hStops ▸ hListed.valid valid, rfl⟩,
    ⟨listed.problem hDay hImage config, back.problem hImage hDay config⟩, hListed.profile, ?_,
    hListed.timeLimit⟩
  rw [Request.maxRounds, hListed.maxTransfers]
  rfl

end Search

variable {draft listing : Draft} {query : Query} {day : DayTimetable} {config : SearchConfig}
  {planner : Search.Planner} {request : Request} {time : Int}

/-- The order in which a timetable and a request are listed makes no difference: the other listing
can be built and asked as well, a search for the best time finds the same times in the same rounds,
and one for the best compromises the same times, rounds and costs, in as many rounds and with the
same end. -/
theorem Search.Planner.run_relisted (hBuild : draft.build = .ok query.network)
    (hDay : query.network.onDate query.date query.modes = .ok day)
    (hPlanner : Planner.ofRequest day query.request config = .ok planner)
    (hDraft : draft.Relists listing) (hListed : query.request.Relists request)
    (hSlack : 0 ≤ query.request.boardSlack) (hLimit : query.request.timeLimit = none)
    (hNetwork : query.network.Modest) (hRequest : query.request.Modest)
    (hTime : Clock.Within Clock.modest time) (watch otherWatch : Stopwatch) :
    ∃ network image other run same, listing.build = .ok network ∧
      network.onDate query.date query.modes = .ok image ∧
      Planner.ofRequest image request config = .ok other ∧
      planner.run time watch = .ok run ∧ other.run time otherWatch = .ok same ∧
      (query.request.profile ≠ .multiCriteria →
        same.found.roundsAndTimes = run.found.roundsAndTimes) ∧
      (query.request.profile = .multiCriteria → config.costSlack = 0 → config.cost.Modest →
        (∀ finish round cost,
          same.found.Reports finish round cost ↔ run.found.Reports finish round cost) ∧
        same.rounds = run.rounds ∧ same.termination = run.termination) := by
  obtain ⟨sound, hPacked⟩ := Draft.build_eq_ok_iff.mp hBuild
  have hSound := Network.Sound.of_build hBuild
  have hListing := hDraft.sound sound
  have hDouble := Clock.Within.double hTime
  let asked : Query := ⟨listing.pack listing.arranged, query.date, query.modes, request⟩
  have listed : query.ListedIn asked := .of_relists (hPacked ▸ hDraft.listedIn sound) hListed
  have back : asked.ListedIn query :=
    .of_relists (hPacked ▸ hDraft.symm.listedIn hListing) hListed.symm
  have hImageSound : asked.network.Sound := hListing.sound_pack
  have hImageNetwork : asked.network.Modest := hDraft.modest sound (hPacked ▸ hNetwork)
  obtain ⟨image, hImage⟩ := listed.network.exists_onDate hDay
  have hImage : asked.network.onDate asked.date asked.modes = .ok image := hImage
  obtain ⟨other, hOther, planners⟩ :=
    Planner.exists_relisted listed back hListed hDay hImage hPlanner
  obtain ⟨run, hRun, -, hExact, hImproving⟩ :=
    Planner.exists_answer hSound hDay hPlanner hNetwork hRequest hDouble watch
  obtain ⟨same, hSame, -, hImageExact, hImageImproving⟩ :=
    Planner.exists_answer hImageSound hImage hOther hImageNetwork (hListed.modest hRequest) hDouble
      otherWatch
  refine ⟨_, image, other, run, same, Draft.build_eq_ok_iff.mpr ⟨hListing, rfl⟩, hImage, hOther,
    hRun, hSame, fun hBest => ?_, fun hMany hFree hRates => ?_⟩
  · have imageExact := hImageExact (hListed.timeLimit.trans hLimit)
      (listed.boardSlack.symm ▸ hSlack)
    rw [hListed.maxTransfers] at imageExact
    exact (hExact hLimit hSlack).roundsAndTimes_eq imageExact listed.direction
      (fun round finish => ⟨back.ends, listed.ends⟩) (hImproving hBest)
      (hImageImproving (hListed.profile.symm ▸ hBest))
  · obtain ⟨regular, -, hRounds⟩ :=
      Planner.regular_ofRequest hSound hDay hPlanner hNetwork hRequest hDouble
    obtain ⟨imageRegular, -, -⟩ := Planner.regular_ofRequest hImageSound hImage hOther hImageNetwork
      (hListed.modest hRequest) hDouble
    obtain ⟨-, hFields⟩ := Planner.ofRequest_eq_ok_iff.mp hPlanner
    have hProfile : planner.profile = .multiCriteria := by rw [hFields, hMany]
    have hCosts : planner.problem.cost.Modest ∧ planner.problem.costSlack = 0 := by
      rw [hFields]
      exact ⟨hRates, hFree⟩
    have hUnlimited : planner.timeLimit = none := by rw [hFields, hLimit]
    have hLate : otherWatch.isPast other.timeLimit = watch.isPast planner.timeLimit := by
      rw [planners.timeLimit, hUnlimited, Stopwatch.isPast_none, Stopwatch.isPast_none]
    obtain ⟨found, imageFound, hFound, hImageFound, hAlong⟩ :=
      MultiCriteria.exists_runs_alongside planners.problem regular imageRegular.sound
        imageRegular.legs hCosts.1 hCosts.2 planners.maxRounds hLate hRounds
    rw [Planner.run, hProfile] at hRun
    rw [Planner.run, planners.profile, hProfile] at hSame
    simp only [hFound, Except.ok.injEq] at hRun
    simp only [hImageFound, Except.ok.injEq] at hSame
    exact hRun ▸ hSame ▸ hAlong

/-- The bus, and a tram that takes the same way and overtakes it. -/
def Draft.parallel : Draft :=
  { Draft.shuttle with
    patterns := Draft.shuttle.patterns ++
      [{ name := "2", mode := .tram, stops := [0, 1]
         trips := [{ service := 0, times := [⟨60, 60⟩, ⟨500, 500⟩] }] }] }

def Draft.parallelRelisted : Draft :=
  { Draft.parallel with patterns := Draft.parallel.patterns.reverse }

/-- The best compromises between bus and tram, from either of two entrances of the stop. -/
def Query.parallel : Query :=
  { Query.shuttle with
    network := Draft.parallel.pack Draft.parallel.arranged
    request := { Query.shuttle.request with
      profile := .multiCriteria, access := [⟨0, 60⟩, ⟨0, 90⟩] } }

/-- The same request with the entrances listed the other way round. -/
def Request.parallelRelisted : Request :=
  { Query.parallel.request with access := Query.parallel.request.access.reverse }

theorem Search.Planner.run_relisted_parallel :
    ∃ day planner network image other run same,
      Query.parallel.network.onDate Query.parallel.date Query.parallel.modes = .ok day ∧
      Planner.ofRequest day Query.parallel.request SearchConfig.shuttle = .ok planner ∧
      Draft.parallelRelisted.build = .ok network ∧
      network.onDate Query.parallel.date Query.parallel.modes = .ok image ∧
      Planner.ofRequest image Request.parallelRelisted SearchConfig.shuttle = .ok other ∧
      planner.run (-60) = .ok run ∧ other.run (-60) = .ok same ∧
      (∀ finish round cost,
        same.found.Reports finish round cost ↔ run.found.Reports finish round cost) ∧
      same.rounds = run.rounds ∧ same.termination = run.termination := by
  have valid : Query.parallel.request.Valid 2 SearchConfig.shuttle := by
    constructor <;>
      simp [Query.parallel, Query.shuttle, SearchConfig.shuttle, Request.maxSupportedTransfers]
  have modest : Query.parallel.request.Modest := by
    constructor <;> simp [Query.parallel, Query.shuttle, Clock.Within, Clock.modest]
  have modestDraft : Draft.parallel.Modest := by
    constructor <;> simp [Draft.parallel, Draft.shuttle, Clock.Within, Clock.modest]
  obtain ⟨network, image, other, run, same, hBuild, hImage, hOther, hRun, hSame, -, hMany⟩ :=
    @Search.Planner.run_relisted Draft.parallel Draft.parallelRelisted Query.parallel _
      SearchConfig.shuttle _ Request.parallelRelisted (-60)
      (Draft.build_of_isOk (by decide +kernel)) rfl (Planner.ofRequest_eq_ok_iff.mpr ⟨valid, rfl⟩)
      ⟨rfl, rfl, List.reverse_perm _, .refl _⟩ ⟨rfl, List.reverse_perm _, .refl _⟩ (by decide) rfl
      modestDraft.pack modest ⟨by decide, by decide⟩ .stopped .stopped
  exact ⟨_, _, network, image, other, run, same, rfl,
    Planner.ofRequest_eq_ok_iff.mpr ⟨valid, rfl⟩, hBuild, hImage, hOther, hRun, hSame,
    hMany rfl rfl CostRates.modest_standard⟩

end JourneyPlanner
