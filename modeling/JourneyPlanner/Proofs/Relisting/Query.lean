import JourneyPlanner.Proofs.Search.Problem
import JourneyPlanner.Proofs.Search.Riding

/-! The same timetable and request, listed in another order. Patterns then have other numbers, but
their tables are the same, and so are the walks and legs from each stop. Main statements: a draft
that is listed anew can be built as before, and journeys do not depend on the order. -/
namespace JourneyPlanner

def TripTable.renumbered (table : TripTable) (place : Nat) : TripTable :=
  { table with pattern := place }

structure Draft.Relists (draft other : Draft) : Prop where
  calendar : other.calendar = draft.calendar
  stops : other.stops = draft.stops
  patterns : other.patterns.Perm draft.patterns
  transfers : other.transfers.Perm draft.transfers

structure Request.Relists (request other : Request) : Prop where
  same : other = { request with access := other.access, egress := other.egress }
  access : other.access.Perm request.access
  egress : other.egress.Perm request.egress

/-- All that a network lists is listed in another one. -/
structure Network.ListedIn (network other : Network) : Prop where
  calendar : other.calendar = network.calendar
  numStops : other.numStops = network.numStops
  table : ∀ {index table}, network.tripTable index = .ok table →
    ∃ place, other.tripTable place = .ok (table.renumbered place)
  transfersFrom : ∀ {stop transfer}, transfer ∈ network.transfersFrom stop →
    transfer ∈ other.transfersFrom stop
  transfersTo : ∀ {stop transfer}, transfer ∈ network.transfersTo stop →
    transfer ∈ other.transfersTo stop

namespace Draft

variable {draft other : Draft}

theorem Relists.symm (relists : draft.Relists other) : other.Relists draft :=
  ⟨relists.calendar.symm, relists.stops.symm, relists.patterns.symm, relists.transfers.symm⟩

/-- A draft stays sound in whatever order it is listed. -/
theorem Relists.sound (relists : draft.Relists other) (sound : draft.Sound) : other.Sound := by
  refine ⟨fun pattern hPattern => ?_, fun transfer hTransfer => ?_⟩
  · rw [relists.stops, relists.calendar]
    exact sound.patterns pattern (relists.patterns.mem_iff.mp hPattern)
  · rw [relists.stops]
    exact sound.transfers transfer (relists.transfers.mem_iff.mp hTransfer)

/-- Networks packed from two listings of a draft list the same. -/
theorem Relists.listedIn (relists : draft.Relists other) (sound : draft.Sound) :
    (draft.pack draft.arranged).ListedIn (other.pack other.arranged) := by
  refine ⟨relists.calendar, ?_, ?_, ?_, ?_⟩
  · rw [numStops_pack, numStops_pack, relists.stops]
  · intro index table hTable
    obtain ⟨pattern, hPattern, rfl⟩ := sound.tripTable_eq_ok_iff.mp hTable
    have hMem : pattern ∈ other.arranged :=
      (relists.patterns.map PatternDraft.sorted).mem_iff.mpr (List.mem_of_getElem? hPattern)
    obtain ⟨place, hPlace⟩ := List.mem_iff_getElem?.mp hMem
    exact ⟨place, (relists.sound sound).tripTable_eq_ok_iff.mpr ⟨pattern, hPlace, rfl⟩⟩
  · intro stop transfer hTransfer
    rw [transfersFrom_pack] at hTransfer ⊢
    rw [relists.stops]
    split at hTransfer
    · obtain ⟨hMem, hOrigin⟩ := mem_transfersFrom.mp hTransfer
      rw [if_pos ‹_›]
      exact mem_transfersFrom.mpr ⟨relists.transfers.mem_iff.mpr hMem, hOrigin⟩
    · cases hTransfer
  · intro stop transfer hTransfer
    rw [transfersTo_pack] at hTransfer ⊢
    rw [relists.stops]
    split at hTransfer
    · obtain ⟨hMem, hTarget⟩ := mem_transfersTo.mp hTransfer
      rw [if_pos ‹_›]
      exact mem_transfersTo.mpr ⟨relists.transfers.mem_iff.mpr hMem, hTarget⟩
    · cases hTransfer

/-- The times of a network are those of its trips. -/
theorem mem_stopTimes_pack {draft : Draft} {patterns : List PatternDraft} {time : StopTime} :
    time ∈ (draft.pack patterns).stopTimes ↔
      ∃ pattern ∈ patterns, ∃ trip ∈ pattern.trips, time ∈ trip.times := by
  simp [pack]

theorem Relists.modest (relists : draft.Relists other) (sound : draft.Sound)
    (modest : (draft.pack draft.arranged).Modest) : (other.pack other.arranged).Modest := by
  have back := relists.symm.listedIn (relists.sound sound)
  refine ⟨fun time hTime => ?_, fun stop transfer hTransfer => ?_⟩
  · obtain ⟨pattern, hPattern, hTrip⟩ := mem_stopTimes_pack.mp hTime
    exact modest.times time (mem_stopTimes_pack.mpr
      ⟨pattern, (relists.patterns.map PatternDraft.sorted).mem_iff.mp hPattern, hTrip⟩)
  · refine modest.walks stop transfer (List.mem_append.mpr ?_)
    exact (List.mem_append.mp hTransfer).imp back.transfersFrom back.transfersTo

end Draft

namespace Network.ListedIn

variable {network other : Network}

theorem transfers (listed : network.ListedIn other) (direction : Direction) {stop : Nat}
    {transfer : Transfer} (h : transfer ∈ direction.transfers network stop) :
    transfer ∈ direction.transfers other stop := by
  cases direction with
  | forward => exact listed.transfersFrom h
  | reverse => exact listed.transfersTo h

/-- A ride has another number at most. -/
theorem carries (listed : network.ListedIn other) {date : Date} {modes : ModeSet}
    {direction : Direction} {pattern trip origin target : Nat} {boarded left : Int}
    (h : network.Carries date modes direction pattern trip origin target boarded left) :
    ∃ place, other.Carries date modes direction place trip origin target boarded left := by
  cases h with
  | ride hTable hMode hService hRuns hOrder hOrigin hTarget hTime hLater =>
      obtain ⟨place, hPlace⟩ := listed.table hTable
      exact ⟨place, .ride hPlace hMode hService (listed.calendar ▸ hRuns) hOrder hOrigin hTarget
        hTime hLater⟩

/-- A date known to one listing is known to the other. -/
theorem exists_onDate (listed : network.ListedIn other) {date : Date} {modes : ModeSet}
    {day : DayTimetable} (hDay : network.onDate date modes = .ok day) :
    ∃ image, other.onDate date modes = .ok image := by
  obtain ⟨services, hServices, -⟩ := DayTimetable.onDate_eq_ok_iff.mp hDay
  exact ⟨_, DayTimetable.onDate_eq_ok_iff.mpr ⟨services, listed.calendar ▸ hServices, rfl⟩⟩

end Network.ListedIn

namespace Request.Relists

variable {request other : Request}

theorem symm (relists : request.Relists other) : other.Relists request := by
  refine ⟨?_, relists.access.symm, relists.egress.symm⟩
  rw [relists.same]

theorem mem_legs_iff (relists : request.Relists other) {leg : WalkLeg} :
    leg ∈ other.access ++ other.egress ↔ leg ∈ request.access ++ request.egress :=
  (relists.access.append relists.egress).mem_iff

/-- A request stays valid in whatever order its legs are listed. -/
theorem valid (relists : request.Relists other) {numStops : Nat} {config : SearchConfig}
    (valid : request.Valid numStops config) : other.Valid numStops config := by
  have hLegs := fun leg (hLeg : leg ∈ other.access ++ other.egress) =>
    valid.legs leg (relists.mem_legs_iff.mp hLeg)
  have hAccess : other.access ≠ [] := fun hNone =>
    valid.access_ne_nil (hNone ▸ relists.access.symm).eq_nil
  have hEgress : other.egress ≠ [] := fun hNone =>
    valid.egress_ne_nil (hNone ▸ relists.egress.symm).eq_nil
  rw [relists.same]
  exact ⟨valid.searchWindow_nonneg, valid.iterationStep_pos, valid.maxTransfers_le, hAccess,
    hEgress, hLegs⟩

theorem modest (relists : request.Relists other) (modest : request.Modest) : other.Modest := by
  have hLegs := fun leg (hLeg : leg ∈ other.access ++ other.egress) =>
    modest.legs leg (relists.mem_legs_iff.mp hLeg)
  rw [relists.same]
  exact ⟨modest.time, modest.searchWindow, modest.boardSlack, hLegs⟩

theorem direction (relists : request.Relists other) : other.direction = request.direction := by
  rw [relists.same]
  rfl

theorem boardSlack (relists : request.Relists other) : other.boardSlack = request.boardSlack := by
  rw [relists.same]

theorem profile (relists : request.Relists other) : other.profile = request.profile := by
  rw [relists.same]

theorem maxTransfers (relists : request.Relists other) :
    other.maxTransfers = request.maxTransfers := by
  rw [relists.same]

theorem timeLimit (relists : request.Relists other) : other.timeLimit = request.timeLimit := by
  rw [relists.same]

/-- Both listings start on the same legs. -/
theorem mem_startLegs_iff (relists : request.Relists other) {leg : WalkLeg} :
    leg ∈ other.startLegs ↔ leg ∈ request.startLegs := by
  have hArriveBy : other.arriveBy = request.arriveBy := by rw [relists.same]
  unfold startLegs
  rw [hArriveBy]
  split
  · exact relists.egress.mem_iff
  · exact relists.access.mem_iff

theorem mem_endLegs_iff (relists : request.Relists other) {leg : WalkLeg} :
    leg ∈ other.endLegs ↔ leg ∈ request.endLegs := by
  have hArriveBy : other.arriveBy = request.arriveBy := by rw [relists.same]
  unfold endLegs
  rw [hArriveBy]
  split
  · exact relists.access.mem_iff
  · exact relists.egress.mem_iff

end Request.Relists

structure Query.ListedIn (query other : Query) : Prop where
  network : query.network.ListedIn other.network
  date : other.date = query.date
  modes : other.modes = query.modes
  direction : other.direction = query.direction
  boardSlack : other.request.boardSlack = query.request.boardSlack
  startLegs : ∀ leg ∈ query.request.startLegs, leg ∈ other.request.startLegs
  endLegs : ∀ leg ∈ query.request.endLegs, leg ∈ other.request.endLegs

namespace Query.ListedIn

variable {query other : Query} {time : Int}

theorem of_relists {network : Network} {date : Date} {modes : ModeSet} {request image : Request}
    {listing : Network} (hNetwork : network.ListedIn listing) (relists : request.Relists image) :
    (Query.mk network date modes request).ListedIn ⟨listing, date, modes, image⟩ :=
  ⟨hNetwork, rfl, rfl, relists.direction, relists.boardSlack,
    fun _ => relists.mem_startLegs_iff.mpr, fun _ => relists.mem_endLegs_iff.mpr⟩

theorem slackAfter (listed : query.ListedIn other) (round : Nat) :
    other.slackAfter round = query.slackAfter round := by
  simp only [Query.slackAfter, listed.boardSlack]

/-- Where a journey can be does not depend on the order of the listing. -/
theorem reaches (listed : query.ListedIn other) {manner : Manner} {round stop : Nat} {reached : Int}
    (h : query.Reaches time manner round stop reached) :
    other.Reaches time manner round stop reached := by
  induction h with
  | access hLeg => exact listed.direction ▸ .access (listed.startLegs _ hLeg)
  | ride before hRide hReady ih =>
      obtain ⟨place, hPlace⟩ := listed.network.carries hRide
      rw [← listed.date, ← listed.modes, ← listed.direction] at hPlace
      rw [← listed.slackAfter, ← listed.direction] at hReady
      exact .ride ih hPlace hReady
  | walk before hWalk ih =>
      have hOther := listed.network.transfers query.direction hWalk
      exact listed.direction ▸ .walk ih (listed.direction.symm ▸ hOther)

/-- Nor do the times at which journeys end. -/
theorem ends (listed : query.ListedIn other) {round : Nat} {finish : Int}
    (h : query.Ends time round finish) : other.Ends time round finish := by
  cases h with
  | egress last hLeg =>
      exact listed.direction ▸ .egress (listed.reaches last) (listed.endLegs _ hLeg)

end Query.ListedIn

namespace Search

structure Problem.ListedIn (problem other : Problem) : Prop where
  direction : other.direction = problem.direction
  boardSlack : other.boardSlack = problem.boardSlack
  cost : other.cost = problem.cost
  costSlack : other.costSlack = problem.costSlack
  isActive : other.day.isActive = problem.day.isActive
  startLegs : ∀ leg ∈ problem.startLegs, leg ∈ other.startLegs
  endLegsAt : ∀ stop, ∀ leg ∈ problem.endLegsAt stop, leg ∈ other.endLegsAt stop
  transfersAt : ∀ stop, ∀ transfer ∈ problem.transfersAt stop, transfer ∈ other.transfersAt stop
  table : ∀ {index table}, problem.day.network.tripTable index = .ok table →
    problem.day.activePatterns.contains index = true →
    ∃ place, other.day.network.tripTable place = .ok (table.renumbered place) ∧
      other.day.activePatterns.contains place = true

theorem Problem.ListedIn.refl (problem : Problem) : problem.ListedIn problem := by
  refine ⟨rfl, rfl, rfl, rfl, rfl, fun _ h => h, fun _ _ h => h, fun _ _ h => h,
    fun {index table} hTable hActive => ⟨index, ?_, hActive⟩⟩
  rw [hTable, ← Network.pattern_of_tripTable hTable]
  rfl

end Search

open Search in
/-- A query that is listed in another one poses a problem that is. -/
theorem Query.ListedIn.problem {query other : Query} (listed : query.ListedIn other)
    {day image : DayTimetable} (hDay : query.network.onDate query.date query.modes = .ok day)
    (hImage : other.network.onDate other.date other.modes = .ok image) (config : SearchConfig) :
    (Problem.ofRequest day query.request config).ListedIn
      (Problem.ofRequest image other.request config) := by
  have hNetwork := DayTimetable.network_onDate hDay
  have hOther := DayTimetable.network_onDate hImage
  have hActive : image.isActive = day.isActive := by
    funext service
    rw [DayTimetable.isActive_onDate hDay, DayTimetable.isActive_onDate hImage, listed.date,
      listed.network.calendar]
  refine ⟨listed.direction, listed.boardSlack, rfl, rfl, hActive, listed.startLegs, ?_, ?_, ?_⟩
  · intro stop leg hLeg
    obtain ⟨hMem, hStop⟩ := Problem.mem_endLegsAt.mp hLeg
    exact Problem.mem_endLegsAt.mpr ⟨Problem.mem_endLegs_ofRequest.mpr
      (listed.endLegs leg (Problem.mem_endLegs_ofRequest.mp hMem)), hStop⟩
  · intro stop transfer hWalk
    have hWalk : transfer ∈ query.direction.transfers query.network stop := hNetwork ▸ hWalk
    have hSame := listed.network.transfers query.direction hWalk
    rw [← listed.direction, ← hOther] at hSame
    exact hSame
  · intro index table hTable hContains
    have hTable : query.network.tripTable index = .ok table := hNetwork ▸ hTable
    obtain ⟨place, hPlace⟩ := listed.network.table hTable
    have hRuns := (DayTimetable.activePatterns_onDate hDay hTable).mp hContains
    rw [← hActive, ← listed.modes] at hRuns
    exact ⟨place, hOther.symm ▸ hPlace,
      (DayTimetable.activePatterns_onDate hImage hPlace).mpr hRuns⟩

end JourneyPlanner
