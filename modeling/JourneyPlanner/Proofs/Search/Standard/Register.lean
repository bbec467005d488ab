import JourneyPlanner.Proofs.Search.Standard.Round

/-! What a search for the best time keeps true of its state whatever the size of the numbers, when
times may be cut off at the limits of the clock. Main statement: on a linked network every run is
completed, and its records come from each other, unless a trip goes back in time. -/
namespace JourneyPlanner.Search.Standard

/-- The entries of a table that count lead to records of some kind, made at the stop that they stand
for. -/
structure Leads (arrivals : Arrivals) (marks : IndexSet) (holders : IndexTable (Option Nat))
    (counts : Arrival → Prop) : Prop where
  blank : holders.blank = none
  held : ∀ {stop id}, holder? marks holders stop = some id → ∃ arrival,
    arrivals.get? id = some arrival ∧ arrival.stop = stop ∧ counts arrival

namespace Leads

variable {arrivals later : Arrivals} {marks : IndexSet} {holders : IndexTable (Option Nat)}
  {counts : Arrival → Prop} {arrival : Arrival}

theorem initial (arrivals : Arrivals) (numStops : Nat) (counts : Arrival → Prop) :
    Leads arrivals (IndexSet.empty numStops) (IndexTable.uniform numStops none) counts :=
  ⟨rfl, by simp [holder?]⟩

theorem clear (leads : Leads arrivals marks holders counts) (others : IndexSet)
    (other : Arrival → Prop) : Leads arrivals others.clear holders other :=
  ⟨leads.blank, by simp⟩

theorem mono (leads : Leads arrivals marks holders counts) (hExtends : later.Extends arrivals) :
    Leads later marks holders counts := by
  refine ⟨leads.blank, fun h => ?_⟩
  obtain ⟨arrival, hArrival, hRest⟩ := leads.held h
  exact ⟨arrival, hExtends _ _ hArrival, hRest⟩

/-- A new record can be entered for its stop. -/
theorem push (leads : Leads arrivals marks holders counts) (arrival : Arrival)
    (hCounts : counts arrival) :
    Leads (arrivals.push arrival) (marks.insert arrival.stop)
      (holders.set arrival.stop (some arrivals.size)) counts := by
  refine ⟨leads.blank, fun {stop id} h => ?_⟩
  obtain ⟨hMark, hEntry⟩ := holder?_eq_some_iff.mp h
  rw [IndexTable.get_set] at hEntry
  split at hEntry
  · rename_i hSame
    cases hEntry
    exact ⟨arrival, Arrivals.get?_push_size .., hSame.1, hCounts⟩
  · rename_i hOther
    refine (leads.mono (Arrivals.extends_push arrivals arrival)).held
      (holder?_eq_some_iff.mpr ⟨?_, hEntry⟩)
    -- Outside of the table there is no entry, so the stop is another one.
    have hInside : stop < holders.cells.size := by
      refine Nat.lt_of_not_le fun hLe => ?_
      rw [IndexTable.get_of_size_le hLe, leads.blank] at hEntry
      cases hEntry
    simpa [IndexSet.contains_insert, mt (And.intro · hInside) hOther] using hMark

end Leads

/-- The records of a state come from each other, and its tables lead to them. -/
structure Register (problem : Problem) (time : Int) (state : State) : Prop where
  records : Records problem time state.arrivals
  finishes : ∀ destination ∈ state.destinations, problem.Finishes state.arrivals destination
  round_le : ∀ arrival ∈ state.arrivals.toList, arrival.round ≤ state.round
  current : Leads state.arrivals state.best.reachedCurrent state.current fun arrival =>
    arrival.round = state.round
  last : Leads state.arrivals state.best.reachedLast state.last fun arrival =>
    arrival.round + 1 = state.round
  byTransit : Leads state.arrivals state.best.reachedByTransit state.byTransit fun arrival =>
    arrival.round = state.round ∧ arrival.isTransit = true

structure Gains (before after : State) : Prop where
  round : after.round = before.round
  arrivals : after.arrivals.Extends before.arrivals

namespace Gains

variable {first second third : State}

theorem refl (state : State) : Gains state state := ⟨rfl, Arrivals.Extends.refl _⟩

theorem trans (hFirst : Gains first second) (hSecond : Gains second third) : Gains first third :=
  ⟨hSecond.round.trans hFirst.round, hSecond.arrivals.trans hFirst.arrivals⟩

end Gains

namespace Register

variable {problem : Problem} {time : Int} {state : State} {arrival : Arrival}

theorem initial (problem : Problem) (time : Int) : Register problem time (State.initial problem) :=
  ⟨.empty, List.forall_mem_nil _, by simp [State.initial, Arrivals.empty, Arrivals.toList],
    Leads.initial .., Leads.initial .., Leads.initial ..⟩

theorem beginRound (register : Register problem time state) :
    Register problem time (state.beginRound (state.round + 1)) := by
  refine ⟨register.records, register.finishes, fun arrival hMem =>
    Nat.le_succ_of_le (register.round_le arrival hMem), register.last.clear _ _,
    ⟨register.current.blank, fun h => ?_⟩, register.byTransit.clear _ _⟩
  obtain ⟨arrival, hArrival, hStop, hRound⟩ := register.current.held h
  exact ⟨arrival, hArrival, hStop, congrArg (· + 1) hRound⟩

/-- With a record of the current round, there is still none of a later one. -/
theorem round_le_push (register : Register problem time state) (hRound : arrival.round = state.round) :
    ∀ other ∈ (state.arrivals.push arrival).toList, other.round ≤ state.round := by
  intro other hOther
  rcases Arrivals.mem_push.mp hOther with hOld | rfl
  · exact register.round_le other hOld
  · exact Nat.le_of_eq hRound

/-- Recording an arrival on foot keeps the register. -/
theorem settle (register : Register problem time state)
    (hDerives : problem.Derives time state.arrivals arrival)
    (hRound : arrival.round = state.round) :
    Register problem time (state.settle problem arrival) ∧
      Gains state (state.settle problem arrival) := by
  unfold State.settle
  split
  · exact ⟨register, Gains.refl _⟩
  · rename_i best hBest
    obtain ⟨-, rfl⟩ := BestTimes.improve?_eq_some_iff.mp hBest
    have hExtends := Arrivals.extends_push state.arrivals arrival
    exact ⟨⟨register.records.push hDerives, fun destination hMem =>
      (register.finishes destination hMem).mono hExtends, register.round_le_push hRound,
      register.current.push _ hRound, register.last.mono hExtends,
      register.byTransit.mono hExtends⟩, rfl, hExtends⟩

/-- Leaving a ride keeps the register. -/
theorem alight (register : Register problem time state) {pattern stop : Nat} {ride : Ride}
    {left : Int} (hDerives : problem.Derives time state.arrivals
      (ride.arrival problem state.round pattern stop left)) :
    Register problem time (state.alight problem pattern stop ride left) ∧
      Gains state (state.alight problem pattern stop ride left) := by
  have hExtends := Arrivals.extends_push state.arrivals
    (ride.arrival problem state.round pattern stop left)
  have hFinishes := fun destination hMem => (register.finishes destination hMem).mono hExtends
  have hRounds := register.round_le_push
    (show (ride.arrival problem state.round pattern stop left).round = state.round from rfl)
  have hByTransit := register.byTransit.push
    (ride.arrival problem state.round pattern stop left) ⟨rfl, rfl⟩
  unfold State.alight
  split
  · split
    · exact ⟨register, Gains.refl _⟩
    · rename_i best hBest
      obtain ⟨-, rfl⟩ := BestTimes.improveTransit?_eq_some_iff.mp hBest
      dsimp only
      split
      · exact ⟨⟨register.records.push hDerives, hFinishes, hRounds, register.current.mono hExtends,
          register.last.mono hExtends, hByTransit⟩, rfl, hExtends⟩
      · rename_i better hBetter
        obtain ⟨-, rfl⟩ := BestTimes.improve?_eq_some_iff.mp hBetter
        exact ⟨⟨register.records.push hDerives, hFinishes, hRounds, register.current.push
          (ride.arrival problem state.round pattern stop left) rfl, register.last.mono hExtends,
          hByTransit⟩, rfl, hExtends⟩
  · exact ⟨register, Gains.refl _⟩

section Linked

variable {table : TripTable} {pattern position stop : Nat} {rest : List Nat} {ride : Option Ride}
  (linked : problem.day.network.Linked)
  (hTable : problem.day.network.tripTable pattern = .ok table)
  (hActive : problem.day.activePatterns.contains pattern = true)

include linked hTable

/-- Changing trips at a position is never given up. -/
theorem exists_change (register : Register problem time state)
    (hStop : table.stopAt position = .ok stop)
    (hRest : ∀ later ∈ rest, problem.direction.Precedes position later)
    (hRide : ∀ on, ride = some on → OnBoard problem table state.arrivals state.round rest on) :
    ∃ change, state.change problem table position stop ride = .ok change ∧
      ∀ on, change = some on → OnBoard problem table state.arrivals state.round rest on := by
  cases hLast : state.lastId? stop with
  | none => exact ⟨ride, by simp [State.change, State.lastArrival?, hLast], hRide⟩
  | some id =>
      obtain ⟨source, hSource, rfl, hRound⟩ := register.last.held hLast
      have hFrom : state.lastArrival? source.stop = some (id, source) := by
        simp only [State.lastArrival?, hLast, hSource, Option.map_some]
      obtain ⟨result, hResult, hChange⟩ := State.exists_change (linked.shaped hTable)
        (TripTable.lt_numStops_of_stopAt hStop) hFrom fun on hOn => (hRide on hOn).lt_numTrips
      refine ⟨result <|> ride, hChange, fun on hOn => ?_⟩
      cases result with
      | none => exact hRide on hOn
      | some better =>
          cases hOn
          exact ⟨position, id, source, _, hStop, hSource, hRound, hResult, hRest⟩

include hActive

/-- Passing a position on board keeps the register, unless the trip goes back in time. -/
theorem passOnBoard_yields (register : Register problem time state)
    (hStop : table.stopAt position = .ok stop)
    (hRide : ∀ on, ride = some on →
      OnBoard problem table state.arrivals state.round (position :: rest) on) :
    Yields (fun next => Register problem time next ∧ Gains state next)
      (problem.day.network.GoesBack problem.direction)
      (state.passOnBoard problem table position stop ride) := by
  cases ride with
  | none => exact ⟨register, Gains.refl _⟩
  | some on =>
      apply ((hRide on rfl).alightTime_yields hTable hActive (List.mem_cons_self ..) hStop time
        linked).bind
      intro left hDerives
      exact register.alight hDerives

/-- So does passing all positions. -/
theorem pass_yields (register : Register problem time state) {positions : List Nat}
    (ride : Option Ride) (hOrder : positions.Pairwise problem.direction.Precedes)
    (hInside : ∀ position ∈ positions, position < table.numStops)
    (hRide : ∀ on, ride = some on → OnBoard problem table state.arrivals state.round positions on) :
    Yields (fun after => Register problem time after ∧ Gains state after)
      (fun stopped => problem.day.network.GoesBack problem.direction stopped.fault)
      (State.pass problem table positions ride state) := by
  induction positions generalizing state ride with
  | nil => exact ⟨register, Gains.refl _⟩
  | cons position rest ih =>
      obtain ⟨hFirst, hOrder⟩ := List.pairwise_cons.mp hOrder
      obtain ⟨stop, hStop⟩ := TripTable.exists_stopAt (hInside position (List.mem_cons_self ..))
      have hPassed := register.passOnBoard_yields linked hTable hActive hStop hRide
      rw [State.pass, hStop]
      dsimp only
      cases hNext : state.passOnBoard problem table position stop ride with
      | error fault =>
          rw [hNext] at hPassed
          exact hPassed
      | ok next =>
          rw [hNext] at hPassed
          obtain ⟨hRegister, hGains⟩ := hPassed
          obtain ⟨change, hChange, hOnBoard⟩ := hRegister.exists_change linked hTable hStop hFirst
            fun on hOn => hGains.round ▸ ((hRide on hOn).mono hGains.arrivals).tail
          dsimp only
          rw [hChange]
          apply (ih hRegister change hOrder
            (fun later hLater => hInside later (List.mem_cons_of_mem _ hLater)) hOnBoard).imp
          intro after hAfter
          exact ⟨hAfter.1, hGains.trans hAfter.2⟩

end Linked

/-- On a linked network scanning patterns keeps the register, unless a trip goes back in time. -/
theorem scanAll_yields (register : Register problem time state)
    (linked : problem.day.network.Linked) {patterns : List Nat}
    (hPatterns : ∀ pattern ∈ patterns, problem.day.activePatterns.contains pattern = true ∧
      pattern < problem.day.network.numPatterns) :
    Yields (fun after => Register problem time after ∧ Gains state after)
      (fun stopped => problem.day.network.GoesBack problem.direction stopped.fault)
      ((strategy problem).scanAll problem.day.network patterns state) := by
  apply (strategy problem).scanAll_yields
  · intro pattern hPattern
    obtain ⟨hActive, hKnown⟩ := hPatterns pattern hPattern
    obtain ⟨table, hTable⟩ := linked.exists_table hKnown
    refine ⟨table, hTable, (linked.shaped hTable).numStops_pos, fun next hNext => ?_⟩
    apply (hNext.1.pass_yields linked hTable hActive none
      (Direction.positions_pairwise problem.direction table.numStops)
      (fun position hPosition => Direction.mem_positions.mp hPosition) (by simp)).imp
    intro after hAfter
    exact ⟨hAfter.1, hNext.2.trans hAfter.2⟩
  · exact ⟨register, Gains.refl _⟩

/-- Walks go on from records whose round on foot it is. -/
theorem of_mem_walkSources (register : Register problem time state) {source : Nat × Arrival}
    (h : source ∈ state.walkSources) :
    state.arrivals.get? source.1 = some source.2 ∧ source.2.roundOnFoot = state.round := by
  rcases List.mem_append.mp h with hRide | hFoot
  · obtain ⟨hId, hSource⟩ := Arrivals.mem_numbered.mp hRide
    obtain ⟨stop, hStop, hHolder⟩ := List.mem_filterMap.mp hId
    obtain ⟨arrival, hArrival, -, hRound, hRide⟩ := register.byTransit.held
      (holder?_eq_some_iff.mpr ⟨IndexSet.mem_toList.mp hStop, hHolder⟩)
    rw [hSource, Option.some.injEq] at hArrival
    rw [Arrival.roundOnFoot, if_pos (hArrival ▸ hRide)]
    exact ⟨hSource, hArrival ▸ hRound⟩
  · obtain ⟨hMem, hFoot⟩ := List.mem_filter.mp hFoot
    obtain ⟨hId, hSource⟩ := Arrivals.mem_numbered.mp hMem
    obtain ⟨stop, hStop, hHolder⟩ := List.mem_filterMap.mp hId
    obtain ⟨arrival, hArrival, -, hRound⟩ := register.last.held
      (holder?_eq_some_iff.mpr ⟨IndexSet.mem_toList.mp hStop, hHolder⟩)
    rw [hSource, Option.some.injEq] at hArrival
    rw [Arrival.roundOnFoot, if_neg (by simpa using hFoot)]
    exact ⟨hSource, hArrival ▸ hRound⟩

/-- Walking along a transfer keeps the register. -/
theorem walkAlong (register : Register problem time state) {source : Nat × Arrival}
    (hSource : state.arrivals.get? source.1 = some source.2)
    (hFoot : source.2.roundOnFoot = state.round) {transfer : Transfer}
    (hWalk : transfer ∈ problem.transfersAt source.2.stop) :
    Register problem time (state.walkAlong problem source transfer) ∧
      Gains state (state.walkAlong problem source transfer) := by
  have hDerives : problem.Derives time state.arrivals
      (problem.walkArrival source.2.roundOnFoot source.1 source.2 transfer) := .walk hSource hWalk
  rw [State.walkAlong_eq_settle]
  split
  · exact register.settle (hFoot ▸ hDerives) rfl
  · exact ⟨register, Gains.refl _⟩

/-- The walks of a round keep the tables leading to records. -/
theorem walk (register : Register problem time state) :
    Register problem time (state.walk problem) ∧ Gains state (state.walk problem) := by
  obtain ⟨hAll, -, -⟩ := Strategy.foldl_covers
    (fun state (source : Nat × Arrival) =>
      (problem.transfersAt source.2.stop).foldl (State.walkAlong problem source) state)
    state.walkSources state
    (fun next => Register problem time next ∧ Gains state next) (fun _ _ => True)
    (fun source hSource next ⟨hNext, hGains⟩ => by
      obtain ⟨hId, hFoot⟩ := register.of_mem_walkSources hSource
      obtain ⟨hEach, -, -⟩ := Strategy.foldl_covers (State.walkAlong problem source)
        (problem.transfersAt source.2.stop) next
        (fun after => Register problem time after ∧ Gains state after) (fun _ _ => True)
        (fun transfer hWalk after ⟨hAfter, hGains⟩ => by
          obtain ⟨hRegister, hGainsRest⟩ := hAfter.walkAlong (hGains.arrivals _ _ hId)
            (hFoot.trans hGains.round.symm) hWalk
          exact ⟨⟨hRegister, hGains.trans hGainsRest⟩, trivial, fun _ _ => trivial⟩)
        ⟨hNext, hGains⟩
      exact ⟨hEach, trivial, fun _ _ => trivial⟩)
    ⟨register, Gains.refl _⟩
  exact hAll

theorem finishes_of_mem_candidates (register : Register problem time state)
    {candidate : DestinationArrival} (h : candidate ∈ state.candidates problem) :
    problem.Finishes state.arrivals candidate := by
  obtain ⟨⟨id, source⟩, hMem, hLeg⟩ := List.mem_flatMap.mp h
  obtain ⟨leg, hEnd, rfl⟩ := List.mem_map.mp hLeg
  obtain ⟨hId, hSource⟩ := Arrivals.mem_numbered.mp hMem
  obtain ⟨stop, hStop, hHolder⟩ := List.mem_filterMap.mp hId
  obtain ⟨arrival, hArrival, -, hRound, hRide⟩ := register.byTransit.held
    (holder?_eq_some_iff.mpr ⟨IndexSet.mem_toList.mp hStop, hHolder⟩)
  rw [hSource, Option.some.injEq] at hArrival
  subst hArrival
  exact hRound ▸ .egress hSource hRide hEnd

/-- Walking to the destination keeps the tables leading to records. -/
theorem finish (register : Register problem time state) :
    Register problem time (state.finish problem) ∧ Gains state (state.finish problem) := by
  obtain ⟨-, -, hNone | ⟨best, hMem, hSome, -⟩⟩ := State.foldl_bestCandidate
    problem.direction (state.candidates problem) state.destinationTime none
  · have hSame : state.finish problem = state := by
      simp only [State.finish, State.bestCandidate, hNone]
    rw [hSame]
    exact ⟨register, Gains.refl _⟩
  · have hNext : state.finish problem = { state with
        destinationTime := best.time
        destinations := state.destinations ++ [best] } := by
      simp only [State.finish, State.bestCandidate, hSome]
    rw [hNext]
    refine ⟨⟨register.records, fun destination hDestination => ?_, register.round_le,
      register.current, register.last, register.byTransit⟩, rfl, Arrivals.Extends.refl _⟩
    rcases List.mem_append.mp hDestination with hOld | hNew
    · exact register.finishes destination hOld
    · rw [List.mem_singleton.mp hNew]
      exact register.finishes_of_mem_candidates hMem

theorem start (problem : Problem) (time : Int) :
    Register problem time ((strategy problem).start time) ∧
      Gains (State.initial problem) ((strategy problem).start time) := by
  obtain ⟨hAll, -, -⟩ := Strategy.foldl_covers (State.enter problem time) problem.startLegs
    (State.initial problem)
    (fun next => Register problem time next ∧ Gains (State.initial problem) next) (fun _ _ => True)
    (fun leg hLeg next ⟨hNext, hGains⟩ => by
      obtain ⟨hRegister, hGainsRest⟩ := hNext.settle
        (.access hLeg : problem.Derives time next.arrivals (problem.accessArrival time leg))
        hGains.round.symm
      exact ⟨⟨hRegister, hGains.trans hGainsRest⟩, trivial, fun _ _ => trivial⟩)
    ⟨Register.initial problem time, Gains.refl _⟩
  exact hAll

/-- A round keeps the register, unless a trip goes back in time. -/
theorem scanRound_yields (register : Register problem time state)
    (linked : problem.day.network.Linked) :
    Yields
      (fun scanned => Register problem time
          ((strategy problem).finish ((strategy problem).walk scanned)) ∧
        ((strategy problem).finish ((strategy problem).walk scanned)).round = state.round + 1)
      (fun stopped => problem.day.network.GoesBack problem.direction stopped.fault)
      ((strategy problem).scanRound problem.day (state.round + 1) state) := by
  apply (register.beginRound.scanAll_yields linked
    ((strategy problem).patterns_known problem.day (state.beginRound (state.round + 1)))).imp
  rintro scanned ⟨hRegister, hGains⟩
  obtain ⟨hWalked, hWalking⟩ := hRegister.walk
  obtain ⟨hNext, hFinishing⟩ := hWalked.finish
  rw [finish_strategy, walk_strategy, hFinishing.round, hWalking.round, hGains.round,
    State.beginRound]
  exact ⟨hNext, rfl⟩

end Register

/-- On a linked network every run is completed, unless a trip goes back in time. -/
theorem run_yields (planner : Planner) (linked : planner.problem.day.network.Linked) (time : Int)
    (watch : Stopwatch) :
    Yields
      (fun run => run.direction = planner.problem.direction ∧
        run.found.Complete planner.problem time planner.maxRounds)
      (fun broken =>
        planner.problem.day.network.GoesBack planner.problem.direction broken.fault)
      (planner.runWith (strategy planner.problem) time watch) := by
  obtain ⟨hStart, hGains⟩ := Register.start planner.problem time
  apply (planner.runWith_yields (strategy planner.problem) time watch
    (fun count state => Register planner.problem time state ∧ state.round = count)
    (fun fault => planner.problem.day.network.GoesBack planner.problem.direction fault)
    ⟨hStart, hGains.round⟩ ?_).imp
  · rintro run ⟨hDirection, state, count, hFound, ⟨register, rfl⟩, hLe, -⟩
    rw [show run.found = state.found from hFound]
    exact ⟨hDirection, register.records, fun arrival hMem =>
      (register.round_le arrival hMem).trans hLe, register.finishes⟩
  · rintro _ state - ⟨register, rfl⟩
    exact register.scanRound_yields linked

end JourneyPlanner.Search.Standard
