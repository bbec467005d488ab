import JourneyPlanner.Proofs.Search.Rounds

/-! Searches that make all their rounds. One that ends early makes the first of them. Main statement:
such a search does what the other one does, and then goes on. -/
namespace JourneyPlanner.Search.Strategy

variable {State : Type}

/-- The same search in all its rounds, whatever it finds. -/
def untiring (strategy : Strategy State) : Strategy State :=
  { strategy with
    hasProgressed := fun _ => true
    isSettled := fun _ => false }

variable {strategy : Strategy State} {day : DayTimetable}

/-- A search that goes through all its rounds scans as it would otherwise. -/
@[simp]
theorem scanAll_untiring (strategy : Strategy State) (network : Network) (patterns : List Nat)
    (state : State) :
    strategy.untiring.scanAll network patterns state = strategy.scanAll network patterns state := by
  induction patterns generalizing state with
  | nil => rfl
  | cons pattern rest ih =>
      simp only [scanAll, ih]
      rfl

/-- A round of the untiring search is one of the search. -/
theorem round_untiring {round : Nat} {before after : State} :
    strategy.untiring.Round day round before after ↔ strategy.Round day round before after := by
  simp only [Round, scanAll_untiring]
  exact Iff.rfl

/-- The untiring search goes on after every round, if it is never too late for the next. -/
theorem rounds_untiring_succ (strategy : Strategy State) (day : DayTimetable) (left : Nat)
    (scanned : List Nat) (state : State) :
    strategy.untiring.rounds day (fun _ => false) (left + 1) scanned state =
      let begun := strategy.beginRound (scanned.length + 1) state
      let patterns := strategy.patterns day begun
      match strategy.scanAll day.network patterns begun with
      | .error stopped => .error ⟨stopped.fault, stopped.state, scanned ++ [patterns.length]⟩
      | .ok after => strategy.untiring.rounds day (fun _ => false) left
          (scanned ++ [patterns.length]) (strategy.finish (strategy.walk after)) := by
  rw [rounds]
  simp only [Bool.false_eq_true, if_false, scanAll_untiring]
  rfl

/-- The untiring search makes the rounds of the search, and then those that it left out. -/
theorem rounds_untiring (strategy : Strategy State) (day : DayTimetable) (left : Nat)
    (scanned : List Nat) (state : State) :
    strategy.untiring.rounds day (fun _ => false) left scanned state =
      (strategy.rounds day (fun _ => false) left scanned state).bind fun completed =>
        strategy.untiring.rounds day (fun _ => false)
          (scanned.length + left - completed.scanned.length) completed.scanned completed.state := by
  induction left generalizing scanned state with
  | zero => simp [rounds, Except.bind]
  | succ left ih =>
      have hNext : ∀ count : Nat, (scanned ++ [count]).length + left =
          scanned.length + (left + 1) := by
        intro count
        rw [List.length_append, List.length_singleton, Nat.add_right_comm, Nat.add_assoc]
      have hLeft : ∀ count : Nat, scanned.length + (left + 1) - (scanned ++ [count]).length = left :=
        fun count => by rw [← hNext count, Nat.add_sub_cancel_left]
      rw [rounds_untiring_succ, rounds]
      simp only [Bool.false_eq_true, if_false]
      cases strategy.scanAll day.network
          (strategy.patterns day (strategy.beginRound (scanned.length + 1) state))
          (strategy.beginRound (scanned.length + 1) state) with
      | error stopped => rfl
      | ok after =>
          dsimp only
          cases strategy.hasProgressed (strategy.finish (strategy.walk after)) with
          | false => simp only [Bool.not_false, if_true, Except.bind, hLeft]
          | true =>
              cases strategy.isSettled (strategy.finish (strategy.walk after)) with
              | true =>
                  simp only [Bool.not_true, Bool.false_eq_true, if_false, if_true, Except.bind, hLeft]
              | false =>
                  rw [ih, hNext]
                  rfl

/-- A loop is completed if no round is given up. -/
theorem exists_rounds (strategy : Strategy State) (day : DayTimetable) (late : Nat → Bool)
    (left : Nat) (scanned : List Nat) (Holds : Nat → State → Prop) {state : State}
    (hRound : ∀ count state, count < scanned.length + left → Holds count state →
      ∃ next, strategy.Round day (count + 1) state next ∧ Holds (count + 1) next)
    (hState : Holds scanned.length state) :
    ∃ completed, strategy.rounds day late left scanned state = .ok completed ∧
      Holds completed.scanned.length completed.state ∧
      completed.scanned.length ≤ scanned.length + left := by
  obtain ⟨completed, hCompleted, hHolds, hLe, -⟩ := (strategy.rounds_yields day late left scanned
    Holds (fun _ => False) (fun count state hLt hBefore => by
      obtain ⟨_, ⟨after, hAfter, rfl⟩, hNext⟩ := hRound count state hLt hBefore
      exact .of_eq_ok hAfter hNext) hState).exists_ok fun _ => id
  exact ⟨completed, hCompleted, hHolds, hLe⟩

/-- A search says why it ended. -/
theorem of_termination {late : Nat → Bool} {left : Nat} {scanned : List Nat} {state : State}
    {completed : Completed State}
    (h : strategy.rounds day late left scanned state = .ok completed) :
    match completed.termination with
    | .deadline => late completed.scanned.length = true
    | .fixedPoint => strategy.hasProgressed completed.state = false
    | .destinationPruned => strategy.isSettled completed.state = true
    | .maxRounds => completed.scanned.length = scanned.length + left := by
  induction left generalizing scanned state with
  | zero =>
      cases h
      rfl
  | succ left ih =>
      rw [rounds] at h
      split at h
      · rename_i hLate
        cases h
        exact hLate
      · dsimp only at h
        split at h
        · cases h
        · split at h
          · rename_i hStill
            cases h
            exact Bool.not_eq_true' _ ▸ hStill
          · split at h
            · rename_i hSettled
              cases h
              exact hSettled
            · have hEnd := ih h
              simp only [List.length_append, List.length_singleton, Nat.add_assoc,
                Nat.add_comm 1 left] at hEnd
              exact hEnd

/-- The untiring search makes all its rounds. -/
theorem length_of_untiring {left : Nat} {scanned : List Nat} {state : State}
    {completed : Completed State}
    (h : strategy.untiring.rounds day (fun _ => false) left scanned state = .ok completed) :
    completed.scanned.length = scanned.length + left := by
  have hEnd := of_termination h
  split at hEnd
  · cases hEnd
  · cases hEnd
  · cases hEnd
  · exact hEnd

end JourneyPlanner.Search.Strategy
