import JourneyPlanner.Proofs.Mirror.Rounds
import JourneyPlanner.Proofs.Pruning.Untiring
import JourneyPlanner.Proofs.Search.MultiCriteria.Course

/-! A search for the best compromises that leaves out nothing. It makes every round and records
whatever no arrival at the stop is as good as, wherever the destination was reached. Main statement: its
rounds are those of a search that has not found the destination, but for the ways there. -/
namespace JourneyPlanner.Search.MultiCriteria

/-- The search for the best compromises without regard to the ways to the destination that it has
found, in all its rounds. -/
def exhaustive (problem : Problem) : Strategy State :=
  (strategyWith problem (State.keep problem)).untiring

variable {problem : Problem} {time : Int} {state after : State} {ends : Front DestinationArrival}

namespace State

def withEnds (state : State) (ends : Front DestinationArrival) : State :=
  { state with destinations := ends }

def blind (state : State) : State := state.withEnds Front.empty

/-- A state without ways to the destination leaves out nothing; so does one that does not look. -/
theorem keep_withEnds (hBlind : state.destinations = Front.empty) (arrival : Arrival) :
    (state.add problem arrival).destinations = Front.empty ∧
      (state.withEnds ends).keep problem arrival = (state.add problem arrival).withEnds ends := by
  have hOpen : state.isCovered (stopCriteria problem.direction arrival) = false := by
    rw [isCovered, hBlind]
    rfl
  rw [add, if_neg (Bool.eq_false_iff.mp hOpen)]
  unfold keep
  dsimp only [withEnds]
  split
  · exact ⟨hBlind, rfl⟩
  · exact ⟨hBlind, rfl⟩

/-- Keeping offers in a state that does not look is adding them in a blind one. -/
theorem foldl_keep_withEnds (ends : Front DestinationArrival)
    (hBlind : state.destinations = Front.empty) (offers : List Arrival) :
    (offers.foldl (add problem) state).destinations = Front.empty ∧
      offers.foldl (keep problem) (state.withEnds ends) =
        (offers.foldl (add problem) state).withEnds ends :=
  Strategy.foldl_image (fun state => withEnds state ends)
    (fun state : State => state.destinations = Front.empty)
    (fun arrival _ _ hBlind => keep_withEnds hBlind arrival) hBlind

/-- Passing positions in a state that does not look is passing them in a blind one. -/
theorem pass_withEnds (ends : Front DestinationArrival) {table : TripTable}
    {positions : List Nat} {rides : Front Ride} (hBlind : state.destinations = Front.empty)
    (hAfter : pass problem table (add problem) positions rides state = .ok after) :
    after.destinations = Front.empty ∧
      pass problem table (keep problem) positions rides (state.withEnds ends) =
        .ok (after.withEnds ends) := by
  induction positions generalizing state rides with
  | nil =>
      cases hAfter
      exact ⟨hBlind, rfl⟩
  | cons position rest ih =>
      rw [pass] at hAfter
      split at hAfter
      · cases hAfter
      · rename_i stop hStop
        split at hAfter
        · cases hAfter
        · rename_i arrivals hArrivals
          obtain ⟨hStill, hSame⟩ := foldl_keep_withEnds ends hBlind arrivals
          dsimp only at hAfter
          split at hAfter
          · cases hAfter
          · rename_i boarded hBoarded
            have hImageBoarded : (arrivals.foldl (keep problem) (state.withEnds ends)).boardingsAt
                problem table position stop = .ok boarded := hSame ▸ hBoarded
            rw [pass_cons (state.withEnds ends) hStop hArrivals hImageBoarded, hSame]
            exact ih hStill hAfter

/-- Walking in a state that does not look is walking in a blind one. -/
theorem walk_withEnds (hBlind : state.destinations = Front.empty) :
    (state.withEnds ends).walk problem (keep problem) =
      (state.walk problem (add problem)).withEnds ends := by
  -- what one source adds, whatever the state
  have hSource : ∀ (source : Nat × Arrival) (transfers : List Transfer) (next : State),
      next.destinations = Front.empty →
      (transfers.foldl (fun state transfer => state.add problem
          (problem.walkArrival state.round source.1 source.2 transfer)) next).destinations =
            Front.empty ∧
        transfers.foldl (fun state transfer => state.keep problem
            (problem.walkArrival state.round source.1 source.2 transfer)) (next.withEnds ends) =
          (transfers.foldl (fun state transfer => state.add problem
            (problem.walkArrival state.round source.1 source.2 transfer)) next).withEnds ends :=
    fun source _ _ hBlind => Strategy.foldl_image (fun state => withEnds state ends)
      (fun state : State => state.destinations = Front.empty)
      (fun _ _ _ hBlind => keep_withEnds hBlind _) hBlind
  exact (Strategy.foldl_image (fun state => withEnds state ends)
    (fun state : State => state.destinations = Front.empty)
    (fun source _ => hSource source _) hBlind).2

end State

/-- Scanning patterns in a state that does not look is scanning them in a blind one. -/
theorem scanAll_withEnds {network : Network} {patterns : List Nat}
    (hBlind : state.destinations = Front.empty)
    (hAfter : (strategy problem).scanAll network patterns state = .ok after) :
    (exhaustive problem).scanAll network patterns (state.withEnds ends) =
      .ok (after.withEnds ends) := by
  induction patterns generalizing state with
  | nil =>
      cases hAfter
      rfl
  | cons pattern rest ih =>
      rw [Strategy.scanAll] at hAfter ⊢
      split at hAfter
      · cases hAfter
      · rename_i table hTable
        split at hAfter
        · cases hAfter
        · rename_i hStops
          split at hAfter
          · cases hAfter
          · rename_i next hNext
            obtain ⟨hStill, hImage⟩ := State.pass_withEnds ends hBlind hNext
            have hScan : (exhaustive problem).scan table (state.withEnds ends) =
              .ok (next.withEnds ends) := hImage
            simp only [if_neg hStops, hScan]
            exact ih hStill hAfter

/-- Before the destination is found there is nothing to leave out. -/
theorem start_exhaustive (problem : Problem) (time : Int) :
    (exhaustive problem).start time = (strategy problem).start time := by
  have hInitial : (State.initial problem).destinations = Front.empty := rfl
  obtain ⟨hBlind, hSame⟩ := State.foldl_keep_withEnds Front.empty hInitial
    (problem.startLegs.map (problem.accessArrival time))
  exact hSame.trans (congrArg _ hBlind.symm)

/-- A round that leaves out nothing takes the course of a blind one. -/
theorem Course.round_exhaustive {rides : List Arrival} {scanned walked : State}
    (course : Course problem time state.blind rides scanned walked)
    (sound : problem.day.network.Sound) :
    (exhaustive problem).Round problem.day (state.round + 1) state
      ((walked.withEnds state.destinations).finish problem) := by
  have hScanned := course.begun.scanAll_eq sound (Nat.succ_pos _) course.rideOffers course.offered
  rw [← course.scanned_eq] at hScanned
  have hBlind : scanned.destinations = Front.empty := course.scanning.destinations
  refine ⟨scanned.withEnds state.destinations, scanAll_withEnds rfl hScanned, ?_⟩
  have hWalk : (exhaustive problem).walk (scanned.withEnds state.destinations) =
      walked.withEnds state.destinations := by
    rw [course.walked_eq, ← State.walk_eq]
    exact State.walk_withEnds hBlind
  rw [hWalk]
  rfl

end JourneyPlanner.Search.MultiCriteria
