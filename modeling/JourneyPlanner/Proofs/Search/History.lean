import JourneyPlanner.Proofs.Direction
import JourneyPlanner.Search.BestTimes
import Mathlib.Data.Set.Basic

/-! Best times against the history of the calls made on them. A time is the best of all that were
offered, and a stop is marked if an offer there was an improvement and as many rounds began since
as the mark is for. Main statement: this is so after any calls on known stops, and then tells what
the next offer answers and changes. -/
namespace JourneyPlanner.Search.BestTimes

/-- How a stop is reached: in any way, or by transit. -/
inductive Means where
  | anyhow
  | transit
deriving DecidableEq

namespace Means

def offer : Means → (stop : Nat) → (time : Int) → Call
  | anyhow => .offer
  | transit => .offerTransit

def times : Means → BestTimes → IndexTable Int
  | anyhow, best => best.times
  | transit, best => best.transitTimes

def marks : Means → BestTimes → IndexSet
  | anyhow, best => best.reachedCurrent
  | transit, best => best.reachedByTransit

/-- The best times after a time that beats the best one of its stop. -/
def enter (means : Means) (best : BestTimes) (stop : Nat) (time : Int) : BestTimes :=
  match means with
  | anyhow =>
    { best with times := best.times.set stop time, reachedCurrent := best.reachedCurrent.insert stop }
  | transit =>
    { best with
      transitTimes := best.transitTimes.set stop time
      reachedByTransit := best.reachedByTransit.insert stop }

variable {means other : Means} {best : BestTimes} {direction : Direction} {stop : Nat} {time : Int}

@[simp]
theorem offer_ne_prepareRound : means.offer stop time ≠ .prepareRound := by
  cases means <;> exact Call.noConfusion

theorem offer_inj {otherStop : Nat} {otherTime : Int} :
    means.offer stop time = other.offer otherStop otherTime ↔
      means = other ∧ stop = otherStop ∧ time = otherTime := by
  cases means <;> cases other <;> simp [offer]

theorem times_enter : other.times (means.enter best stop time) =
    if means = other then (other.times best).set stop time else other.times best := by
  cases means <;> cases other <;> rfl

/-- Entering a time changes the times of its stop in its own way of arriving. -/
theorem get_times_enter {otherStop : Nat} (hStop : stop < (other.times best).cells.size) :
    (other.times (means.enter best stop time)).get otherStop =
      if means = other ∧ stop = otherStop then time else (other.times best).get otherStop := by
  rw [times_enter]
  by_cases hMeans : means = other
  · rw [if_pos hMeans, IndexTable.get_set_of_lt hStop]
    simp [hMeans]
  · simp [hMeans]

theorem marks_enter : other.marks (means.enter best stop time) =
    if means = other then (other.marks best).insert stop else other.marks best := by
  cases means <;> cases other <;> rfl

@[simp]
theorem reachedLast_enter : (means.enter best stop time).reachedLast = best.reachedLast := by
  cases means <;> rfl

@[simp]
theorem times_prepareRound : means.times best.prepareRound = means.times best := by
  cases means <;> rfl

/-- An offer at a known stop is an improvement if it beats the best time there, and is passed over
otherwise. -/
theorem call_offer (means : Means) (hStop : stop < best.numStops) :
    direction.isBetter time ((means.times best).get stop) = true ∧
        best.call direction (means.offer stop time) =
          .ok (.improved true, means.enter best stop time) ∨
      direction.isBetter time ((means.times best).get stop) = false ∧
        best.call direction (means.offer stop time) = .ok (.improved false, best) := by
  have hKnown : (means.offer stop time).stop? = some stop := by cases means <;> rfl
  have hCall : best.call direction (means.offer stop time) =
      .ok (best.perform direction (means.offer stop time)) := by
    simp only [call, hKnown, if_pos hStop]
  rw [hCall]
  cases means with
  | anyhow =>
      by_cases hBetter : direction.isBetter time (best.time stop) = true
      · exact Or.inl ⟨hBetter, by simp [offer, perform, improve?, hBetter, enter]⟩
      · rw [Bool.not_eq_true] at hBetter
        exact Or.inr ⟨hBetter, by simp [offer, perform, improve?, hBetter]⟩
  | transit =>
      by_cases hBetter : direction.isBetter time (best.transitTime stop) = true
      · exact Or.inl ⟨hBetter, by simp [offer, perform, improveTransit?, hBetter, enter]⟩
      · rw [Bool.not_eq_true] at hBetter
        exact Or.inr ⟨hBetter, by simp [offer, perform, improveTransit?, hBetter]⟩

end Means

/-- Calls with their answers, the latest first. -/
abbrev History := List (Call × Answer)

namespace History

/-- The time of a stop never reached, and all times offered at a stop. -/
def offered (history : History) (direction : Direction) (means : Means) (stop : Nat) : Set Int :=
  {time | time = direction.unreached ∨ ∃ answer, (means.offer stop time, answer) ∈ history}

def rounds (history : History) : Nat :=
  history.countP fun event => event.1 = .prepareRound

/-- An offer at a stop was an improvement, and so many rounds began since. -/
def Improved (history : History) (means : Means) (ago : Nat) (stop : Nat) : Prop :=
  ∃ later time earlier,
    history = later ++ (means.offer stop time, .improved true) :: earlier ∧ rounds later = ago

variable {history : History} {direction : Direction} {means : Means} {stop ago : Nat} {time : Int}
  {c : Call} {answer : Answer}

theorem mem_offered_nil : time ∈ offered [] direction means stop ↔ time = direction.unreached := by
  simp [offered]

/-- What was offered is what the call offers and what was offered before it. -/
theorem mem_offered_cons : time ∈ offered ((c, answer) :: history) direction means stop ↔
    time ∈ history.offered direction means stop ∨ c = means.offer stop time := by
  constructor
  · rintro (hUnreached | ⟨given, hMem⟩)
    · exact Or.inl (Or.inl hUnreached)
    · rcases List.mem_cons.mp hMem with hSame | hBefore
      · exact Or.inr (congrArg Prod.fst hSame).symm
      · exact Or.inl (Or.inr ⟨given, hBefore⟩)
  · rintro ((hUnreached | ⟨given, hMem⟩) | rfl)
    · exact Or.inl hUnreached
    · exact Or.inr ⟨given, List.mem_cons_of_mem _ hMem⟩
    · exact Or.inr ⟨answer, List.mem_cons_self ..⟩

/-- Each preparation begins a round. -/
theorem rounds_cons (c : Call) (answer : Answer) (history : History) :
    rounds ((c, answer) :: history) =
      if c = .prepareRound then history.rounds + 1 else history.rounds := by
  by_cases hBegins : c = .prepareRound <;> simp [rounds, hBegins]

theorem not_improved_nil : ¬ Improved [] means ago stop := by
  simp [Improved]

/-- The last call is an improvement of the current round itself, or it puts those before it one round
back if it begins one. -/
theorem improved_cons : Improved ((c, answer) :: history) means ago stop ↔
    (∃ time, c = means.offer stop time) ∧ answer = .improved true ∧ ago = 0 ∨
      ∃ before, history.Improved means before stop ∧
        (if c = .prepareRound then before + 1 else before) = ago := by
  constructor
  · rintro ⟨later, time, earlier, hSplit, rfl⟩
    cases later with
    | nil =>
        cases hSplit
        exact Or.inl ⟨⟨time, rfl⟩, rfl, rfl⟩
    | cons first later =>
        cases hSplit
        exact Or.inr ⟨rounds later, ⟨later, time, earlier, rfl, rfl⟩, (rounds_cons ..).symm⟩
  · rintro (⟨⟨time, rfl⟩, rfl, rfl⟩ | ⟨_, ⟨later, time, earlier, rfl, rfl⟩, rfl⟩)
    · exact ⟨[], time, history, rfl, rfl⟩
    · exact ⟨(c, answer) :: later, time, earlier, rfl, rounds_cons ..⟩

/-- When a round begins, what was reached in the current one was reached in the last one. -/
theorem improved_prepareRound : Improved ((.prepareRound, answer) :: history) means ago stop ↔
    ∃ before, history.Improved means before stop ∧ before + 1 = ago := by
  simp only [improved_cons, ↓reduceIte]
  apply or_iff_right
  rintro ⟨⟨time, hOffer⟩, -⟩
  exact Means.offer_ne_prepareRound hOffer.symm

/-- To what has improved before, an offer that is an improvement adds its stop. -/
theorem improved_offer {other : Means} {otherStop : Nat} :
    Improved ((other.offer otherStop time, answer) :: history) means ago stop ↔
      (other = means ∧ otherStop = stop ∧ answer = .improved true ∧ ago = 0) ∨
        history.Improved means ago stop := by
  rw [improved_cons]
  simp [Means.offer_inj, and_assoc]

end History

structure IsBest (direction : Direction) (times : Set Int) (best : Int) : Prop where
  mem : best ∈ times
  not_better : ∀ time ∈ times, direction.isBetter time best = false

/-- What the best times tell of the calls made: the best time offered at each stop in each way, and
where one was an improvement in the current round and, of those in any way, in the last one. -/
structure Tells (direction : Direction) (history : History) (best : BestTimes) : Prop where
  isBest : ∀ means stop,
    IsBest direction (history.offered direction means stop) ((Means.times means best).get stop)
  marks : ∀ means stop,
    (Means.marks means best).contains stop = true ↔ history.Improved means 0 stop
  reachedLast : ∀ stop, best.reachedLast.contains stop = true ↔ history.Improved .anyhow 1 stop

structure HasRoom (numStops : Nat) (best : BestTimes) : Prop where
  times : ∀ means, (Means.times means best).cells.size = numStops
  marks : ∀ means, (Means.marks means best).marks.size = numStops
  reachedLast : best.reachedLast.marks.size = numStops

section Step

variable {direction : Direction} {numStops stop : Nat} {history : History} {best : BestTimes}
  {means : Means} {time : Int} {c : Call} {answer : Answer}

theorem IsBest.congr {times others : Set Int} {value : Int} (isBest : IsBest direction times value)
    (h : ∀ time, time ∈ others ↔ time ∈ times) : IsBest direction others value :=
  ⟨(h value).mpr isBest.mem, fun time hTime => isBest.not_better time ((h time).mp hTime)⟩

/-- A better time takes the place of the best one. -/
theorem IsBest.of_better {times others : Set Int} {value : Int}
    (isBest : IsBest direction times value) (hBetter : direction.isBetter time value = true)
    (h : ∀ other, other ∈ others ↔ other ∈ times ∨ other = time) :
    IsBest direction others time := by
  refine ⟨(h time).mpr (Or.inr rfl), fun other hOther => ?_⟩
  rcases (h other).mp hOther with hBefore | rfl
  · have hNot := isBest.not_better other hBefore
    rw [Direction.isBetter_iff] at hBetter
    rw [Direction.isBetter_eq_false_iff] at hNot ⊢
    exact Int.le_trans (Int.le_of_lt hBetter) hNot
  · exact direction.isBetter_irrefl other

/-- Before any call, no stop has been reached. -/
theorem tells_initial (numStops : Nat) (direction : Direction) :
    Tells direction [] (initial numStops direction) := by
  constructor
  · intro means stop
    have hGet : (Means.times means (initial numStops direction)).get stop = direction.unreached := by
      cases means <;> simp [Means.times, initial]
    rw [hGet]
    refine ⟨History.mem_offered_nil.mpr rfl, fun time hTime => ?_⟩
    rw [History.mem_offered_nil.mp hTime]
    exact direction.isBetter_irrefl _
  · intro means stop
    cases means <;> simp [Means.marks, initial, History.not_improved_nil]
  · simp [initial, History.not_improved_nil]

theorem hasRoom_initial (numStops : Nat) (direction : Direction) :
    HasRoom numStops (initial numStops direction) := by
  constructor
  · intro means
    cases means <;> simp [Means.times, initial, IndexTable.uniform]
  · intro means
    cases means <;> simp [Means.marks, initial, IndexSet.empty]
  · simp [initial, IndexSet.empty]

/-- An offer that is no improvement leaves all as it is. -/
theorem Tells.passed (tells : Tells direction history best)
    (hPassed : direction.isBetter time ((Means.times means best).get stop) = false) :
    Tells direction ((means.offer stop time, .improved false) :: history) best := by
  constructor
  · intro other otherStop
    have isBest := tells.isBest other otherStop
    refine ⟨History.mem_offered_cons.mpr (Or.inl isBest.mem), fun value hValue => ?_⟩
    rcases History.mem_offered_cons.mp hValue with hBefore | hOffer
    · exact isBest.not_better value hBefore
    · obtain ⟨rfl, rfl, rfl⟩ := Means.offer_inj.mp hOffer
      exact hPassed
  · intro other otherStop
    rw [tells.marks, History.improved_offer]
    simp
  · intro otherStop
    rw [tells.reachedLast, History.improved_offer]
    simp

/-- An offer that is an improvement takes the place of the best time of its stop, and marks it. -/
theorem Tells.entered (tells : Tells direction history best) (room : HasRoom numStops best)
    (hStop : stop < numStops)
    (hBetter : direction.isBetter time ((Means.times means best).get stop) = true) :
    Tells direction ((means.offer stop time, .improved true) :: history)
      (means.enter best stop time) := by
  constructor
  · intro other otherStop
    have isBest := tells.isBest other otherStop
    rw [Means.get_times_enter (by rw [room.times]; exact hStop)]
    split
    · rename_i hSame
      obtain ⟨rfl, rfl⟩ := hSame
      apply isBest.of_better hBetter
      intro value
      rw [History.mem_offered_cons, Means.offer_inj]
      simp [eq_comm]
    · rename_i hOther
      apply isBest.congr
      intro value
      rw [History.mem_offered_cons, Means.offer_inj]
      exact or_iff_left fun ⟨hMeans, hStop, _⟩ => hOther ⟨hMeans, hStop⟩
  · intro other otherStop
    rw [Means.marks_enter, History.improved_offer]
    by_cases hMeans : means = other
    · rw [if_pos hMeans, IndexSet.contains_insert_iff (by rw [room.marks]; exact hStop), tells.marks]
      simp [hMeans, or_comm]
    · rw [if_neg hMeans, tells.marks]
      simp [hMeans]
  · intro otherStop
    rw [Means.reachedLast_enter, tells.reachedLast, History.improved_offer]
    simp

/-- When a round begins the times stay, and nothing is reached in it so far. -/
theorem Tells.prepareRound (tells : Tells direction history best) (answer : Answer) :
    Tells direction ((.prepareRound, answer) :: history) best.prepareRound := by
  constructor
  · intro means stop
    rw [Means.times_prepareRound]
    apply (tells.isBest means stop).congr
    intro time
    rw [History.mem_offered_cons]
    exact or_iff_left Means.offer_ne_prepareRound.symm
  · intro means stop
    rw [History.improved_prepareRound]
    cases means <;> simp [Means.marks, BestTimes.prepareRound]
  · intro stop
    rw [History.improved_prepareRound]
    simpa [Means.marks, BestTimes.prepareRound] using tells.marks .anyhow stop

/-- Asking for a time leaves all as it is. -/
theorem Tells.ask (tells : Tells direction history best) (stop : Nat) (answer : Answer) :
    Tells direction ((.ask stop, answer) :: history) best := by
  have hOffer : ∀ means otherStop time, Call.ask stop ≠ Means.offer means otherStop time := by
    intro means otherStop time
    cases means <;> exact Call.noConfusion
  constructor
  · intro means otherStop
    apply (tells.isBest means otherStop).congr
    intro time
    rw [History.mem_offered_cons]
    exact or_iff_left (hOffer means otherStop time)
  · intro means otherStop
    rw [tells.marks, History.improved_cons]
    simp [hOffer]
  · intro otherStop
    rw [tells.reachedLast, History.improved_cons]
    simp [hOffer]

/-- Entering a time keeps the room for all stops. -/
theorem HasRoom.enter (room : HasRoom numStops best) (means : Means) (stop : Nat) (time : Int) :
    HasRoom numStops (means.enter best stop time) := by
  constructor
  · intro other
    rw [Means.times_enter]
    split <;> simp [room.times]
  · intro other
    rw [Means.marks_enter]
    split <;> simp [room.marks]
  · rw [Means.reachedLast_enter]
    exact room.reachedLast

theorem HasRoom.prepareRound (room : HasRoom numStops best) :
    HasRoom numStops best.prepareRound := by
  constructor
  · intro means
    rw [Means.times_prepareRound]
    exact room.times means
  · intro means
    cases means with
    | anyhow => simpa [Means.marks, BestTimes.prepareRound, IndexSet.clear, IndexSet.empty] using
        room.reachedLast
    | transit => simpa [Means.marks, BestTimes.prepareRound, IndexSet.clear, IndexSet.empty] using
        room.marks .transit
  · exact room.marks .anyhow

theorem HasRoom.numStops_eq (room : HasRoom numStops best) : best.numStops = numStops :=
  room.times .anyhow

/-- Every call on a known stop is answered, and the best times go on to tell of the calls. -/
theorem Tells.call (tells : Tells direction history best) (room : HasRoom numStops best)
    (hKnown : ∀ stop ∈ c.stop?, stop < numStops) :
    ∃ answer after, best.call direction c = .ok (answer, after) ∧
      Tells direction ((c, answer) :: history) after ∧ HasRoom numStops after := by
  have hOffer : ∀ means stop time, stop < numStops → ∃ answer after,
      best.call direction (Means.offer means stop time) = .ok (answer, after) ∧
        Tells direction ((Means.offer means stop time, answer) :: history) after ∧
          HasRoom numStops after := by
    intro means stop time hStop
    rcases means.call_offer (room.numStops_eq ▸ hStop) with ⟨hBetter, hCall⟩ | ⟨hPassed, hCall⟩
    · exact ⟨_, _, hCall, tells.entered room hStop hBetter, room.enter means stop time⟩
    · exact ⟨_, _, hCall, tells.passed hPassed, room⟩
  cases c with
  | offer stop time => exact hOffer .anyhow stop time (hKnown stop rfl)
  | offerTransit stop time => exact hOffer .transit stop time (hKnown stop rfl)
  | prepareRound => exact ⟨_, _, rfl, tells.prepareRound _, room.prepareRound⟩
  | ask stop =>
      have hInside : stop < best.numStops := room.numStops_eq ▸ hKnown stop rfl
      exact ⟨_, _, if_pos hInside, tells.ask .., room⟩

end Step

def recordAll (direction : Direction) (history : History) (best : BestTimes) :
    List Call → Checked (History × BestTimes)
  | [] => .ok (history, best)
  | c :: calls =>
    match best.call direction c with
    | .ok (answer, after) => recordAll direction ((c, answer) :: history) after calls
    | .error fault => .error fault

structure AgreeAt (stop : Nat) (best other : BestTimes) : Prop where
  time : best.time stop = other.time stop
  transitTime : best.transitTime stop = other.transitTime stop
  reachedCurrent : best.reachedCurrent.contains stop = other.reachedCurrent.contains stop
  reachedLast : best.reachedLast.contains stop = other.reachedLast.contains stop
  reachedByTransit : best.reachedByTransit.contains stop = other.reachedByTransit.contains stop

section Run

variable {direction : Direction} {numStops stop : Nat} {history : History} {best : BestTimes}
  {calls : List Call}

/-- Any calls on known stops are answered, and the best times tell of them all. -/
theorem Tells.recordAll (tells : Tells direction history best) (room : HasRoom numStops best)
    (hKnown : ∀ c ∈ calls, ∀ stop ∈ c.stop?, stop < numStops) :
    ∃ newer after, recordAll direction history best calls = .ok (newer ++ history, after) ∧
      newer.map Prod.fst = calls.reverse ∧ Tells direction (newer ++ history) after ∧
        HasRoom numStops after := by
  -- The log grows at the front, so the calls that follow start from a longer one.
  induction calls generalizing history best with
  | nil => exact ⟨[], best, rfl, rfl, tells, room⟩
  | cons c calls ih =>
      obtain ⟨hFirst, hRest⟩ := List.forall_mem_cons.mp hKnown
      obtain ⟨answer, next, hCall, nextTells, nextRoom⟩ := tells.call room hFirst
      obtain ⟨newer, after, hRun, hCalls, afterTells, afterRoom⟩ := ih nextTells nextRoom hRest
      refine ⟨newer ++ [(c, answer)], after, ?_, ?_, ?_, afterRoom⟩
      · rw [BestTimes.recordAll, hCall, List.append_assoc]
        exact hRun
      · rw [List.map_append, hCalls, List.reverse_cons]
        rfl
      · rw [List.append_assoc]
        exact afterTells

/-- The best of more times is no worse. -/
theorem IsBest.no_worse {times others : Set Int} {value other : Int}
    (isBest : IsBest direction times value) (otherBest : IsBest direction others other)
    (hMore : ∀ time ∈ times, time ∈ others) : direction.isBetter value other = false :=
  otherBest.not_better value (hMore value isBest.mem)

/-- Earlier offers are never forgotten. -/
theorem History.offered_append (newer history : History) (means : Means) {time : Int}
    (h : time ∈ history.offered direction means stop) :
    time ∈ History.offered (newer ++ history) direction means stop :=
  h.imp id fun ⟨answer, hMem⟩ => ⟨answer, List.mem_append_right _ hMem⟩

/-- An offer changes nothing at other stops. -/
theorem Means.agreeAt_enter (means : Means) (best : BestTimes) (time : Int) {other : Nat}
    (hOther : other ≠ stop) : AgreeAt other (means.enter best stop time) best := by
  have hDiffers : ¬ (stop = other) := Ne.symm hOther
  cases means <;>
    constructor <;>
      simp [enter, BestTimes.time, BestTimes.transitTime, IndexTable.get_set,
        IndexSet.contains_insert, hDiffers]

end Run

/-- After any calls on known stops the best times tell of these calls: the best time offered at each
stop in each way, and where offers were improvements in the current round and in the last one. An
offer that follows is an improvement exactly if it is better than all offered at its stop so far and
than the time of a stop never reached. If it is not, nothing changes, and if it is, nothing does at
other stops. Whatever is called, times never get worse. -/
theorem tells_history (direction : Direction) (numStops : Nat) {calls : List Call}
    (hKnown : ∀ c ∈ calls, ∀ stop ∈ c.stop?, stop < numStops) :
    ∃ history best,
      recordAll direction [] (initial numStops direction) calls = .ok (history, best) ∧
      history.map Prod.fst = calls.reverse ∧
      Tells direction history best ∧
      (∀ means stop time, stop < numStops → ∃ yes after,
        best.call direction (Means.offer means stop time) = .ok (.improved yes, after) ∧
        (yes = true ↔ ∀ other ∈ history.offered direction means stop,
          direction.isBetter time other = true) ∧
        (yes = false → after = best) ∧
        ∀ other, other ≠ stop → AgreeAt other after best) ∧
      ∀ more : List Call, (∀ c ∈ more, ∀ stop ∈ c.stop?, stop < numStops) →
        ∃ newer later, recordAll direction history best more = .ok (newer ++ history, later) ∧
          ∀ stop, direction.isBetter (best.time stop) (later.time stop) = false ∧
            direction.isBetter (best.transitTime stop) (later.transitTime stop) = false := by
  obtain ⟨history, best, hRun, hCalls, tells, room⟩ :=
    (tells_initial numStops direction).recordAll (hasRoom_initial numStops direction) hKnown
  rw [List.append_nil] at hRun tells
  refine ⟨history, best, hRun, hCalls, tells, fun means stop time hStop => ?_, fun more hMore => ?_⟩
  · have isBest := tells.isBest means stop
    rcases means.call_offer (room.numStops_eq ▸ hStop) with ⟨hBetter, hCall⟩ | ⟨hPassed, hCall⟩
    · refine ⟨true, _, hCall, ⟨fun _ other hOther => ?_, fun _ => rfl⟩, Bool.noConfusion,
        fun other hOther => means.agreeAt_enter best time hOther⟩
      have hNot := isBest.not_better other hOther
      rw [Direction.isBetter_iff] at hBetter ⊢
      rw [Direction.isBetter_eq_false_iff] at hNot
      omega
    · refine ⟨false, best, hCall, ⟨Bool.noConfusion, fun hAll => ?_⟩, fun _ => rfl,
        fun _ _ => ⟨rfl, rfl, rfl, rfl, rfl⟩⟩
      exact hPassed.symm.trans (hAll _ isBest.mem)
  · obtain ⟨newer, later, hMoreRun, -, laterTells, -⟩ := tells.recordAll room hMore
    have hNoWorse : ∀ means stop, direction.isBetter ((Means.times means best).get stop)
        ((Means.times means later).get stop) = false := fun means stop =>
      (tells.isBest means stop).no_worse (laterTells.isBest means stop) fun _ hTime =>
        History.offered_append newer history means hTime
    exact ⟨newer, later, hMoreRun, fun stop => ⟨hNoWorse .anyhow stop, hNoWorse .transit stop⟩⟩

/-- Two rounds of a search in reverse, for which later is better: the second offer is passed over,
and the last one is an improvement. -/
def twoRounds : List Call :=
  [.offer 0 100, .offer 0 90, .prepareRound, .offerTransit 1 200, .offer 0 110]

theorem tells_history_two_rounds :
    (∀ c ∈ twoRounds, ∀ stop ∈ c.stop?, stop < 2) ∧ ∃ history best,
      recordAll .reverse [] (initial 2 .reverse) twoRounds = .ok (history, best) ∧
      Tells .reverse history best ∧
      IsBest .reverse (history.offered .reverse .anyhow 0) 110 ∧
      history.Improved .anyhow 1 0 ∧ ¬ history.Improved .anyhow 1 1 ∧
      history.Improved .transit 0 1 ∧
      ∃ after, best.call .reverse (.offer 0 105) = .ok (.improved false, after) ∧ after = best := by
  have hKnown : ∀ c ∈ twoRounds, ∀ stop ∈ c.stop?, stop < 2 := by
    simp [twoRounds, Call.stop?]
  obtain ⟨history, best, hRun, -, tells, hOffers, -⟩ := tells_history .reverse 2 hKnown
  have hTold : best.time 0 = 110 ∧ best.reachedLast.contains 0 = true ∧
      best.reachedLast.contains 1 = false ∧ best.reachedByTransit.contains 1 = true := by
    cases hRun
    exact ⟨rfl, rfl, rfl, rfl⟩
  obtain ⟨hTime, hLast, hNotLast, hTransit⟩ := hTold
  refine ⟨hKnown, history, best, hRun, tells, hTime ▸ tells.isBest .anyhow 0,
    (tells.reachedLast 0).mp hLast, ?_, (tells.marks .transit 1).mp hTransit, ?_⟩
  · rw [← tells.reachedLast, hNotLast]
    exact Bool.noConfusion
  · obtain ⟨yes, after, hCall, hImproved, hSame, -⟩ := hOffers .anyhow 0 105 (by decide)
    have hNo : yes = false := by
      apply Bool.eq_false_iff.mpr
      intro hYes
      have hBetter := hImproved.mp hYes _ (tells.isBest .anyhow 0).mem
      rw [show (Means.times .anyhow best).get 0 = 110 from hTime] at hBetter
      cases hBetter
    subst hNo
    exact ⟨after, hCall, hSame rfl⟩

end JourneyPlanner.Search.BestTimes
