import JourneyPlanner.Proofs.Search.Standard.Books
import Mathlib.Data.List.Induction
import Mathlib.Order.Bounds.Basic

/-! What leaving many rides makes of the best times. Every best time becomes the least of what it
was and what is offered at its stop, and a stop is marked if that is less than it was; so the order
of the offers does not matter. Main statement: offers that are bettered by others can be left out. -/
namespace JourneyPlanner.Search.BestTimes

variable {direction : Direction} {stop : Nat} {time : Int}

def valuesAt (direction : Direction) (offers : List (Nat × Int)) (start : Int) (stop : Nat) :
    Set Int :=
  {value | value = direction.timeCriterion start ∨
    ∃ time, (stop, time) ∈ offers ∧ direction.timeCriterion time = value}

/-- One more offer is one more value at its stop. -/
theorem mem_valuesAt_append {offers : List (Nat × Int)} {start : Int} {other : Nat} {value : Int} :
    value ∈ valuesAt direction (offers ++ [(stop, time)]) start other ↔
      value ∈ valuesAt direction offers start other ∨
        other = stop ∧ direction.timeCriterion time = value := by
  simp only [valuesAt, Set.mem_ofPred_eq, List.mem_append, List.mem_singleton, Prod.mk.injEq,
    or_and_right, exists_or, and_assoc, exists_and_left, exists_eq_left, or_assoc]

/-- A table of best times with its marks, before and after some offers. -/
structure Lowered (direction : Direction) (offers : List (Nat × Int)) (times : IndexTable Int)
    (marks : IndexSet) (lower : IndexTable Int) (marked : IndexSet) : Prop where
  size_times : lower.cells.size = times.cells.size
  size_marks : marked.marks.size = marks.marks.size
  least : ∀ stop, IsLeast (valuesAt direction offers (times.get stop) stop)
    (direction.timeCriterion (lower.get stop))
  contains : ∀ stop, marked.contains stop =
    (marks.contains stop || direction.isBetter (lower.get stop) (times.get stop))

namespace Lowered

variable {offers others : List (Nat × Int)} {times lower : IndexTable Int} {marks marked : IndexSet}

theorem nil (direction : Direction) (times : IndexTable Int) (marks : IndexSet) :
    Lowered direction [] times marks times marks := by
  refine ⟨rfl, rfl, fun stop => ⟨Or.inl rfl, ?_⟩, fun stop => ?_⟩
  · rintro value (rfl | ⟨time, hMem, -⟩)
    · exact Int.le_refl _
    · cases hMem
  · rw [direction.isBetter_irrefl, Bool.or_false]

/-- An offer that beats nothing changes nothing. -/
theorem passed (lowered : Lowered direction offers times marks lower marked)
    (hPassed : direction.timeCriterion (lower.get stop) ≤ direction.timeCriterion time) :
    Lowered direction (offers ++ [(stop, time)]) times marks lower marked := by
  refine ⟨lowered.size_times, lowered.size_marks, fun other => ?_, lowered.contains⟩
  obtain ⟨hMem, hLeast⟩ := lowered.least other
  refine ⟨mem_valuesAt_append.mpr (Or.inl hMem), fun value hValue => ?_⟩
  rcases mem_valuesAt_append.mp hValue with hBefore | ⟨rfl, rfl⟩
  · exact hLeast hBefore
  · exact hPassed

/-- An offer that beats the best time of its stop takes its place. -/
theorem entered (lowered : Lowered direction offers times marks lower marked)
    (hInside : stop < times.cells.size) (hMarks : stop < marks.marks.size)
    (hBetter : direction.timeCriterion time < direction.timeCriterion (lower.get stop)) :
    Lowered direction (offers ++ [(stop, time)]) times marks (lower.set stop time)
      (marked.insert stop) := by
  have hGet : ∀ other, (lower.set stop time).get other =
      if stop = other then time else lower.get other :=
    fun other => IndexTable.get_set_of_lt (lowered.size_times ▸ hInside) other time
  refine ⟨(IndexTable.size_set ..).trans lowered.size_times,
    (IndexSet.size_insert ..).trans lowered.size_marks, fun other => ?_, fun other => ?_⟩
  · obtain ⟨hMem, hLeast⟩ := lowered.least other
    rw [hGet]
    split
    · rename_i hSame
      subst hSame
      refine ⟨mem_valuesAt_append.mpr (Or.inr ⟨rfl, rfl⟩), fun value hValue => ?_⟩
      rcases mem_valuesAt_append.mp hValue with hBefore | ⟨-, rfl⟩
      · exact Int.le_of_lt (Int.lt_of_lt_of_le hBetter (hLeast hBefore))
      · exact Int.le_refl _
    · rename_i hOther
      refine ⟨mem_valuesAt_append.mpr (Or.inl hMem), fun value hValue => ?_⟩
      rcases mem_valuesAt_append.mp hValue with hBefore | ⟨hSame, -⟩
      · exact hLeast hBefore
      · exact absurd hSame.symm hOther
  · rw [IndexSet.contains_insert, lowered.size_marks, hGet, lowered.contains]
    by_cases hSame : stop = other
    · subst hSame
      have hStart := (lowered.least stop).2 (Or.inl rfl)
      simp [hMarks, Direction.isBetter_iff.mpr (Int.lt_of_lt_of_le hBetter hStart)]
    · simp [hSame]

/-- Among offers that are all bettered by some of them, only those matter. -/
theorem unique {otherLower : IndexTable Int} {otherMarked : IndexSet}
    (lowered : Lowered direction offers times marks lower marked)
    (other : Lowered direction others times marks otherLower otherMarked)
    (hSubset : ∀ offer ∈ offers, offer ∈ others)
    (hCovered : ∀ offer ∈ others, ∃ better ∈ offers, better.1 = offer.1 ∧
      direction.timeCriterion better.2 ≤ direction.timeCriterion offer.2) :
    lower = otherLower ∧ marked = otherMarked := by
  have hSame : ∀ stop, lower.get stop = otherLower.get stop := by
    intro stop
    obtain ⟨hMem, hLeast⟩ := lowered.least stop
    refine Direction.timeCriterion_injective (IsLeast.unique ⟨?_, ?_⟩ (other.least stop))
    · exact hMem.imp id fun ⟨time, hOffer, hValue⟩ => ⟨time, hSubset _ hOffer, hValue⟩
    · rintro value (rfl | ⟨time, hOffer, rfl⟩)
      · exact hLeast (Or.inl rfl)
      · obtain ⟨⟨_, earlier⟩, hBetter, rfl, hLe⟩ := hCovered _ hOffer
        exact Int.le_trans (hLeast (Or.inr ⟨earlier, hBetter, rfl⟩)) hLe
  refine ⟨IndexTable.ext_of_get (lowered.size_times.trans other.size_times.symm) hSame,
    IndexSet.ext_of_contains (lowered.size_marks.trans other.size_marks.symm) fun stop => ?_⟩
  rw [lowered.contains, other.contains, hSame]

end Lowered

/-- The best times after a ride is left at a stop. It may beat the best one by transit there, and
then the best one. -/
def leaveAt (direction : Direction) (best : BestTimes) (offer : Nat × Int) : BestTimes :=
  match best.improveTransit? direction offer.1 offer.2 with
  | none => best
  | some better => (better.improve? direction offer.1 offer.2).getD better

/-- The tables have room for all stops, and the best time of a stop is no worse than the best one by
transit. -/
structure InOrder (direction : Direction) (numStops : Nat) (best : BestTimes) : Prop where
  size_times : best.times.cells.size = numStops
  size_transitTimes : best.transitTimes.cells.size = numStops
  size_reachedCurrent : best.reachedCurrent.marks.size = numStops
  size_reachedByTransit : best.reachedByTransit.marks.size = numStops
  time_le : ∀ stop, direction.timeCriterion (best.times.get stop) ≤
    direction.timeCriterion (best.transitTimes.get stop)

structure LoweredBoth (direction : Direction) (offers : List (Nat × Int))
    (before after : BestTimes) : Prop where
  times : Lowered direction offers before.times before.reachedCurrent after.times
    after.reachedCurrent
  transitTimes : Lowered direction offers before.transitTimes before.reachedByTransit
    after.transitTimes after.reachedByTransit
  reachedLast : after.reachedLast = before.reachedLast

variable {numStops : Nat} {before after : BestTimes} {offers others : List (Nat × Int)}

/-- The best time of a stop stays no worse than the best one by transit. -/
theorem LoweredBoth.time_le (lowered : LoweredBoth direction offers before after)
    (inOrder : before.InOrder direction numStops) (stop : Nat) :
    direction.timeCriterion (after.times.get stop) ≤
      direction.timeCriterion (after.transitTimes.get stop) := by
  have hLeast := (lowered.times.least stop).2
  rcases (lowered.transitTimes.least stop).1 with hStart | hOffer
  · exact Int.le_trans (hLeast (Or.inl rfl)) (hStart ▸ inOrder.time_le stop)
  · exact hLeast (Or.inr hOffer)

/-- One more ride is left. -/
theorem LoweredBoth.leaveAt (lowered : LoweredBoth direction offers before after)
    (inOrder : before.InOrder direction numStops) (hStop : stop < numStops) (time : Int) :
    LoweredBoth direction (offers ++ [(stop, time)]) before
      (after.leaveAt direction (stop, time)) := by
  have hLe := lowered.time_le inOrder stop
  unfold BestTimes.leaveAt
  split
  · rename_i hNone
    have hPassed := improveTransit?_eq_none_iff.mp hNone
    exact ⟨lowered.times.passed (Int.le_trans hLe hPassed), lowered.transitTimes.passed hPassed,
      lowered.reachedLast⟩
  · rename_i better hSome
    obtain ⟨hBetter, rfl⟩ := improveTransit?_eq_some_iff.mp hSome
    have hTransit := lowered.transitTimes.entered (inOrder.size_transitTimes ▸ hStop)
      (inOrder.size_reachedByTransit ▸ hStop) hBetter
    cases hImprove : BestTimes.improve? _ direction stop time with
    | none =>
        have hNone := improve?_eq_none_iff.mp hImprove
        exact ⟨lowered.times.passed hNone, hTransit, lowered.reachedLast⟩
    | some best =>
        obtain ⟨hBeatsAll, rfl⟩ := improve?_eq_some_iff.mp hImprove
        exact ⟨lowered.times.entered (inOrder.size_times ▸ hStop)
          (inOrder.size_reachedCurrent ▸ hStop) hBeatsAll, hTransit, lowered.reachedLast⟩

/-- What rides left one after the other make of the best times. -/
theorem InOrder.lowered (inOrder : before.InOrder direction numStops) (offers : List (Nat × Int))
    (hStops : ∀ offer ∈ offers, offer.1 < numStops) :
    LoweredBoth direction offers before (offers.foldl (BestTimes.leaveAt direction) before) := by
  induction offers using List.reverseRecOn with
  | nil => exact ⟨.nil .., .nil .., rfl⟩
  | append_singleton offers last ih =>
      rw [List.foldl_append]
      exact (ih fun offer hOffer => hStops offer (List.mem_append_left _ hOffer)).leaveAt inOrder
        (hStops last (List.mem_append_right _ (List.mem_singleton_self _))) last.2

/-- Offers that are bettered by others can be left out. -/
theorem InOrder.foldl_eq_of_covered (inOrder : before.InOrder direction numStops)
    (hStops : ∀ offer ∈ others, offer.1 < numStops) (hSubset : ∀ offer ∈ offers, offer ∈ others)
    (hCovered : ∀ offer ∈ others, ∃ better ∈ offers, better.1 = offer.1 ∧
      direction.timeCriterion better.2 ≤ direction.timeCriterion offer.2) :
    offers.foldl (BestTimes.leaveAt direction) before =
      others.foldl (BestTimes.leaveAt direction) before := by
  have first := inOrder.lowered offers fun offer hOffer => hStops offer (hSubset offer hOffer)
  have second := inOrder.lowered others hStops
  obtain ⟨hTimes, hCurrent⟩ := first.times.unique second.times hSubset hCovered
  obtain ⟨hTransit, hByTransit⟩ := first.transitTimes.unique second.transitTimes hSubset hCovered
  rw [BestTimes.mk.injEq]
  exact ⟨hTimes, hTransit, hCurrent, first.reachedLast.trans second.reachedLast.symm, hByTransit⟩

end JourneyPlanner.Search.BestTimes
