import JourneyPlanner.Proofs.Lookup.Tables
import JourneyPlanner.Proofs.Search.Problem
import JourneyPlanner.Proofs.TripSearch

/-! The legs that end a search are sorted by stop, and those of one stop are found by bisection.
Main statement: bisection looks at no leg outside of the list, and finds all legs of the stop. -/
namespace JourneyPlanner

section Lists

variable {α : Type} {key : α → Nat} {items : List α}

def keyBefore (key : α → Nat) (items : List α) (bound place : Nat) : Checked Bool :=
  (Checked.lookup items.toArray[place]?).map fun item => decide (key item < bound)

/-- The first items are those of smaller keys. -/
theorem key_lt_iff (hSorted : items.Pairwise fun a b => key a ≤ key b) {bound place : Nat}
    {item : α} (hItem : items[place]? = some item) :
    key item < bound ↔ place < items.countP fun item => decide (key item < bound) := by
  rw [List.countP_eq_length_filter]
  rw [← KeyIndex.filter_append_filter hSorted bound] at hItem
  constructor
  · intro hLt
    refine Nat.lt_of_not_le fun hLe => ?_
    rw [List.getElem?_append_right hLe] at hItem
    have hMem := (List.mem_filter.mp (List.mem_of_getElem? hItem)).2
    rw [decide_eq_true_eq] at hMem
    omega
  · intro hLt
    rw [List.getElem?_append_left hLt] at hItem
    exact of_decide_eq_true (List.mem_filter.mp (List.mem_of_getElem? hItem)).2

/-- Bisection of sorted items counts those of smaller keys. -/
theorem bisect_keyBefore (hSorted : items.Pairwise fun a b => key a ≤ key b) (bound : Nat) :
    bisect (keyBefore key items bound) 0 items.length =
      .ok (items.countP fun item => decide (key item < bound)) := by
  have hAnswer : ∀ {place}, place < items.length →
      keyBefore key items bound place =
        .ok (decide (place < items.countP fun item => decide (key item < bound))) := by
    intro place hPlace
    have hItem := List.getElem?_eq_getElem hPlace
    rw [keyBefore, List.getElem?_toArray, hItem,
      decide_eq_decide.mpr (key_lt_iff hSorted hItem).symm]
    rfl
  obtain ⟨first, hFirst⟩ := exists_bisect (keyBefore key items bound) 0 items.length
    fun place _ hPlace => ⟨_, hAnswer hPlace⟩
  obtain ⟨-, hInside, hBefore, hAt⟩ := bisect_boundary hFirst (Nat.zero_le _)
  have hLength := @List.countP_le_length _ (fun item => decide (key item < bound)) items
  rw [hFirst, Except.ok.injEq]
  rcases Nat.lt_trichotomy first (items.countP fun item => decide (key item < bound)) with
    hLt | hSame | hGt
  · have hTest := hAt (by omega)
    rw [hAnswer (by omega), Except.ok.injEq, decide_eq_false_iff_not] at hTest
    omega
  · exact hSame
  · have hTest := hBefore (by omega)
    rw [hAnswer (by omega), Except.ok.injEq, decide_eq_true_eq] at hTest
    omega

end Lists

namespace Search.Problem

/-- The legs that end the search from a stop, with both their ends found by bisection. -/
def readEndLegsAt (problem : Problem) (stop : Nat) : Checked (List WalkLeg) := do
  let start ← bisect (keyBefore WalkLeg.stop problem.endLegs stop) 0 problem.endLegs.length
  let finish ← bisect (keyBefore WalkLeg.stop problem.endLegs (stop + 1)) 0 problem.endLegs.length
  let legs ← Checked.lookup (between? problem.endLegs.toArray start finish)
  return legs.toList

/-- The legs that end the search are in order of their stops. -/
def HasSortedLegs (problem : Problem) : Prop :=
  problem.endLegs.Pairwise fun a b => a.stop ≤ b.stop

/-- The legs of a request are sorted by stop before the search reads them. -/
theorem hasSortedLegs_ofRequest (day : DayTimetable) (request : Request) (config : SearchConfig) :
    (ofRequest day request config).HasSortedLegs := by
  refine (List.pairwise_mergeSort ?_ ?_ request.endLegs).imp fun {a b} hBefore => ?_
  · intro a b c hFirst hSecond
    simp only [legBefore, decide_eq_true_eq] at *
    omega
  · intro a b
    simp only [legBefore, Bool.or_eq_true, decide_eq_true_eq]
    omega
  · simp only [legBefore, decide_eq_true_eq] at hBefore
    omega

/-- Over sorted legs, the binary search finds all the legs at a stop. -/
theorem HasSortedLegs.readEndLegsAt {problem : Problem} (sorted : problem.HasSortedLegs)
    (stop : Nat) : problem.readEndLegsAt stop = .ok (problem.endLegsAt stop) := by
  rw [Problem.readEndLegsAt, bisect_keyBefore sorted, bisect_keyBefore sorted]
  simp only [bind, Except.bind]
  rw [KeyIndex.between?_countP sorted]
  rfl

end Search.Problem

end JourneyPlanner
