import JourneyPlanner.Proofs.Pareto.Survivors

/-! A front as its users see it: they add to it, ask whether something would be added, and clear
it. Comparing with slacks is no order, and with a slack below zero each of two values may be better
than the other. But whatever is worse from one side is better from the other, and this is enough.
Main statement: whatever was called, no two entries compare, and an addition is answered as asking
for it was. -/
namespace JourneyPlanner

namespace Criterion

variable {criterion : Criterion} {left right : Int}

/-- A worse value is better from the other side. The converse fails for a slack below zero. -/
theorem compare_eq_better_of_worse (h : criterion.compare left right = .worse) :
    criterion.compare right left = .better := by
  cases criterion with
  | less =>
      by_cases hBetter : left < right
      · simp [compare, hBetter] at h
      · by_cases hWorse : right < left
        · simp only [compare, hWorse, if_true]
        · simp [compare, hBetter, hWorse] at h
  | lessWithSlack slack =>
      by_cases hBetter : relax left slack < right
      · simp [compare, hBetter] at h
      · by_cases hWorse : relax right slack < left
        · simp only [compare, hWorse, if_true]
        · simp [compare, hBetter, hWorse] at h
  | mustDiffer => by_cases hSame : left = right <;> simp [compare, hSame] at h

theorem compare_eq_equal_comm (h : criterion.compare left right = .equal) :
    criterion.compare right left = .equal := by
  cases criterion with
  | less =>
      by_cases hBetter : left < right
      · simp [compare, hBetter] at h
      · by_cases hWorse : right < left
        · simp [compare, hBetter, hWorse] at h
        · simp only [compare, hBetter, hWorse, if_false]
  | lessWithSlack slack =>
      by_cases hBetter : relax left slack < right
      · simp [compare, hBetter] at h
      · by_cases hWorse : relax right slack < left
        · simp [compare, hBetter, hWorse] at h
        · simp only [compare, hBetter, hWorse, if_false]
  | mustDiffer =>
      by_cases hSame : left = right
      · simp only [compare, hSame, if_true]
      · simp [compare, hSame] at h

end Criterion

namespace Rules

variable {rules : Rules} {criteria : List Criterion} {leftBetter rightBetter : Bool}
  {left right : List Int}

/-- What comes out worse, or equal, found nothing better, and comes out better, or equal, from the
other side. -/
theorem compareFrom_swap {verdict : Dominance}
    (h : compareFrom leftBetter rightBetter criteria left right = verdict)
    (hVerdict : verdict = .right ∨ verdict = .equal) :
    leftBetter = false ∧ (verdict = .equal → rightBetter = false) ∧
      compareFrom rightBetter leftBetter criteria right left =
        if verdict = .right then .left else .equal := by
  fun_induction compareFrom leftBetter rightBetter criteria left right with
  | case1 _ _ _ _ _ _ _ _ hValue ih => exact absurd (ih h).1 Bool.noConfusion
  | case2 _ _ _ _ _ _ _ _ hValue ih =>
      obtain ⟨hLeft, hRight, hSwap⟩ := ih h
      rw [compareFrom, Criterion.compare_eq_better_of_worse hValue]
      exact ⟨hLeft, fun hEqual => absurd (hRight hEqual) Bool.noConfusion, hSwap⟩
  | case3 _ _ _ _ _ _ _ _ hValue ih =>
      rw [compareFrom, Criterion.compare_eq_equal_comm hValue]
      exact ih h
  | case4 | case5 | case8 =>
      subst h
      simp at hVerdict
  | case6 _ _ _ hEnd | case7 _ _ _ hEnd =>
      subst h
      rw [compareFrom]
      · simp
      · exact fun _ _ _ _ _ _ hRest hRight hLeft => hEnd _ _ _ _ _ _ hRest hLeft hRight
/-- Whatever is preferred from one side is preferred from the other. -/
theorem compare_eq_left_of_right (h : rules.compare left right = .right) :
    rules.compare right left = .left := (compareFrom_swap h (Or.inl rfl)).2.2

theorem compare_eq_equal_comm (h : rules.compare left right = .equal) :
    rules.compare right left = .equal := (compareFrom_swap h (Or.inr rfl)).2.2

/-- Neither of two alternatives is better, nor are they equal, from whichever side one compares. -/
def Apart (rules : Rules) (left right : List Int) : Prop :=
  rules.compare left right = .incomparable ∧ rules.compare right left = .incomparable

/-- Two alternatives do not compare if the first is no better than the second and not equal to it,
and the second is no better than the first. -/
theorem apart_of_not_covers (hCovers : rules.covers left right = false)
    (hDominates : rules.dominates right left = false) : rules.Apart left right := by
  rw [covers, Bool.or_eq_false_iff, beq_eq_false_iff_ne, beq_eq_false_iff_ne] at hCovers
  rw [dominates, beq_eq_false_iff_ne] at hDominates
  constructor
  · cases h : rules.compare left right with
    | left => exact absurd h hCovers.1
    | right => exact absurd (compare_eq_left_of_right h) hDominates
    | equal => exact absurd h hCovers.2
    | incomparable => rfl
  · cases h : rules.compare right left with
    | left => exact absurd h hDominates
    | right => exact absurd (compare_eq_left_of_right h) hCovers.1
    | equal => exact absurd (compare_eq_equal_comm h) hCovers.2
    | incomparable => rfl

end Rules

namespace Front

variable {α : Type} {rules : Rules} {front : Front α}

inductive Call (α : Type) where
  | add (entry : Entry α)
  | qualifies (criteria : List Int)
  | clear

def perform (rules : Rules) (front : Front α) : Call α → Option Bool × Front α
  | .add entry =>
    match front.offer? rules entry with
    | some after => (some true, after)
    | none => (some false, front)
  | .qualifies criteria => (some (!front.covers rules criteria), front)
  | .clear => (none, empty)

def performAll (rules : Rules) (front : Front α) (calls : List (Call α)) : Front α :=
  calls.foldl (fun front call => (front.perform rules call).2) front

/-- No two entries compare. -/
def Apart (rules : Rules) (front : Front α) : Prop :=
  front.entries.Pairwise fun first second => rules.Apart first.criteria second.criteria

/-- Entries that were held stay apart, and the entry put in does not compare with those it did not
take out. -/
theorem Apart.insert {entry : Entry α} (apart : front.Apart rules)
    (h : front.covers rules entry.criteria = false) : (front.insert rules entry).Apart rules := by
  refine List.pairwise_append.mpr ⟨apart.filter _, List.pairwise_singleton .., ?_⟩
  intro held hHeld other hOther
  obtain rfl := List.mem_singleton.mp hOther
  obtain ⟨hMem, hKept⟩ := List.mem_filter.mp hHeld
  exact Rules.apart_of_not_covers (by simpa using List.any_eq_false.mp h held hMem)
    (by simpa using hKept)

/-- An addition is refused without effect if it is covered, and else accepted. -/
theorem perform_add (rules : Rules) (front : Front α) (entry : Entry α) :
    front.covers rules entry.criteria = true ∧
        front.perform rules (.add entry) = (some false, front) ∨
      front.covers rules entry.criteria = false ∧
        front.perform rules (.add entry) = (some true, front.insert rules entry) := by
  cases hCovers : front.covers rules entry.criteria with
  | true => exact Or.inl ⟨rfl, by simp [perform, offer?, hCovers]⟩
  | false => exact Or.inr ⟨rfl, by simp [perform, offer?, hCovers]⟩

/-- Every call keeps the entries apart. -/
theorem Apart.perform (apart : front.Apart rules) (call : Call α) :
    (front.perform rules call).2.Apart rules := by
  cases call with
  | add entry =>
      rcases perform_add rules front entry with ⟨-, hSame⟩ | ⟨hCovers, hInsert⟩
      · rw [hSame]
        exact apart
      · rw [hInsert]
        exact apart.insert hCovers
  | qualifies criteria => exact apart
  | clear => exact List.Pairwise.nil

/-- No history of calls makes the items of a front dominate one another. -/
theorem Apart.performAll (apart : front.Apart rules) (calls : List (Call α)) :
    (front.performAll rules calls).Apart rules := by
  induction calls generalizing front with
  | nil => exact apart
  | cons call calls ih => exact ih (apart.perform call)

/-- Whatever the rules, and whatever was called before: no two entries compare, from whichever side.
Asking changes nothing, and an addition is answered as asking for it was. Turned away, it leaves the
front as it is. Otherwise the front holds what it held, in its order, without what the new entry is
better than, and then the new entry. -/
theorem apart_performAll (rules : Rules) (calls : List (Call α)) :
    let front := empty.performAll rules calls
    front.Apart rules ∧
      (∀ criteria, (front.perform rules (.qualifies criteria)).2 = front) ∧
      ∀ entry,
        (front.perform rules (.add entry)).1 =
            (front.perform rules (.qualifies entry.criteria)).1 ∧
          (front.perform rules (.add entry) = (some false, front) ∨
            front.perform rules (.add entry) =
              (some true,
                ⟨(front.entries.filter fun held =>
                    !rules.dominates entry.criteria held.criteria) ++ [entry]⟩)) := by
  intro front
  have hNone : (empty : Front α).Apart rules := List.Pairwise.nil
  refine ⟨hNone.performAll calls, fun _ => rfl, fun entry => ?_⟩
  rcases perform_add rules front entry with ⟨hCovers, hAdd⟩ | ⟨hCovers, hAdd⟩
  · refine ⟨?_, Or.inl hAdd⟩
    rw [hAdd, perform, hCovers, Bool.not_true]
  · refine ⟨?_, Or.inr hAdd⟩
    rw [hAdd, perform, hCovers, Bool.not_false]

/-- With a slack below zero each of two values is better than the other. The first keeps the second
out, as it is asked first. -/
example : (Criterion.lessWithSlack (-2)).compare 3 4 = .better ∧
    (Criterion.lessWithSlack (-2)).compare 4 3 = .better := by decide

end Front

end JourneyPlanner
