import JourneyPlanner.Proofs.Pareto.Calls
import JourneyPlanner.Proofs.Pareto.History

/-! The laws of comparing. Criteria are compared one after the other, up to the first on which the
alternatives do not compare at all. Still, the outcome depends only on whether one is better on
some criterion, whether the other is, and whether there is one on which they do not compare. Main
statement: the outcome from the other side, that of an alternative with itself, that criteria may be
listed in any order, and that without slacks comparing is an order. -/
namespace JourneyPlanner

def Preference.swap : Preference → Preference
  | better => worse
  | worse => better
  | equal => equal
  | different => different

namespace Dominance

def swap : Dominance → Dominance
  | left => right
  | right => left
  | equal => equal
  | incomparable => incomparable

/-- The outcome by what is found on all criteria together: whether there is one on which the
alternatives do not compare, and on which sides there is a better value. -/
def ofFindings : (different leftBetter rightBetter : Bool) → Dominance
  | true, _, _ => incomparable
  | false, true, true => incomparable
  | false, true, false => left
  | false, false, true => right
  | false, false, false => equal

theorem ofFindings_swap (different leftBetter rightBetter : Bool) :
    ofFindings different rightBetter leftBetter =
      (ofFindings different leftBetter rightBetter).swap := by
  cases different <;> cases leftBetter <;> cases rightBetter <;> rfl

def ofPreferences (preferences : List Preference) : Dominance :=
  ofFindings (preferences.contains .different) (preferences.contains .better)
    (preferences.contains .worse)

/-- The order of the preferences does not matter. -/
theorem ofPreferences_perm {preferences others : List Preference}
    (hPerm : preferences.Perm others) : ofPreferences preferences = ofPreferences others := by
  simp only [ofPreferences, hPerm.contains_eq]

/-- Swapping every preference swaps the outcome. -/
theorem ofPreferences_map_swap (preferences : List Preference) :
    ofPreferences (preferences.map Preference.swap) = (ofPreferences preferences).swap := by
  have hContains : ∀ preference, (preferences.map Preference.swap).contains preference =
      preferences.contains preference.swap := by
    intro preference
    induction preferences with
    | nil => rfl
    | cons first rest ih =>
        have hFirst : (preference == first.swap) = (preference.swap == first) := by
          cases preference <;> cases first <;> rfl
        rw [List.map_cons, List.contains_cons, List.contains_cons, hFirst, ih]
  rw [ofPreferences, hContains, hContains, hContains]
  exact ofFindings_swap ..

end Dominance

namespace Criterion

variable {criterion : Criterion} {left right value : Int}

/-- Slack never makes a value smaller. -/
theorem le_relax {slack : Int} (hSlack : 0 ≤ (lessWithSlack slack).slack)
    (hValue : value ≤ highest) : value ≤ relax value slack := by
  simp only [Criterion.slack, relax, lowest, highest] at *
  omega

/-- No value is preferred to itself. -/
theorem compare_self (hSlack : 0 ≤ criterion.slack) (hValue : value ≤ highest) :
    criterion.compare value value = .equal := by
  cases criterion with
  | less => simp [compare]
  | lessWithSlack slack =>
      have hLe := le_relax hSlack hValue
      simp [compare, Int.not_lt.mpr hLe]
  | mustDiffer => simp [compare]

/-- With no slack below zero a better value is worse from the other side: a value that is far below
another is not far above it, even where sums meet the limits. -/
theorem compare_eq_worse_of_better (hSlack : 0 ≤ criterion.slack) (hLeft : left ≤ highest)
    (hRight : right ≤ highest) (h : criterion.compare left right = .better) :
    criterion.compare right left = .worse := by
  cases criterion with
  | less =>
      by_cases hBetter : left < right
      · simp [compare, hBetter, Int.not_lt.mpr (Int.le_of_lt hBetter)]
      · by_cases hWorse : right < left <;> simp [compare, hBetter, hWorse] at h
  | lessWithSlack slack =>
      by_cases hBetter : relax left slack < right
      · have hLeftLe := le_relax hSlack hLeft
        have hRightLe := le_relax hSlack hRight
        have hNot : ¬ relax right slack < left := by omega
        simp [compare, hBetter, hNot]
      · by_cases hWorse : relax right slack < left <;> simp [compare, hBetter, hWorse] at h
  | mustDiffer => by_cases hSame : left = right <;> simp [compare, hSame] at h

/-- Exchanging the two values exchanges the sides of the preference. -/
theorem compare_swap (hSlack : 0 ≤ criterion.slack) (hLeft : left ≤ highest)
    (hRight : right ≤ highest) :
    criterion.compare right left = (criterion.compare left right).swap := by
  cases h : criterion.compare left right with
  | better => exact compare_eq_worse_of_better hSlack hLeft hRight h
  | worse => exact compare_eq_better_of_worse h
  | equal => exact compare_eq_equal_comm h
  | different =>
      cases hBack : criterion.compare right left with
      | better =>
          rw [compare_eq_worse_of_better hSlack hRight hLeft hBack] at h
          cases h
      | worse =>
          rw [compare_eq_better_of_worse hBack] at h
          cases h
      | equal =>
          rw [compare_eq_equal_comm hBack] at h
          cases h
      | different => rfl

theorem isExact_of_slack_eq_zero (hSlack : criterion.slack = 0) : criterion.IsExact := by
  cases criterion with
  | less => trivial
  | lessWithSlack slack => exact hSlack
  | mustDiffer => trivial

end Criterion

namespace Rules

variable {rules other : Rules} {criteria : List Criterion} {left right values : List Int}

def preferences (criteria : List Criterion) (left right : List Int) : List Preference :=
  (criteria.zip (left.zip right)).map fun column => column.1.compare column.2.1 column.2.2

@[simp]
theorem preferences_cons (criterion : Criterion) (criteria : List Criterion) (l r : Int)
    (left right : List Int) : preferences (criterion :: criteria) (l :: left) (r :: right) =
      criterion.compare l r :: preferences criteria left right := rfl

/-- Ending a comparison early loses nothing: a criterion on which the alternatives do not compare
decides, whatever was found before it and is found after it. -/
theorem compareFrom_eq_ofFindings (leftBetter rightBetter : Bool) :
    compareFrom leftBetter rightBetter criteria left right =
      .ofFindings ((preferences criteria left right).contains .different)
        (leftBetter || (preferences criteria left right).contains .better)
        (rightBetter || (preferences criteria left right).contains .worse) := by
  induction criteria generalizing leftBetter rightBetter left right with
  | nil => cases leftBetter <;> cases rightBetter <;> rfl
  | cons criterion criteria ih =>
      match left, right with
      | [], _ => cases leftBetter <;> cases rightBetter <;> rfl
      | _ :: _, [] => cases leftBetter <;> cases rightBetter <;> rfl
      | l :: left, r :: right =>
          cases h : criterion.compare l r <;>
            simp [compareFrom, h, ih, Dominance.ofFindings]

/-- The outcome depends on the values through the preferences alone. -/
theorem compare_eq_ofPreferences (rules : Rules) (left right : List Int) :
    rules.compare left right = .ofPreferences (preferences rules.criteria left right) := by
  rw [compare, compareFrom_eq_ofFindings]
  rfl

/-- The criteria may be listed in any order, with the values in the same order. -/
theorem compare_perm {otherLeft otherRight : List Int}
    (hPerm : (rules.criteria.zip (left.zip right)).Perm
      (other.criteria.zip (otherLeft.zip otherRight))) :
    rules.compare left right = other.compare otherLeft otherRight := by
  rw [compare_eq_ofPreferences, compare_eq_ofPreferences]
  exact Dominance.ofPreferences_perm (hPerm.map _)

/-- Exchanging the two sides exchanges every preference. -/
theorem preferences_swap (hSlacks : ∀ criterion ∈ criteria, 0 ≤ criterion.slack)
    (hLeft : ∀ value ∈ left, value ≤ Criterion.highest)
    (hRight : ∀ value ∈ right, value ≤ Criterion.highest) :
    preferences criteria right left = (preferences criteria left right).map Preference.swap := by
  induction criteria generalizing left right with
  | nil => rfl
  | cons criterion criteria ih =>
      match left, right with
      | [], [] => rfl
      | [], _ :: _ => rfl
      | _ :: _, [] => rfl
      | l :: left, r :: right =>
          obtain ⟨hSlack, hSlacks⟩ := List.forall_mem_cons.mp hSlacks
          obtain ⟨hFirst, hLeft⟩ := List.forall_mem_cons.mp hLeft
          obtain ⟨hOther, hRight⟩ := List.forall_mem_cons.mp hRight
          rw [preferences_cons, preferences_cons, List.map_cons,
            Criterion.compare_swap hSlack hFirst hOther, ih hSlacks hLeft hRight]

theorem compare_swap (hSlacks : ∀ criterion ∈ rules.criteria, 0 ≤ criterion.slack)
    (hLeft : rules.Measures left) (hRight : rules.Measures right) :
    rules.compare right left = (rules.compare left right).swap := by
  have hSwap := preferences_swap hSlacks (fun value hValue => (hLeft.limits value hValue).2)
    (fun value hValue => (hRight.limits value hValue).2)
  rw [compare_eq_ofPreferences, hSwap, Dominance.ofPreferences_map_swap,
    ← compare_eq_ofPreferences]

theorem preferences_self (hSlacks : ∀ criterion ∈ criteria, 0 ≤ criterion.slack)
    (hValues : ∀ value ∈ values, value ≤ Criterion.highest) :
    ∀ preference ∈ preferences criteria values values, preference = .equal := by
  induction criteria generalizing values with
  | nil => simp [preferences]
  | cons criterion criteria ih =>
      cases values with
      | nil => simp [preferences]
      | cons value values =>
          obtain ⟨hSlack, hSlacks⟩ := List.forall_mem_cons.mp hSlacks
          obtain ⟨hValue, hValues⟩ := List.forall_mem_cons.mp hValues
          rw [preferences_cons]
          exact List.forall_mem_cons.mpr ⟨Criterion.compare_self hSlack hValue, ih hSlacks hValues⟩

theorem compare_self (hSlacks : ∀ criterion ∈ rules.criteria, 0 ≤ criterion.slack)
    (hValues : rules.Measures values) : rules.compare values values = .equal := by
  have hEqual := preferences_self hSlacks fun value hValue => (hValues.limits value hValue).2
  have hNone : ∀ preference, preference ≠ .equal →
      (preferences rules.criteria values values).contains preference = false := by
    intro preference hDiffers
    apply Bool.eq_false_iff.mpr
    intro hContains
    exact hDiffers (hEqual preference (List.contains_iff_mem.mp hContains))
  rw [compare_eq_ofPreferences, Dominance.ofPreferences, hNone _ (by decide), hNone _ (by decide),
    hNone _ (by decide)]
  rfl

/-- With no slack below zero: from the other side the outcome is the same with the sides exchanged,
an alternative equals itself, and the criteria may be listed in any order together with the values.
If no slack is above zero either, being better or as good is transitive, and only the same values
are equal. All this holds up to the limits, where sums with a slack are cut off. -/
theorem compare_lawful (hSlacks : ∀ criterion ∈ rules.criteria, 0 ≤ criterion.slack) :
    (∀ left right, rules.Measures left → rules.Measures right →
        rules.compare right left = (rules.compare left right).swap) ∧
      (∀ values, rules.Measures values → rules.compare values values = .equal) ∧
      (∀ (other : Rules) (left right otherLeft otherRight : List Int),
        (rules.criteria.zip (left.zip right)).Perm
            (other.criteria.zip (otherLeft.zip otherRight)) →
          rules.compare left right = other.compare otherLeft otherRight) ∧
      ((∀ criterion ∈ rules.criteria, criterion.slack ≤ 0) →
        (∀ first second third, rules.Measures first → rules.Measures second →
          rules.Measures third → rules.covers first second = true →
            rules.covers second third = true → rules.covers first third = true) ∧
        ∀ left right, rules.Measures left → rules.Measures right →
          (rules.compare left right = .equal ↔ left = right)) := by
  refine ⟨fun _ _ => compare_swap hSlacks, fun _ => compare_self hSlacks,
    fun _ _ _ _ _ => compare_perm, fun hNoSlack => ?_⟩
  have hExact : ∀ criterion ∈ rules.criteria, criterion.IsExact := fun criterion hMem =>
    Criterion.isExact_of_slack_eq_zero
      (Int.le_antisymm (hNoSlack criterion hMem) (hSlacks criterion hMem))
  constructor
  · intro first second third hFirst hSecond hThird
    exact (orderly_of_exact hExact).trans hFirst.fits hSecond.fits hThird.fits
  · intro left right hLeft hRight
    rw [compare, compareFrom_eq_equal_iff hExact hLeft.fits hRight.fits]
    simp

/-- Two values at the upper limit are within the slack of each other, so that the last criterion
decides, wherever it is listed. -/
theorem compare_lawful_at_the_limit :
    ∃ rules other plain : Rules,
      rules.criteria = [.lessWithSlack 5, .mustDiffer, .less] ∧
      other.criteria = [.less, .lessWithSlack 5, .mustDiffer] ∧
      plain.criteria = [.lessWithSlack 0, .mustDiffer] ∧
      rules.compare [Criterion.highest, 7, 0] [Criterion.highest - 3, 7, 1] = .left ∧
      rules.compare [Criterion.highest - 3, 7, 1] [Criterion.highest, 7, 0] = .right ∧
      rules.compare [Criterion.highest, 7, 0] [Criterion.highest, 7, 0] = .equal ∧
      other.compare [0, Criterion.highest, 7] [1, Criterion.highest - 3, 7] = .left ∧
      plain.covers [Criterion.lowest, 2] [Criterion.highest, 2] = true ∧
      plain.compare [0, 2] [1, 2] ≠ .equal := by
  have hSlacks : ∀ criterion ∈ [.lessWithSlack 5, .mustDiffer, .less],
      0 ≤ Criterion.slack criterion := by decide
  have hNoSlack : ∀ criterion ∈ [.lessWithSlack 0, .mustDiffer],
      0 ≤ Criterion.slack criterion ∧ Criterion.slack criterion ≤ 0 := by decide
  obtain ⟨hSwap, hSelf, hPerm, -⟩ := @compare_lawful ⟨_, by decide⟩ hSlacks
  obtain ⟨-, -, -, hExact⟩ := @compare_lawful ⟨_, by decide⟩
    fun criterion hMem => (hNoSlack criterion hMem).1
  obtain ⟨hTrans, hEqual⟩ := hExact fun criterion hMem => (hNoSlack criterion hMem).2
  have hLeft : compare ⟨[.lessWithSlack 5, .mustDiffer, .less], by decide⟩
      [Criterion.highest, 7, 0] [Criterion.highest - 3, 7, 1] = .left := by decide
  refine ⟨⟨_, by decide⟩, ⟨[.less, .lessWithSlack 5, .mustDiffer], by decide⟩, ⟨_, by decide⟩, rfl,
    rfl, rfl, hLeft, ?_, hSelf _ (by decide), ?_, ?_, ?_⟩
  · rw [hSwap _ _ (by decide) (by decide), hLeft]
    rfl
  · exact (hPerm _ _ _ _ _ (by decide)).symm.trans hLeft
  · exact hTrans [Criterion.lowest, 2] [0, 2] [Criterion.highest, 2] (by decide) (by decide)
      (by decide) (by decide) (by decide)
  · exact mt (hEqual [0, 2] [1, 2] (by decide) (by decide)).mp (by decide)

end Rules

end JourneyPlanner
