import JourneyPlanner.Proofs.Pareto

/-! When comparing is an order. With a slack it is not: values close to each other count as equal,
but not those close to these. Without one, alternatives that cover each other are the same, and
one is better than another exactly if it covers it and differs. -/
namespace JourneyPlanner

namespace Criterion

/-- Only the same values count as equal. -/
def IsExact : Criterion → Prop
  | lessWithSlack slack => slack = 0
  | _ => True

/-- A value within the limits, if moving it up by a slack may meet them. -/
def Admits : Criterion → Int → Prop
  | lessWithSlack _, value => lowest ≤ value ∧ value ≤ highest
  | _, _ => True

/-- No slack changes no value. -/
theorem relax_zero {value : Int} (h : lowest ≤ value ∧ value ≤ highest) :
    relax value 0 = value := by
  simp only [relax, lowest, highest] at h ⊢
  omega

variable {criterion : Criterion} {left right : Int}

/-- Without slack, no worse means no greater. -/
theorem noWorse_lessWithSlack_zero (hLeft : lowest ≤ left ∧ left ≤ highest)
    (hRight : lowest ≤ right ∧ right ≤ highest) :
    (lessWithSlack 0).NoWorse left right ↔ left ≤ right := by
  rw [← noWorse_less]
  simp only [NoWorse, compare, relax_zero hLeft, relax_zero hRight]

/-- An exact criterion finds equal only what is the same. -/
theorem compare_eq_equal_iff (exact : criterion.IsExact) (hLeft : criterion.Admits left)
    (hRight : criterion.Admits right) : criterion.compare left right = .equal ↔ left = right := by
  cases criterion with
  | less =>
      simp only [compare]
      split
      · simp only [reduceCtorEq, false_iff]
        omega
      · split
        · simp only [reduceCtorEq, false_iff]
          omega
        · simp only [true_iff]
          omega
  | lessWithSlack slack =>
      cases exact
      simp only [compare, relax_zero hLeft, relax_zero hRight]
      split
      · simp only [reduceCtorEq, false_iff]
        omega
      · split
        · simp only [reduceCtorEq, false_iff]
          omega
        · simp only [true_iff]
          omega
  | mustDiffer =>
      by_cases hSame : left = right <;> simp [compare, hSame]

/-- Without slack, no worse is transitive. -/
theorem NoWorse.trans {first second third : Int} (exact : criterion.IsExact)
    (hAdmits : criterion.Admits first ∧ criterion.Admits second ∧ criterion.Admits third)
    (hFirst : criterion.NoWorse first second) (hSecond : criterion.NoWorse second third) :
    criterion.NoWorse first third := by
  cases criterion with
  | less =>
      rw [noWorse_less] at *
      exact Int.le_trans hFirst hSecond
  | lessWithSlack slack =>
      cases exact
      rw [noWorse_lessWithSlack_zero hAdmits.1 hAdmits.2.1] at hFirst
      rw [noWorse_lessWithSlack_zero hAdmits.2.1 hAdmits.2.2] at hSecond
      rw [noWorse_lessWithSlack_zero hAdmits.1 hAdmits.2.2]
      exact Int.le_trans hFirst hSecond
  | mustDiffer =>
      rw [noWorse_mustDiffer] at *
      exact hFirst.trans hSecond

/-- Without slack, values no worse than each other are the same. -/
theorem NoWorse.antisymm (exact : criterion.IsExact) (hLeft : criterion.Admits left)
    (hRight : criterion.Admits right) (h : criterion.NoWorse left right)
    (hBack : criterion.NoWorse right left) : left = right := by
  cases criterion with
  | less =>
      rw [noWorse_less] at *
      exact Int.le_antisymm h hBack
  | lessWithSlack slack =>
      cases exact
      rw [noWorse_lessWithSlack_zero hLeft hRight] at h
      rw [noWorse_lessWithSlack_zero hRight hLeft] at hBack
      exact Int.le_antisymm h hBack
  | mustDiffer => exact noWorse_mustDiffer.mp h

end Criterion

namespace Rules

/-- A value for every criterion, each of them admitted. -/
def Fits : List Criterion → List Int → Prop
  | [], [] => True
  | criterion :: criteria, value :: values => criterion.Admits value ∧ Fits criteria values
  | _, _ => False

variable {criteria : List Criterion} {left right : List Int}

theorem fits_nil_iff {values : List Int} : Fits [] values ↔ values = [] := by
  cases values <;> simp [Fits]

theorem fits_cons_iff {criterion : Criterion} {values : List Int} :
    Fits (criterion :: criteria) values ↔
      ∃ value rest, values = value :: rest ∧ criterion.Admits value ∧ Fits criteria rest := by
  cases values with
  | nil => simp [Fits]
  | cons value rest =>
      constructor
      · exact fun fits => ⟨value, rest, rfl, fits⟩
      · rintro ⟨_, _, hSame, fits⟩
        cases hSame
        exact fits

/-- Exact criteria find equal only values that are the same throughout. -/
theorem compareFrom_eq_equal_iff {leftBetter rightBetter : Bool}
    (exact : ∀ criterion ∈ criteria, criterion.IsExact) (hLeft : Fits criteria left)
    (hRight : Fits criteria right) :
    compareFrom leftBetter rightBetter criteria left right = .equal ↔
      leftBetter = false ∧ rightBetter = false ∧ left = right := by
  induction criteria generalizing leftBetter rightBetter left right with
  | nil =>
      obtain rfl := fits_nil_iff.mp hLeft
      obtain rfl := fits_nil_iff.mp hRight
      cases leftBetter <;> cases rightBetter <;> simp [compareFrom]
  | cons criterion criteria ih =>
      obtain ⟨hFirst, hRest⟩ := List.forall_mem_cons.mp exact
      obtain ⟨l, left, rfl, hAdmits, hLeft⟩ := fits_cons_iff.mp hLeft
      obtain ⟨r, right, rfl, hOther, hRight⟩ := fits_cons_iff.mp hRight
      have hSame := Criterion.compare_eq_equal_iff hFirst hAdmits hOther
      cases h : criterion.compare l r <;>
        simp_all [compareFrom, ih hRest hLeft hRight]

theorem NoWorse.trans {first second third : List Int}
    (exact : ∀ criterion ∈ criteria, criterion.IsExact) (hFirst : Fits criteria first)
    (hSecond : Fits criteria second) (hThird : Fits criteria third)
    (h : NoWorse criteria first second) (hNext : NoWorse criteria second third) :
    NoWorse criteria first third := by
  induction criteria generalizing first second third with
  | nil => trivial
  | cons criterion criteria ih =>
      obtain ⟨hExact, hRest⟩ := List.forall_mem_cons.mp exact
      obtain ⟨_, _, rfl, hFirst⟩ := fits_cons_iff.mp hFirst
      obtain ⟨_, _, rfl, hSecond⟩ := fits_cons_iff.mp hSecond
      obtain ⟨_, _, rfl, hThird⟩ := fits_cons_iff.mp hThird
      exact ⟨h.1.trans hExact ⟨hFirst.1, hSecond.1, hThird.1⟩ hNext.1,
        ih hRest hFirst.2 hSecond.2 hThird.2 h.2 hNext.2⟩

theorem NoWorse.antisymm (exact : ∀ criterion ∈ criteria, criterion.IsExact)
    (hLeft : Fits criteria left) (hRight : Fits criteria right)
    (h : NoWorse criteria left right) (hBack : NoWorse criteria right left) : left = right := by
  induction criteria generalizing left right with
  | nil => rw [fits_nil_iff.mp hLeft, fits_nil_iff.mp hRight]
  | cons criterion criteria ih =>
      obtain ⟨hExact, hRest⟩ := List.forall_mem_cons.mp exact
      obtain ⟨_, _, rfl, hLeft⟩ := fits_cons_iff.mp hLeft
      obtain ⟨_, _, rfl, hRight⟩ := fits_cons_iff.mp hRight
      rw [h.1.antisymm hExact hLeft.1 hRight.1 hBack.1, ih hRest hLeft.2 hRight.2 h.2 hBack.2]

/-- Alternatives of some shape are ordered by covering, and better ones are those strictly
before. -/
structure Orderly (rules : Rules) (shape : List Int → Prop) : Prop where
  refl : ∀ {values}, shape values → rules.covers values values = true
  trans : ∀ {first second third}, shape first → shape second → shape third →
    rules.covers first second = true → rules.covers second third = true →
    rules.covers first third = true
  antisymm : ∀ {left right}, shape left → shape right → rules.covers left right = true →
    rules.covers right left = true → left = right
  dominates_iff : ∀ {left right}, shape left → shape right →
    (rules.dominates left right = true ↔ rules.covers left right = true ∧ left ≠ right)

/-- Without slacks comparing is an order. -/
theorem orderly_of_exact {rules : Rules}
    (exact : ∀ criterion ∈ rules.criteria, criterion.IsExact) :
    rules.Orderly (Fits rules.criteria) := by
  have hEqual : ∀ {left right}, Fits rules.criteria left → Fits rules.criteria right →
      (rules.compare left right = .equal ↔ left = right) := fun hLeft hRight =>
    (compareFrom_eq_equal_iff exact hLeft hRight).trans (by simp)
  constructor
  · intro values hValues
    rw [covers, (hEqual hValues hValues).mpr rfl]
    rfl
  · intro first second third hFirst hSecond hThird h hNext
    rw [covers_iff] at *
    exact h.trans exact hFirst hSecond hThird hNext
  · intro left right hLeft hRight h hBack
    rw [covers_iff] at *
    exact h.antisymm exact hLeft hRight hBack
  · intro left right hLeft hRight
    rw [dominates, covers, ne_eq, ← hEqual hLeft hRight]
    cases rules.compare left right <;> decide

namespace Orderly

variable {rules : Rules} {shape : List Int → Prop} (orderly : rules.Orderly shape)

include orderly

/-- Some of the alternatives are ordered as all of them are. -/
theorem mono {fewer : List Int → Prop} (h : ∀ values, fewer values → shape values) :
    rules.Orderly fewer :=
  ⟨fun hValues => orderly.refl (h _ hValues),
    fun hFirst hSecond hThird => orderly.trans (h _ hFirst) (h _ hSecond) (h _ hThird),
    fun hLeft hRight => orderly.antisymm (h _ hLeft) (h _ hRight),
    fun hLeft hRight => orderly.dominates_iff (h _ hLeft) (h _ hRight)⟩

/-- Without slack, coverage is passed on. -/
theorem entails : rules.Entails shape fun left right => rules.covers left right = true :=
  ⟨orderly.refl, orderly.trans, fun _ _ h => h⟩

/-- Whatever covers an item dominates what that item dominates. -/
theorem dominates_of_covers {first second third : List Int} (hFirst : shape first)
    (hSecond : shape second) (hThird : shape third) (h : rules.covers first second = true)
    (hNext : rules.dominates second third = true) : rules.dominates first third = true := by
  obtain ⟨hCovers, hDiffer⟩ := (orderly.dominates_iff hSecond hThird).mp hNext
  apply (orderly.dominates_iff hFirst hThird).mpr
  refine ⟨orderly.trans hFirst hSecond hThird h hCovers, ?_⟩
  rintro rfl
  exact hDiffer (orderly.antisymm hSecond hFirst hCovers h)

end Orderly

end Rules

end JourneyPlanner
