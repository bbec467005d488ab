import JourneyPlanner.Proofs.Pareto.Survivors

/-! What a front keeps of all that was ever offered to it. Without slacks it holds exactly the best
alternatives, however they came. With slacks the one that takes an entry out may be worse by a
slack, and may be taken out in turn. Main statements: what a front without slacks holds, and that
with slacks every offer that takes out entries loses one slack at most. -/
namespace JourneyPlanner

namespace Criterion

/-- By how much more a value may be and still be as good. -/
def slack : Criterion → Int
  | lessWithSlack slack => slack
  | _ => 0

/-- The left value is no worse than the right one but for some slacks. -/
def Within (slacks : Nat) : Criterion → (left right : Int) → Prop
  | mustDiffer, left, right => left = right
  | criterion, left, right => left ≤ right + slacks * criterion.slack

variable {criterion : Criterion} {first second third left right : Int} {slacks others : Nat}

instance : Decidable (criterion.Within slacks left right) :=
  match criterion with
  | mustDiffer => inferInstanceAs (Decidable (left = right))
  | less => inferInstanceAs (Decidable (left ≤ right + slacks * less.slack))
  | lessWithSlack slack =>
    inferInstanceAs (Decidable (left ≤ right + slacks * (lessWithSlack slack).slack))

theorem Within.refl (criterion : Criterion) (slacks : Nat) (hSlack : 0 ≤ criterion.slack)
    (value : Int) : criterion.Within slacks value value := by
  have := Int.mul_nonneg (Int.natCast_nonneg slacks) hSlack
  cases criterion <;> simp only [Within] <;> omega

/-- Slacks add up along a chain of comparisons. -/
theorem Within.trans (hFirst : criterion.Within slacks first second)
    (hSecond : criterion.Within others second third) :
    criterion.Within (slacks + others) first third := by
  cases criterion <;> simp only [Within, Int.natCast_add, Int.add_mul] at * <;> omega

theorem Within.mono (hSlack : 0 ≤ criterion.slack) (hLe : slacks ≤ others)
    (h : criterion.Within slacks left right) : criterion.Within others left right := by
  have := Int.mul_le_mul_of_nonneg_right (Int.ofNat_le.mpr hLe) hSlack
  cases criterion <;> simp only [Within] at * <;> omega

/-- A value that counts as no worse is so but for one slack. -/
theorem NoWorse.within (hSlack : 0 ≤ criterion.slack) (hLeft : criterion.Admits left)
    (hRight : criterion.Admits right) (h : criterion.NoWorse left right) :
    criterion.Within 1 left right := by
  cases criterion with
  | less => simpa [Within, slack] using h
  | lessWithSlack slack =>
      simp only [Criterion.slack] at hSlack
      have hLow : left ≤ relax left slack := by
        simp only [Admits, relax, highest, lowest] at *
        omega
      have hHigh : relax right slack ≤ right + slack := by
        simp only [Admits, relax, highest, lowest] at *
        omega
      simp only [Within, Criterion.slack]
      by_cases hBetter : relax left slack < right
      · omega
      · by_cases hWorse : relax right slack < left
        · simp [NoWorse, compare, hBetter, hWorse] at h
        · omega
  | mustDiffer => simpa [Within] using h

end Criterion

namespace Rules

/-- A value for every criterion, each of them within the limits. -/
structure Measures (rules : Rules) (values : List Int) : Prop where
  length_eq : values.length = rules.criteria.length
  limits : ∀ value ∈ values, Criterion.lowest ≤ value ∧ value ≤ Criterion.highest

instance (rules : Rules) (values : List Int) : Decidable (rules.Measures values) :=
  decidable_of_iff (values.length = rules.criteria.length ∧
      ∀ value ∈ values, Criterion.lowest ≤ value ∧ value ≤ Criterion.highest)
    ⟨fun ⟨hLength, hLimits⟩ => ⟨hLength, hLimits⟩,
      fun measures => ⟨measures.length_eq, measures.limits⟩⟩

/-- The left alternative is no worse on any criterion but for some slacks. -/
def Within (slacks : Nat) : List Criterion → (left right : List Int) → Prop
  | criterion :: criteria, l :: left, r :: right =>
    criterion.Within slacks l r ∧ Within slacks criteria left right
  | _, _, _ => True

variable {rules : Rules} {criteria : List Criterion} {left right : List Int} {slacks others : Nat}

instance Within.decidable (slacks : Nat) :
    (criteria : List Criterion) → (left right : List Int) →
      Decidable (Within slacks criteria left right)
  | criterion :: criteria, l :: left, r :: right =>
    have := Within.decidable slacks criteria left right
    inferInstanceAs (Decidable (criterion.Within slacks l r ∧ Within slacks criteria left right))
  | [], _, _ => isTrue trivial
  | _ :: _, [], _ => isTrue trivial
  | _ :: _, _ :: _, [] => isTrue trivial

theorem Within.refl (hSlacks : ∀ criterion ∈ criteria, 0 ≤ criterion.slack) (slacks : Nat)
    (values : List Int) : Within slacks criteria values values := by
  induction criteria generalizing values with
  | nil => trivial
  | cons criterion criteria ih =>
      obtain ⟨hSlack, hRest⟩ := List.forall_mem_cons.mp hSlacks
      cases values with
      | nil => trivial
      | cons value values => exact ⟨.refl criterion slacks hSlack value, ih hRest values⟩

theorem Within.trans {first second third : List Int} (hSecond : Fits criteria second)
    (h : Within slacks criteria first second) (hNext : Within others criteria second third) :
    Within (slacks + others) criteria first third := by
  induction criteria generalizing first second third with
  | nil => trivial
  | cons criterion criteria ih =>
      obtain ⟨value, second, rfl, -, hRest⟩ := fits_cons_iff.mp hSecond
      cases first with
      | nil => trivial
      | cons f first =>
          cases third with
          | nil => trivial
          | cons t third => exact ⟨h.1.trans hNext.1, ih hRest h.2 hNext.2⟩

theorem Within.mono (hSlacks : ∀ criterion ∈ criteria, 0 ≤ criterion.slack) (hLe : slacks ≤ others)
    (h : Within slacks criteria left right) : Within others criteria left right := by
  induction criteria generalizing left right with
  | nil => trivial
  | cons criterion criteria ih =>
      obtain ⟨hSlack, hRest⟩ := List.forall_mem_cons.mp hSlacks
      cases left with
      | nil => trivial
      | cons l left =>
          cases right with
          | nil => trivial
          | cons r right => exact ⟨h.1.mono hSlack hLe, ih hRest h.2⟩

/-- What is no worse is within one slack. -/
theorem NoWorse.within (hSlacks : ∀ criterion ∈ criteria, 0 ≤ criterion.slack)
    (hLeft : Fits criteria left) (hRight : Fits criteria right) (h : NoWorse criteria left right) :
    Within 1 criteria left right := by
  induction criteria generalizing left right with
  | nil => trivial
  | cons criterion criteria ih =>
      obtain ⟨hSlack, hRest⟩ := List.forall_mem_cons.mp hSlacks
      obtain ⟨l, left, rfl, hAdmits, hLeft⟩ := fits_cons_iff.mp hLeft
      obtain ⟨r, right, rfl, hOther, hRight⟩ := fits_cons_iff.mp hRight
      exact ⟨h.1.within hSlack hAdmits hOther, ih hRest hLeft hRight h.2⟩

/-- An alternative that covers another one is no worse but for one slack. -/
theorem within_of_covers (hSlacks : ∀ criterion ∈ rules.criteria, 0 ≤ criterion.slack)
    (hLeft : Fits rules.criteria left) (hRight : Fits rules.criteria right)
    (h : rules.covers left right = true) : Within 1 rules.criteria left right :=
  (covers_iff.mp h).within hSlacks hLeft hRight

/-- Values that measure something fit. -/
theorem Measures.fits {values : List Int} (measures : rules.Measures values) :
    Fits rules.criteria values := by
  obtain ⟨hLength, hLimits⟩ := measures
  generalize rules.criteria = criteria at hLength
  induction criteria generalizing values with
  | nil => exact fits_nil_iff.mpr (List.length_eq_zero_iff.mp hLength)
  | cons criterion criteria ih =>
      obtain ⟨value, rest, rfl⟩ := List.exists_cons_of_length_eq_add_one hLength
      obtain ⟨hValue, hRest⟩ := List.forall_mem_cons.mp hLimits
      refine ⟨?_, ih hRest (Nat.succ.inj hLength)⟩
      cases criterion with
      | lessWithSlack slack => exact hValue
      | _ => trivial

end Rules

namespace Front

variable {α : Type} {rules : Rules} {front : Front α} {entry : Entry α} {entries : List (Entry α)}

def evicts (rules : Rules) (front : Front α) (entry : Entry α) : Bool :=
  !front.covers rules entry.criteria &&
    front.entries.any fun held => rules.dominates entry.criteria held.criteria

def numEvicting (rules : Rules) : Front α → List (Entry α) → Nat
  | _, [] => 0
  | front, entry :: rest =>
    (front.evicts rules entry).toNat + numEvicting rules (front.offer rules entry) rest

/-- Some entry is no worse than these values but for some slacks. -/
def Serves (rules : Rules) (front : Front α) (slacks : Nat) (values : List Int) : Prop :=
  ∃ held ∈ front.entries, Rules.Within slacks rules.criteria held.criteria values

instance (rules : Rules) (front : Front α) (slacks : Nat) (values : List Int) :
    Decidable (front.Serves rules slacks values) :=
  inferInstanceAs (Decidable (∃ held ∈ front.entries,
    Rules.Within slacks rules.criteria held.criteria values))

def Fitting (rules : Rules) (front : Front α) : Prop :=
  ∀ held ∈ front.entries, Rules.Fits rules.criteria held.criteria

theorem Fitting.offer (fitting : front.Fitting rules)
    (hEntry : Rules.Fits rules.criteria entry.criteria) :
    (front.offer rules entry).Fitting rules := by
  intro held hHeld
  rcases mem_of_mem_offer hHeld with hOld | rfl
  · exact fitting held hOld
  · exact hEntry

/-- Offers that fit the criteria keep the front fitting them. -/
theorem Fitting.offerAll (fitting : front.Fitting rules)
    (hEntries : ∀ entry ∈ entries, Rules.Fits rules.criteria entry.criteria) :
    (front.offerAll rules entries).Fitting rules := by
  intro held hHeld
  rcases mem_of_mem_offerAll hHeld with hOld | hNew
  · exact fitting held hOld
  · exact hEntries held hNew

section Slacks

variable (hSlacks : ∀ criterion ∈ rules.criteria, 0 ≤ criterion.slack)

include hSlacks

/-- A front that serves values within few slacks serves them within more. -/
theorem Serves.mono {slacks others : Nat} {values : List Int} (hLe : slacks ≤ others)
    (h : front.Serves rules slacks values) : front.Serves rules others values := by
  obtain ⟨held, hHeld, hWithin⟩ := h
  exact ⟨held, hHeld, hWithin.mono hSlacks hLe⟩

/-- For an offer that is turned away some entry is no worse but for one slack. Any other is in the
front itself. -/
theorem serves_offer (fitting : front.Fitting rules)
    (hEntry : Rules.Fits rules.criteria entry.criteria) :
    (front.offer rules entry).Serves rules (front.covers rules entry.criteria).toNat
      entry.criteria := by
  unfold offer offer?
  cases hCovers : front.covers rules entry.criteria with
  | true =>
      obtain ⟨held, hHeld, hOver⟩ := List.any_eq_true.mp hCovers
      exact ⟨held, hHeld, Rules.within_of_covers hSlacks (fitting held hHeld) hEntry hOver⟩
  | false => exact ⟨entry, mem_insert.mpr (Or.inr rfl), .refl hSlacks _ _⟩

/-- An offer that takes out entries may lose a slack. No other loses anything. -/
theorem Serves.offer (fitting : front.Fitting rules)
    (hEntry : Rules.Fits rules.criteria entry.criteria) {slacks : Nat} {values : List Int}
    (h : front.Serves rules slacks values) :
    (front.offer rules entry).Serves rules (slacks + (front.evicts rules entry).toNat) values := by
  obtain ⟨held, hHeld, hWithin⟩ := h
  have hMore := hWithin.mono hSlacks (Nat.le_add_right slacks (front.evicts rules entry).toNat)
  unfold Front.offer offer?
  cases hCovers : front.covers rules entry.criteria with
  | true => exact ⟨held, hHeld, hMore⟩
  | false =>
      cases hDominates : rules.dominates entry.criteria held.criteria with
      | false => exact ⟨held, mem_insert.mpr (Or.inl ⟨hHeld, hDominates⟩), hMore⟩
      | true =>
          have hEvicts : front.evicts rules entry = true := by
            rw [evicts, hCovers, Bool.not_false, Bool.true_and]
            exact List.any_eq_true.mpr ⟨held, hHeld, hDominates⟩
          have hOver := Rules.within_of_covers hSlacks hEntry (fitting held hHeld)
            (Rules.covers_of_dominates hDominates)
          refine ⟨entry, mem_insert.mpr (Or.inr rfl), ?_⟩
          rw [hEvicts, Nat.add_comm]
          exact hOver.trans (fitting held hHeld) hWithin

/-- Several offers lose as many slacks at most as there are some among them that take out entries.
-/
theorem Serves.offerAll (fitting : front.Fitting rules)
    (hEntries : ∀ entry ∈ entries, Rules.Fits rules.criteria entry.criteria) {slacks : Nat}
    {values : List Int} (h : front.Serves rules slacks values) :
    (front.offerAll rules entries).Serves rules (slacks + front.numEvicting rules entries)
      values := by
  induction entries generalizing front slacks with
  | nil => exact h
  | cons first rest ih =>
      obtain ⟨hFirst, hRest⟩ := List.forall_mem_cons.mp hEntries
      rw [numEvicting, ← Nat.add_assoc]
      exact ih (fitting.offer hFirst) hRest (h.offer hSlacks fitting hFirst)

/-- For an alternative with others offered before and after it, some entry is no worse but for one
slack if it was turned away, and one for every later offer that took out entries. -/
theorem serves_offerAll {earlier later : List (Entry α)}
    (hEntries : ∀ offered ∈ earlier ++ entry :: later,
      Rules.Fits rules.criteria offered.criteria) :
    (empty.offerAll rules (earlier ++ entry :: later)).Serves rules
      (((empty.offerAll rules earlier).covers rules entry.criteria).toNat +
        ((empty.offerAll rules earlier).offer rules entry).numEvicting rules later)
      entry.criteria := by
  obtain ⟨hEarlier, hRest⟩ := List.forall_mem_append.mp hEntries
  obtain ⟨hEntry, hLater⟩ := List.forall_mem_cons.mp hRest
  have hNone : (empty : Front α).Fitting rules := List.forall_mem_nil _
  have hBefore := hNone.offerAll hEarlier
  have hSplit : empty.offerAll rules (earlier ++ entry :: later) =
      ((empty.offerAll rules earlier).offer rules entry).offerAll rules later := List.foldl_append
  rw [hSplit]
  exact (serves_offer hSlacks hBefore hEntry).offerAll hSlacks (hBefore.offer hEntry) hLater

end Slacks

/-- Without slacks a front holds exactly those of all alternatives offered that none of them is
better than, and of equal ones the first, in the order of the offers. So the values it holds do not
depend on this order, and of whatever was offered something as good or better is held. -/
theorem offerAll_exact (hExact : ∀ criterion ∈ rules.criteria, criterion.IsExact)
    (hEntries : ∀ entry ∈ entries, rules.Measures entry.criteria) :
    Survive rules entries (empty.offerAll rules entries) ∧
      (∀ others, others.Perm entries →
        (empty.offerAll rules entries).Alike (empty.offerAll rules others)) ∧
      ∀ entry ∈ entries, ∃ held ∈ (empty.offerAll rules entries).entries,
        rules.dominates held.criteria entry.criteria = true ∨
          held.criteria = entry.criteria := by
  have orderly := Rules.orderly_of_exact hExact
  have hFits : ∀ entry ∈ entries, Rules.Fits rules.criteria entry.criteria :=
    fun entry hEntry => (hEntries entry hEntry).fits
  refine ⟨survive_offerAll orderly entries hFits, fun others hPerm => ?_, fun entry hEntry => ?_⟩
  · have hSame : ∀ values, (∃ entry ∈ entries, entry.criteria = values) ↔
        ∃ entry ∈ others, entry.criteria = values := fun values => by simp only [hPerm.mem_iff]
    exact Alike.offerAll orderly (fun _ => Iff.rfl) (tidy_empty rules) (tidy_empty rules)
      (List.forall_mem_nil _) hFits hSame
  · obtain ⟨held, hHeld, hCovers⟩ := (offerAll_keeps orderly.entails empty entries
      (List.forall_mem_nil _) hFits).1 entry hEntry
    refine ⟨held, hHeld, or_iff_not_imp_right.mpr fun hDiffer => ?_⟩
    have hOffered := (mem_of_mem_offerAll hHeld).resolve_left List.not_mem_nil
    exact (orderly.dominates_iff (hFits held hOffered) (hFits entry hEntry)).mpr
      ⟨hCovers, hDiffer⟩

/-- Alternatives offered in turn: the second takes out the first, the third does not compare, the
fourth equals the second and the last is worse. -/
def samples : List (Entry Nat) :=
  [⟨0, [3, 5, 0]⟩, ⟨1, [2, 5, 0]⟩, ⟨2, [9, 9, 1]⟩, ⟨3, [2, 5, 0]⟩, ⟨4, [4, 6, 0]⟩]

theorem offerAll_exact_samples :
    ∃ rules : Rules, rules.criteria = [.less, .lessWithSlack 0, .mustDiffer] ∧
      (empty.offerAll rules samples).items = [1, 2] ∧
      Survive rules samples (empty.offerAll rules samples) ∧
      (empty.offerAll rules samples).Alike (empty.offerAll rules samples.reverse) := by
  have hEntries : ∀ entry ∈ samples, Rules.Measures
      ⟨[.less, .lessWithSlack 0, .mustDiffer], by decide⟩ entry.criteria := by decide
  obtain ⟨hSurvive, hOrder, -⟩ := offerAll_exact (by simp [Criterion.IsExact]) hEntries
  exact ⟨_, rfl, by decide +kernel, hSurvive, hOrder _ (List.reverse_perm _)⟩

end Front

end JourneyPlanner
