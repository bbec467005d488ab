import JourneyPlanner.Pareto

/-! What a front never loses. Comparing with a slack is not transitive, so an alternative may be
covered by an entry that is later taken out; but whatever order follows from the comparison
is kept: for every alternative ever offered, some entry comes before it in that order. -/
namespace JourneyPlanner

namespace Criterion

def NoWorse (criterion : Criterion) (left right : Int) : Prop :=
  criterion.compare left right = .better ∨ criterion.compare left right = .equal

@[simp]
theorem noWorse_less {left right : Int} : less.NoWorse left right ↔ left ≤ right := by
  simp only [NoWorse, compare]
  by_cases hLt : left < right
  · simp only [hLt, if_true, true_or, true_iff]
    omega
  · by_cases hGt : right < left
    · simp only [hLt, hGt, if_true, if_false, reduceCtorEq, or_self, false_iff]
      omega
    · simp only [hLt, hGt, if_false, reduceCtorEq, false_or, true_iff]
      omega

/-- Values that must differ are no worse only if they are the same. -/
@[simp]
theorem noWorse_mustDiffer {left right : Int} : mustDiffer.NoWorse left right ↔ left = right := by
  simp only [NoWorse, compare]
  by_cases hSame : left = right <;> simp [hSame]

end Criterion

namespace Rules

def NoWorse : List Criterion → List Int → List Int → Prop
  | criterion :: criteria, l :: left, r :: right =>
    criterion.NoWorse l r ∧ NoWorse criteria left right
  | _, _, _ => True

/-- The comparison favours neither side or the left one exactly when left is no worse. -/
theorem compareFrom_iff {leftBetter rightBetter : Bool} {criteria : List Criterion}
    {left right : List Int} :
    (compareFrom leftBetter rightBetter criteria left right = .left ∨
        compareFrom leftBetter rightBetter criteria left right = .equal) ↔
      rightBetter = false ∧ NoWorse criteria left right := by
  induction criteria generalizing leftBetter rightBetter left right with
  | nil => cases leftBetter <;> cases rightBetter <;> simp [compareFrom, NoWorse]
  | cons criterion criteria ih =>
      match left, right with
      | [], _ => cases leftBetter <;> cases rightBetter <;> simp [compareFrom, NoWorse]
      | _ :: _, [] => cases leftBetter <;> cases rightBetter <;> simp [compareFrom, NoWorse]
      | l :: left, r :: right =>
          cases h : criterion.compare l r <;>
            simp [compareFrom, NoWorse, Criterion.NoWorse, h, ih]

/-- One alternative covers another exactly if it is no worse on any criterion. -/
theorem covers_iff {rules : Rules} {left right : List Int} :
    rules.covers left right = true ↔ NoWorse rules.criteria left right := by
  rw [covers, Bool.or_eq_true, beq_iff_eq, beq_iff_eq, compare, compareFrom_iff]
  simp

/-- An item that dominates a candidate covers it. -/
theorem covers_of_dominates {rules : Rules} {left right : List Int}
    (h : rules.dominates left right = true) : rules.covers left right = true := by
  rw [dominates] at h
  simp [covers, h]

/-- An order of alternatives of some shape that covering implies. -/
structure Entails (rules : Rules) (shape : List Int → Prop) (order : List Int → List Int → Prop) :
    Prop where
  refl : ∀ {values}, shape values → order values values
  trans : ∀ {first second third}, shape first → shape second → shape third →
    order first second → order second third → order first third
  of_covers : ∀ {left right}, shape left → shape right → rules.covers left right = true →
    order left right

end Rules

namespace Front

variable {α : Type} {rules : Rules} {shape : List Int → Prop} {order : List Int → List Int → Prop}
  {front : Front α} {entry other : Entry α}

/-- An offer that is accepted replaces the front. -/
theorem offer_eq_of_some {after : Front α} (h : front.offer? rules entry = some after) :
    front.offer rules entry = after := by
  rw [offer, h, Option.getD_some]

theorem eq_insert_of_some {after : Front α} (h : front.offer? rules entry = some after) :
    after = front.insert rules entry := by
  unfold offer? at h
  split at h
  · cases h
  · exact (Option.some.inj h).symm

/-- An offer that is refused changes nothing. -/
theorem offer_eq_of_none (h : front.offer? rules entry = none) :
    front.offer rules entry = front := by
  rw [offer, h, Option.getD_none]

/-- An offer is covered and changes nothing, or it is inserted. -/
theorem offer_eq_or (rules : Rules) (front : Front α) (entry : Entry α) :
    front.offer rules entry = front ∧ front.covers rules entry.criteria = true ∨
      front.offer rules entry = front.insert rules entry := by
  unfold offer offer?
  split
  · rename_i hCovers
    exact Or.inl ⟨rfl, hCovers⟩
  · exact Or.inr rfl

theorem mem_of_mem_offer (h : other ∈ (front.offer rules entry).entries) :
    other ∈ front.entries ∨ other = entry := by
  rcases offer_eq_or rules front entry with ⟨hSame, -⟩ | hInsert
  · rw [hSame] at h
    exact Or.inl h
  · rw [hInsert, mem_insert] at h
    exact h.imp And.left id

/-- A front holds nothing but what it held before and what was offered. -/
theorem mem_of_mem_offerAll {entries : List (Entry α)}
    (h : other ∈ (front.offerAll rules entries).entries) :
    other ∈ front.entries ∨ other ∈ entries := by
  induction entries generalizing front with
  | nil => exact Or.inl h
  | cons first rest ih =>
      rcases ih h with hFront | hRest
      · rcases mem_of_mem_offer hFront with hFront | rfl
        · exact Or.inl hFront
        · exact Or.inr (List.mem_cons_self ..)
      · exact Or.inr (List.mem_cons_of_mem _ hRest)

section Entails

variable (entails : rules.Entails shape order)

include entails

/-- After an offer some entry comes before the one offered. -/
theorem exists_of_offer (hFront : ∀ held ∈ front.entries, shape held.criteria)
    (hEntry : shape entry.criteria) :
    ∃ held ∈ (front.offer rules entry).entries, order held.criteria entry.criteria := by
  rcases offer_eq_or rules front entry with ⟨hSame, hCovers⟩ | hInsert
  · obtain ⟨held, hHeld, hCovers⟩ := List.any_eq_true.mp hCovers
    rw [hSame]
    exact ⟨held, hHeld, entails.of_covers (hFront held hHeld) hEntry hCovers⟩
  · rw [hInsert]
    exact ⟨entry, mem_insert.mpr (Or.inr rfl), entails.refl hEntry⟩

/-- An offer takes out an entry only for one that comes before it. -/
theorem offer_keeps (hFront : ∀ held ∈ front.entries, shape held.criteria)
    (hEntry : shape entry.criteria) {values : List Int} (hValues : shape values)
    (h : ∃ held ∈ front.entries, order held.criteria values) :
    ∃ held ∈ (front.offer rules entry).entries, order held.criteria values := by
  obtain ⟨held, hHeld, hBefore⟩ := h
  rcases offer_eq_or rules front entry with ⟨hSame, -⟩ | hInsert
  · rw [hSame]
    exact ⟨held, hHeld, hBefore⟩
  · rw [hInsert]
    cases hDominates : rules.dominates entry.criteria held.criteria with
    | false => exact ⟨held, mem_insert.mpr (Or.inl ⟨hHeld, hDominates⟩), hBefore⟩
    | true =>
        have hOrder := entails.of_covers hEntry (hFront held hHeld)
          (Rules.covers_of_dominates hDominates)
        exact ⟨entry, mem_insert.mpr (Or.inr rfl),
          entails.trans hEntry (hFront held hHeld) hValues hOrder hBefore⟩

/-- After several offers some entry comes before each of those offered, and before all that some
entry came before at first. -/
theorem offerAll_keeps (front : Front α) (entries : List (Entry α))
    (hFront : ∀ held ∈ front.entries, shape held.criteria)
    (hEntries : ∀ entry ∈ entries, shape entry.criteria) :
    (∀ entry ∈ entries, ∃ held ∈ (front.offerAll rules entries).entries,
        order held.criteria entry.criteria) ∧
      ∀ values, shape values → (∃ held ∈ front.entries, order held.criteria values) →
        ∃ held ∈ (front.offerAll rules entries).entries, order held.criteria values := by
  induction entries generalizing front with
  | nil => exact ⟨by simp, fun _ _ h => h⟩
  | cons first rest ih =>
      obtain ⟨hFirst, hRest⟩ := List.forall_mem_cons.mp hEntries
      have hNext : ∀ held ∈ (front.offer rules first).entries, shape held.criteria := by
        intro held hHeld
        rcases mem_of_mem_offer hHeld with hOld | rfl
        · exact hFront held hOld
        · exact hFirst
      obtain ⟨hOffered, hKept⟩ := ih _ hNext hRest
      refine ⟨List.forall_mem_cons.mpr ⟨?_, hOffered⟩, fun values hValues hServed => ?_⟩
      · exact hKept _ hFirst (exists_of_offer entails hFront hFirst)
      · exact hKept values hValues (offer_keeps entails hFront hFirst hValues hServed)

end Entails

end Front

end JourneyPlanner
