import JourneyPlanner.Proofs.Pareto.Survivors

/-! Fronts that differ, but not in what counts. If an alternative counts then so does each that
covers it, and so what does not count never takes the place of what does. Main statements: fronts that
were offered the same as far as it counts hold the same as far as it counts; and what a front covers
already need not be offered to it. -/
namespace JourneyPlanner.Front

variable {α : Type} {rules : Rules} {shape counts : List Int → Prop} {front other : Front α}
  {entries others : List (Entry α)}

/-- Two fronts that hold alternatives of the same values, of those that count. -/
def AlikeWhere (counts : List Int → Prop) (front other : Front α) : Prop :=
  ∀ values, counts values → ((∃ held ∈ front.entries, held.criteria = values) ↔
    ∃ held ∈ other.entries, held.criteria = values)

theorem AlikeWhere.refl (counts : List Int → Prop) (front : Front α) :
    front.AlikeWhere counts front := fun _ _ => Iff.rfl

theorem AlikeWhere.symm (alike : front.AlikeWhere counts other) : other.AlikeWhere counts front :=
  fun values hCounts => (alike values hCounts).symm

/-- Fronts alike in many values are alike in fewer of them. -/
theorem AlikeWhere.imp {fewer : List Int → Prop} (alike : front.AlikeWhere counts other)
    (hFront : ∀ held ∈ front.entries, fewer held.criteria → counts held.criteria)
    (hOther : ∀ held ∈ other.entries, fewer held.criteria → counts held.criteria) :
    front.AlikeWhere fewer other := by
  intro values hFewer
  constructor
  · rintro ⟨held, hHeld, rfl⟩
    exact (alike _ (hFront held hHeld hFewer)).mp ⟨held, hHeld, rfl⟩
  · rintro ⟨held, hHeld, rfl⟩
    exact (alike _ (hOther held hHeld hFewer)).mpr ⟨held, hHeld, rfl⟩

section Stays

variable (orderly : rules.Orderly shape) (hFront : ∀ held ∈ front.entries, shape held.criteria)
  (hEntries : ∀ entry ∈ entries, shape entry.criteria) (alike : front.Alike other)
  {offered : Entry α} (hOffered : offered ∈ front.entries ++ entries)
  (hNone : ∀ entry ∈ front.entries ++ entries,
    rules.dominates entry.criteria offered.criteria = false)

include orderly hFront hEntries alike hOffered hNone

/-- What stays in the first of two fronts that are alike is held by the second one or offered to it,
if all is offered there that the first one does not cover. -/
theorem Alike.exists_offered
    (hMatched : ∀ entry ∈ entries, front.covers rules entry.criteria = false →
      ∃ image ∈ others, image.criteria = entry.criteria) :
    ∃ image ∈ other.entries ++ others, image.criteria = offered.criteria := by
  have hFits : shape offered.criteria :=
    List.forall_mem_append.mpr ⟨hFront, hEntries⟩ offered hOffered
  -- what stays is covered only by what has the same values
  have hHeld : ∀ held ∈ front.entries,
      rules.covers held.criteria offered.criteria = true → held.criteria = offered.criteria := by
    intro held hHeld hCovers
    refine Decidable.byContradiction fun hDiffer => ?_
    have hBeats := (orderly.dominates_iff (hFront held hHeld) hFits).mpr ⟨hCovers, hDiffer⟩
    rw [hNone held (List.mem_append_left _ hHeld)] at hBeats
    cases hBeats
  cases hCovered : front.covers rules offered.criteria with
  | true =>
      obtain ⟨held, hMem, hCovers⟩ := List.any_eq_true.mp hCovered
      obtain ⟨image, hImage, hSame⟩ := (alike _).mp ⟨held, hMem, hHeld held hMem hCovers⟩
      exact ⟨image, List.mem_append_left _ hImage, hSame⟩
  | false =>
      rcases List.mem_append.mp hOffered with hOld | hNew
      · obtain ⟨image, hImage, hSame⟩ := (alike _).mp ⟨offered, hOld, rfl⟩
        exact ⟨image, List.mem_append_left _ hImage, hSame⟩
      · obtain ⟨image, hImage, hSame⟩ := hMatched offered hNew hCovered
        exact ⟨image, List.mem_append_right _ hImage, hSame⟩

/-- Nothing held by the second one or offered to it is better, if nothing else is offered there that
the first one does not cover. -/
theorem Alike.dominates_eq_false (hOthers : ∀ entry ∈ others, shape entry.criteria)
    (hBack : ∀ entry ∈ others, front.covers rules entry.criteria = false →
      ∃ image ∈ entries, image.criteria = entry.criteria) :
    ∀ entry ∈ other.entries ++ others,
      rules.dominates entry.criteria offered.criteria = false := by
  intro entry hEntry
  refine Bool.eq_false_iff.mpr fun hBeats => ?_
  have hNoBetter : ∀ held ∈ front.entries ++ entries, held.criteria ≠ entry.criteria := by
    intro held hHeld hSame
    rw [← hSame, hNone held hHeld] at hBeats
    cases hBeats
  rcases List.mem_append.mp hEntry with hOld | hNew
  · obtain ⟨image, hImage, hSame⟩ := (alike _).mpr ⟨entry, hOld, rfl⟩
    exact hNoBetter image (List.mem_append_left _ hImage) hSame
  · cases hCovered : front.covers rules entry.criteria with
    | true =>
        obtain ⟨held, hHeld, hCovers⟩ := List.any_eq_true.mp hCovered
        have hThrough := orderly.dominates_of_covers (hFront held hHeld) (hOthers entry hNew)
          (List.forall_mem_append.mpr ⟨hFront, hEntries⟩ offered hOffered) hCovers hBeats
        rw [hNone held (List.mem_append_left _ hHeld)] at hThrough
        cases hThrough
    | false =>
        obtain ⟨image, hImage, hSame⟩ := hBack entry hNew hCovered
        exact hNoBetter image (List.mem_append_right _ hImage) hSame

end Stays

section Orderly

variable (orderly : rules.Orderly shape) (tidy : front.Tidy rules) (tidyOther : other.Tidy rules)
  (hFront : ∀ held ∈ front.entries, shape held.criteria)
  (hEntries : ∀ entry ∈ entries, shape entry.criteria)
  (hOther : ∀ held ∈ other.entries, shape held.criteria)
  (hOthers : ∀ entry ∈ others, shape entry.criteria)

include orderly tidy tidyOther hFront hEntries hOther hOthers

/-- What counts and stays in a front stays in another one, if what counts among the alternatives held
and offered is the same. -/
theorem exists_of_offerAll_where
    (hBetter : ∀ {better worse}, shape better → shape worse → rules.covers better worse = true →
      counts worse → counts better)
    (hSame : ∀ values, counts values →
      ((∃ entry ∈ front.entries ++ entries, entry.criteria = values) ↔
        ∃ entry ∈ other.entries ++ others, entry.criteria = values)) {values : List Int}
    (hCounts : counts values)
    (h : ∃ held ∈ (front.offerAll rules entries).entries, held.criteria = values) :
    ∃ held ∈ (other.offerAll rules others).entries, held.criteria = values := by
  obtain ⟨⟨offered, hOffered, rfl⟩, hNone⟩ :=
    (exists_criteria_offerAll_iff orderly tidy hFront hEntries).mp h
  refine (exists_criteria_offerAll_iff orderly tidyOther hOther hOthers).mpr
    ⟨(hSame _ hCounts).mp ⟨offered, hOffered, rfl⟩, fun entry hEntry => ?_⟩
  refine Bool.eq_false_iff.mpr fun hBeats => ?_
  -- what would be better counts as well, and so stands on both sides
  have hBetterCounts : counts entry.criteria :=
    hBetter (List.forall_mem_append.mpr ⟨hOther, hOthers⟩ entry hEntry)
      (List.forall_mem_append.mpr ⟨hFront, hEntries⟩ offered hOffered)
      (Rules.covers_of_dominates hBeats) hCounts
  obtain ⟨image, hImage, hCriteria⟩ := (hSame _ hBetterCounts).mpr ⟨entry, hEntry, rfl⟩
  rw [← hCriteria, hNone image hImage] at hBeats
  cases hBeats

/-- If what counts among the alternatives held and offered is the same, then what counts among those
that stay is so too. -/
theorem AlikeWhere.offerAll
    (hBetter : ∀ {better worse}, shape better → shape worse → rules.covers better worse = true →
      counts worse → counts better)
    (hSame : ∀ values, counts values →
      ((∃ entry ∈ front.entries ++ entries, entry.criteria = values) ↔
        ∃ entry ∈ other.entries ++ others, entry.criteria = values)) :
    (front.offerAll rules entries).AlikeWhere counts (other.offerAll rules others) :=
  fun _ hCounts =>
    ⟨exists_of_offerAll_where orderly tidy tidyOther hFront hEntries hOther hOthers hBetter hSame
      hCounts,
    exists_of_offerAll_where orderly tidyOther tidy hOther hOthers hFront hEntries hBetter
      (fun values hValues => (hSame values hValues).symm) hCounts⟩

/-- Of two fronts that are alike the second one holds what stays in the first, if it was offered all
that was offered there, and nothing else that is not covered. -/
theorem Alike.exists_of_offerAll (alike : front.Alike other)
    (hMatched : ∀ entry ∈ entries, front.covers rules entry.criteria = false →
      ∃ image ∈ others, image.criteria = entry.criteria)
    (hBack : ∀ entry ∈ others, front.covers rules entry.criteria = false →
      ∃ image ∈ entries, image.criteria = entry.criteria) {values : List Int}
    (h : ∃ held ∈ (front.offerAll rules entries).entries, held.criteria = values) :
    ∃ held ∈ (other.offerAll rules others).entries, held.criteria = values := by
  obtain ⟨⟨offered, hOffered, rfl⟩, hNone⟩ :=
    (exists_criteria_offerAll_iff orderly tidy hFront hEntries).mp h
  exact (exists_criteria_offerAll_iff orderly tidyOther hOther hOthers).mpr
    ⟨alike.exists_offered orderly hFront hEntries hOffered hNone hMatched,
      alike.dominates_eq_false orderly hFront hEntries hOffered hNone hOthers hBack⟩

/-- Fronts that are alike stay so if all that only one of them is offered is covered. -/
theorem Alike.offerAll_of_covered (alike : front.Alike other)
    (hMatched : ∀ entry ∈ entries, front.covers rules entry.criteria = false →
      ∃ image ∈ others, image.criteria = entry.criteria)
    (hBack : ∀ entry ∈ others, front.covers rules entry.criteria = false →
      ∃ image ∈ entries, image.criteria = entry.criteria) :
    (front.offerAll rules entries).Alike (other.offerAll rules others) := by
  intro values
  constructor
  · exact alike.exists_of_offerAll orderly tidy tidyOther hFront hEntries hOther hOthers hMatched
      hBack
  · simp only [alike.covers_eq] at hMatched hBack
    exact alike.symm.exists_of_offerAll orderly tidyOther tidy hOther hOthers hFront hEntries hBack
      hMatched

end Orderly

end JourneyPlanner.Front
