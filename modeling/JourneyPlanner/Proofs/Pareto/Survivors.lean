import JourneyPlanner.Proofs.Pareto.Orderly
import Mathlib.Data.List.Basic
import Mathlib.Data.List.Induction

/-! What stays in a front. Whatever the rules, no entry is better than another; and where comparing
is an order, the front does not depend on how it came about. Main statement: of the alternatives
offered exactly those stay that none is better than, and of equal ones the first. -/
namespace JourneyPlanner

namespace Front

variable {α : Type} {rules : Rules} {shape : List Int → Prop} {front : Front α}
  {entry : Entry α} {entries : List (Entry α)}

def Tidy (rules : Rules) (front : Front α) : Prop :=
  front.entries.Pairwise fun first second =>
    rules.dominates first.criteria second.criteria = false ∧
      rules.dominates second.criteria first.criteria = false

theorem tidy_empty (rules : Rules) : (empty : Front α).Tidy rules := List.Pairwise.nil

/-- An offer keeps the front tidy. -/
theorem Tidy.offer (tidy : front.Tidy rules) (entry : Entry α) :
    (front.offer rules entry).Tidy rules := by
  unfold Front.offer offer?
  split
  · exact tidy
  · rename_i hCovers
    refine List.pairwise_append.mpr ⟨tidy.filter _, List.pairwise_singleton .., ?_⟩
    intro held hHeld other hOther
    obtain rfl := List.mem_singleton.mp hOther
    obtain ⟨hMem, hKept⟩ := List.mem_filter.mp hHeld
    refine ⟨Bool.eq_false_iff.mpr fun hBetter => hCovers ?_, by simpa using hKept⟩
    exact List.any_eq_true.mpr ⟨held, hMem, Rules.covers_of_dominates hBetter⟩

/-- Offers keep the front tidy. -/
theorem Tidy.offerAll (tidy : front.Tidy rules) (entries : List (Entry α)) :
    (front.offerAll rules entries).Tidy rules := by
  induction entries generalizing front with
  | nil => exact tidy
  | cons first rest ih => exact ih (tidy.offer first)

/-- Two fronts that hold alternatives of the same values. -/
def Alike (front other : Front α) : Prop :=
  ∀ values, (∃ held ∈ front.entries, held.criteria = values) ↔
    ∃ held ∈ other.entries, held.criteria = values

theorem Alike.symm {other : Front α} (alike : front.Alike other) : other.Alike front :=
  fun values => (alike values).symm

/-- Fronts alike cover the same values. -/
theorem Alike.covers_eq {other : Front α} (alike : front.Alike other) (values : List Int) :
    front.covers rules values = other.covers rules values := by
  have hOne : ∀ {first second : Front α}, first.Alike second →
      first.covers rules values = true → second.covers rules values = true := by
    intro first second same h
    obtain ⟨held, hHeld, hCovers⟩ := List.any_eq_true.mp h
    obtain ⟨image, hImage, hSame⟩ := (same held.criteria).mp ⟨held, hHeld, rfl⟩
    exact List.any_eq_true.mpr ⟨image, hImage, hSame ▸ hCovers⟩
  exact Bool.eq_iff_iff.mpr ⟨hOne alike, hOne alike.symm⟩

section Orderly

variable (orderly : rules.Orderly shape)

include orderly

/-- No item of a tidy front dominates another. -/
theorem Tidy.not_dominates (tidy : front.Tidy rules)
    (hFront : ∀ held ∈ front.entries, shape held.criteria) {first second : Entry α}
    (hFirst : first ∈ front.entries) (hSecond : second ∈ front.entries) :
    rules.dominates first.criteria second.criteria = false := by
  refine List.Pairwise.forall_of_forall_of_flip (fun held hHeld => ?_) (tidy.imp fun h => h.1)
    (tidy.imp fun h => h.2) hFirst hSecond
  refine Bool.eq_false_iff.mpr fun h => ?_
  exact ((orderly.dominates_iff (hFront held hHeld) (hFront held hHeld)).mp h).2 rfl

/-- The values in a front after some offers are those of all alternatives that none of them is
better than. -/
theorem exists_criteria_offerAll_iff (tidy : front.Tidy rules)
    (hFront : ∀ held ∈ front.entries, shape held.criteria)
    (hEntries : ∀ entry ∈ entries, shape entry.criteria) {values : List Int} :
    (∃ held ∈ (front.offerAll rules entries).entries, held.criteria = values) ↔
      (∃ offered ∈ front.entries ++ entries, offered.criteria = values) ∧
        ∀ other ∈ front.entries ++ entries, rules.dominates other.criteria values = false := by
  obtain ⟨hOffered, hKept⟩ := offerAll_keeps orderly.entails front entries hFront hEntries
  have hShape : ∀ other ∈ front.entries ++ entries, shape other.criteria := by
    intro other hOther
    rcases List.mem_append.mp hOther with hOld | hNew
    · exact hFront other hOld
    · exact hEntries other hNew
  have hMem : ∀ held ∈ (front.offerAll rules entries).entries, held ∈ front.entries ++ entries :=
    fun held hHeld => List.mem_append.mpr (mem_of_mem_offerAll hHeld)
  have hCovered : ∀ other ∈ front.entries ++ entries,
      ∃ held ∈ (front.offerAll rules entries).entries,
        rules.covers held.criteria other.criteria = true := by
    intro other hOther
    rcases List.mem_append.mp hOther with hOld | hNew
    · exact hKept _ (hFront other hOld) ⟨other, hOld, orderly.refl (hFront other hOld)⟩
    · exact hOffered other hNew
  constructor
  · rintro ⟨held, hHeld, rfl⟩
    refine ⟨⟨held, hMem held hHeld, rfl⟩, fun other hOther => Bool.eq_false_iff.mpr fun h => ?_⟩
    obtain ⟨better, hBetter, hCovers⟩ := hCovered other hOther
    have hBeats := orderly.dominates_of_covers (hShape _ (hMem better hBetter)) (hShape _ hOther)
      (hShape _ (hMem held hHeld)) hCovers h
    have hTidy := (tidy.offerAll entries).not_dominates orderly
      (fun other hOther => hShape _ (hMem other hOther)) hBetter hHeld
    rw [hBeats] at hTidy
    cases hTidy
  · rintro ⟨⟨offered, hMemOffered, rfl⟩, hNone⟩
    obtain ⟨held, hHeld, hCovers⟩ := hCovered offered hMemOffered
    refine ⟨held, hHeld, Decidable.byContradiction fun hDiffer => ?_⟩
    have hBetter := (orderly.dominates_iff (hShape _ (hMem held hHeld))
      (hShape _ hMemOffered)).mpr ⟨hCovers, hDiffer⟩
    rw [hNone held (hMem held hHeld)] at hBetter
    cases hBetter

/-- Fronts that were offered alternatives of the same values hold such again, whatever the order of
the offers. -/
theorem Alike.offerAll {other : Front α} {others : List (Entry α)} (alike : front.Alike other)
    (tidy : front.Tidy rules) (tidyOther : other.Tidy rules)
    (hFront : ∀ held ∈ front.entries, shape held.criteria)
    (hEntries : ∀ entry ∈ entries, shape entry.criteria)
    (hSame : ∀ values, (∃ entry ∈ entries, entry.criteria = values) ↔
      ∃ entry ∈ others, entry.criteria = values) :
    (front.offerAll rules entries).Alike (other.offerAll rules others) := by
  have hShape : ∀ held ∈ other.entries, shape held.criteria := by
    intro held hHeld
    obtain ⟨image, hImage, hCriteria⟩ := (alike held.criteria).mpr ⟨held, hHeld, rfl⟩
    exact hCriteria ▸ hFront image hImage
  have hOthers : ∀ entry ∈ others, shape entry.criteria := by
    intro entry hEntry
    obtain ⟨image, hImage, hCriteria⟩ := (hSame entry.criteria).mpr ⟨entry, hEntry, rfl⟩
    exact hCriteria ▸ hEntries image hImage
  have hAll : ∀ values, (∃ entry ∈ front.entries ++ entries, entry.criteria = values) ↔
      ∃ entry ∈ other.entries ++ others, entry.criteria = values := by
    intro values
    simp only [List.mem_append, or_and_right, exists_or, alike values, hSame values]
  intro values
  rw [exists_criteria_offerAll_iff orderly tidy hFront hEntries,
    exists_criteria_offerAll_iff orderly tidyOther hShape hOthers, hAll]
  refine and_congr_right fun _ => ⟨fun hNone entry hEntry => ?_, fun hNone entry hEntry => ?_⟩
  · obtain ⟨image, hImage, hCriteria⟩ := (hAll entry.criteria).mpr ⟨entry, hEntry, rfl⟩
    exact hCriteria ▸ hNone image hImage
  · obtain ⟨image, hImage, hCriteria⟩ := (hAll entry.criteria).mp ⟨entry, hEntry, rfl⟩
    exact hCriteria ▸ hNone image hImage

/-- Alternatives that others cover can be left out of what a front is offered. -/
theorem offerAll_alike_of_covered {others : List (Entry α)} (tidy : front.Tidy rules)
    (hFront : ∀ held ∈ front.entries, shape held.criteria)
    (hOthers : ∀ other ∈ others, shape other.criteria)
    (hSubset : ∀ entry ∈ entries, ∃ other ∈ others, other.criteria = entry.criteria)
    (hCovered : ∀ other ∈ others, ∃ entry ∈ entries,
      rules.covers entry.criteria other.criteria = true) :
    (front.offerAll rules entries).Alike (front.offerAll rules others) := by
  have hEntries : ∀ entry ∈ entries, shape entry.criteria := by
    intro entry hEntry
    obtain ⟨other, hOther, hSame⟩ := hSubset entry hEntry
    exact hSame ▸ hOthers other hOther
  intro values
  rw [exists_criteria_offerAll_iff orderly tidy hFront hEntries,
    exists_criteria_offerAll_iff orderly tidy hFront hOthers]
  simp only [List.mem_append]
  constructor
  · rintro ⟨⟨offered, hOffered, rfl⟩, hNone⟩
    refine ⟨?_, fun other hOther => ?_⟩
    · rcases hOffered with hHeld | hNew
      · exact ⟨offered, Or.inl hHeld, rfl⟩
      · obtain ⟨other, hOther, hSame⟩ := hSubset offered hNew
        exact ⟨other, Or.inr hOther, hSame⟩
    · rcases hOther with hHeld | hNew
      · exact hNone other (Or.inl hHeld)
      · obtain ⟨entry, hEntry, hCovers⟩ := hCovered other hNew
        refine Bool.eq_false_iff.mpr fun hBetter => ?_
        have hBeats := orderly.dominates_of_covers (hEntries entry hEntry) (hOthers other hNew)
          (hOffered.elim (hFront offered) (hEntries offered)) hCovers hBetter
        rw [hNone entry (Or.inr hEntry)] at hBeats
        cases hBeats
  · rintro ⟨⟨offered, hOffered, rfl⟩, hNone⟩
    have hNoEntry : ∀ entry ∈ entries, rules.dominates entry.criteria offered.criteria = false := by
      intro entry hEntry
      obtain ⟨other, hOther, hSame⟩ := hSubset entry hEntry
      exact hSame ▸ hNone other (Or.inr hOther)
    refine ⟨?_, fun other hOther => hOther.elim (hNone other ∘ Or.inl) (hNoEntry other)⟩
    rcases hOffered with hHeld | hNew
    · exact ⟨offered, Or.inl hHeld, rfl⟩
    · obtain ⟨entry, hEntry, hCovers⟩ := hCovered offered hNew
      refine ⟨entry, Or.inr hEntry, Decidable.byContradiction fun hDiffer => ?_⟩
      have hBetter := (orderly.dominates_iff (hEntries entry hEntry) (hOthers offered hNew)).mpr
        ⟨hCovers, hDiffer⟩
      rw [hNoEntry entry hEntry] at hBetter
      cases hBetter

end Orderly

/-- Of alternatives with these values the one at a place stays: none is better, and none before it
has the same values. -/
def Stays (rules : Rules) (values : List (List Int)) (place : Nat) : Prop :=
  ∃ own, values[place]? = some own ∧ (∀ other ∈ values, rules.dominates other own = false) ∧
    ∀ earlier < place, values[earlier]? ≠ some own

section Last

variable {values : List (List Int)} {last : List Int} {place : Nat}

/-- One more alternative at the end ousts those that it is better than. -/
theorem stays_append_of_lt (hLt : place < values.length) :
    Stays rules (values ++ [last]) place ↔
      Stays rules values place ∧ ∀ own, values[place]? = some own →
        rules.dominates last own = false := by
  have hSame : ∀ index ≤ place, (values ++ [last])[index]? = values[index]? :=
    fun index hIndex => List.getElem?_append_left (Nat.lt_of_le_of_lt hIndex hLt)
  constructor
  · rintro ⟨own, hOwn, hNone, hFirst⟩
    rw [hSame place (Nat.le_refl _)] at hOwn
    refine ⟨⟨own, hOwn, fun other hOther => hNone other (List.mem_append_left _ hOther),
      fun earlier hEarlier => ?_⟩, fun other hOther => ?_⟩
    · rw [← hSame earlier (Nat.le_of_lt hEarlier)]
      exact hFirst earlier hEarlier
    · rw [hOwn, Option.some.injEq] at hOther
      exact hOther ▸ hNone last (List.mem_append_right _ (List.mem_singleton_self _))
  · rintro ⟨⟨own, hOwn, hNone, hFirst⟩, hLast⟩
    refine ⟨own, (hSame place (Nat.le_refl _)).trans hOwn, fun other hOther => ?_,
      fun earlier hEarlier => ?_⟩
    · rcases List.mem_append.mp hOther with hOld | hNew
      · exact hNone other hOld
      · exact List.mem_singleton.mp hNew ▸ hLast own hOwn
    · rw [hSame earlier (Nat.le_of_lt hEarlier)]
      exact hFirst earlier hEarlier

/-- It stays itself if it is new and none is better. -/
theorem stays_append_length (hSelf : rules.dominates last last = false) :
    Stays rules (values ++ [last]) values.length ↔
      last ∉ values ∧ ∀ other ∈ values, rules.dominates other last = false := by
  have hLast : (values ++ [last])[values.length]? = some last := by simp
  constructor
  · rintro ⟨own, hOwn, hNone, hFirst⟩
    rw [hLast, Option.some.injEq] at hOwn
    subst hOwn
    refine ⟨fun hMem => ?_, fun other hOther => hNone other (List.mem_append_left _ hOther)⟩
    obtain ⟨earlier, hLt, hEarlier⟩ := List.getElem_of_mem hMem
    apply hFirst earlier hLt
    rw [List.getElem?_append_left hLt, List.getElem?_eq_getElem hLt, hEarlier]
  · rintro ⟨hNew, hNone⟩
    refine ⟨last, hLast, fun other hOther => ?_, fun earlier hEarlier hSame => ?_⟩
    · rcases List.mem_append.mp hOther with hOld | hNew
      · exact hNone other hOld
      · exact List.mem_singleton.mp hNew ▸ hSelf
    · rw [List.getElem?_append_left hEarlier] at hSame
      exact hNew (List.mem_of_getElem? hSame)

theorem Stays.lt_length (h : Stays rules values place) : place < values.length := by
  obtain ⟨own, hOwn, -⟩ := h
  exact (List.getElem?_eq_some_iff.mp hOwn).1

/-- One more alternative at the end ousts those that it is better than, and stays if it is new and
none is better. -/
theorem stays_append_iff (hSelf : rules.dominates last last = false) :
    Stays rules (values ++ [last]) place ↔
      (Stays rules values place ∧ ∀ own, values[place]? = some own →
          rules.dominates last own = false) ∨
        place = values.length ∧ last ∉ values ∧
          ∀ other ∈ values, rules.dominates other last = false := by
  rcases Nat.lt_trichotomy place values.length with hLt | rfl | hGt
  · rw [stays_append_of_lt hLt]
    simp [Nat.ne_of_lt hLt]
  · rw [stays_append_length hSelf]
    have hNot : ¬ Stays rules values values.length := fun h => Nat.lt_irrefl _ h.lt_length
    simp [hNot]
  · have hNot : ¬ Stays rules (values ++ [last]) place := fun h => by
      have := h.lt_length
      simp only [List.length_append, List.length_singleton] at this
      omega
    have hBefore : ¬ Stays rules values place := fun h => Nat.lt_asymm hGt h.lt_length
    simp [hNot, hBefore, Nat.ne_of_gt hGt]

end Last

theorem filter_filterMap_getElem? (test : Entry α → Bool) (places : List Nat) :
    (places.filterMap fun place => entries[place]?).filter test =
      (places.filter fun place => entries[place]?.any test).filterMap
        fun place => entries[place]? := by
  induction places with
  | nil => rfl
  | cons place rest ih =>
      cases h : entries[place]? with
      | none => simp [h, ih]
      | some held => cases hTest : test held <;> simp [h, hTest, ih]

theorem filterMap_getElem?_append {places : List Nat} (others : List (Entry α))
    (hPlaces : ∀ place ∈ places, place < entries.length) :
    places.filterMap (fun place => (entries ++ others)[place]?) =
      places.filterMap fun place => entries[place]? :=
  List.filterMap_congr fun place hPlace => List.getElem?_append_left (hPlaces place hPlace)

/-- Just those alternatives that stay are in a front, in the order in which they came. -/
def Survive (rules : Rules) (entries : List (Entry α)) (front : Front α) : Prop :=
  ∃ places : List Nat, places.Pairwise (· < ·) ∧
    front.entries = places.filterMap (fun place => entries[place]?) ∧
    ∀ place, place ∈ places ↔ Stays rules (entries.map Entry.criteria) place

section Offer

variable (orderly : rules.Orderly shape) (hEntry : shape entry.criteria)

include orderly hEntry

/-- An alternative that none of the others covers is put in at the end. -/
theorem Survive.insert (survive : Survive rules entries front)
    (hNone : ∀ other ∈ entries, rules.covers other.criteria entry.criteria = false) :
    Survive rules (entries ++ [entry]) (front.insert rules entry) := by
  obtain ⟨places, hOrder, hFront, hPlaces⟩ := survive
  have hSelf := Bool.eq_false_iff.mpr fun h => ((orderly.dominates_iff hEntry hEntry).mp h).2 rfl
  have hInside : ∀ place ∈ places, place < entries.length := fun place hPlace => by
    simpa using ((hPlaces place).mp hPlace).lt_length
  have hNew : entry.criteria ∉ entries.map Entry.criteria ∧
      ∀ other ∈ entries.map Entry.criteria, rules.dominates other entry.criteria = false := by
    refine ⟨fun hMem => ?_, fun values hValues => Bool.eq_false_iff.mpr fun h => ?_⟩
    · obtain ⟨other, hOther, hSame⟩ := List.mem_map.mp hMem
      have hCovers := hNone other hOther
      rw [hSame, orderly.refl hEntry] at hCovers
      cases hCovers
    · obtain ⟨other, hOther, rfl⟩ := List.mem_map.mp hValues
      have hCovers := Rules.covers_of_dominates h
      rw [hNone other hOther] at hCovers
      cases hCovers
  refine ⟨(places.filter fun place => entries[place]?.any fun other =>
    !rules.dominates entry.criteria other.criteria) ++ [entries.length], ?_, ?_, fun place => ?_⟩
  · refine List.pairwise_append.mpr ⟨hOrder.filter _, List.pairwise_singleton .., ?_⟩
    intro place hPlace other hOther
    exact List.mem_singleton.mp hOther ▸ hInside place (List.mem_filter.mp hPlace).1
  · rw [List.filterMap_append, filterMap_getElem?_append _
      (fun place hPlace => hInside place (List.mem_filter.mp hPlace).1),
      ← filter_filterMap_getElem?, ← hFront]
    simp [Front.insert]
  · rw [List.map_append, List.map_singleton, stays_append_iff hSelf, List.mem_append,
      List.mem_filter, hPlaces, List.mem_singleton, List.length_map]
    refine or_congr (and_congr_right fun hStays => ?_) (and_iff_left hNew).symm
    obtain ⟨own, hOwn, -⟩ := hStays
    rw [List.getElem?_map, Option.map_eq_some_iff] at hOwn
    obtain ⟨other, hOther, -⟩ := hOwn
    simp [hOther]

/-- An alternative that one of the others covers changes nothing. -/
theorem Survive.append_of_covers (hEntries : ∀ other ∈ entries, shape other.criteria)
    (survive : Survive rules entries front) {held : Entry α}
    (hMem : held ∈ entries) (hCovers : rules.covers held.criteria entry.criteria = true) :
    Survive rules (entries ++ [entry]) front := by
  obtain ⟨places, hOrder, hFront, hPlaces⟩ := survive
  have hSelf := Bool.eq_false_iff.mpr fun h => ((orderly.dominates_iff hEntry hEntry).mp h).2 rfl
  have hValues := List.mem_map_of_mem (f := Entry.criteria) hMem
  refine ⟨places, hOrder, ?_, fun place => ?_⟩
  · rw [filterMap_getElem?_append _ fun place hPlace => ?_]
    · exact hFront
    · simpa using ((hPlaces place).mp hPlace).lt_length
  rw [hPlaces, List.map_append, List.map_singleton, stays_append_iff hSelf]
  constructor
  · rintro ⟨own, hOwn, hNone, hFirst⟩
    refine Or.inl ⟨⟨own, hOwn, hNone, hFirst⟩, fun other hOther => ?_⟩
    rw [hOwn, Option.some.injEq] at hOther
    subst hOther
    obtain ⟨other, hOther, rfl⟩ := List.mem_map.mp (List.mem_of_getElem? hOwn)
    refine Bool.eq_false_iff.mpr fun h => ?_
    have hBetter := orderly.dominates_of_covers (hEntries held hMem) hEntry (hEntries other hOther)
      hCovers h
    rw [hNone _ hValues] at hBetter
    cases hBetter
  · rintro (⟨hStays, -⟩ | ⟨-, hNew, hNone⟩)
    · exact hStays
    · have hDiffer : held.criteria ≠ entry.criteria := fun h => hNew (h ▸ hValues)
      have hBetter := (orderly.dominates_iff (hEntries held hMem) hEntry).mpr ⟨hCovers, hDiffer⟩
      rw [hNone _ hValues] at hBetter
      cases hBetter

end Offer

/-- Of all alternatives offered just those that stay are in the front, in the order in which they
were offered. -/
theorem survive_offerAll (orderly : rules.Orderly shape) (entries : List (Entry α))
    (hEntries : ∀ entry ∈ entries, shape entry.criteria) :
    Survive rules entries (empty.offerAll rules entries) := by
  induction entries using List.reverseRecOn with
  | nil => exact ⟨[], List.Pairwise.nil, rfl, by simp [Stays]⟩
  | append_singleton entries last ih =>
      have hBefore : ∀ entry ∈ entries, shape entry.criteria := fun entry hEntry =>
        hEntries entry (List.mem_append_left _ hEntry)
      have hLast := hEntries last (List.mem_append_right _ (List.mem_singleton_self _))
      have hMem : ∀ held ∈ (empty.offerAll rules entries).entries, held ∈ entries :=
        fun held hHeld => (mem_of_mem_offerAll hHeld).resolve_left List.not_mem_nil
      rw [offerAll, List.foldl_append, List.foldl_cons, List.foldl_nil, ← offerAll]
      unfold offer offer?
      split
      · rename_i hCovers
        obtain ⟨held, hHeld, hCovers⟩ := List.any_eq_true.mp hCovers
        exact (ih hBefore).append_of_covers orderly hLast hBefore (hMem held hHeld) hCovers
      · rename_i hCovers
        refine (ih hBefore).insert orderly hLast fun entry hEntry =>
          Bool.eq_false_iff.mpr fun h => hCovers ?_
        obtain ⟨held, hHeld, hOver⟩ := (offerAll_keeps orderly.entails empty entries
          (List.forall_mem_nil _) hBefore).1 entry hEntry
        exact List.any_eq_true.mpr ⟨held, hHeld, orderly.trans (hBefore held (hMem held hHeld))
          (hBefore entry hEntry) hLast hOver h⟩

end Front

end JourneyPlanner
