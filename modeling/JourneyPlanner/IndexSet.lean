namespace JourneyPlanner

/-!
Tables by index. Stops, patterns and services are numbered from 0 without gaps, so a set of
them is an array of marks and a map from them is an array of values. Both are total: an
index outside the table is never marked, and reads as the value for blank cells.
-/

/-- A set of indices below a fixed bound. -/
structure IndexSet where
  marks : Array Bool

namespace IndexSet

def empty (bound : Nat) : IndexSet := ⟨Array.replicate bound false⟩

def contains (set : IndexSet) (index : Nat) : Bool :=
  set.marks.getD index false

/-- Mark an index; one at or above the bound is ignored. -/
def insert (set : IndexSet) (index : Nat) : IndexSet :=
  ⟨set.marks.setIfInBounds index true⟩

/-- The same bound, with nothing marked. -/
def clear (set : IndexSet) : IndexSet := empty set.marks.size

def toList (set : IndexSet) : List Nat :=
  (List.range set.marks.size).filter set.contains

def isEmpty (set : IndexSet) : Bool := !set.marks.any id

def count (set : IndexSet) : Nat := set.marks.count true

def ofList (bound : Nat) (indices : List Nat) : IndexSet :=
  indices.foldl insert (empty bound)

@[simp]
theorem size_insert (set : IndexSet) (index : Nat) :
    (set.insert index).marks.size = set.marks.size := by
  simp [insert]

@[simp]
theorem contains_empty (bound index : Nat) : (empty bound).contains index = false := by
  simp only [empty, contains, Array.getD_eq_getD_getElem?, Array.getElem?_replicate]
  split <;> rfl

@[simp]
theorem contains_clear (set : IndexSet) (index : Nat) : set.clear.contains index = false :=
  contains_empty _ _

theorem contains_insert (set : IndexSet) (index other : Nat) :
    (set.insert index).contains other =
      (set.contains other || (index == other && decide (other < set.marks.size))) := by
  simp only [insert, contains, Array.getD_eq_getD_getElem?, Array.getElem?_setIfInBounds]
  by_cases hSame : index = other
  · subst hSame
    by_cases hInside : index < set.marks.size <;> simp [hInside]
  · simp [hSame]

/-- Inside the bounds of the set, an insertion adds the index and nothing else. -/
theorem contains_insert_iff {set : IndexSet} {index other : Nat} (h : index < set.marks.size) :
    (set.insert index).contains other = true ↔ set.contains other = true ∨ index = other := by
  rw [contains_insert]
  by_cases hSame : index = other
  · simp [hSame, hSame ▸ h]
  · simp [hSame]

theorem lt_size_of_contains {set : IndexSet} {index : Nat} (h : set.contains index = true) :
    index < set.marks.size := by
  by_cases hInside : index < set.marks.size
  · exact hInside
  · simp [contains, Array.getD_eq_getD_getElem?, hInside] at h

/-- The set is listed by the indices it contains. -/
@[simp]
theorem mem_toList {set : IndexSet} {index : Nat} :
    index ∈ set.toList ↔ set.contains index = true := by
  simp only [toList, List.mem_filter, List.mem_range]
  exact ⟨fun h => h.2, fun h => ⟨lt_size_of_contains h, h⟩⟩

/-- Two sets with the same bound and the same members are the same. -/
theorem ext_of_contains {set other : IndexSet} (hSize : set.marks.size = other.marks.size)
    (hContains : ∀ index, set.contains index = other.contains index) : set = other := by
  rw [IndexSet.mk.injEq]
  refine Array.ext hSize fun index hIndex hOther => ?_
  have hMark := hContains index
  simpa [contains, Array.getD_eq_getD_getElem?, hIndex, hOther] using hMark

/-- The members come in strictly ascending order. -/
theorem toList_pairwise (set : IndexSet) : set.toList.Pairwise (· < ·) :=
  List.Pairwise.filter _ List.pairwise_lt_range

/-- The count of a set is the number of indices it lists. -/
theorem length_toList (set : IndexSet) : set.toList.length = set.count := by
  have hMarks : (List.range set.marks.size).map set.contains = set.marks.toList := by
    refine List.ext_getElem (by simp) fun index _ hInside => ?_
    simp only [Array.length_toList] at hInside
    simp [contains, hInside]
  rw [toList, ← List.countP_eq_length_filter, count, ← Array.count_toList, ← hMarks, List.count,
    List.countP_map]
  refine List.countP_congr fun index _ => ?_
  simp

end IndexSet

/-- A value for every index below a bound, and one value for all others. -/
structure IndexTable (α : Type) where
  cells : Array α
  blank : α

namespace IndexTable

variable {α : Type}

def uniform (bound : Nat) (value : α) : IndexTable α := ⟨Array.replicate bound value, value⟩

def get (table : IndexTable α) (index : Nat) : α :=
  table.cells.getD index table.blank

/-- Write a cell; an index at or above the bound is ignored. -/
def set (table : IndexTable α) (index : Nat) (value : α) : IndexTable α :=
  { table with cells := table.cells.setIfInBounds index value }

@[simp]
theorem size_set (table : IndexTable α) (index : Nat) (value : α) :
    (table.set index value).cells.size = table.cells.size := by
  simp [set]

@[simp]
theorem get_uniform (bound index : Nat) (value : α) : (uniform bound value).get index = value := by
  simp only [uniform, get, Array.getD_eq_getD_getElem?, Array.getElem?_replicate]
  split <;> rfl

/-- Writing a cell changes that cell alone, and none if the index is out of bounds. -/
theorem get_set (table : IndexTable α) (index other : Nat) (value : α) :
    (table.set index value).get other =
      if index = other ∧ other < table.cells.size then value else table.get other := by
  simp only [set, get, Array.getD_eq_getD_getElem?, Array.getElem?_setIfInBounds]
  by_cases hSame : index = other
  · subst hSame
    by_cases hInside : index < table.cells.size <;> simp [hInside]
  · simp [hSame]

theorem get_set_of_lt {table : IndexTable α} {index : Nat} (h : index < table.cells.size)
    (other : Nat) (value : α) :
    (table.set index value).get other = if index = other then value else table.get other := by
  rw [get_set]
  by_cases hSame : index = other
  · rw [if_pos ⟨hSame, hSame ▸ h⟩, if_pos hSame]
  · rw [if_neg fun hBoth => hSame hBoth.1, if_neg hSame]

/-- An index at or above the bound has the one value for all others. -/
theorem get_of_size_le {table : IndexTable α} {index : Nat} (h : table.cells.size ≤ index) :
    table.get index = table.blank := by
  rw [get, Array.getD_eq_getD_getElem?, Array.getElem?_eq_none h]
  rfl

/-- Two tables with the same bound and the same values are the same. -/
theorem ext_of_get {table other : IndexTable α} (hSize : table.cells.size = other.cells.size)
    (hGet : ∀ index, table.get index = other.get index) : table = other := by
  have hBlank := hGet table.cells.size
  rw [get_of_size_le (Nat.le_refl _), get_of_size_le (Nat.le_of_eq hSize.symm)] at hBlank
  rw [IndexTable.mk.injEq]
  refine ⟨Array.ext hSize fun index hIndex hOther => ?_, hBlank⟩
  have hCell := hGet index
  simpa [get, Array.getD_eq_getD_getElem?, hIndex, hOther] using hCell

end IndexTable

end JourneyPlanner
