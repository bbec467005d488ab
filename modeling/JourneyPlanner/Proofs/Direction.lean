import JourneyPlanner.Arrival

/-! The time criterion turns both directions of a search into one order of integers, and
moving along becomes addition, as long as the limits of the clock are not met. -/
namespace JourneyPlanner

def Clock.Within (bound time : Int) : Prop := -bound ≤ time ∧ time ≤ bound

/-- The size of numbers up to which no sum of a search meets the limits of the clock. -/
def Clock.modest : Int := 16777216

theorem Clock.Within.double {time : Int} (h : Clock.Within Clock.modest time) :
    Clock.Within (2 * Clock.modest) time := by
  simp only [Clock.Within, Clock.modest] at h ⊢
  omega

/-- Saturation changes no time the clock can tell. -/
theorem Clock.clamp_eq {time : Int} (hTime : Clock.Within 2147483647 time) :
    Clock.clamp time = time := by
  simp only [Clock.Within] at hTime
  simp only [Clock.clamp, Clock.earliest, Clock.latest]
  omega

namespace Direction

/-- Move a time along the search without regard to the limits of the clock. -/
def along : Direction → (time duration : Int) → Int
  | forward, time, duration => time + duration
  | reverse, time, duration => time - duration

def Precedes : Direction → (first second : Nat) → Prop
  | forward, first, second => first < second
  | reverse, first, second => second < first

/-- Travelling on raises the time criterion by the duration, in either direction. -/
@[simp]
theorem timeCriterion_along (direction : Direction) (time duration : Int) :
    direction.timeCriterion (direction.along time duration) =
      direction.timeCriterion time + duration := by
  cases direction with
  | forward => rfl
  | reverse =>
      simp only [timeCriterion, along]
      omega

theorem timeCriterion_injective {direction : Direction} {first second : Int}
    (h : direction.timeCriterion first = direction.timeCriterion second) : first = second := by
  cases direction <;> simp only [timeCriterion] at h <;> omega

theorem tripCriterion_injective {direction : Direction} {first second : Nat}
    (h : direction.tripCriterion first = direction.tripCriterion second) : first = second := by
  cases direction <;> simp only [tripCriterion] at h <;> omega

theorem within_timeCriterion (direction : Direction) {bound time : Int} :
    Clock.Within bound (direction.timeCriterion time) ↔ Clock.Within bound time := by
  cases direction with
  | forward => rfl
  | reverse =>
      simp only [timeCriterion, Clock.Within]
      omega

/-- One time is better than another when its criterion is smaller. -/
@[simp]
theorem isBetter_iff {direction : Direction} {time than : Int} :
    direction.isBetter time than = true ↔
      direction.timeCriterion time < direction.timeCriterion than := by
  rw [isBetter_eq_timeCriterion_lt, decide_eq_true_iff]

@[simp]
theorem isBetter_eq_false_iff {direction : Direction} {time than : Int} :
    direction.isBetter time than = false ↔
      direction.timeCriterion than ≤ direction.timeCriterion time := by
  rw [isBetter_eq_timeCriterion_lt, decide_eq_false_iff_not, Int.not_lt]

/-- Away from the limits of the clock, moving along is plain arithmetic. -/
theorem plus_eq_along {direction : Direction} {time duration : Int}
    (h : Clock.Within 2147483647 (direction.along time duration)) :
    direction.plus time duration = direction.along time duration := by
  cases direction <;> exact Clock.clamp_eq h

/-- The saturating sum is the plain one as long as the clock can tell the result. -/
theorem timeCriterion_plus {direction : Direction} {time duration : Int}
    (h : Clock.Within 2147483647 (direction.timeCriterion time + duration)) :
    direction.timeCriterion (direction.plus time duration) =
      direction.timeCriterion time + duration := by
  rw [← timeCriterion_along, within_timeCriterion] at h
  rw [plus_eq_along h, timeCriterion_along]

/-- A stop not reached is later than any time that can be told. -/
theorem latest_le_timeCriterion_unreached (direction : Direction) :
    2147483647 ≤ direction.timeCriterion direction.unreached := by
  cases direction <;> decide

theorem mem_positions {direction : Direction} {position numStops : Nat} :
    position ∈ direction.positions numStops ↔ position < numStops := by
  cases direction <;> simp [positions]

/-- The positions of a pattern are passed in the order of the search. -/
theorem positions_pairwise (direction : Direction) (numStops : Nat) :
    (direction.positions numStops).Pairwise direction.Precedes := by
  cases direction
  · exact List.pairwise_lt_range
  · exact List.pairwise_reverse.mpr List.pairwise_lt_range

/-- Every two positions stand in the list of positions in the order of the search. -/
theorem positions_eq_append {direction : Direction} {first second numStops : Nat}
    (hFirst : first < numStops) (hSecond : second < numStops)
    (hOrder : direction.Precedes first second) :
    ∃ before after, direction.positions numStops = before ++ first :: after ∧ second ∈ after := by
  have hInside : first ∈ direction.positions numStops := mem_positions.mpr hFirst
  obtain ⟨before, after, hSplit⟩ := List.append_of_mem hInside
  refine ⟨before, after, hSplit, ?_⟩
  have hPairwise := positions_pairwise direction numStops
  have hMem : second ∈ direction.positions numStops := mem_positions.mpr hSecond
  rw [hSplit] at hPairwise hMem
  rcases List.mem_append.mp hMem with hBefore | hRest
  · have hBack := (List.pairwise_append.mp hPairwise).2.2 second hBefore first (List.mem_cons_self ..)
    cases direction <;> simp only [Precedes] at hOrder hBack <;> omega
  · rcases List.mem_cons.mp hRest with hSame | hAfter
    · subst hSame
      cases direction <;> simp only [Precedes] at hOrder <;> omega
    · exact hAfter

end Direction

end JourneyPlanner
