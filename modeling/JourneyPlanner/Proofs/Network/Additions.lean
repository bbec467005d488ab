import JourneyPlanner.Network.Draft
import Mathlib.Data.List.Basic

/-! Timetables handed in one thing after the other. A trip may come at any time after its pattern;
one that comes before it is refused and changes nothing. Main statement: a draft is what was handed
in, each thing in the order in which its like came. -/
namespace JourneyPlanner

/-- One thing handed in, or a change made to the calendar. -/
inductive Addition where
  | stop (name : String)
  | pattern (name : String) (mode : Mode) (stops : List Nat)
  | trip (pattern : Nat) (trip : TripDraft)
  | transfer (transfer : Transfer)
  | calendar (change : Calendar → Calendar)

namespace Addition

def stopName? : Addition → Option String
  | stop name => some name
  | _ => none

def heading? : Addition → Option PatternDraft
  | pattern name mode stops => some { name, mode, stops, trips := [] }
  | _ => none

def transfer? : Addition → Option Transfer
  | transfer walk => some walk
  | _ => none

def amend (current : Calendar) : Addition → Calendar
  | calendar change => change current
  | _ => current

def stopNames (additions : List Addition) : List String := additions.filterMap stopName?

def headings (additions : List Addition) : List PatternDraft := additions.filterMap heading?

def transfers (additions : List Addition) : List Transfer := additions.filterMap transfer?

def lastCalendar (first : Calendar) (additions : List Addition) : Calendar :=
  additions.foldl amend first

/-- The trips handed in for a pattern, if so many patterns are known at first. One for a pattern
not known yet is refused. -/
def tripsOf (index : Nat) : (known : Nat) → List Addition → List TripDraft
  | _, [] => []
  | known, pattern .. :: rest => tripsOf index (known + 1) rest
  | known, trip target row :: rest =>
    if target = index ∧ target < known then row :: tripsOf index known rest
    else tripsOf index known rest
  | known, _ :: rest => tripsOf index known rest

/-- The patterns handed in, each with the trips handed in for it. -/
def patterns (additions : List Addition) : List PatternDraft :=
  (headings additions).mapIdx fun index heading =>
    { heading with trips := tripsOf index 0 additions }

end Addition

namespace Draft

/-- Take in one thing; what is refused changes nothing. -/
def add (draft : Draft) : Addition → Draft
  | .stop name => draft.addStop name
  | .pattern name mode stops => draft.addPattern name mode stops
  | .trip pattern trip =>
    match draft.addTrip pattern trip with
    | .ok next => next
    | .error _ => draft
  | .transfer transfer => draft.addTransfer transfer
  | .calendar change => { draft with calendar := change draft.calendar }

/-- The draft made of all that was handed in, in order. -/
def ofAdditions (calendar : Calendar) (additions : List Addition) : Draft :=
  additions.foldl add (empty calendar)

/-- A trip goes to its pattern. Where there is none, nothing changes. -/
theorem add_trip (draft : Draft) (pattern : Nat) (trip : TripDraft) :
    draft.add (.trip pattern trip) = { draft with
      patterns := draft.patterns.modify pattern fun p =>
        { p with trips := p.trips ++ [trip] } } := by
  by_cases hKnown : pattern < draft.patterns.length
  · simp [add, addTrip, hKnown]
  · rw [List.modify_eq_self (Nat.le_of_not_lt hKnown)]
    simp [add, addTrip, hKnown]

theorem stops_add (draft : Draft) (addition : Addition) :
    (draft.add addition).stops = draft.stops ++ addition.stopName?.toList := by
  cases addition with
  | trip pattern trip => simp [add_trip, Addition.stopName?]
  | _ => simp [add, addStop, addPattern, addTransfer, Addition.stopName?]

theorem transfers_add (draft : Draft) (addition : Addition) :
    (draft.add addition).transfers = draft.transfers ++ addition.transfer?.toList := by
  cases addition with
  | trip pattern trip => simp [add_trip, Addition.transfer?]
  | _ => simp [add, addStop, addPattern, addTransfer, Addition.transfer?]

theorem calendar_add (draft : Draft) (addition : Addition) :
    (draft.add addition).calendar = addition.amend draft.calendar := by
  cases addition with
  | trip pattern trip => simp [add_trip, Addition.amend]
  | _ => simp [add, addStop, addPattern, addTransfer, Addition.amend]

/-- A list that each addition puts at most one thing at the end of gets all of them, in order. -/
theorem foldl_add_eq_append {α : Type} {field : Draft → List α} {part? : Addition → Option α}
    (hAdd : ∀ draft addition, field (draft.add addition) = field draft ++ (part? addition).toList)
    (draft : Draft) (additions : List Addition) :
    field (additions.foldl add draft) = field draft ++ additions.filterMap part? := by
  induction additions generalizing draft with
  | nil => simp
  | cons addition rest ih =>
      rw [List.foldl_cons, ih, hAdd, List.append_assoc]
      cases h : part? addition <;> simp [h]

/-- The stops are those that were added, in that order. -/
theorem stops_foldl_add (draft : Draft) (additions : List Addition) :
    (additions.foldl add draft).stops = draft.stops ++ Addition.stopNames additions :=
  foldl_add_eq_append stops_add draft additions

/-- The transfers are those that were added, in that order. -/
theorem transfers_foldl_add (draft : Draft) (additions : List Addition) :
    (additions.foldl add draft).transfers = draft.transfers ++ Addition.transfers additions :=
  foldl_add_eq_append transfers_add draft additions

/-- The calendar is the last one that was set, with the services added since. -/
theorem calendar_foldl_add (draft : Draft) (additions : List Addition) :
    (additions.foldl add draft).calendar =
      Addition.lastCalendar draft.calendar additions := by
  induction additions generalizing draft with
  | nil => rfl
  | cons addition rest ih =>
      rw [List.foldl_cons, ih, calendar_add]
      rfl

/-- What stands at a number is the pattern known at first or handed in under it, with the trips
that came for it since. -/
theorem getElem?_patterns_foldl_add (draft : Draft) (additions : List Addition) (index : Nat) :
    (additions.foldl add draft).patterns[index]? =
      ((draft.patterns ++ Addition.headings additions)[index]?).map fun pattern =>
        { pattern with trips := pattern.trips ++
            Addition.tripsOf index draft.patterns.length additions } := by
  induction additions generalizing draft with
  | nil => simp [Addition.headings, Addition.tripsOf]
  | cons addition rest ih =>
      rw [List.foldl_cons, ih]
      cases addition with
      | stop name => rfl
      | transfer transfer => rfl
      | calendar change => rfl
      | pattern name mode stops =>
          simp [add, addPattern, Addition.headings, Addition.heading?, Addition.tripsOf]
      | trip pattern trip =>
          have hHeadings : Addition.headings (.trip pattern trip :: rest) =
              Addition.headings rest := rfl
          rw [hHeadings, add_trip, List.length_modify, List.getElem?_append,
            List.getElem?_append, List.length_modify]
          split_ifs with hInside
          · rw [List.getElem?_modify, Option.map_eq_map, Option.map_map]
            by_cases hTarget : pattern = index <;>
              simp [hTarget, hInside, Addition.tripsOf, Function.comp_def]
          · -- The pattern comes later, so a trip for it is too early.
            have hEarly : ¬ (pattern = index ∧ pattern < draft.patterns.length) := by omega
            rw [Addition.tripsOf, if_neg hEarly]

/-- The patterns are those that were added, each with its own trips. -/
theorem patterns_ofAdditions (calendar : Calendar) (additions : List Addition) :
    (ofAdditions calendar additions).patterns = Addition.patterns additions := by
  apply List.ext_getElem?
  intro index
  rw [ofAdditions, getElem?_patterns_foldl_add, Addition.patterns, List.getElem?_mapIdx]
  cases h : (Addition.headings additions)[index]? with
  | none => simp [empty, h]
  | some heading =>
      have hBare : heading.trips = [] := by
        obtain ⟨addition, -, hHeading⟩ := List.mem_filterMap.mp (List.mem_of_getElem? h)
        cases addition <;> simp [Addition.heading?] at hHeading
        simp [← hHeading]
      simp [empty, h, hBare]

/-- A draft is what was handed in. -/
theorem ofAdditions_eq (calendar : Calendar) (additions : List Addition) :
    ofAdditions calendar additions =
      { calendar := Addition.lastCalendar calendar additions
        stops := Addition.stopNames additions
        patterns := Addition.patterns additions
        transfers := Addition.transfers additions } := by
  have hPatterns := patterns_ofAdditions calendar additions
  have hStops := stops_foldl_add (empty calendar) additions
  have hTransfers := transfers_foldl_add (empty calendar) additions
  have hCalendar := calendar_foldl_add (empty calendar) additions
  simp only [empty, List.nil_append] at hStops hTransfers hCalendar
  simp only [ofAdditions, empty] at hPatterns ⊢
  rw [← hPatterns, ← hStops, ← hTransfers, ← hCalendar]

end Draft

end JourneyPlanner
