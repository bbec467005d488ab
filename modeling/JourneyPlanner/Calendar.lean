import JourneyPlanner.Error

namespace JourneyPlanner

/-!
A service calendar says on which days each service of a timetable runs. Days are counted
from the first day of the calendar, services from 0 in the order in which they were added.
-/

/-- A set of days of a calendar. Its size bounds the length of every calendar. -/
abbrev DaySet := BitVec 384

namespace DaySet

/-- The set of the days listed; days past the end of the set are left out. -/
def ofDays (days : List Nat) : DaySet :=
  days.foldl (fun set day => set ||| BitVec.twoPow 384 day) 0#384

/-- A day is marked by the fold if it was marked before or is one of the days listed. -/
theorem getLsbD_foldl_or (days : List Nat) (set : DaySet) (day : Nat) :
    (days.foldl (fun set day => set ||| BitVec.twoPow 384 day) set).getLsbD day =
      (set.getLsbD day || (decide (day < 384) && days.contains day)) := by
  induction days generalizing set with
  | nil => simp
  | cons first rest ih =>
      rw [List.foldl_cons, ih, BitVec.getLsbD_or, BitVec.getLsbD_twoPow]
      by_cases hFirst : day = first
      · subst hFirst
        by_cases hDay : day < 384 <;> simp [hDay]
      · simp [hFirst, Ne.symm hFirst]

/-- A set of listed days holds exactly those. -/
theorem getLsbD_ofDays (days : List Nat) (day : Nat) :
    (ofDays days).getLsbD day = (decide (day < 384) && days.contains day) := by
  simp [ofDays, getLsbD_foldl_or]

end DaySet

/-- The services of a timetable, over at most as many days as a set of days holds. -/
structure Calendar where
  start : Date
  numDays : Nat
  services : Array DaySet
  numDays_le : numDays ≤ 384

namespace Calendar

def maxDays : Nat := 384

/-- Services are numbered below this limit. -/
def maxServices : Nat := 65535

/-- A calendar without services, cut to the longest one possible. -/
def empty (start : Date) (days : Nat) : Calendar :=
  { start, numDays := min days maxDays, services := #[], numDays_le := Nat.min_le_right .. }

def allDays (calendar : Calendar) : DaySet :=
  DaySet.ofDays (List.range calendar.numDays)

/-- The last day of the calendar, or the last date there is if that comes first. -/
def lastDate (calendar : Calendar) : Date :=
  (calendar.start.addDays? (calendar.numDays - 1)).getD Date.last

def dayOf? (calendar : Calendar) (date : Date) : Option Nat :=
  let days := calendar.start.daysTo date
  if 0 ≤ days ∧ days < calendar.numDays then some days.toNat else none

/-- Add a service under the next number, if there is one left. -/
def addService (calendar : Calendar) (days : DaySet) : Checked (Nat × Calendar) :=
  if calendar.services.size < maxServices then
    .ok (calendar.services.size, { calendar with services := calendar.services.push days })
  else .error .outOfRange

def weeklyDays (calendar : Calendar) (weekdays : List Weekday) : DaySet :=
  DaySet.ofDays <| (List.range calendar.numDays).filter fun day =>
    match calendar.start.addDays? day with
    | some date => weekdays.contains date.weekday
    | none => false

def datedDays (calendar : Calendar) (dates : List Date) : DaySet :=
  DaySet.ofDays (dates.filterMap calendar.dayOf?)

/-- What a new service runs on. -/
inductive Running where
  | everyDay
  | days (set : DaySet)
  | weekly (weekdays : List Weekday)
  | dated (dates : List Date)

/-- The days of the calendar on which a new service runs. -/
def runningDays (calendar : Calendar) : Running → DaySet
  | .everyDay => calendar.allDays
  | .days set => set
  | .weekly weekdays => calendar.weeklyDays weekdays
  | .dated dates => calendar.datedDays dates

def add (calendar : Calendar) (running : Running) : Checked (Nat × Calendar) :=
  calendar.addService (calendar.runningDays running)

def addAll (calendar : Calendar) : List Running → Checked Calendar
  | [] => .ok calendar
  | running :: rest =>
    match calendar.add running with
    | .ok (_, calendar) => calendar.addAll rest
    | .error fault => .error fault

def daily (start : Date) (days : Nat) : Calendar :=
  let calendar := empty start days
  { calendar with services := #[calendar.allDays] }

/-- Whether a service runs on a date. Unknown services never run, and no service runs on a
date outside the calendar. -/
def runsOn (calendar : Calendar) (service : Nat) (date : Date) : Bool :=
  match calendar.services[service]?, calendar.dayOf? date with
  | some days, some day => days.getLsbD day
  | _, _ => false

end Calendar

/-- The services that run on one date, by number. -/
structure ServiceDay where
  date : Date
  running : Array Bool

namespace ServiceDay

def isActive (day : ServiceDay) (service : Nat) : Bool :=
  day.running.getD service false

def numActive (day : ServiceDay) : Nat :=
  day.running.count true

end ServiceDay

def Calendar.servicesOn (calendar : Calendar) (date : Date) :
    Except RequestError ServiceDay :=
  match calendar.dayOf? date with
  | some day => .ok { date, running := calendar.services.map (·.getLsbD day) }
  | none => .error (.dateOutOfRange date calendar.start calendar.lastDate)

end JourneyPlanner
