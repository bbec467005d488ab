import JourneyPlanner.Clock

namespace JourneyPlanner

/-!
Dates of the Gregorian calendar, extended backwards over all years. A date is held as its
number of days from the first of March of the year 0, so that leap days come at the end of
a year and differences of dates are differences of numbers.
-/

inductive Weekday where
  | mon | tue | wed | thu | fri | sat | sun
deriving DecidableEq, Repr

namespace Weekday

def ofMonday (days : Int) : Weekday :=
  match (days % 7).toNat with
  | 0 => mon
  | 1 => tue
  | 2 => wed
  | 3 => thu
  | 4 => fri
  | 5 => sat
  | _ => sun

end Weekday

namespace Date

/-- A year has a leap day if it is divisible by 4, but of the full centuries only those
divisible by 400. -/
def isLeap (year : Int) : Bool :=
  year % 4 == 0 && (year % 100 != 0 || year % 400 == 0)

def monthLength (year : Int) (month : Nat) : Nat :=
  if month = 2 then (if isLeap year then 29 else 28)
  else if month = 4 ∨ month = 6 ∨ month = 9 ∨ month = 11 then 30
  else 31

/-- Days from the first of March of the year 0. January and February are counted as the
last months of the year before. -/
def numberOf (year : Int) (month day : Nat) : Int :=
  let y := if month ≤ 2 then year - 1 else year
  let monthFromMarch := (month + 9) % 12
  365 * y + y / 4 - y / 100 + y / 400 + ((153 * monthFromMarch + 2) / 5 + day : Nat) - 1

def firstNumber : Int := numberOf (-262143) 1 1

def lastNumber : Int := numberOf 262142 12 31

end Date

structure Date where
  number : Int
  first_le : Date.firstNumber ≤ number
  le_last : number ≤ Date.lastNumber

namespace Date

instance : DecidableEq Date := fun a b =>
  decidable_of_iff (a.number = b.number) ⟨fun h => by cases a; cases b; simp_all, fun h => h ▸ rfl⟩

def ofNumber? (number : Int) : Option Date :=
  if h : firstNumber ≤ number ∧ number ≤ lastNumber then some ⟨number, h.1, h.2⟩ else none

def last : Date := ⟨lastNumber, by decide, by decide⟩

/-- The date of a year, a month from 1 to 12 and a day of that month. -/
def ofYearMonthDay? (year : Int) (month day : Nat) : Option Date :=
  if 1 ≤ month ∧ month ≤ 12 ∧ 1 ≤ day ∧ day ≤ monthLength year month then
    ofNumber? (numberOf year month day)
  else none

def addDays? (date : Date) (days : Nat) : Option Date :=
  ofNumber? (date.number + days)

def daysTo (date other : Date) : Int :=
  other.number - date.number

/-- The first of March of the year 0 was a Wednesday. -/
def weekday (date : Date) : Weekday :=
  Weekday.ofMonday (date.number + 2)

/-- Year, month and day. The year of the era of 400 years is found from the day of the era
by taking out the leap days before it. -/
def yearMonthDay (date : Date) : Int × Nat × Nat :=
  let era := date.number / 146097
  let dayOfEra := (date.number % 146097).toNat
  let yearOfEra :=
    (dayOfEra - dayOfEra / 1460 + dayOfEra / 36524 - dayOfEra / 146096) / 365
  let dayOfYear := dayOfEra - (365 * yearOfEra + yearOfEra / 4 - yearOfEra / 100)
  let monthFromMarch := (5 * dayOfYear + 2) / 153
  let day := dayOfYear - (153 * monthFromMarch + 2) / 5 + 1
  let month := if monthFromMarch < 10 then monthFromMarch + 3 else monthFromMarch - 9
  let year := 400 * era + yearOfEra
  (if month ≤ 2 then year + 1 else year, month, day)

/-- A year within four digits stands without a sign; any other has a sign and at least four
digits. -/
def renderYear (year : Int) : List Char :=
  if 0 ≤ year ∧ year ≤ 9999 then Clock.padded 4 year.natAbs
  else (if year < 0 then '-' else '+') :: Clock.padded 4 year.natAbs

def text (date : Date) : String :=
  let (year, month, day) := date.yearMonthDay
  String.ofList
    (renderYear year ++ '-' :: Clock.padded 2 month ++ '-' :: Clock.padded 2 day)

end Date

end JourneyPlanner
