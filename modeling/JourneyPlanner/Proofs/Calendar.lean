import JourneyPlanner.Calendar
import JourneyPlanner.IndexSet

/-! What the sets of days of a calendar say of dates. Days are bits counted from the first one, and
a calendar may be cut, or run on past the last date there is. Main statement: a service runs on just
those dates of the calendar that it was added for, whatever is added after it. -/
namespace JourneyPlanner

namespace Date

variable {date other : Date}

theorem eq_of_number_eq (h : date.number = other.number) : date = other := by
  cases date
  cases other
  cases h
  rfl

/-- Days are added by moving the day number, where the result is still a date. -/
theorem addDays?_eq_some_iff {days : Nat} :
    date.addDays? days = some other ↔ other.number = date.number + days := by
  unfold addDays? ofNumber?
  split
  · rename_i hInside
    rw [Option.some.injEq]
    exact ⟨fun h => h ▸ rfl, fun h => eq_of_number_eq h.symm⟩
  · rename_i hOutside
    refine ⟨nofun, fun h => absurd ?_ hOutside⟩
    exact h ▸ ⟨other.first_le, other.le_last⟩

def Within (start : Date) (days : Nat) (date : Date) : Prop :=
  start.number ≤ date.number ∧ date.number < start.number + days

instance (start : Date) (days : Nat) (date : Date) : Decidable (Within start days date) :=
  inferInstanceAs (Decidable (_ ∧ _))

end Date

namespace Calendar

variable {calendar : Calendar} {date : Date} {running : Running}

/-- A date falls on the day whose number counts from the start of the calendar. -/
theorem dayOf?_eq_some_iff {day : Nat} : calendar.dayOf? date = some day ↔
    day < calendar.numDays ∧ date.number = calendar.start.number + day := by
  unfold dayOf? Date.daysTo
  dsimp only
  split
  · rw [Option.some.injEq]
    omega
  · simp only [reduceCtorEq, false_iff]
    omega

/-- A date has no day exactly when it lies outside the calendar. -/
theorem dayOf?_eq_none_iff :
    calendar.dayOf? date = none ↔ ¬ Date.Within calendar.start calendar.numDays date := by
  unfold dayOf? Date.daysTo Date.Within
  dsimp only
  split
  · simp only [reduceCtorEq, false_iff]
    omega
  · simp only [true_iff]
    omega

theorem exists_dayOf? (h : Date.Within calendar.start calendar.numDays date) :
    ∃ day, calendar.dayOf? date = some day := by
  cases hDay : calendar.dayOf? date with
  | none => exact absurd h (dayOf?_eq_none_iff.mp hDay)
  | some day => exact ⟨day, rfl⟩

/-- Whether a date is one of those a service is added for. A set of days counts from the first day
of the calendar. -/
def Running.On (start date : Date) : Running → Prop
  | .everyDay => True
  | .days set => set.getLsbD (start.daysTo date).toNat = true
  | .weekly weekdays => date.weekday ∈ weekdays
  | .dated dates => date ∈ dates

/-- A day of the calendar is put into the set of a service exactly if the service is added for its
date. -/
theorem getLsbD_runningDays {day : Nat} (hDay : calendar.dayOf? date = some day) :
    (calendar.runningDays running).getLsbD day = true ↔ running.On calendar.start date := by
  obtain ⟨hLt, hNumber⟩ := dayOf?_eq_some_iff.mp hDay
  have hBound := Nat.lt_of_lt_of_le hLt calendar.numDays_le
  cases running with
  | everyDay => simp [runningDays, allDays, DaySet.getLsbD_ofDays, Running.On, hLt, hBound]
  | days set =>
      have hSame : (calendar.start.daysTo date).toNat = day := by
        simp only [Date.daysTo]
        omega
      rw [Running.On, hSame]
      rfl
  | weekly weekdays =>
      have hDate : calendar.start.addDays? day = some date :=
        Date.addDays?_eq_some_iff.mpr hNumber
      rw [runningDays, weeklyDays, DaySet.getLsbD_ofDays]
      simp [Running.On, hLt, hBound, hDate]
  | dated dates =>
      have hListed : day ∈ dates.filterMap calendar.dayOf? ↔ date ∈ dates := by
        rw [List.mem_filterMap]
        constructor
        · rintro ⟨other, hOther, hSame⟩
          obtain ⟨-, hNumberOther⟩ := dayOf?_eq_some_iff.mp hSame
          exact Date.eq_of_number_eq (hNumberOther.trans hNumber.symm) ▸ hOther
        · exact fun hMem => ⟨date, hMem, hDay⟩
      rw [runningDays, datedDays, DaySet.getLsbD_ofDays, Bool.and_eq_true, decide_eq_true_iff,
        List.contains_iff_mem, hListed]
      exact and_iff_right hBound

/-- A service that is known runs on a date exactly if the date is a day of the calendar and one of
the days of the service. -/
theorem runsOn_eq_true_iff {service : Nat} : calendar.runsOn service date = true ↔
    ∃ days day, calendar.services[service]? = some days ∧ calendar.dayOf? date = some day ∧
      days.getLsbD day = true := by
  unfold runsOn
  split
  · rename_i days day hDays hDay
    simp [hDays, hDay]
  · rename_i hNone
    simp only [Bool.false_eq_true, false_iff]
    rintro ⟨days, day, hDays, hDay, -⟩
    exact hNone days day hDays hDay

/-- The calendar with further services. Days are counted as before. -/
def extend (calendar : Calendar) (runnings : List Running) : Calendar :=
  { calendar with
    services := calendar.services ++ (runnings.map calendar.runningDays).toArray }

theorem runningDays_extend (runnings : List Running) :
    (calendar.extend runnings).runningDays = calendar.runningDays := by
  funext running
  cases running <;> rfl

/-- Services added in two batches are the services added in one. -/
theorem extend_extend (runnings others : List Running) :
    (calendar.extend runnings).extend others = calendar.extend (runnings ++ others) := by
  rw [extend, runningDays_extend]
  simp only [extend, List.map_append, Array.append_assoc, List.append_toArray]

/-- A calendar with room takes the service and gives it the next code. -/
theorem add_eq_ok (hRoom : calendar.services.size < maxServices) (running : Running) :
    calendar.add running = .ok (calendar.services.size, calendar.extend [running]) := by
  rw [add, addService, if_pos hRoom, Array.push_eq_append]
  rfl

/-- As long as there are numbers left, services are added one after the other. -/
theorem addAll_eq_ok {runnings : List Running}
    (hRoom : calendar.services.size + runnings.length ≤ maxServices) :
    calendar.addAll runnings = .ok (calendar.extend runnings) := by
  induction runnings generalizing calendar with
  | nil => simp [addAll, extend]
  | cons running rest ih =>
      rw [List.length_cons] at hRoom
      have hNext : (calendar.extend [running]).services.size + rest.length ≤ maxServices := by
        simp only [extend, List.map_singleton, Array.size_append, List.size_toArray,
          List.length_singleton]
        omega
      rw [addAll, add_eq_ok (by omega)]
      exact (ih hNext).trans (congrArg _ (extend_extend [running] rest))

/-- A service of an empty calendar that some are added to runs on the dates it was added for. -/
theorem runsOn_extend_empty {start : Date} {days : Nat} {runnings : List Running} {service : Nat} :
    ((empty start days).extend runnings).runsOn service date = true ↔
      ∃ running, runnings[service]? = some running ∧
        Date.Within start (min days maxDays) date ∧ running.On start date := by
  rw [runsOn_eq_true_iff]
  have hSets : ((empty start days).extend runnings).services[service]? =
      (runnings[service]?).map (empty start days).runningDays := by
    simp [extend, empty]
  simp only [hSets, Option.map_eq_some_iff]
  constructor
  · rintro ⟨_, day, ⟨running, hRunning, rfl⟩, hDay, hBit⟩
    refine ⟨running, hRunning, Decidable.byContradiction fun hNot => ?_, ?_⟩
    · rw [dayOf?_eq_none_iff.mpr hNot] at hDay
      cases hDay
    · exact (@getLsbD_runningDays (empty start days) _ _ _ hDay).mp hBit
  · rintro ⟨running, hRunning, hWithin, hOn⟩
    obtain ⟨day, hDay⟩ := @exists_dayOf? (empty start days) date hWithin
    exact ⟨_, day, ⟨running, hRunning, rfl⟩, hDay,
      (@getLsbD_runningDays (empty start days) _ _ _ hDay).mpr hOn⟩

/-- The services of a day, asked by number, are those that run on its date. -/
theorem isActive_servicesOn {day : ServiceDay} (hDay : calendar.servicesOn date = .ok day)
    (service : Nat) : day.isActive service = calendar.runsOn service date := by
  unfold servicesOn at hDay
  split at hDay
  · rename_i offset hOffset
    cases hDay
    simp only [ServiceDay.isActive, runsOn, hOffset, Array.getD_eq_getD_getElem?,
      Array.getElem?_map]
    cases calendar.services[service]? <;> rfl
  · cases hDay

theorem numActive_servicesOn {day : ServiceDay} (hDay : calendar.servicesOn date = .ok day) :
    day.numActive = (List.range calendar.services.size).countP (calendar.runsOn · date) := by
  have hSize : day.running.size = calendar.services.size := by
    unfold servicesOn at hDay
    split at hDay
    · cases hDay
      exact Array.size_map
    · cases hDay
  have hCount : day.numActive = (IndexSet.mk day.running).toList.length :=
    (IndexSet.length_toList ⟨day.running⟩).symm
  rw [hCount, IndexSet.toList, ← List.countP_eq_length_filter, hSize]
  exact List.countP_congr fun service _ => by rw [← isActive_servicesOn hDay]; rfl

/-- Asking for the services of a date fails exactly if the calendar does not have it. -/
theorem servicesOn_of_not_within (h : ¬ Date.Within calendar.start calendar.numDays date) :
    calendar.servicesOn date =
      .error (.dateOutOfRange date calendar.start calendar.lastDate) := by
  rw [servicesOn, dayOf?_eq_none_iff.mpr h]

/-- Every date within the calendar has its services. -/
theorem exists_servicesOn (h : Date.Within calendar.start calendar.numDays date) :
    ∃ day, calendar.servicesOn date = .ok day := by
  obtain ⟨offset, hOffset⟩ := exists_dayOf? h
  exact ⟨_, by rw [servicesOn, hOffset]⟩

/-- Services take the numbers from 0 on in the order in which they are added. Each runs on just those
dates of the calendar that it was added for, and goes on to do so when others follow. Asking for a
date outside the calendar fails, and on any other the services that run are known and counted. -/
theorem runs_as_added (start : Date) (days : Nat) {runnings : List Running}
    (hRoom : runnings.length ≤ maxServices) :
    ∃ calendar, (empty start days).addAll runnings = .ok calendar ∧
      (∀ service date, calendar.runsOn service date = true ↔
        ∃ running, runnings[service]? = some running ∧
          Date.Within start (min days maxDays) date ∧ running.On start date) ∧
      (∀ earlier running later, runnings = earlier ++ running :: later →
        ∃ before after, (empty start days).addAll earlier = .ok before ∧
          before.add running = .ok (earlier.length, after) ∧
          after.addAll later = .ok calendar ∧
          ∀ service ≤ earlier.length, ∀ date,
            calendar.runsOn service date = after.runsOn service date) ∧
      ∀ date,
        (¬ Date.Within start (min days maxDays) date →
          calendar.servicesOn date = .error (.dateOutOfRange date start calendar.lastDate)) ∧
        (Date.Within start (min days maxDays) date → ∃ day, calendar.servicesOn date = .ok day ∧
          (∀ service, day.isActive service = calendar.runsOn service date) ∧
          day.numActive = (List.range runnings.length).countP (calendar.runsOn · date)) := by
  have hAll : ∀ {runnings : List Running}, runnings.length ≤ maxServices →
      (empty start days).addAll runnings = .ok ((empty start days).extend runnings) :=
    fun hRoom => addAll_eq_ok (by simpa [empty] using hRoom)
  have hSize : ∀ runnings : List Running,
      ((empty start days).extend runnings).services.size = runnings.length := fun runnings => by
    simp [extend, empty]
  refine ⟨_, hAll hRoom, fun service date => runsOn_extend_empty, ?_, fun date => ⟨?_, ?_⟩⟩
  · rintro earlier running later rfl
    rw [List.length_append, List.length_cons] at hRoom
    have hAdd := @add_eq_ok ((empty start days).extend earlier) (by rw [hSize]; omega) running
    rw [hSize, extend_extend] at hAdd
    have hLater := @addAll_eq_ok ((empty start days).extend (earlier ++ [running])) later (by
      rw [hSize, List.length_append, List.length_singleton]
      omega)
    rw [extend_extend, List.append_assoc, List.singleton_append] at hLater
    refine ⟨_, _, hAll (by omega), hAdd, hLater, fun service hService date => ?_⟩
    have hSame : (earlier ++ running :: later)[service]? = (earlier ++ [running])[service]? := by
      rw [← List.singleton_append, ← List.append_assoc]
      refine List.getElem?_append_left ?_
      rw [List.length_append, List.length_singleton]
      omega
    rw [Bool.eq_iff_iff, runsOn_extend_empty, runsOn_extend_empty, hSame]
  · exact @servicesOn_of_not_within ((empty start days).extend runnings) date
  · intro hWithin
    obtain ⟨day, hDay⟩ := @exists_servicesOn ((empty start days).extend runnings) date hWithin
    refine ⟨day, hDay, isActive_servicesOn hDay, ?_⟩
    rw [numActive_servicesOn hDay, hSize]

def dayBeforeLast : Date := ⟨Date.lastNumber - 1, by decide, by decide⟩

/-- On a calendar that begins with the day before the last date there is, and is said to go on for a
thousand days, the last date is the second day. -/
theorem runs_as_added_at_the_end :
    ∃ calendar day, (empty dayBeforeLast 1000).addAll
        [.weekly [Date.last.weekday], .dated [Date.last], .days (BitVec.twoPow 384 2)] =
          .ok calendar ∧
      calendar.runsOn 0 Date.last = true ∧ calendar.runsOn 1 Date.last = true ∧
      calendar.runsOn 2 Date.last = false ∧ calendar.servicesOn Date.last = .ok day ∧
      day.numActive = 2 := by
  obtain ⟨calendar, hCalendar, hRuns, -, hDays⟩ := runs_as_added dayBeforeLast 1000
    (show [.weekly [Date.last.weekday], .dated [Date.last],
      Running.days (BitVec.twoPow 384 2)].length ≤ maxServices by decide)
  have hWithin : Date.Within dayBeforeLast (min 1000 maxDays) Date.last := by decide
  have hWeekly : calendar.runsOn 0 Date.last = true :=
    (hRuns 0 _).mpr ⟨_, rfl, hWithin, by simp [Running.On]⟩
  have hDated : calendar.runsOn 1 Date.last = true :=
    (hRuns 1 _).mpr ⟨_, rfl, hWithin, by simp [Running.On]⟩
  have hLater : calendar.runsOn 2 Date.last = false := by
    rw [← Bool.not_eq_true, hRuns]
    rintro ⟨running, hRunning, -, hOn⟩
    cases hRunning
    have hBit : (BitVec.twoPow 384 2).getLsbD 1 = true := hOn
    simp at hBit
  obtain ⟨day, hDay, -, hCount⟩ := (hDays Date.last).2 hWithin
  refine ⟨calendar, day, hCalendar, hWeekly, hDated, hLater, hDay, ?_⟩
  rw [hCount]
  simp [List.range_succ, hWeekly, hDated, hLater]

end Calendar

end JourneyPlanner
