import Fabushi.Library.Gregorian
import Fabushi.Worker.AutomationFields

/-!
# The least time of a schedule

`next_run` of `automation_schedule.rs` for a schedule in UTC, over the Gregorian calendar. A
schedule is due at a whole minute whose minute, hour, month and day it names. The search walks
2929 days and finds the least due time after the given one; a date that the schedule names
comes again within these days, so nothing is found only where no date is named at all.
-/

namespace Fabushi.Worker

open Gregorian (ofDay)

/-! ## Times at which a schedule is due -/

abbrev dayMillis : ℤ := 86400000

def dayOf (t : ℤ) : ℤ :=
  t / dayMillis

theorem monotone_dayOf : Monotone dayOf :=
  fun _ _ h ↦ Int.ediv_le_ediv (by decide) h

def hourOf (t : ℤ) : ℕ :=
  (t / 3600000 % 24).toNat

def minuteOf (t : ℤ) : ℕ :=
  (t / 60000 % 60).toNat

/-- The rule on the day of the month and the day of the week: where both are restricted, one
of them is enough. -/
def Cron.DayRule (cron : Cron) (date : Gregorian.Date) : Prop :=
  (cron.anyDay = true ∧ cron.anyWeekday = true) ∨
    (cron.anyDay = false ∧ date.day ∈ cron.days) ∨
    (cron.anyWeekday = false ∧ date.weekday ∈ cron.weekdays)

def Cron.Names (cron : Cron) (date : Gregorian.Date) : Prop :=
  date.month ∈ cron.months ∧ cron.DayRule date

/-- The schedule is due at a time. -/
structure Cron.Due (cron : Cron) (t : ℤ) : Prop where
  whole : 60000 ∣ t
  minute : minuteOf t ∈ cron.minutes
  hour : hourOf t ∈ cron.hours
  date : cron.Names (ofDay (dayOf t))

def timeOf (day : ℤ) (hour minute : ℕ) : ℤ :=
  day * dayMillis + hour * 3600000 + minute * 60000

theorem timeOf_parts {day : ℤ} {hour minute : ℕ} (hhour : hour < 24) (hminute : minute < 60) :
    60000 ∣ timeOf day hour minute ∧ dayOf (timeOf day hour minute) = day ∧
      hourOf (timeOf day hour minute) = hour ∧ minuteOf (timeOf day hour minute) = minute := by
  unfold timeOf dayOf hourOf minuteOf dayMillis
  refine ⟨?_, ?_, ?_, ?_⟩ <;> omega

theorem timeOf_dayOf {t : ℤ} (h : 60000 ∣ t) : timeOf (dayOf t) (hourOf t) (minuteOf t) = t := by
  unfold timeOf dayOf hourOf minuteOf dayMillis
  omega

theorem Cron.due_timeOf {cron : Cron} {date : Gregorian.Date} (hsound : cron.Sound)
    (hdate : cron.Names date) {hour minute : ℕ} (hhour : hour ∈ cron.hours)
    (hminute : minute ∈ cron.minutes) : cron.Due (timeOf date.dayNumber hour minute) := by
  obtain ⟨hwhole, hday, hhourOf, hminuteOf⟩ := @timeOf_parts date.dayNumber hour minute
    (hsound.hours_lt hour hhour) (hsound.minutes_lt minute hminute)
  constructor
  · exact hwhole
  · rwa [hminuteOf]
  · rwa [hhourOf]
  · rwa [hday, Gregorian.ofDay_dayNumber]

theorem Cron.Names.again {cron : Cron} {date : Gregorian.Date} (h : cron.Names date) (day : ℤ) :
    ∃ later, cron.Names later ∧ day < later.dayNumber ∧ later.dayNumber ≤ day + 2928 := by
  obtain ⟨hmonth, hrule⟩ := h
  rcases hrule with hany | ⟨hday, hmem⟩ | ⟨hweekday, hmem⟩
  · obtain ⟨later, hlater, -, hsoon⟩ := Gregorian.exists_same_day_soon date day
    exact ⟨later, ⟨hlater ▸ hmonth, Or.inl hany⟩, hsoon⟩
  · obtain ⟨later, hlater, hsame, hsoon⟩ := Gregorian.exists_same_day_soon date day
    exact ⟨later, ⟨hlater ▸ hmonth, Or.inr (Or.inl ⟨hday, hsame ▸ hmem⟩)⟩, hsoon⟩
  · obtain ⟨later, hlater, hsame, hsoon⟩ := Gregorian.exists_weekday_soon date day
    exact ⟨later, ⟨hlater ▸ hmonth, Or.inr (Or.inr ⟨hweekday, hsame ▸ hmem⟩)⟩, hsoon⟩

/-! ## The calendar library -/

def lastDate : Gregorian.Date where
  year := 262142
  month := 12
  day := 31
  month_pos := Nat.le_add_left 1 11
  month_le := Nat.le_add_left 12 0
  day_pos := Nat.le_add_left 1 30
  day_le := by decide

/-- What the calendar library documents of UTC and of its dates, which `civil` reads as dates
of the Gregorian calendar. -/
structure Calendar.Documented (calendar : Calendar)
    (civil : calendar.Date → Gregorian.Date) : Prop where
  month : ∀ date, calendar.month date = (civil date).month
  day : ∀ date, calendar.day date = (civil date).day
  weekday : ∀ date, calendar.numDaysFromSunday date = (civil date).weekday
  dateOf : ∀ t, 0 ≤ t → dayOf t ≤ lastDate.dayNumber →
    ∃ date, calendar.dateOf calendar.utc t = some date ∧ civil date = ofDay (dayOf t)
  addDays : ∀ date (days : ℕ), (civil date).dayNumber + days ≤ lastDate.dayNumber →
    ∃ later, calendar.addDays date days = some later ∧
      civil later = ofDay ((civil date).dayNumber + days)
  instants : ∀ date hour minute, hour < 24 → minute < 60 →
    calendar.instants calendar.utc date hour minute =
      [timeOf (civil date).dayNumber hour minute]

/-! ## The search -/

def Cron.dueAfter (cron : Cron) (afterMs : ℤ) : Set ℤ :=
  {t | afterMs < t ∧ cron.Due t}

def Cron.Tells (cron : Cron) (afterMs day : ℤ) : Option ℤ → Prop
  | some t => IsLeast (cron.dueAfter afterMs) t
  | none => ∀ t ∈ cron.dueAfter afterMs, day ≤ dayOf t

section Calendar

variable {calendar : Calendar} {civil : calendar.Date → Gregorian.Date}
  (hdoc : calendar.Documented civil) {cron : Cron} {afterMs : ℤ}

include hdoc

theorem Cron.dayMatches_iff {date : calendar.Date} :
    cron.dayMatches calendar date = true ↔ cron.DayRule (civil date) := by
  unfold Cron.dayMatches Cron.DayRule
  rw [hdoc.day, hdoc.weekday]
  cases cron.anyDay <;> cases cron.anyWeekday <;> simp

theorem Cron.names_iff {date : calendar.Date} :
    (!cron.months.contains (calendar.month date) || !cron.dayMatches calendar date) = false ↔
      cron.Names (civil date) := by
  rw [Bool.or_eq_false_iff, Bool.not_eq_false', Bool.not_eq_false', List.contains_iff_mem,
    hdoc.month, Cron.dayMatches_iff hdoc]
  rfl

theorem Cron.mem_times (hsound : cron.Sound) {date : calendar.Date}
    (hnames : cron.Names (civil date)) (t : ℤ) :
    t ∈ (cron.hours.flatMap fun hour ↦ cron.minutes.flatMap fun minute ↦
        (calendar.instants calendar.utc date hour minute).filter (afterMs < ·)) ↔
      t ∈ cron.dueAfter afterMs ∧ dayOf t = (civil date).dayNumber := by
  simp only [List.mem_flatMap, List.mem_filter, decide_eq_true_eq]
  constructor
  · rintro ⟨hour, hhour, minute, hminute, hinstant, hafter⟩
    have hlt := hsound.hours_lt hour hhour
    have hlt' := hsound.minutes_lt minute hminute
    rw [hdoc.instants date hour minute hlt hlt', List.mem_singleton] at hinstant
    rw [hinstant] at hafter ⊢
    exact ⟨⟨hafter, Cron.due_timeOf hsound hnames hhour hminute⟩, (timeOf_parts hlt hlt').2.1⟩
  · rintro ⟨⟨hafter, hdue⟩, hday⟩
    refine ⟨hourOf t, hdue.hour, minuteOf t, hdue.minute, ?_, hafter⟩
    rw [hdoc.instants date _ _ (hsound.hours_lt _ hdue.hour) (hsound.minutes_lt _ hdue.minute),
      ← hday, timeOf_dayOf hdue.whole]
    exact List.mem_singleton_self t

theorem Cron.tells_earliest (hsound : cron.Sound) {date : calendar.Date}
    (hnames : cron.Names (civil date))
    (hbefore : ∀ t ∈ cron.dueAfter afterMs, (civil date).dayNumber ≤ dayOf t) :
    cron.Tells afterMs ((civil date).dayNumber + 1)
      (cron.earliest calendar calendar.utc date afterMs) := by
  have hmem := @Cron.mem_times calendar civil hdoc cron afterMs hsound date hnames
  cases hearliest : cron.earliest calendar calendar.utc date afterMs with
  | some t =>
      obtain ⟨hin, hleast⟩ := List.min?_eq_some_iff.mp hearliest
      obtain ⟨hdue, hday⟩ := (hmem t).mp hin
      refine ⟨hdue, fun later hlater ↦ ?_⟩
      rcases (hbefore later hlater).eq_or_lt with hsame | hlt
      · exact hleast later ((hmem later).mpr ⟨hlater, hsame.symm⟩)
      · rw [← hday] at hlt
        exact (monotone_dayOf.reflect_lt hlt).le
  | none =>
      intro t ht
      refine Int.add_one_le_iff.mpr (lt_of_le_of_ne (hbefore t ht) fun hday ↦ ?_)
      have hnone := List.min?_eq_none_iff.mp hearliest
      have hin := (hmem t).mpr ⟨ht, hday.symm⟩
      rw [hnone] at hin
      cases hin

theorem Cron.tells_search (hsound : cron.Sound) {start : calendar.Date} {offset dates : ℕ}
    (hlast : (civil start).dayNumber + offset + dates ≤ lastDate.dayNumber + 1)
    (hbefore : ∀ t ∈ cron.dueAfter afterMs, (civil start).dayNumber + offset ≤ dayOf t) :
    cron.Tells afterMs ((civil start).dayNumber + offset + dates)
      (cron.search calendar calendar.utc start afterMs offset dates) := by
  induction dates generalizing offset with
  | zero => simpa [Cron.search, Cron.Tells] using hbefore
  | succ dates ih =>
      obtain ⟨date, hdate, hcivil⟩ := hdoc.addDays start offset (by omega)
      have hday : (civil date).dayNumber = (civil start).dayNumber + offset := by
        rw [hcivil, Gregorian.dayNumber_ofDay]
      have hnext : (∀ t ∈ cron.dueAfter afterMs, (civil date).dayNumber + 1 ≤ dayOf t) →
          cron.Tells afterMs ((civil start).dayNumber + offset + (dates + 1 : ℕ))
            (cron.search calendar calendar.utc start afterMs (offset + 1) dates) := by
        intro hlater
        have hrest := @ih (offset + 1) (by push_cast; omega) (by
          intro t ht
          have hle := hlater t ht
          push_cast
          omega)
        have hdays : (civil start).dayNumber + (offset + 1 : ℕ) + dates =
            (civil start).dayNumber + offset + (dates + 1 : ℕ) := by
          push_cast
          ring
        rwa [hdays] at hrest
      rw [Cron.search, hdate]
      change cron.Tells afterMs _ (if _ then _ else _)
      split_ifs with hskip
      · apply hnext
        intro t ht
        refine Int.add_one_le_iff.mpr (lt_of_le_of_ne (hday ▸ hbefore t ht) fun hsame ↦ ?_)
        have hnames : cron.Names (civil date) := by
          rw [hcivil, ← hday, hsame]
          exact ht.2.date
        rw [(Cron.names_iff hdoc).mpr hnames] at hskip
        cases hskip
      · have hnames := (Cron.names_iff hdoc).mp (Bool.eq_false_of_not_eq_true hskip)
        have htells := Cron.tells_earliest hdoc hsound hnames fun t ht ↦ hday ▸ hbefore t ht
        split
        · rename_i next hearliest
          rwa [hearliest] at htells
        · rename_i hearliest
          rw [hearliest] at htells
          exact hnext htells

end Calendar

theorem Cron.Names.due_soon {cron : Cron} {date : Gregorian.Date} (hnames : cron.Names date)
    (hsound : cron.Sound) (afterMs : ℤ) :
    ∃ t ∈ cron.dueAfter afterMs, dayOf t ≤ dayOf afterMs + 2928 := by
  obtain ⟨later, hlater, hgt, hle⟩ := hnames.again (dayOf afterMs)
  obtain ⟨hour, hhour⟩ := List.exists_mem_of_ne_nil _ hsound.hours_ne_nil
  obtain ⟨minute, hminute⟩ := List.exists_mem_of_ne_nil _ hsound.minutes_ne_nil
  have hday : dayOf (timeOf later.dayNumber hour minute) = later.dayNumber :=
    (timeOf_parts (hsound.hours_lt hour hhour) (hsound.minutes_lt minute hminute)).2.1
  refine ⟨timeOf later.dayNumber hour minute, ⟨?_, ?_⟩, ?_⟩
  · apply monotone_dayOf.reflect_lt
    rwa [hday]
  · exact Cron.due_timeOf hsound hlater hhour hminute
  · rwa [hday]

theorem search_within {day : ℤ} (h : (ofDay day).year ≤ 200000) :
    day + 2929 ≤ lastDate.dayNumber + 1 ∧ day ≤ 73048500 := by
  have hday := (Gregorian.year_ofDay_bounds day).2
  have hyears : Gregorian.daysBeforeYear ((ofDay day).year + 1) ≤
      Gregorian.daysBeforeYear 200001 :=
    Gregorian.strictMono_daysBeforeYear.monotone (by omega)
  have hlast := lastDate.dayNumber_bounds.1
  have hyear : Gregorian.daysBeforeYear 200001 = 73048500 := by decide
  have hlastYear : Gregorian.daysBeforeYear lastDate.year = 95745034 := by decide
  constructor <;> omega

/-! ## The next run -/

def normalized (schedule : String) : List Char :=
  [' '].intercalate (splitWhitespace schedule.toList)

section NextRun

variable {calendar : Calendar} {schedule : String} {cron : Cron} {afterMs : ℤ}

theorem nextRun_eq_nextCron (hparse : Cron.parse (normalized schedule) = some cron)
    (hnonneg : 0 ≤ afterMs) (hsafe : afterMs ≤ maxSafeInteger) :
    nextRun calendar schedule afterMs =
      nextCron calendar calendar.utc (normalized schedule) afterMs := by
  have hzone : splitZone calendar schedule = some (normalized schedule, calendar.utc) := by
    have hnone := Cron.stripChars_zone hparse
    unfold normalized at hnone
    simp only [splitZone, hnone, normalized]
  have hguard : (guard (0 ≤ afterMs ∧ afterMs ≤ maxSafeInteger) : Option Unit) = some () :=
    if_pos ⟨hnonneg, hsafe⟩
  simp only [nextRun, hguard, hzone, Option.bind_eq_bind, Option.bind_some,
    Cron.stripChars_every hparse]

theorem nextCron_eq_search {expression : List Char} (hparse : Cron.parse expression = some cron)
    {start : calendar.Date} (hstart : calendar.dateOf calendar.utc afterMs = some start) :
    nextCron calendar calendar.utc expression afterMs =
      cron.search calendar calendar.utc start afterMs 0 2929 := by
  unfold nextCron
  rw [hparse, hstart]
  rfl

theorem tells_nextRun {civil : calendar.Date → Gregorian.Date}
    (hdoc : calendar.Documented civil) (hparse : Cron.parse (normalized schedule) = some cron)
    (hnonneg : 0 ≤ afterMs) (hyear : (ofDay (dayOf afterMs)).year ≤ 200000) :
    cron.Tells afterMs (dayOf afterMs + 2929) (nextRun calendar schedule afterMs) := by
  obtain ⟨hlast, hday⟩ := search_within hyear
  have hsafe : afterMs ≤ maxSafeInteger := by
    unfold dayOf dayMillis at hday
    unfold maxSafeInteger
    omega
  obtain ⟨start, hstart, hcivil⟩ := hdoc.dateOf afterMs hnonneg (by omega)
  have hnumber : (civil start).dayNumber = dayOf afterMs := by
    rw [hcivil, Gregorian.dayNumber_ofDay]
  rw [nextRun_eq_nextCron hparse hnonneg hsafe, nextCron_eq_search hparse hstart]
  have hsearch := @Cron.tells_search calendar civil hdoc cron afterMs
    (Cron.exists_of_parse hparse).1 start 0 2929 (by rw [hnumber]; simpa using hlast) (by
      intro t ht
      rw [hnumber, Nat.cast_zero, add_zero]
      exact monotone_dayOf ht.1.le)
  rw [hnumber] at hsearch
  simpa using hsearch

end NextRun

/-! ## A leap day after a century without one -/

def utcCalendar : Calendar where
  Zone := Unit
  Date := Gregorian.Date
  utc := ()
  parseZone name := if name = "UTC" then some () else none
  dateOf _ t := if dayOf t ≤ lastDate.dayNumber then some (ofDay (dayOf t)) else none
  addDays date days :=
    if date.dayNumber + days ≤ lastDate.dayNumber then some (ofDay (date.dayNumber + days))
    else none
  month := Gregorian.Date.month
  day := Gregorian.Date.day
  numDaysFromSunday := Gregorian.Date.weekday
  instants _ date hour minute := [timeOf date.dayNumber hour minute]

theorem utcCalendar_documented : utcCalendar.Documented id where
  month _ := rfl
  day _ := rfl
  weekday _ := rfl
  dateOf _ _ hlast := ⟨_, if_pos hlast, rfl⟩
  addDays _ _ hlast := ⟨_, if_pos hlast, rfl⟩
  instants _ _ _ _ _ := rfl

def leapDayCron : Cron where
  minutes := [0]
  hours := [0]
  days := [29]
  months := [2]
  weekdays := [0, 1, 2, 3, 4, 5, 6, 0]
  anyDay := false
  anyWeekday := true

theorem leapDayCron_names {date : Gregorian.Date} :
    leapDayCron.Names date ↔ date.month = 2 ∧ date.day = 29 := by
  simp [Cron.Names, Cron.DayRule, leapDayCron]

theorem exists_of_leapDayCron_due {t : ℤ} (h : leapDayCron.Due t) :
    ∃ year, Gregorian.IsLeap year ∧
      t = (Gregorian.daysBeforeYear year + 59 - 719162) * dayMillis := by
  obtain ⟨hmonth, hday⟩ := leapDayCron_names.mp h.date
  obtain ⟨hleap, hdate⟩ := Gregorian.exists_eq_leapDay hmonth hday
  refine ⟨_, hleap, ?_⟩
  have hhour : hourOf t = 0 := List.mem_singleton.mp h.hour
  have hminute : minuteOf t = 0 := List.mem_singleton.mp h.minute
  have hnumber := Gregorian.dayNumber_leapDay _ hleap
  rw [← hdate, Gregorian.dayNumber_ofDay] at hnumber
  calc
    t = timeOf (dayOf t) (hourOf t) (minuteOf t) := (timeOf_dayOf h.whole).symm
    _ = dayOf t * dayMillis := by simp [timeOf, hhour, hminute]
    _ = _ := by rw [← hnumber]

theorem leapDayCron_isLeast :
    IsLeast (leapDayCron.dueAfter 3981312000000) 4233686400000 := by
  constructor
  · refine ⟨by decide, by decide, by decide, by decide, ?_⟩
    have hday : dayOf 4233686400000 = (Gregorian.leapDay 2104 (by decide)).dayNumber := by
      rw [Gregorian.dayNumber_leapDay]
      decide
    rw [hday, Gregorian.ofDay_dayNumber]
    exact leapDayCron_names.mpr ⟨rfl, rfl⟩
  · rintro t ⟨hafter, hdue⟩
    obtain ⟨year, hleap, rfl⟩ := exists_of_leapDayCron_due hdue
    have hlate : 2096 < year := by
      by_contra hearly
      have hle := Gregorian.strictMono_daysBeforeYear.monotone (not_lt.mp hearly)
      have h2096 : Gregorian.daysBeforeYear 2096 = 765183 := by decide
      unfold dayMillis at hafter
      omega
    have hyear : 2104 ≤ year := by
      unfold Gregorian.IsLeap at hleap
      omega
    have hle := Gregorian.strictMono_daysBeforeYear.monotone hyear
    have h2104 : Gregorian.daysBeforeYear 2104 = 768104 := by decide
    unfold dayMillis
    omega

end Fabushi.Worker
