import Fabushi.Library.Text

/-!
# Times of a schedule

`next_run` of `automation_schedule.rs`: the first time after a given one at which a schedule is
due. Dates and time zones come from a calendar.
-/

namespace Fabushi.Worker

/-- What the calendar library tells; times are in milliseconds. -/
structure Calendar where
  Zone : Type
  Date : Type
  utc : Zone
  parseZone : String → Option Zone
  /-- The date of a time in a zone. -/
  dateOf : Zone → ℤ → Option Date
  addDays : Date → ℕ → Option Date
  month : Date → ℕ
  day : Date → ℕ
  numDaysFromSunday : Date → ℕ
  /-- The times at which a clock in the zone shows this hour and minute of the date. -/
  instants : Zone → Date → ℕ → ℕ → List ℤ

/-- `str::parse` of an unsigned integer below the bound. -/
def parseUnsigned (bound : ℕ) (text : List Char) : Option ℕ :=
  let digits := match text with
    | '+' :: rest => rest
    | text => text
  if digits.isEmpty ∨ ¬ digits.all Text.isAsciiDigit then none
  else some (digits.foldl (fun n c ↦ 10 * n + (c.toNat - 48)) 0) |>.filter (· < bound)

def parseU32 : List Char → Option ℕ :=
  parseUnsigned (2 ^ 32)

def splitOnce (separator : Char) : List Char → Option (List Char × List Char)
  | [] => none
  | c :: text =>
      if c = separator then some ([], text)
      else (splitOnce separator text).map fun halves ↦ (c :: halves.1, halves.2)

def fieldRange (min max : ℕ) (stepped : Bool) (range : List Char) : Option (ℕ × ℕ) :=
  if range = ['*'] then some (min, max)
  else match splitOnce '-' range with
    | some (a, b) => (parseU32 a).bind fun a ↦ (parseU32 b).map fun b ↦ (a, b)
    | none => (parseU32 range).map fun a ↦ (a, if stepped then max else a)

def fieldPart (min max : ℕ) (part : List Char) : Option (List ℕ) := do
  let (range, step) ← match part.splitOn '/' with
    | [range] => some (range, 1)
    | [range, step] => (parseU32 step).map fun step ↦ (range, step)
    | _ => none
  guard (step ≠ 0)
  let (start, stop) ← fieldRange min max (part.contains '/') range
  guard (min ≤ start ∧ stop ≤ max ∧ start ≤ stop)
  return (List.range' start (stop + 1 - start)).filter fun value ↦ (value - start) % step = 0

def field (raw : List Char) (min max : ℕ) : Option (List ℕ) := do
  let parts ← (raw.splitOn ',').mapM (fieldPart min max)
  let values := parts.flatten
  guard (values ≠ [])
  return values

def splitWhitespace (text : List Char) : List (List Char) :=
  (text.splitOnP Text.isWhitespace).filter (· ≠ [])

def asciiLower (c : Char) : Char :=
  if Text.isAsciiUppercase c then Char.ofNat (c.toNat + 32) else c

def stripChars (start text : List Char) : Option (List Char) :=
  if start.isPrefixOf text then some (text.drop start.length) else none

/-- The largest integer that a JSON reader keeps exactly. -/
def maxSafeInteger : ℤ := 9007199254740991

def unitMillis (unit : List Char) : Option ℤ :=
  match String.ofList unit with
  | "s" => some 1000
  | "m" => some 60000
  | "h" => some 3600000
  | "d" => some 86400000
  | _ => none

def checkedI64 (value : ℤ) : Option ℤ :=
  if -2 ^ 63 ≤ value ∧ value < 2 ^ 63 then some value else none

/-- `@every`, a number, and a unit. -/
def nextInterval (rest : List Char) (afterMs : ℤ) : Option ℤ := do
  let unit := rest.dropWhile Text.isAsciiDigit
  guard (unit ≠ [])
  let amount ← parseUnsigned (2 ^ 63) (rest.takeWhile Text.isAsciiDigit)
  guard (0 < amount)
  let unit ← unitMillis unit
  let span ← checkedI64 (amount * unit)
  let next ← checkedI64 (afterMs + span)
  guard (next ≤ maxSafeInteger)
  return next

def namedCron (expression : List Char) : List Char :=
  match String.ofList (expression.map asciiLower) with
  | "@hourly" => "0 * * * *".toList
  | "@daily" => "0 0 * * *".toList
  | "@midnight" => "0 0 * * *".toList
  | "@weekly" => "0 0 * * 0".toList
  | "@monthly" => "0 0 1 * *".toList
  | "@yearly" => "0 0 1 1 *".toList
  | "@annually" => "0 0 1 1 *".toList
  | _ => expression

structure Cron where
  minutes : List ℕ
  hours : List ℕ
  days : List ℕ
  months : List ℕ
  weekdays : List ℕ
  anyDay : Bool
  anyWeekday : Bool

def Cron.parse (expression : List Char) : Option Cron :=
  match splitWhitespace (namedCron expression) with
  | [minutes, hours, days, months, weekdays] => do
      let anyDay := days = ['*']
      let anyWeekday := weekdays = ['*']
      let minutes ← field minutes 0 59
      let hours ← field hours 0 23
      let days ← field days 1 31
      let months ← field months 1 12
      let weekdays ← field weekdays 0 7
      return { minutes, hours, days, months, weekdays := weekdays.map (· % 7), anyDay, anyWeekday }
  | _ => none

section Calendar

variable (calendar : Calendar)

def Cron.dayMatches (cron : Cron) (date : calendar.Date) : Bool :=
  let dom := cron.days.contains (calendar.day date)
  let dow := cron.weekdays.contains (calendar.numDaysFromSunday date)
  match !cron.anyDay, !cron.anyWeekday with
  | true, true => dom || dow
  | true, false => dom
  | false, true => dow
  | false, false => true

def Cron.earliest (cron : Cron) (zone : calendar.Zone) (date : calendar.Date) (afterMs : ℤ) :
    Option ℤ :=
  (cron.hours.flatMap fun hour ↦ cron.minutes.flatMap fun minute ↦
    (calendar.instants zone date hour minute).filter (afterMs < ·)).min?

def Cron.search (cron : Cron) (zone : calendar.Zone) (start : calendar.Date) (afterMs : ℤ) :
    (offset dates : ℕ) → Option ℤ
  | _, 0 => none
  | offset, dates + 1 => do
      let date ← calendar.addDays start offset
      if !cron.months.contains (calendar.month date) || !cron.dayMatches calendar date then
        cron.search zone start afterMs (offset + 1) dates
      else match cron.earliest calendar zone date afterMs with
        | some next => some next
        | none => cron.search zone start afterMs (offset + 1) dates

def nextCron (zone : calendar.Zone) (expression : List Char) (afterMs : ℤ) : Option ℤ := do
  let cron ← Cron.parse expression
  let start ← calendar.dateOf zone afterMs
  cron.search calendar zone start afterMs 0 (8 * 366 + 1)

def splitZone (schedule : String) : Option (List Char × calendar.Zone) :=
  let normalized := [' '].intercalate (splitWhitespace schedule.toList)
  match (stripChars "CRON_TZ=".toList normalized).or (stripChars "TZ=".toList normalized) with
  | none => some (normalized, calendar.utc)
  | some rest => do
      let (zone, expression) ← splitOnce ' ' rest
      let zone ← calendar.parseZone (String.ofList zone)
      return (expression, zone)

def nextRun (schedule : String) (afterMs : ℤ) : Option ℤ := do
  guard (0 ≤ afterMs ∧ afterMs ≤ maxSafeInteger)
  let (expression, zone) ← splitZone calendar schedule
  match stripChars "@every ".toList (expression.map asciiLower) with
  | some rest => nextInterval rest afterMs
  | none => nextCron calendar zone expression afterMs

/-! ## The next time is later -/

theorem unitMillis_pos {unit : List Char} {millis : ℤ} (h : unitMillis unit = some millis) :
    0 < millis := by
  unfold unitMillis at h
  split at h <;> cases h <;> decide

theorem checkedI64_eq_some {value checked : ℤ} (h : checkedI64 value = some checked) :
    checked = value := by
  unfold checkedI64 at h
  split at h
  · exact (Option.some.inj h).symm
  · cases h

theorem lt_nextInterval {rest : List Char} {afterMs next : ℤ}
    (h : nextInterval rest afterMs = some next) : afterMs < next := by
  obtain ⟨-, -, h⟩ := Option.bind_eq_some_iff.mp h
  obtain ⟨amount, -, h⟩ := Option.bind_eq_some_iff.mp h
  obtain ⟨_, hamount, h⟩ := Option.bind_eq_some_iff.mp h
  obtain ⟨millis, hunit, h⟩ := Option.bind_eq_some_iff.mp h
  obtain ⟨span, hspan, h⟩ := Option.bind_eq_some_iff.mp h
  obtain ⟨later, hlater, h⟩ := Option.bind_eq_some_iff.mp h
  obtain ⟨-, -, h⟩ := Option.bind_eq_some_iff.mp h
  have hpos : 0 < (amount : ℤ) := by simpa using hamount
  calc
    afterMs < afterMs + amount * millis :=
      lt_add_of_pos_right afterMs (mul_pos hpos (unitMillis_pos hunit))
    _ = afterMs + span := by rw [checkedI64_eq_some hspan]
    _ = later := (checkedI64_eq_some hlater).symm
    _ = next := Option.some.inj h

theorem Cron.lt_earliest {cron : Cron} {zone : calendar.Zone} {date : calendar.Date}
    {afterMs next : ℤ} (h : cron.earliest calendar zone date afterMs = some next) :
    afterMs < next := by
  have hmem := List.min?_mem h
  obtain ⟨hour, -, hhour⟩ := List.mem_flatMap.mp hmem
  obtain ⟨minute, -, hminute⟩ := List.mem_flatMap.mp hhour
  simpa using (List.mem_filter.mp hminute).2

theorem Cron.lt_search {cron : Cron} {zone : calendar.Zone} {start : calendar.Date}
    {afterMs next : ℤ} {offset dates : ℕ}
    (h : cron.search calendar zone start afterMs offset dates = some next) : afterMs < next := by
  induction dates generalizing offset with
  | zero => cases h
  | succ dates ih =>
      obtain ⟨date, -, hdate⟩ := Option.bind_eq_some_iff.mp h
      split at hdate
      · exact ih hdate
      · split at hdate
        · rename_i earliest hearliest
          rw [← Option.some.inj hdate]
          exact cron.lt_earliest calendar hearliest
        · exact ih hdate

theorem lt_nextCron {zone : calendar.Zone} {expression : List Char} {afterMs next : ℤ}
    (h : nextCron calendar zone expression afterMs = some next) : afterMs < next := by
  obtain ⟨cron, -, hcron⟩ := Option.bind_eq_some_iff.mp h
  obtain ⟨start, -, hsearch⟩ := Option.bind_eq_some_iff.mp hcron
  exact cron.lt_search calendar hsearch

theorem lt_nextRun {schedule : String} {afterMs next : ℤ}
    (h : nextRun calendar schedule afterMs = some next) : afterMs < next := by
  obtain ⟨-, -, h⟩ := Option.bind_eq_some_iff.mp h
  obtain ⟨⟨expression, zone⟩, -, h⟩ := Option.bind_eq_some_iff.mp h
  dsimp only at h
  split at h
  · exact lt_nextInterval h
  · exact lt_nextCron calendar h

end Calendar

end Fabushi.Worker
