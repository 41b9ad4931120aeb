import Mathlib

/-!
# The Gregorian calendar

Dates of the proleptic Gregorian calendar and the number of days from 1 January 1970 to each.
Days and dates correspond one to one, and a day of the year comes again within two years, but
for 29 February, which can stay away for eight.
-/

namespace Gregorian

/-! ## Years and months -/

def IsLeap (year : ℤ) : Prop :=
  4 ∣ year ∧ (¬ 100 ∣ year ∨ 400 ∣ year)

instance (year : ℤ) : Decidable (IsLeap year) :=
  inferInstanceAs (Decidable (_ ∧ _))

def daysInYear (year : ℤ) : ℕ :=
  if IsLeap year then 366 else 365

def daysInMonth (year : ℤ) (month : ℕ) : ℕ :=
  if month = 2 then (if IsLeap year then 29 else 28)
  else if month = 4 ∨ month = 6 ∨ month = 9 ∨ month = 11 then 30
  else 31

def daysBeforeYear (year : ℤ) : ℤ :=
  365 * (year - 1) + (year - 1) / 4 - (year - 1) / 100 + (year - 1) / 400

def daysBeforeMonth (year : ℤ) (month : ℕ) : ℕ :=
  ∑ before ∈ Finset.Ico 1 month, daysInMonth year before

theorem daysBeforeYear_succ (year : ℤ) :
    daysBeforeYear (year + 1) = daysBeforeYear year + daysInYear year := by
  unfold daysBeforeYear daysInYear
  by_cases h : IsLeap year
  · rw [if_pos h]
    unfold IsLeap at h
    omega
  · rw [if_neg h]
    unfold IsLeap at h
    omega

theorem daysInYear_pos (year : ℤ) : 0 < daysInYear year := by
  unfold daysInYear
  split <;> decide

theorem daysInYear_le (year : ℤ) : daysInYear year ≤ 366 := by
  unfold daysInYear
  split <;> decide

theorem strictMono_daysBeforeYear : StrictMono daysBeforeYear := by
  apply strictMono_int_of_lt_succ
  intro year
  rw [daysBeforeYear_succ]
  exact lt_add_of_pos_right _ (by exact_mod_cast daysInYear_pos year)

theorem daysBeforeYear_add_le (year : ℤ) (years : ℕ) :
    daysBeforeYear (year + years) ≤ daysBeforeYear year + 366 * years := by
  induction years with
  | zero => simp
  | succ years ih =>
      have hle : (daysInYear (year + years) : ℤ) ≤ 366 := by
        exact_mod_cast daysInYear_le (year + years)
      calc
        daysBeforeYear (year + (years + 1 : ℕ)) = daysBeforeYear (year + years + 1) := by
          rw [Nat.cast_succ, add_assoc]
        _ = daysBeforeYear (year + years) + daysInYear (year + years) := daysBeforeYear_succ _
        _ ≤ daysBeforeYear year + 366 * (years + 1 : ℕ) := by
          push_cast
          linarith only [ih, hle]

theorem le_daysInMonth (year : ℤ) (month : ℕ) : 28 ≤ daysInMonth year month := by
  unfold daysInMonth
  split_ifs <;> decide

theorem daysBeforeMonth_succ (year : ℤ) {month : ℕ} (h : 1 ≤ month) :
    daysBeforeMonth year (month + 1) = daysBeforeMonth year month + daysInMonth year month :=
  Finset.sum_Ico_succ_top h _

theorem daysBeforeMonth_one (year : ℤ) : daysBeforeMonth year 1 = 0 := by
  simp [daysBeforeMonth]

theorem monotone_daysBeforeMonth (year : ℤ) : Monotone (daysBeforeMonth year) := by
  intro month later h
  exact Finset.sum_le_sum_of_subset (Finset.Ico_subset_Ico_right h)

theorem daysBeforeMonth_thirteen (year : ℤ) : daysBeforeMonth year 13 = daysInYear year := by
  by_cases h : IsLeap year <;>
    simp [daysBeforeMonth, Finset.sum_Ico_eq_sum_range, Finset.sum_range_succ, daysInMonth,
      daysInYear, h]

/-! ## Dates -/

/-- A date that the calendar has. -/
@[ext]
structure Date where
  year : ℤ
  month : ℕ
  day : ℕ
  month_pos : 1 ≤ month
  month_le : month ≤ 12
  day_pos : 1 ≤ day
  day_le : day ≤ daysInMonth year month
  deriving DecidableEq

namespace Date

def dayOfYear (date : Date) : ℕ :=
  daysBeforeMonth date.year date.month + (date.day - 1)

def dayNumber (date : Date) : ℤ :=
  daysBeforeYear date.year + date.dayOfYear - 719162

def weekday (date : Date) : ℕ :=
  ((date.dayNumber + 4) % 7).toNat

theorem dayOfYear_lt_month (date : Date) :
    date.dayOfYear < daysBeforeMonth date.year (date.month + 1) := by
  rw [daysBeforeMonth_succ date.year date.month_pos]
  have hpos := date.day_pos
  have hle := date.day_le
  unfold dayOfYear
  omega

theorem dayOfYear_lt (date : Date) : date.dayOfYear < daysInYear date.year := by
  have hmonth : daysBeforeMonth date.year (date.month + 1) ≤ daysBeforeMonth date.year 13 :=
    monotone_daysBeforeMonth date.year (Nat.succ_le_succ date.month_le)
  rw [daysBeforeMonth_thirteen] at hmonth
  exact date.dayOfYear_lt_month.trans_le hmonth

theorem dayNumber_bounds (date : Date) :
    daysBeforeYear date.year ≤ date.dayNumber + 719162 ∧
      date.dayNumber + 719162 < daysBeforeYear (date.year + 1) := by
  have hlt : (date.dayOfYear : ℤ) < daysInYear date.year := by
    exact_mod_cast date.dayOfYear_lt
  rw [daysBeforeYear_succ]
  unfold dayNumber
  constructor <;> linarith

theorem year_eq_of_dayNumber_eq {date other : Date} (h : date.dayNumber = other.dayNumber) :
    date.year = other.year := by
  have hdate := date.dayNumber_bounds
  have hother := other.dayNumber_bounds
  rw [h] at hdate
  have hle : date.year < other.year + 1 :=
    strictMono_daysBeforeYear.lt_iff_lt.mp (hdate.1.trans_lt hother.2)
  have hge : other.year < date.year + 1 :=
    strictMono_daysBeforeYear.lt_iff_lt.mp (hother.1.trans_lt hdate.2)
  omega

theorem month_le_of_dayOfYear_le {date other : Date} (hyear : date.year = other.year)
    (h : date.dayOfYear ≤ other.dayOfYear) : date.month ≤ other.month := by
  by_contra hlt
  have hbefore : daysBeforeMonth other.year (other.month + 1) ≤
      daysBeforeMonth other.year date.month :=
    monotone_daysBeforeMonth other.year (not_le.mp hlt)
  have hother := other.dayOfYear_lt_month
  have hdate : daysBeforeMonth other.year date.month ≤ date.dayOfYear := by
    rw [← hyear]
    exact Nat.le_add_right _ _
  omega

theorem dayNumber_injective : Function.Injective dayNumber := by
  intro date other h
  have hyear := year_eq_of_dayNumber_eq h
  have hday : date.dayOfYear = other.dayOfYear := by
    unfold dayNumber at h
    rw [hyear] at h
    omega
  have hmonth : date.month = other.month :=
    le_antisymm (month_le_of_dayOfYear_le hyear hday.le)
      (month_le_of_dayOfYear_le hyear.symm hday.ge)
  apply Date.ext hyear hmonth
  have hpos := date.day_pos
  have hpos' := other.day_pos
  unfold dayOfYear at hday
  rw [hyear, hmonth] at hday
  omega

/-! ## From day to day -/

def first (year : ℤ) (month : ℕ) (hpos : 1 ≤ month) (hle : month ≤ 12) : Date where
  year := year
  month := month
  day := 1
  month_pos := hpos
  month_le := hle
  day_pos := le_rfl
  day_le := le_trans (by decide) (le_daysInMonth year month)

def last (year : ℤ) (month : ℕ) (hpos : 1 ≤ month) (hle : month ≤ 12) : Date where
  year := year
  month := month
  day := daysInMonth year month
  month_pos := hpos
  month_le := hle
  day_pos := le_trans (by decide) (le_daysInMonth year month)
  day_le := le_rfl

def next (date : Date) : Date :=
  if hday : date.day < daysInMonth date.year date.month then
    { date with day := date.day + 1, day_pos := Nat.le_add_left 1 _, day_le := hday }
  else if hmonth : date.month < 12 then
    first date.year (date.month + 1) (Nat.le_add_left 1 _) hmonth
  else first (date.year + 1) 1 le_rfl (by decide)

def prev (date : Date) : Date :=
  if hday : 1 < date.day then
    { date with
      day := date.day - 1
      day_pos := Nat.le_sub_one_of_lt hday
      day_le := (Nat.sub_le _ 1).trans date.day_le }
  else if hmonth : 1 < date.month then
    last date.year (date.month - 1) (Nat.le_sub_one_of_lt hmonth)
      ((Nat.sub_le _ 1).trans date.month_le)
  else last (date.year - 1) 12 (by decide) le_rfl

theorem dayNumber_next (date : Date) : date.next.dayNumber = date.dayNumber + 1 := by
  have hpos := date.day_pos
  unfold next
  split_ifs with hday hmonth
  · simp only [dayNumber, dayOfYear]
    omega
  · have hlast : date.day = daysInMonth date.year date.month :=
      le_antisymm date.day_le (not_lt.mp hday)
    simp only [dayNumber, dayOfYear, first, daysBeforeMonth_succ date.year date.month_pos]
    omega
  · have hlast : date.day = daysInMonth date.year date.month :=
      le_antisymm date.day_le (not_lt.mp hday)
    have hdecember : date.month = 12 := le_antisymm date.month_le (not_lt.mp hmonth)
    have hyear : daysInYear date.year = daysBeforeMonth date.year 12 + daysInMonth date.year 12 := by
      rw [← daysBeforeMonth_thirteen, daysBeforeMonth_succ date.year (by decide)]
    simp only [dayNumber, dayOfYear, first, daysBeforeYear_succ, daysBeforeMonth_one]
    rw [hdecember] at hlast ⊢
    omega

theorem next_prev (date : Date) : date.prev.next = date := by
  have hpos := date.day_pos
  unfold prev
  split_ifs with hday hmonth
  · have hlt : date.day - 1 < daysInMonth date.year date.month := by
      have hle := date.day_le
      omega
    refine (dif_pos hlt).trans (Date.ext rfl rfl ?_)
    exact Nat.sub_add_cancel hpos
  · have hlt : date.month - 1 < 12 := by
      have hle := date.month_le
      omega
    refine (dif_neg (lt_irrefl _)).trans ((dif_pos hlt).trans (Date.ext rfl ?_ ?_))
    · exact Nat.sub_add_cancel date.month_pos
    · exact le_antisymm hpos (not_lt.mp hday)
  · refine (dif_neg (lt_irrefl _)).trans ((dif_neg (lt_irrefl _)).trans (Date.ext ?_ ?_ ?_))
    · exact sub_add_cancel date.year 1
    · exact le_antisymm date.month_pos (not_lt.mp hmonth)
    · exact le_antisymm hpos (not_lt.mp hday)

theorem dayNumber_prev (date : Date) : date.prev.dayNumber = date.dayNumber - 1 := by
  have h := dayNumber_next date.prev
  rw [next_prev] at h
  omega

end Date

/-! ## The date of a day -/

def epoch : Date :=
  Date.first 1970 1 le_rfl (by decide)

/-- The date that is so many days after 1 January 1970. -/
def ofDay : ℤ → Date
  | .ofNat days => Date.next^[days] epoch
  | .negSucc days => Date.prev^[days + 1] epoch

theorem dayNumber_epoch : epoch.dayNumber = 0 := by
  decide

theorem dayNumber_iterate_next (date : Date) (days : ℕ) :
    (Date.next^[days] date).dayNumber = date.dayNumber + days := by
  induction days with
  | zero => simp
  | succ days ih =>
      rw [Function.iterate_succ_apply', Date.dayNumber_next, ih, Nat.cast_succ, add_assoc]

theorem dayNumber_iterate_prev (date : Date) (days : ℕ) :
    (Date.prev^[days] date).dayNumber = date.dayNumber - days := by
  induction days with
  | zero => simp
  | succ days ih =>
      rw [Function.iterate_succ_apply', Date.dayNumber_prev, ih, Nat.cast_succ, sub_sub]

@[simp]
theorem dayNumber_ofDay (day : ℤ) : (ofDay day).dayNumber = day := by
  cases day with
  | ofNat days => simp [ofDay, dayNumber_iterate_next, dayNumber_epoch]
  | negSucc days =>
      rw [ofDay, dayNumber_iterate_prev, dayNumber_epoch, Int.negSucc_eq]
      push_cast
      ring

@[simp]
theorem ofDay_dayNumber (date : Date) : ofDay date.dayNumber = date :=
  Date.dayNumber_injective (dayNumber_ofDay date.dayNumber)

/-! ## Dates that come again -/

theorem year_ofDay_bounds (day : ℤ) :
    daysBeforeYear (ofDay day).year ≤ day + 719162 ∧
      day + 719162 < daysBeforeYear ((ofDay day).year + 1) := by
  have h := (ofDay day).dayNumber_bounds
  rwa [dayNumber_ofDay] at h

theorem soon_of_next_year {day : ℤ} {later : Date} (h : later.year = (ofDay day).year + 1) :
    day < later.dayNumber ∧ later.dayNumber ≤ day + 731 := by
  obtain ⟨hlow, hhigh⟩ := later.dayNumber_bounds
  obtain ⟨hdaylow, hdayhigh⟩ := year_ofDay_bounds day
  rw [h] at hlow hhigh
  have htwo : daysBeforeYear ((ofDay day).year + 1 + 1) ≤
      daysBeforeYear (ofDay day).year + 732 := by
    rw [add_assoc]
    exact daysBeforeYear_add_le (ofDay day).year 2
  constructor <;> omega

theorem daysInMonth_eq (year other : ℤ) {month : ℕ} (h : month ≠ 2) :
    daysInMonth year month = daysInMonth other month := by
  unfold daysInMonth
  rw [if_neg h, if_neg h]

theorem day_le_of_not_leap_day (date : Date) (h : ¬ (date.month = 2 ∧ date.day = 29)) (year : ℤ) :
    date.day ≤ daysInMonth year date.month := by
  by_cases hmonth : date.month = 2
  · have hle : date.day ≤ 29 := by
      refine date.day_le.trans ?_
      unfold daysInMonth
      rw [if_pos hmonth]
      split <;> decide
    have hfebruary := le_daysInMonth year date.month
    have hne : date.day ≠ 29 := fun hday ↦ h ⟨hmonth, hday⟩
    omega
  · rw [daysInMonth_eq year date.year hmonth]
    exact date.day_le

def leapDay (year : ℤ) (h : IsLeap year) : Date where
  year := year
  month := 2
  day := 29
  month_pos := by decide
  month_le := by decide
  day_pos := by decide
  day_le := by simp [daysInMonth, h]

theorem dayNumber_leapDay (year : ℤ) (h : IsLeap year) :
    (leapDay year h).dayNumber = daysBeforeYear year + 59 - 719162 := by
  have hjanuary : daysBeforeMonth year 2 = 31 := by
    rw [daysBeforeMonth_succ year le_rfl, daysBeforeMonth_one]
    rfl
  simp [Date.dayNumber, Date.dayOfYear, leapDay, hjanuary]

theorem exists_eq_leapDay {date : Date} (hmonth : date.month = 2) (hday : date.day = 29) :
    ∃ h : IsLeap date.year, date = leapDay date.year h := by
  have hleap : IsLeap date.year := by
    by_contra hnot
    have hle := date.day_le
    rw [hmonth, hday] at hle
    simp [daysInMonth, hnot] at hle
  exact ⟨hleap, Date.ext rfl hmonth hday⟩

/-- A year without a leap year in the seven years that follow comes four years before a year
that is not leap although four divides it. -/
theorem leap_year_soon (year : ℤ) :
    (∃ leap, IsLeap leap ∧ year < leap ∧ leap ≤ year + 7) ∨
      ∃ (_ : IsLeap year) (_ : IsLeap (year + 8)),
        daysBeforeYear (year + 8) = daysBeforeYear year + 2921 := by
  -- the first two years after `year` that four divides
  by_cases hfirst : IsLeap (year + 4 - year % 4)
  · exact Or.inl ⟨_, hfirst, by omega, by omega⟩
  · have hsecond : IsLeap (year + 8 - year % 4) := by
      unfold IsLeap at hfirst ⊢
      omega
    by_cases hfour : year % 4 = 0
    · refine Or.inr ⟨?_, ?_, ?_⟩
      · unfold IsLeap at hfirst ⊢
        omega
      · rwa [hfour, sub_zero] at hsecond
      · unfold IsLeap at hfirst
        unfold daysBeforeYear
        omega
    · exact Or.inl ⟨_, hsecond, by omega, by omega⟩

theorem exists_leap_day_soon (day : ℤ) :
    ∃ later : Date, later.month = 2 ∧ later.day = 29 ∧
      day < later.dayNumber ∧ later.dayNumber ≤ day + 2928 := by
  obtain ⟨hlow, hhigh⟩ := year_ofDay_bounds day
  rcases leap_year_soon (ofDay day).year with ⟨leap, hleap, hlt, hle⟩ | ⟨hthis, height, hdays⟩
  · refine ⟨leapDay leap hleap, rfl, rfl, ?_⟩
    have hafter : daysBeforeYear ((ofDay day).year + 1) ≤ daysBeforeYear leap :=
      strictMono_daysBeforeYear.monotone (Int.add_one_le_iff.mpr hlt)
    have hbefore : daysBeforeYear leap ≤ daysBeforeYear (ofDay day).year + 366 * 7 :=
      (strictMono_daysBeforeYear.monotone hle).trans (daysBeforeYear_add_le _ 7)
    rw [dayNumber_leapDay]
    constructor <;> omega
  · by_cases hgone : day + 719162 < daysBeforeYear (ofDay day).year + 59
    · refine ⟨leapDay _ hthis, rfl, rfl, ?_⟩
      rw [dayNumber_leapDay]
      constructor <;> omega
    · refine ⟨leapDay _ height, rfl, rfl, ?_⟩
      have hyear := daysBeforeYear_succ (ofDay day).year
      have hlength := daysInYear_le (ofDay day).year
      rw [dayNumber_leapDay, hdays]
      constructor <;> omega

theorem exists_same_day_soon (date : Date) (day : ℤ) :
    ∃ later : Date, later.month = date.month ∧ later.day = date.day ∧
      day < later.dayNumber ∧ later.dayNumber ≤ day + 2928 := by
  by_cases hleap : date.month = 2 ∧ date.day = 29
  · rw [hleap.1, hleap.2]
    exact exists_leap_day_soon day
  · let later : Date :=
      { date with
        year := (ofDay day).year + 1
        day_le := day_le_of_not_leap_day date hleap _ }
    have hsoon : day < later.dayNumber ∧ later.dayNumber ≤ day + 731 := soon_of_next_year rfl
    exact ⟨later, rfl, rfl, hsoon.1, by omega⟩

theorem exists_weekday_soon (date : Date) (day : ℤ) :
    ∃ later : Date, later.month = date.month ∧ later.weekday = date.weekday ∧
      day < later.dayNumber ∧ later.dayNumber ≤ day + 2928 := by
  let first := Date.first ((ofDay day).year + 1) date.month date.month_pos date.month_le
  let wait := ((date.dayNumber - first.dayNumber) % 7).toNat
  have hwait : wait < 7 := by omega
  let later : Date :=
    { first with
      day := 1 + wait
      day_pos := Nat.le_add_right 1 wait
      day_le := le_trans (by omega) (le_daysInMonth first.year first.month) }
  have hsoon : day < later.dayNumber ∧ later.dayNumber ≤ day + 731 := soon_of_next_year rfl
  have hdays : later.dayNumber = first.dayNumber + wait := by
    simp only [Date.dayNumber, Date.dayOfYear, later, first, Date.first]
    omega
  refine ⟨later, rfl, ?_, hsoon.1, by omega⟩
  unfold Date.weekday
  rw [hdays]
  omega

end Gregorian
