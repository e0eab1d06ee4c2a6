/-
# Dates and day numbers

A date that the calendar has and its day number determine each other, in every year.  Days are
found by year and then by month, so there are two facts to it: the starts of the years rise, and a
day of a year lies in exactly one month.  Weeks of the ISO calendar run between the first Mondays of
their years in the same way, each of which is at most three days off the start of the calendar year.
-/

import Mathlib
import RowFormula.Calendar.Date

namespace RowFormula.Calendar

variable {y n : Int} {k r rest month : Nat} {lengths : List Nat}

/-! ### Years -/

theorem yearStart_eq (y : Int) :
    yearStart y = 365 * (y - 1) + (y - 1) / 4 - (y - 1) / 100 + (y - 1) / 400 - 719162 := rfl

theorem yearStart_succ (y : Int) : yearStart (y + 1) = yearStart y + daysInYear y := by
  unfold yearStart daysInYear isLeapYear
  split <;> simp_all <;> omega

theorem daysInYear_pos (y : Int) : 365 ≤ daysInYear y := by
  unfold daysInYear
  split <;> decide

theorem yearStart_strictMono : StrictMono yearStart := by
  refine strictMono_int_of_lt_succ fun y => ?_
  have hpos := daysInYear_pos y
  rw [yearStart_succ]
  omega

/-- The estimate by the mean length of a year is off by at most one. -/
theorem yearOfDay_spec (n : Int) :
    yearStart (yearOfDay n) ≤ n ∧ n < yearStart (yearOfDay n + 1) := by
  unfold yearOfDay
  dsimp only
  split
  · simp only [yearStart_eq] at *
    constructor <;> omega
  · split
    · simp only [yearStart_eq] at *
      constructor <;> omega
    · constructor <;> omega

theorem yearOfDay_eq (hfirst : yearStart y ≤ n) (hnext : n < yearStart (y + 1)) :
    yearOfDay n = y := by
  obtain ⟨hfirst', hnext'⟩ := yearOfDay_spec n
  have hle := yearStart_strictMono.lt_iff_lt.1 (hfirst'.trans_lt hnext)
  have hge := yearStart_strictMono.lt_iff_lt.1 (hfirst.trans_lt hnext')
  omega

/-! ### Months -/

theorem sum_monthLengths (y : Int) : (monthLengths y).sum = daysInYear y := by
  unfold monthLengths daysInYear
  split <;> rfl

/-- A day that comes so many days into a month is found in this month. -/
theorem monthAndDay_eq (hk : k < lengths.length) (hr : r < lengths[k]) (month : Nat) :
    monthAndDay lengths month ((lengths.take k).sum + r) = (month + k, r + 1) := by
  induction lengths generalizing k month with
  | nil => exact absurd hk (Nat.not_lt_zero k)
  | cons length lengths ih =>
      cases k with
      | zero =>
          rw [List.take_zero, List.sum_nil, Nat.zero_add, monthAndDay]
          exact if_pos hr
      | succ k =>
          rw [List.take_succ_cons, List.sum_cons, monthAndDay, if_neg (by omega),
            show length + (lengths.take k).sum + r - length = (lengths.take k).sum + r by omega,
            ih (Nat.lt_of_succ_lt_succ hk) hr, Nat.add_right_comm]
          rfl

/-- Every day of a year lies in a month. -/
theorem exists_month (h : rest < lengths.sum) :
    ∃ k r, ∃ hk : k < lengths.length, r < lengths[k] ∧ (lengths.take k).sum + r = rest := by
  induction lengths generalizing rest with
  | nil => exact absurd h (Nat.not_lt_zero rest)
  | cons length lengths ih =>
      obtain hlt | hge := Nat.lt_or_ge rest length
      · exact ⟨0, rest, Nat.succ_pos _, hlt, Nat.zero_add rest⟩
      · rw [List.sum_cons] at h
        obtain ⟨k, r, hk, hr, hsum⟩ := @ih (rest - length) (by omega)
        refine ⟨k + 1, r, Nat.succ_lt_succ hk, hr, ?_⟩
        rw [List.take_succ_cons, List.sum_cons]
        omega

theorem sum_take_lt (hk : k < lengths.length) (hr : r < lengths[k]) :
    (lengths.take k).sum + r < lengths.sum := by
  induction lengths generalizing k with
  | nil => exact absurd hk (Nat.not_lt_zero k)
  | cons length lengths ih =>
      cases k with
      | zero =>
          rw [List.take_zero, List.sum_nil, Nat.zero_add, List.sum_cons]
          exact Nat.lt_add_right _ hr
      | succ k =>
          have hlt := ih (Nat.lt_of_succ_lt_succ hk) hr
          rw [List.take_succ_cons, List.sum_cons, List.sum_cons]
          omega

namespace Date

variable {d : Date}

/-- The date has a month and a day that the month has in this year. -/
structure IsProper (d : Date) : Prop where
  one_le_month : 1 ≤ d.month
  one_le_day : 1 ≤ d.day
  day_le : d.day ≤ daysInMonth d.year d.month

theorem isProper_of_exists? (h : d.exists? = true) : d.IsProper := by
  simp only [exists?, Bool.and_eq_true, decide_eq_true_eq] at h
  obtain ⟨⟨⟨hday, hle⟩, -⟩, -⟩ := h
  refine ⟨?_, hday, hle⟩
  by_contra hmonth
  rw [show d.month = 0 by omega, daysInMonth, if_pos rfl] at hle
  omega

/-- Where a date lies among the months of its year. -/
theorem IsProper.exists_month (h : d.IsProper) :
    ∃ k r, ∃ hk : k < (monthLengths d.year).length, r < (monthLengths d.year)[k] ∧
      d.month = k + 1 ∧ d.day = r + 1 := by
  obtain ⟨hmonth, hday, hle⟩ := h
  rw [daysInMonth, if_neg (by omega)] at hle
  have hk : d.month - 1 < (monthLengths d.year).length := by
    by_contra hout
    rw [List.getD_eq_default _ _ (not_lt.1 hout)] at hle
    omega
  rw [List.getD_eq_getElem _ _ hk] at hle
  exact ⟨d.month - 1, d.day - 1, hk, by omega, by omega, by omega⟩

theorem IsProper.month_le (h : d.IsProper) : d.month ≤ 12 := by
  obtain ⟨k, r, hk, -, hmonth, -⟩ := h.exists_month
  have hlength : (monthLengths d.year).length = 12 := rfl
  omega

theorem IsProper.day_le_31 (h : d.IsProper) : d.day ≤ 31 := by
  obtain ⟨k, r, hk, hr, -, hday⟩ := h.exists_month
  have hlengths : ∀ length ∈ monthLengths d.year, length ≤ 31 := by
    unfold monthLengths
    split <;> decide
  have hle := hlengths _ (List.getElem_mem hk)
  omega

theorem ofParts?_eq_some {month day : Nat} (h : ofParts? y month day = some d) :
    d = ⟨y, month, day⟩ ∧ d.IsProper ∧ minYear ≤ y ∧ y ≤ maxYear := by
  unfold ofParts? at h
  dsimp only at h
  split at h
  · rename_i hexists
    obtain rfl := Option.some.inj h
    refine ⟨rfl, isProper_of_exists? hexists, ?_⟩
    simp only [exists?, Bool.and_eq_true, decide_eq_true_eq] at hexists
    exact ⟨hexists.1.2, hexists.2⟩
  · cases h

theorem isProper_of_month {k r : Nat} (hk : k < (monthLengths y).length)
    (hr : r < (monthLengths y)[k]) : (Date.mk y (k + 1) (r + 1)).IsProper := by
  refine ⟨Nat.succ_pos k, Nat.succ_pos r, ?_⟩
  show r + 1 ≤ daysInMonth y (k + 1)
  rw [daysInMonth, if_neg (Nat.succ_ne_zero k), Nat.add_sub_cancel, List.getD_eq_getElem _ _ hk]
  exact hr

theorem dayNumber_of_month {k r : Nat} :
    (Date.mk y (k + 1) (r + 1)).dayNumber = yearStart y + ((monthLengths y).take k).sum + r := by
  show yearStart y + ((((monthLengths y).take k).sum + (r + 1) : Nat) : Int) - 1 = _
  omega

/-- The day number of a date determines it. -/
theorem ofDayNumber_of_month {k r : Nat} (hk : k < (monthLengths y).length)
    (hr : r < (monthLengths y)[k]) :
    ofDayNumber (yearStart y + ((monthLengths y).take k).sum + r) = ⟨y, k + 1, r + 1⟩ := by
  have hlt := sum_take_lt hk hr
  rw [sum_monthLengths] at hlt
  have hyear : yearOfDay (yearStart y + ((monthLengths y).take k).sum + r) = y := by
    refine yearOfDay_eq ?_ ?_
    · omega
    · rw [yearStart_succ]
      omega
  have hrest : (yearStart y + ((monthLengths y).take k).sum + r - yearStart y).toNat =
      ((monthLengths y).take k).sum + r := by
    omega
  rw [ofDayNumber, hyear, hrest, monthAndDay_eq hk hr, Nat.add_comm 1 k]

theorem ofDayNumber_dayNumber (h : d.IsProper) : ofDayNumber d.dayNumber = d := by
  obtain ⟨k, r, hk, hr, hmonth, hday⟩ := h.exists_month
  obtain ⟨y, month, day⟩ := d
  obtain rfl : month = k + 1 := hmonth
  obtain rfl : day = r + 1 := hday
  rw [dayNumber_of_month, ofDayNumber_of_month hk hr]

/-- Every day number is that of a date. -/
theorem ofDayNumber_spec (n : Int) :
    (ofDayNumber n).IsProper ∧ (ofDayNumber n).dayNumber = n ∧
      (ofDayNumber n).year = yearOfDay n := by
  obtain ⟨hfirst, hnext⟩ := yearOfDay_spec n
  rw [yearStart_succ] at hnext
  have hrest : (n - yearStart (yearOfDay n)).toNat < (monthLengths (yearOfDay n)).sum := by
    rw [sum_monthLengths]
    omega
  obtain ⟨k, r, hk, hr, hsum⟩ := Calendar.exists_month hrest
  have hn : n = yearStart (yearOfDay n) + ((monthLengths (yearOfDay n)).take k).sum + r := by
    omega
  generalize yearOfDay n = y at *
  subst hn
  rw [ofDayNumber_of_month hk hr]
  exact ⟨isProper_of_month hk hr, dayNumber_of_month, rfl⟩

end Date

/-! ### Weeks -/

theorem Weekday.index_lt (w : Weekday) : w.index < 7 := by
  cases w <;> decide

theorem Weekday.index_ofIndex (n : Nat) : (ofIndex n).index = n % 7 := by
  have hlt : n % 7 < 7 := Nat.mod_lt n (by decide)
  unfold ofIndex
  generalize n % 7 = k at *
  match k, hlt with
  | 0, _ | 1, _ | 2, _ | 3, _ | 4, _ | 5, _ | 6, _ => rfl

namespace Date

/-- The years of weeks begin on Mondays. -/
theorem isoYearStart_eq (y : Int) : isoYearStart y = yearStart y + 3 - (yearStart y + 6) % 7 := by
  unfold isoYearStart weekdayOf
  dsimp only
  rw [Weekday.index_ofIndex]
  omega

theorem isoYearStart_strictMono : StrictMono isoYearStart := by
  refine strictMono_int_of_lt_succ fun y => ?_
  have hpos := daysInYear_pos y
  rw [isoYearStart_eq, isoYearStart_eq, yearStart_succ]
  omega

theorem isoYearStart_succ (y : Int) : isoYearStart (y + 1) = isoYearStart y + 7 * isoWeeks y := by
  have hlt := isoYearStart_strictMono (show y < y + 1 by omega)
  unfold isoWeeks
  rw [isoYearStart_eq, isoYearStart_eq] at *
  omega

theorem isoWeeks_le (y : Int) : isoWeeks y ≤ 53 := by
  have hyear : daysInYear y ≤ 366 := by
    unfold daysInYear
    split <;> decide
  have hstart := yearStart_succ y
  have hsucc := isoYearStart_succ y
  rw [isoYearStart_eq, isoYearStart_eq] at hsucc
  omega

/-- A day lies in its ISO year. -/
theorem isoYear_spec (n : Int) :
    isoYearStart (ofDayNumber n).isoYear ≤ n ∧ n < isoYearStart ((ofDayNumber n).isoYear + 1) := by
  obtain ⟨-, hnumber, hyear⟩ := ofDayNumber_spec n
  obtain ⟨hfirst, hnext⟩ := yearOfDay_spec n
  unfold isoYear
  dsimp only
  rw [hnumber, hyear]
  generalize yearOfDay n = z at *
  -- The start of the ISO year is so near to that of the year that one year more or less is enough.
  have hlength := daysInYear_pos (z - 1)
  have hlength' := daysInYear_pos (z + 1)
  have hprevious := yearStart_succ (z - 1)
  have hlater := yearStart_succ (z + 1)
  rw [Int.sub_add_cancel] at hprevious
  split
  · rename_i hbefore
    rw [Int.sub_add_cancel]
    refine ⟨?_, hbefore⟩
    rw [isoYearStart_eq]
    omega
  · split
    · rename_i hafter
      refine ⟨hafter, ?_⟩
      rw [isoYearStart_eq]
      omega
    · exact ⟨by omega, by omega⟩

theorem isoYear_eq (hfirst : isoYearStart y ≤ n) (hnext : n < isoYearStart (y + 1)) :
    (ofDayNumber n).isoYear = y := by
  obtain ⟨hfirst', hnext'⟩ := isoYear_spec n
  have hle := isoYearStart_strictMono.lt_iff_lt.1 (hfirst'.trans_lt hnext)
  have hge := isoYearStart_strictMono.lt_iff_lt.1 (hfirst.trans_lt hnext')
  omega

variable {d : Date} {week : Nat} {day : Weekday}

/-- The date of an ISO year, week and day of the week has these. -/
theorem ofIsoWeek?_spec (h : ofIsoWeek? y week day = some d) :
    d.IsProper ∧ d.isoYear = y ∧ d.isoWeek = week ∧ d.weekday = day ∧ week ≤ 53 := by
  unfold ofIsoWeek? ofDayNumber? at h
  split at h
  · rename_i hweek
    split at h
    · obtain rfl := Option.some.inj h
      have hday := day.index_lt
      have hnext := isoYearStart_succ y
      have hmonday : (isoYearStart y + 3) % 7 = 0 := by
        rw [isoYearStart_eq]
        omega
      generalize hn : isoYearStart y + 7 * ((week : Int) - 1) + day.index = n at *
      obtain ⟨hproper, hnumber, -⟩ := ofDayNumber_spec n
      have hyear : (ofDayNumber n).isoYear = y := isoYear_eq (by omega) (by omega)
      refine ⟨hproper, hyear, ?_, ?_, hweek.2.trans (isoWeeks_le y)⟩
      · rw [isoWeek, hyear, hnumber]
        omega
      · have hindex : ((n + 3) % 7).toNat = day.index := by omega
        rw [weekday, hnumber, weekdayOf, hindex, Weekday.ofIndex_index]
    · cases h
  · cases h

end Date

end RowFormula.Calendar
