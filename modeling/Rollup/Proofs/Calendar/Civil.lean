import Mathlib.Order.Monotone.Basic
import Mathlib.Tactic.IntervalCases
import Rollup.Calendar.Date

/-
Dates and their day numbers.

Every day number is that of a valid date (`Civil.dayNumber_ofDayNumber`), and the dates of
some years have all the day numbers from the first day of the first year to the last day of
the last one (`Civil.exists_dayNumber_iff`).  So a day number is in range exactly if it is
that of a date whose year is (`Date.exists_ofDay?_iff`).

A year is told from the day of the cycle alone, by taking out the leap days before it; that
this hits the right year is a fact about the 400 years of one cycle, which are gone through.
-/

namespace Rollup
namespace Civil

/-! ## Years of a cycle

Days and years are counted from 1 March. -/

/-- Days before a year of the cycle. -/
def yearStart (y : Nat) : Nat := 365 * y + y / 4 - y / 100 + y / 400

/-- Days before a day of the cycle, the leap days left out. -/
def commonDays (d : Nat) : Nat := d - d / 1460 + d / 36524 - d / 146096

theorem commonDays_mono : Monotone commonDays := by
  refine monotone_nat_of_le_succ fun d => ?_
  unfold commonDays
  omega

theorem yearStart_bounds : ∀ y < 400, 365 * y ≤ commonDays (yearStart y) ∧
    commonDays (yearStart (y + 1) - 1) < 365 * (y + 1) ∧
    yearStart (y + 1) = yearStart y + if isLeap (y + 1 : Nat) then 366 else 365 := by
  decide +kernel

/-- The year of a cycle that a day falls in. -/
theorem commonDays_div {d : Nat} (hd : d < 146097) :
    commonDays d / 365 < 400 ∧ yearStart (commonDays d / 365) ≤ d ∧
      d < yearStart (commonDays d / 365 + 1) := by
  have hlt : commonDays d / 365 < 400 := by
    unfold commonDays
    omega
  refine ⟨hlt, ?_, ?_⟩
  · by_contra hgt
    obtain ⟨y, hy⟩ : ∃ y, commonDays d / 365 = y + 1 := by
      refine ⟨commonDays d / 365 - 1, ?_⟩
      have hpos : commonDays d / 365 ≠ 0 := by
        intro h
        rw [h] at hgt
        exact hgt (Nat.zero_le d)
      omega
    have hbound := (yearStart_bounds y (by omega)).2.1
    have hmono := commonDays_mono (show d ≤ yearStart (y + 1) - 1 by rw [hy] at hgt; omega)
    omega
  · by_contra hge
    have hy : commonDays d / 365 + 1 < 400 ∨ commonDays d / 365 = 399 := by omega
    rcases hy with hy | hy
    · have hbound := (yearStart_bounds _ hy).1
      have hmono := commonDays_mono (Nat.le_of_not_lt hge)
      omega
    · rw [hy] at hge
      exact hge hd

/-! ## Months of a year -/

/-- Days since 1 January 1970 on 1 March of a year. -/
def marchFirst (year : Int) : Int := 365 * year + year / 4 - year / 100 + year / 400 - 719468

/-- Days before a month counted from March. -/
def monthStart (m : Nat) : Nat := (153 * m + 2) / 5

/-- A day of a month counted from March. -/
def ofMonth (year : Int) (m k : Nat) : Civil :=
  let month := if m < 10 then m + 3 else m - 9
  { year := if month ≤ 2 then year + 1 else year, month := month, day := k + 1 }

theorem cycle_eq (year : Int) :
    year / 400 * 146097 + ((year % 400).toNat * 365 + (year % 400).toNat / 4 -
      (year % 400).toNat / 100 : Nat) - 719468 = marchFirst year := by
  unfold marchFirst
  omega

theorem marchFirst_cycle (era : Int) {y : Nat} (h : y < 400) :
    marchFirst (era * 400 + y) = era * 146097 + (365 * y + y / 4 - y / 100 : Nat) - 719468 := by
  have hera : (era * 400 + y) / 400 = era := by omega
  have hyear : ((era * 400 + y) % 400).toNat = y := by omega
  rw [← cycle_eq, hera, hyear]
  omega

theorem dayNumber_eq (c : Civil) : c.dayNumber =
    marchFirst (if c.month ≤ 2 then c.year - 1 else c.year) +
      (monthStart ((c.month + 9) % 12) + c.day - 1 : Nat) := by
  unfold dayNumber monthStart
  rw [← cycle_eq]
  dsimp only
  split <;> omega

theorem dayNumber_ofMonth (year : Int) {m k : Nat} (h : m ≤ 11) :
    (ofMonth year m k).dayNumber = marchFirst year + (monthStart m + k : Nat) := by
  rw [dayNumber_eq]
  interval_cases m <;> simp [ofMonth]

/-- The last month, February, ends with its year; every other one ends with the next. -/
theorem isValid_ofMonth {year : Int} {m k : Nat} (hm : m ≤ 11)
    (hmonth : monthStart m + k < monthStart (m + 1))
    (hyear : monthStart m + k < if isLeap (year + 1) then 366 else 365) :
    (ofMonth year m k).isValid = true := by
  simp only [monthStart] at hmonth hyear
  cases hleap : isLeap (year + 1) <;>
    simp only [hleap, Bool.false_eq_true, if_false, if_true] at hyear <;>
    interval_cases m <;> simp [ofMonth, isValid, monthLength, hleap] <;> omega

theorem isLeap_add (era year : Int) : isLeap (era * 400 + year) = isLeap year := by
  have hfour : (era * 400 + year) % 4 = year % 4 := by omega
  have hhundred : (era * 400 + year) % 100 = year % 100 := by omega
  have hcycle : (era * 400 + year) % 400 = year % 400 := by omega
  rw [isLeap, isLeap, hfour, hhundred, hcycle]

theorem month_bounds {day : Nat} (h : day ≤ 365) :
    (5 * day + 2) / 153 ≤ 11 ∧ monthStart ((5 * day + 2) / 153) ≤ day ∧
      day < monthStart ((5 * day + 2) / 153 + 1) := by
  unfold monthStart
  omega

/-! ## Dates of day numbers -/

/-- The year, the month and the day that a day number is split into, and what they add up
to. -/
theorem exists_ofDayNumber (n : Int) : ∃ year m k, ofDayNumber n = ofMonth year m k ∧ m ≤ 11 ∧
    monthStart m + k < monthStart (m + 1) ∧
    monthStart m + k < (if isLeap (year + 1) then 366 else 365) ∧
    marchFirst year + (monthStart m + k : Nat) = n := by
  obtain ⟨d, hd⟩ : ∃ d : Nat, ((n + 719468) % 146097).toNat = d := ⟨_, rfl⟩
  obtain ⟨hyear, hstart, hend⟩ := commonDays_div (d := d) (by omega)
  obtain ⟨y, hy⟩ : ∃ y, commonDays d / 365 = y := ⟨_, rfl⟩
  rw [hy] at hyear hstart hend
  have hcycle : yearStart y = 365 * y + y / 4 - y / 100 := by
    unfold yearStart
    omega
  have hlength := (yearStart_bounds y hyear).2.2
  rw [hlength] at hend
  obtain ⟨day, hday⟩ : ∃ day, d = yearStart y + day := Nat.exists_eq_add_of_le hstart
  have hshort : day < if isLeap (y + 1 : Nat) then 366 else 365 := by omega
  have hday : day ≤ 365 := by split at hshort <;> omega
  obtain ⟨hm, hlow, hhigh⟩ := month_bounds hday
  refine ⟨(n + 719468) / 146097 * 400 + y, (5 * day + 2) / 153,
    day - monthStart ((5 * day + 2) / 153), ?_, hm, ?_, ?_, ?_⟩
  · have hrest : d - (365 * y + y / 4 - y / 100) = day := by omega
    unfold ofDayNumber
    simp only [hd]
    rw [show (d - d / 1460 + d / 36524 - d / 146096) / 365 = y from hy, hrest]
    rfl
  · rwa [Nat.add_sub_cancel' hlow]
  · rw [Nat.add_sub_cancel' hlow, Int.add_assoc, isLeap_add]
    exact hshort
  · rw [Nat.add_sub_cancel' hlow, marchFirst_cycle _ hyear]
    omega

theorem dayNumber_ofDayNumber (n : Int) : (ofDayNumber n).dayNumber = n := by
  obtain ⟨year, m, k, hcivil, hm, _, _, hday⟩ := exists_ofDayNumber n
  rw [hcivil, dayNumber_ofMonth year hm, hday]

theorem isValid_ofDayNumber (n : Int) : (ofDayNumber n).isValid = true := by
  obtain ⟨year, m, k, hcivil, hm, hmonth, hyear, _⟩ := exists_ofDayNumber n
  rw [hcivil]
  exact isValid_ofMonth hm hmonth hyear

/-! ## Ranges of years -/

/-- Days since 1 January 1970 on 1 January of a year. -/
def januaryFirst (year : Int) : Int := marchFirst (year - 1) + 306

theorem januaryFirst_mono {a b : Int} (h : a ≤ b) : januaryFirst a ≤ januaryFirst b := by
  unfold januaryFirst marchFirst
  omega

theorem monthLength_le (year : Int) (month : Nat) : monthLength year month ≤ 31 := by
  unfold monthLength
  split
  · split <;> omega
  · split <;> omega

theorem month_day_lt {c : Civil} (h : c.isValid = true) : c.month < 100 ∧ c.day < 100 := by
  have hle := monthLength_le c.year c.month
  simp only [isValid, Bool.and_eq_true, decide_eq_true_eq] at h
  omega

/-- A date lies between the first day of its year and that of the next. -/
theorem dayNumber_bounds {c : Civil} (h : c.isValid = true) :
    januaryFirst c.year ≤ c.dayNumber ∧ c.dayNumber < januaryFirst (c.year + 1) := by
  obtain ⟨year, month, day⟩ := c
  simp only [isValid, Bool.and_eq_true, decide_eq_true_eq] at h
  obtain ⟨⟨⟨hone, htwelve⟩, hfirst⟩, hlast⟩ := h
  have hle := monthLength_le year month
  rw [dayNumber_eq]
  unfold monthStart januaryFirst marchFirst
  dsimp only
  split <;> omega

/-- The days of the years between two. -/
theorem exists_dayNumber_iff {first last n : Int} :
    (∃ c : Civil, c.isValid = true ∧ first ≤ c.year ∧ c.year ≤ last ∧ c.dayNumber = n) ↔
      januaryFirst first ≤ n ∧ n < januaryFirst (last + 1) := by
  constructor
  · rintro ⟨c, hvalid, hfirst, hlast, rfl⟩
    obtain ⟨hlow, hhigh⟩ := dayNumber_bounds hvalid
    have hbefore := januaryFirst_mono hfirst
    have hafter := januaryFirst_mono (show c.year + 1 ≤ last + 1 by omega)
    omega
  · rintro ⟨hlow, hhigh⟩
    have hvalid := isValid_ofDayNumber n
    obtain ⟨hstart, hend⟩ := dayNumber_bounds hvalid
    rw [dayNumber_ofDayNumber] at hstart hend
    refine ⟨ofDayNumber n, hvalid, ?_, ?_, dayNumber_ofDayNumber n⟩
    · by_contra hlt
      have hbefore := januaryFirst_mono (show (ofDayNumber n).year + 1 ≤ first by omega)
      omega
    · by_contra hgt
      have hafter := januaryFirst_mono (show last + 1 ≤ (ofDayNumber n).year by omega)
      omega

example : januaryFirst 1970 = 0 := by decide

/-- A date of the years that are kept, -262143 to 262142. -/
def InRange (c : Civil) : Prop := c.isValid = true ∧ -262143 ≤ c.year ∧ c.year ≤ 262142

end Civil

namespace Date

/-- The range of day numbers is that of the dates in range. -/
theorem exists_ofDay?_iff {n : Int} :
    (∃ d, ofDay? n = some d) ↔ ∃ c : Civil, c.InRange ∧ c.dayNumber = n := by
  have hfirst : Civil.januaryFirst (-262143) = -96465292 := by decide
  have hlast : Civil.januaryFirst (262142 + 1) = 95026237 := by decide
  simp only [Civil.InRange, and_assoc]
  rw [Civil.exists_dayNumber_iff, hfirst, hlast, ← Option.isSome_iff_exists, ofDay?]
  split
  · rename_i h
    exact iff_of_true rfl ⟨h.1, Int.lt_add_one_of_le h.2⟩
  · rename_i h
    exact iff_of_false nofun fun hrange => h ⟨hrange.1, Int.le_of_lt_add_one hrange.2⟩

end Date
end Rollup
