import Rollup.Proofs.Calendar.Civil
import Rollup.Proofs.Text.Literal
import Rollup.Proofs.Value.Equality
import Rollup.Value.Text

/-
Texts of dates and instants, and the parts that are read back from them.

A date ends at the `T`, hour and minute follow it at a fixed width, and the number of places
tells which fractions of a second the last digits count, also in a leap second, which has one
digit more.  So instants are told apart by their texts, and dates by theirs
(`Value.render_calendar_eq_iff`).
-/

namespace Rollup

namespace Civil

open Text (Magnitude Number padded)

/-! ## Dates -/

/-- The text of a year is a number, which is the year. -/
theorem number_yearText (year : Int) : Number (yearText year) year := by
  have hdigits := Magnitude.plain (Text.padded_ne_nil 4 year.natAbs)
    (Text.allDigits_padded 4 year.natAbs)
  rw [Text.ofDigits_padded] at hdigits
  by_cases hlate : 9999 < year
  · rw [Nat.cast_natAbs, abs_of_pos (by omega)] at hdigits
    rw [yearText, if_neg (by omega), if_pos hlate]
    exact .plus hdigits
  · rw [← div_one (year.natAbs : ℚ)] at hdigits
    have hnumber := Number.signed hdigits
    rw [yearText, if_neg hlate]
    rwa [div_one] at hnumber

theorem yearText_injective : Function.Injective yearText := by
  intro a b h
  have ha := number_yearText a
  rw [h] at ha
  exact Int.cast_injective (ha.unique (number_yearText b))

theorem length_twoDigits {n : Nat} (h : n < 100) : (padded 2 n).length = 2 :=
  Text.length_padded Nat.two_pos h

/-- The year has any width, but month and day are as wide in one text as in the other and
are found at its end. -/
theorem text_injective {a b : Civil} (ha : a.isValid = true) (hb : b.isValid = true)
    (h : a.text = b.text) : a = b := by
  obtain ⟨hamonth, haday⟩ := month_day_lt ha
  obtain ⟨hbmonth, hbday⟩ := month_day_lt hb
  obtain ⟨hrest, hday⟩ := List.append_inj' h (by
    rw [List.length_cons, List.length_cons, length_twoDigits haday, length_twoDigits hbday])
  obtain ⟨hyear, hmonth⟩ := List.append_inj' hrest (by
    rw [List.length_cons, List.length_cons, length_twoDigits hamonth, length_twoDigits hbmonth])
  cases a
  cases b
  rw [Civil.mk.injEq]
  exact ⟨yearText_injective hyear, Text.padded_injective 2 (List.tail_eq_of_cons_eq hmonth),
    Text.padded_injective 2 (List.tail_eq_of_cons_eq hday)⟩

theorem separator_not_mem (c : Civil) : 'T' ∉ c.text := by
  have hdigits (k n : Nat) : 'T' ∉ padded k n :=
    Text.not_mem_of_allDigits (Text.allDigits_padded k n) rfl
  have hyear : 'T' ∉ yearText c.year := by
    unfold yearText
    split
    · exact List.not_mem_cons_of_ne_of_not_mem (by decide) (hdigits _ _)
    · split
      · exact List.not_mem_cons_of_ne_of_not_mem (by decide) (hdigits _ _)
      · exact hdigits _ _
  have hfield (n : Nat) : 'T' ∉ '-' :: padded 2 n :=
    List.not_mem_cons_of_ne_of_not_mem (by decide) (hdigits 2 n)
  rw [text, List.mem_append, List.mem_append]
  exact not_or_intro (not_or_intro hyear (hfield c.month)) (hfield c.day)

end Civil

namespace Date

theorem civil_injective : Function.Injective civil := by
  intro a b h
  have hday := congrArg Civil.dayNumber h
  rw [civil, civil, Civil.dayNumber_ofDayNumber, Civil.dayNumber_ofDayNumber] at hday
  exact day_injective hday

theorem text_injective : Function.Injective text := fun a b h =>
  civil_injective (Civil.text_injective (Civil.isValid_ofDayNumber a.day)
    (Civil.isValid_ofDayNumber b.day) h)

end Date

namespace Timestamp

open Civil (length_twoDigits)
open Text (ofDigits padded)

variable {m n : Nat} {s t : Timestamp}

/-! ## Fractions -/

/-- The nanoseconds that a fraction shows.  With every three places its digits count
thousandths of what they counted before, a second at the start. -/
def ofFraction (cs : List Char) : Nat :=
  ofDigits (cs.drop 1) * 10 ^ (9 - (cs.length - 1) / 3 * 3)

/-- One digit more than there are places does not change what the digits count. -/
theorem ofFraction_padded {k : Nat} (hm : m < 10 ^ (3 * k + 1)) :
    ofFraction ('.' :: padded (3 * k) m) = m * 10 ^ (9 - 3 * k) := by
  have hge := Text.le_length_padded (3 * k) m
  have hle := (Text.length_padded_le_iff (Nat.succ_pos _)).mpr ⟨Nat.le_succ (3 * k), hm⟩
  have hplaces : ((padded (3 * k) m).length + 1 - 1) / 3 * 3 = 3 * k := by omega
  rw [ofFraction, List.length_cons, hplaces, List.drop_one, List.tail_cons, Text.ofDigits_padded]

theorem ofFraction_fractionText (h : n < 2000000000) : ofFraction (fractionText n) = n := by
  unfold fractionText
  split
  · rename_i hzero
    rw [beq_iff_eq.mp hzero]
    rfl
  · split
    · rename_i hmilli
      rw [beq_iff_eq] at hmilli
      rw [ofFraction_padded (k := 1) (by omega)]
      omega
    · split
      · rename_i hmicro
        rw [beq_iff_eq] at hmicro
        rw [ofFraction_padded (k := 2) (by omega)]
        omega
      · exact (ofFraction_padded (k := 3) (by omega)).trans (Nat.mul_one n)

example : fractionText 1500000000 = ".1500".toList ∧ ofFraction ".1500".toList = 1500000000 := by
  decide

/-! ## Times of day -/

theorem clock_lt (t : Timestamp) :
    t.hour < 100 ∧ t.minute < 100 ∧ t.secondOfMinute < 100 ∧ t.nanos < 2000000000 := by
  have hsecond := t.second_lt
  have hnanos := t.nanos_lt
  unfold hour minute secondOfMinute
  omega

/-- What follows the minute. -/
def secondText (second nanos : Nat) : List Char :=
  if second == 0 && nanos == 0 then [] else ':' :: padded 2 second ++ fractionText nanos

theorem secondText_inj {a b : Nat} (ha : a < 100) (hb : b < 100) (hm : m < 2000000000)
    (hn : n < 2000000000) (h : secondText a m = secondText b n) : a = b ∧ m = n := by
  unfold secondText at h
  split at h <;> split at h
  · rename_i hazero hbzero
    simp only [Bool.and_eq_true, beq_iff_eq] at hazero hbzero
    omega
  · exact nomatch h
  · exact nomatch h
  · obtain ⟨hsecond, hfraction⟩ := List.append_inj h (by
      rw [List.length_cons, List.length_cons, length_twoDigits ha, length_twoDigits hb])
    have hnanos := congrArg ofFraction hfraction
    rw [ofFraction_fractionText hm, ofFraction_fractionText hn] at hnanos
    exact ⟨Text.padded_injective 2 (List.tail_eq_of_cons_eq hsecond), hnanos⟩

theorem length_minuteText (t : Timestamp) : t.minuteText.length = 5 := by
  obtain ⟨hhour, hminute, _⟩ := t.clock_lt
  rw [minuteText, List.length_append, List.length_cons, length_twoDigits hhour,
    length_twoDigits hminute]

theorem minuteText_inj (h : s.minuteText = t.minuteText) :
    s.hour = t.hour ∧ s.minute = t.minute := by
  obtain ⟨hhours, hminutes⟩ := List.append_inj h (by
    rw [length_twoDigits s.clock_lt.1, length_twoDigits t.clock_lt.1])
  exact ⟨Text.padded_injective 2 hhours,
    Text.padded_injective 2 (List.tail_eq_of_cons_eq hminutes)⟩

/-! ## Instants -/

theorem text_eq (t : Timestamp) :
    t.text = t.date.text ++ 'T' :: (t.minuteText ++ secondText t.secondOfMinute t.nanos) := by
  rw [text, List.append_assoc]
  rfl

theorem text_injective : Function.Injective text := by
  intro s t h
  rw [text_eq, text_eq] at h
  obtain ⟨hdate, htime⟩ := Text.append_cons_inj s.date.civil.separator_not_mem
    t.date.civil.separator_not_mem h
  obtain ⟨hminutes, hseconds⟩ := List.append_inj htime
    (s.length_minuteText.trans t.length_minuteText.symm)
  obtain ⟨hhour, hminute⟩ := minuteText_inj hminutes
  obtain ⟨_, _, hslt, hsnanos⟩ := s.clock_lt
  obtain ⟨_, _, htlt, htnanos⟩ := t.clock_lt
  obtain ⟨hsecond, hnanos⟩ := secondText_inj hslt htlt hsnanos htnanos hseconds
  cases s
  cases t
  rw [Timestamp.mk.injEq]
  refine ⟨Date.text_injective hdate, ?_, hnanos⟩
  simp only [hour, minute, secondOfMinute] at hhour hminute hsecond
  omega

end Timestamp

namespace Value

/-- Two instants have the same text exactly if they are equal, that is if they have the same
date, second of the day and nanoseconds, those of leap seconds included; and two dates have
the same text exactly if they are equal. -/
theorem render_calendar_eq_iff :
    (∀ s t : Timestamp,
      ((timestamp s).render = (timestamp t).render ↔ (timestamp s).equal (timestamp t) = true) ∧
      ((timestamp s).equal (timestamp t) = true ↔ s = t)) ∧
    ∀ d e : Date,
      ((date d).render = (date e).render ↔ (date d).equal (date e) = true) ∧
      ((date d).equal (date e) = true ↔ d = e) := by
  have htimestamp (s t : Timestamp) : (timestamp s).equal (timestamp t) = true ↔ s = t := by
    rw [equal_eq_true_iff, content, content, Content.timestamp.injEq]
  have hdate (d e : Date) : (date d).equal (date e) = true ↔ d = e := by
    rw [equal_eq_true_iff, content, content, Content.date.injEq]
  refine ⟨fun s t => ⟨?_, htimestamp s t⟩, fun d e => ⟨?_, hdate d e⟩⟩
  · rw [htimestamp]
    exact String.ofList_inj.trans Timestamp.text_injective.eq_iff
  · rw [hdate]
    exact String.ofList_inj.trans Date.text_injective.eq_iff

end Value
end Rollup
