import Rollup.Proofs.Calendar.Civil
import Rollup.Proofs.Calendar.Units

/-
Timestamps as nanoseconds since the start of 1970.

A count of units stands for the instant that has as many nanoseconds behind it, and for one
at all exactly if the date of that instant is in range.  Outside leap seconds, instants are
ordered as their nanoseconds are.
-/

namespace Rollup
namespace Timestamp

/-- Nanoseconds since the start of 1970.  Those of a leap second are counted again in the
second after it. -/
def elapsed (t : Timestamp) : Int := t.epochSecond * 1000000000 + t.nanos

theorem elapsed_of_ofUnits? {unit : TimeUnit} {n : Int} {t : Timestamp}
    (h : ofUnits? unit n = some t) :
    t.nanos < 1000000000 ∧ t.elapsed = n * unit.nanos := by
  obtain ⟨⟨hlt, hmod⟩, hunits⟩ := ofUnits?_eq_some_iff.mp h
  refine ⟨hlt, ?_⟩
  rw [toUnits_of_lt hlt] at hunits
  rw [elapsed, ← hunits]
  cases unit <;> simp only [TimeUnit.perSecond, TimeUnit.nanos] at * <;> omega

theorem exists_ofUnits?_iff {unit : TimeUnit} {n : Int} :
    (∃ t, ofUnits? unit n = some t) ↔ ∃ c : Civil, c.InRange ∧
      c.dayNumber * 86400 * unit.perSecond ≤ n ∧
      n < (c.dayNumber + 1) * 86400 * unit.perSecond := by
  have hday (m : Int) : m = n / unit.perSecond / 86400 ↔
      m * 86400 * unit.perSecond ≤ n ∧ n < (m + 1) * 86400 * unit.perSecond := by
    cases unit <;> simp only [TimeUnit.perSecond] <;> omega
  have hdate : (ofUnits? unit n).isSome = (Date.ofDay? (n / unit.perSecond / 86400)).isSome := by
    unfold ofUnits?
    simp only
    split
    · rename_i hnone
      rw [hnone]
      rfl
    · rename_i d hd
      rw [hd]
      rfl
  rw [← Option.isSome_iff_exists, hdate, Option.isSome_iff_exists, Date.exists_ofDay?_iff]
  simp only [hday]

theorem compare_eq_compare_elapsed {a b : Timestamp} (ha : a.nanos < 1000000000)
    (hb : b.nanos < 1000000000) : a.compare b = Ord.compare a.elapsed b.elapsed := by
  have hasecond := a.second_lt
  have hbsecond := b.second_lt
  unfold compare Date.compare elapsed epochSecond
  rcases Int.lt_trichotomy a.date.day b.date.day with hday | hday | hday
  · rw [Int.compare_eq_lt.mpr hday, Int.compare_eq_lt.mpr (by omega)]
    rfl
  · rw [Int.compare_eq_eq.mpr hday]
    rcases Nat.lt_trichotomy a.second b.second with hsecond | hsecond | hsecond
    · rw [Nat.compare_eq_lt.mpr hsecond, Int.compare_eq_lt.mpr (by omega)]
      rfl
    · rw [Nat.compare_eq_eq.mpr hsecond]
      rcases Nat.lt_trichotomy a.nanos b.nanos with hnanos | hnanos | hnanos
      · rw [Nat.compare_eq_lt.mpr hnanos, Int.compare_eq_lt.mpr (by omega)]
        rfl
      · rw [Nat.compare_eq_eq.mpr hnanos, Int.compare_eq_eq.mpr (by omega)]
        rfl
      · rw [Nat.compare_eq_gt.mpr hnanos, Int.compare_eq_gt.mpr (by omega)]
        rfl
    · rw [Nat.compare_eq_gt.mpr hsecond, Int.compare_eq_gt.mpr (by omega)]
      rfl
  · rw [Int.compare_eq_gt.mpr hday, Int.compare_eq_gt.mpr (by omega)]
    rfl

/-- Counts are ordered as their instants are. -/
theorem compare_of_ofUnits? {unit : TimeUnit} {m n : Int} {a b : Timestamp}
    (ha : ofUnits? unit m = some a) (hb : ofUnits? unit n = some b) :
    a.compare b = Ord.compare m n := by
  obtain ⟨halt, ham⟩ := elapsed_of_ofUnits? ha
  obtain ⟨hblt, hbn⟩ := elapsed_of_ofUnits? hb
  have hpos : (0 : Int) < unit.nanos := by cases unit <;> decide
  rw [compare_eq_compare_elapsed halt hblt, ham, hbn]
  rcases Int.lt_trichotomy m n with h | rfl | h
  · rw [Int.compare_eq_lt.mpr h, Int.compare_eq_lt.mpr (Int.mul_lt_mul_of_pos_right h hpos)]
  · rw [Int.compare_eq_eq.mpr rfl, Int.compare_eq_eq.mpr rfl]
  · rw [Int.compare_eq_gt.mpr h, Int.compare_eq_gt.mpr (Int.mul_lt_mul_of_pos_right h hpos)]

end Timestamp
end Rollup
