import Mathlib.Algebra.Order.Field.Power
import Mathlib.Algebra.Order.Field.Rat
import Mathlib.Tactic.Ring
import Rollup.Decimal

/-
The rational numbers that decimals denote.

Comparing two decimals compares these numbers, also where the scales are too far apart for
one side to be aligned, and the canonical form is the same for all decimals of one number.
-/

namespace Rollup
namespace Decimal

def toRat (d : Decimal) : ℚ := d.unscaled.toInt / (10 : ℚ) ^ d.scale

/-! ## Powers of ten -/

theorem ten_pow_pos (n : Nat) : (0 : Int) < 10 ^ n := Int.pow_pos (by decide)

theorem ten_zpow_ne_zero (s : Int) : (10 : ℚ) ^ s ≠ 0 := zpow_ne_zero s (by norm_num)

/-- The same number at a larger scale. -/
theorem div_zpow_eq (v s : Int) (n : Nat) :
    (v : ℚ) / (10 : ℚ) ^ s = ((v * 10 ^ n : Int) : ℚ) / (10 : ℚ) ^ (s + n) := by
  have hn : (10 : ℚ) ^ n ≠ 0 := pow_ne_zero n (by norm_num)
  rw [zpow_add₀ (by norm_num), zpow_natCast, Int.cast_mul, Int.cast_pow, Int.cast_ofNat,
    mul_div_mul_right _ _ hn]

theorem div_zpow_inj {v w s : Int} (h : (v : ℚ) / (10 : ℚ) ^ s = w / (10 : ℚ) ^ s) : v = w := by
  rw [div_left_inj' (ten_zpow_ne_zero s)] at h
  exact_mod_cast h

/-! ## What fits -/

/-- The integers that can be unscaled values. -/
def Fits (i : Int) : Prop := -(2 ^ 127) ≤ i ∧ i < 2 ^ 127

theorem fits_toInt (v : Signed 128) : Fits v.toInt := ⟨v.lower, v.upper⟩

/-- What fits with zeros at its end fits without them. -/
theorem Fits.of_mul_ten_pow {i : Int} {n : Nat} (h : Fits (i * 10 ^ n)) : Fits i := by
  have hp := ten_pow_pos n
  obtain ⟨hl, hu⟩ := h
  rcases Int.lt_or_le i 0 with hi | hi
  · have hle : i * 10 ^ n ≤ i * 1 := Int.mul_le_mul_of_nonpos_left (by omega) (by omega)
    constructor <;> omega
  · have hle : i * 1 ≤ i * 10 ^ n := Int.mul_le_mul_of_nonneg_left (by omega) hi
    constructor <;> omega

theorem ofInt?_eq_none_iff {i : Int} :
    (Signed.ofInt? i : Option (Signed 128)) = none ↔ ¬ Fits i := by
  unfold Signed.ofInt?
  split
  · rename_i h
    exact iff_of_false (Option.some_ne_none _) (not_not.mpr h)
  · rename_i h
    exact iff_of_true rfl h

/-- Zeros are appended one at a time, but it is the last value that has to fit. -/
theorem appendZeros_eq (n : Nat) (v : Signed 128) :
    appendZeros n v = Signed.ofInt? (v.toInt * 10 ^ n) := by
  induction n generalizing v with
  | zero => rw [appendZeros, pow_zero, mul_one, Signed.ofInt?_toInt]
  | succ n ih =>
    have hpow : v.toInt * 10 ^ (n + 1) = v.toInt * 10 * 10 ^ n := by ring
    rw [appendZeros, Signed.timesTen?, hpow]
    cases hw : (Signed.ofInt? (v.toInt * 10) : Option (Signed 128)) with
    | some w => rw [Option.bind_some, ih, Signed.ofInt?_eq_some_iff.mp hw]
    | none =>
      have hout : ¬ Fits (v.toInt * 10 * 10 ^ n) :=
        fun hfits => ofInt?_eq_none_iff.mp hw hfits.of_mul_ten_pow
      rw [Option.bind_none, ofInt?_eq_none_iff.mpr hout]

/-! ## Change of scale -/

section

variable {v w : Signed 128} {source middle target : Int}

theorem rescale_of_le (h : source ≤ target) : rescale v source target =
    (Signed.ofInt? (v.toInt * 10 ^ (target - source).toNat) : Option (Signed 128)).elim
      (.error .overflow) .ok := by
  rw [rescale, if_neg (Int.not_lt.mpr h), appendZeros_eq]
  cases (Signed.ofInt? (v.toInt * 10 ^ (target - source).toNat) : Option (Signed 128)) <;> rfl

theorem rescale_eq_ok_iff : rescale v source target = .ok w ↔
    source ≤ target ∧ w.toInt = v.toInt * 10 ^ (target - source).toNat := by
  by_cases h : source ≤ target
  · rw [rescale_of_le h, and_iff_right h, ← Signed.ofInt?_eq_some_iff]
    cases (Signed.ofInt? (v.toInt * 10 ^ (target - source).toNat) : Option (Signed 128)) with
    | none => exact iff_of_false nofun nofun
    | some x => exact ⟨fun hx => congrArg some (Except.ok.inj hx),
        fun hx => congrArg Except.ok (Option.some.inj hx)⟩
  · rw [rescale, if_pos (Int.not_le.mp h)]
    exact iff_of_false nofun fun hw => h hw.1

/-- A decimal is brought to a scale exactly if that is no smaller and the result fits. -/
theorem exists_rescale_iff : (∃ w, rescale v source target = .ok w) ↔
    source ≤ target ∧ Fits (v.toInt * 10 ^ (target - source).toNat) := by
  simp only [rescale_eq_ok_iff, exists_and_left]
  refine and_congr_right fun _ => ⟨?_, fun h => ⟨⟨_, h.1, h.2⟩, rfl⟩⟩
  rintro ⟨w, hw⟩
  exact hw ▸ fits_toInt w

/-- A change of scale can be made in two steps: what does not fit half way does not fit in the
end either. -/
theorem rescale_rescale (hfirst : source ≤ middle) (hsecond : middle ≤ target) :
    ((rescale v source middle).bind fun w => rescale w middle target) =
      rescale v source target := by
  have hzeros : (target - source).toNat = (middle - source).toNat + (target - middle).toNat := by
    omega
  rw [rescale_of_le hfirst, rescale_of_le (hfirst.trans hsecond), hzeros, pow_add, ← mul_assoc]
  cases hw : (Signed.ofInt? (v.toInt * 10 ^ (middle - source).toNat) : Option (Signed 128)) with
  | some w =>
    rw [← Signed.ofInt?_eq_some_iff.mp hw]
    exact rescale_of_le hsecond
  | none =>
    have hout : ¬ Fits (v.toInt * 10 ^ (middle - source).toNat * 10 ^ (target - middle).toNat) :=
      fun hfits => ofInt?_eq_none_iff.mp hw hfits.of_mul_ten_pow
    rw [ofInt?_eq_none_iff.mpr hout]
    rfl

end

/-! ## Order -/

/-- The unscaled value at a scale that is no smaller, whether or not it fits. -/
def aligned (d : Decimal) (target : Int) : Int :=
  d.unscaled.toInt * 10 ^ (target - d.scale).toNat

theorem aligned_self (d : Decimal) : d.aligned d.scale = d.unscaled.toInt := by
  rw [aligned, Int.sub_self]
  exact mul_one _

theorem toRat_eq_aligned {d : Decimal} {target : Int} (h : d.scale ≤ target) :
    d.toRat = (d.aligned target : ℚ) / (10 : ℚ) ^ target := by
  have hscale : d.scale + ((target - d.scale).toNat : Int) = target := by omega
  rw [toRat, div_zpow_eq _ _ (target - d.scale).toNat, hscale, aligned]

/-- Zeros at the end and a larger scale make up for each other. -/
theorem toRat_of_rescale {d : Decimal} {w : Signed 128} {p : Nat} {target : Int}
    (h : rescale d.unscaled d.scale target = .ok w) : toRat ⟨w, p, target⟩ = d.toRat := by
  obtain ⟨hle, hw⟩ := rescale_eq_ok_iff.mp h
  rw [toRat_eq_aligned hle, aligned, ← hw]
  rfl

theorem rescale_cases (d : Decimal) {target : Int} (h : d.scale ≤ target) :
    (∃ w, rescale d.unscaled d.scale target = .ok w ∧ w.toInt = d.aligned target) ∨
      (rescale d.unscaled d.scale target = .error .overflow ∧ ¬ Fits (d.aligned target)) := by
  rw [rescale_of_le h]
  unfold aligned
  cases hw : (Signed.ofInt? (d.unscaled.toInt * 10 ^ (target - d.scale).toNat) :
      Option (Signed 128)) with
  | some w => exact .inl ⟨w, rfl, Signed.ofInt?_eq_some_iff.mp hw⟩
  | none => exact .inr ⟨rfl, ofInt?_eq_none_iff.mp hw⟩

/-- What does not fit lies beyond everything that does, on the side of its sign. -/
theorem compare_of_not_fits {d : Decimal} {target i : Int} (hi : Fits i)
    (h : ¬ Fits (d.aligned target)) :
    Ord.compare (d.aligned target) i = if d.unscaled.toInt < 0 then .lt else .gt := by
  have hp := ten_pow_pos (target - d.scale).toNat
  obtain ⟨hl, hu⟩ := hi
  by_cases hneg : d.unscaled.toInt < 0
  · have hneg' : d.aligned target < 0 := Int.mul_neg_of_neg_of_pos hneg hp
    have hlt : d.aligned target < i := by
      by_contra hge
      exact h ⟨by omega, by omega⟩
    rw [if_pos hneg, Int.compare_eq_lt]
    exact hlt
  · have hpos : 0 ≤ d.aligned target := Int.mul_nonneg (by omega) (by omega)
    have hlt : i < d.aligned target := by
      by_contra hge
      exact h ⟨by omega, by omega⟩
    rw [if_neg hneg, Int.compare_eq_gt]
    exact hlt

/-- A side that cannot be aligned has the smaller scale, so the other one is as it was. -/
theorem fits_aligned_of_not_fits {a b : Decimal} (h : ¬ Fits (a.aligned (max a.scale b.scale))) :
    Fits (b.aligned (max a.scale b.scale)) := by
  rcases Int.le_total a.scale b.scale with hle | hle
  · rw [Int.max_eq_right hle, aligned_self]
    exact fits_toInt _
  · rw [Int.max_eq_left hle, aligned_self] at h
    exact absurd (fits_toInt _) h

theorem compare_eq_compare_aligned (a b : Decimal) :
    a.compare b =
      Ord.compare (a.aligned (max a.scale b.scale)) (b.aligned (max a.scale b.scale)) := by
  unfold compare
  rcases rescale_cases a (Int.le_max_left a.scale b.scale) with ⟨x, hx, hxa⟩ | ⟨hx, hxa⟩
  · rcases rescale_cases b (Int.le_max_right a.scale b.scale) with ⟨y, hy, hyb⟩ | ⟨hy, hyb⟩
    · simp only [hx, hy, hxa, hyb]
    · have hfits : Fits (a.aligned (max a.scale b.scale)) := hxa ▸ fits_toInt x
      have hswap := compare_of_not_fits hfits hyb
      simp only [hx, hy]
      rw [← Int.compare_swap, hswap]
      split <;> rfl
  · simp only [hx]
    exact (compare_of_not_fits (fits_aligned_of_not_fits hxa) hxa).symm

/-- Decimals are equal in the order exactly if they denote one number. -/
theorem compare_eq_eq_iff (a b : Decimal) : a.compare b = .eq ↔ a.toRat = b.toRat := by
  rw [compare_eq_compare_aligned, Std.LawfulEqOrd.compare_eq_iff_eq,
    toRat_eq_aligned (Int.le_max_left a.scale b.scale),
    toRat_eq_aligned (Int.le_max_right a.scale b.scale)]
  exact ⟨fun h => by rw [h], div_zpow_inj⟩

/-! ## Canonical form -/

/-- No zero can be taken off the end at a positive scale or put there at a negative one. -/
structure Reduced (v s : Int) : Prop where
  fits : Fits v
  of_pos : 0 < s → v % 10 ≠ 0
  of_neg : s < 0 → ¬ Fits (v * 10)

theorem Reduced.unique {v w s r : Int} (hv : Reduced v s) (hw : Reduced w r)
    (h : (v : ℚ) / (10 : ℚ) ^ s = w / (10 : ℚ) ^ r) : v = w ∧ s = r := by
  -- A larger scale would need a zero at the end that the form does not have.
  have key {v w s r : Int} (hv : Reduced v s) (hw : Reduced w r)
      (h : (v : ℚ) / (10 : ℚ) ^ s = w / (10 : ℚ) ^ r) : ¬ s < r := by
    intro hlt
    obtain ⟨k, hk⟩ : ∃ k : Nat, r = s + (k + 1 : Nat) := ⟨(r - s).toNat - 1, by omega⟩
    rw [div_zpow_eq v s (k + 1), ← hk] at h
    have hwv := div_zpow_inj h
    rcases Int.lt_or_le 0 r with hr | hr
    · refine hw.of_pos hr ?_
      rw [← hwv, pow_succ, ← mul_assoc, Int.mul_emod_left]
    · have hfits : Fits (v * 10 * 10 ^ k) := by
        have hpow : v * 10 * 10 ^ k = v * 10 ^ (k + 1) := by ring
        rw [hpow, hwv]
        exact hw.fits
      exact hv.of_neg (by omega) hfits.of_mul_ten_pow
  have hsr : s = r := by
    have hle := key hv hw h
    have hge := key hw hv h.symm
    omega
  subst hsr
  exact ⟨div_zpow_inj h, rfl⟩

theorem appendFitting_spec (n : Nat) (v : Signed 128) :
    ∃ k, n = k + (appendFitting n v).2 ∧ (appendFitting n v).1.toInt = v.toInt * 10 ^ k ∧
      ((appendFitting n v).2 ≠ 0 → ¬ Fits ((appendFitting n v).1.toInt * 10)) := by
  induction n generalizing v with
  | zero => exact ⟨0, rfl, (mul_one _).symm, fun h => absurd rfl h⟩
  | succ n ih =>
    rw [appendFitting]
    cases hw : v.timesTen? with
    | none => exact ⟨0, by simp, (mul_one _).symm, fun _ => ofInt?_eq_none_iff.mp hw⟩
    | some w =>
      have hwv : w.toInt = v.toInt * 10 := Signed.ofInt?_eq_some_iff.mp hw
      obtain ⟨k, hk, hvalue, hout⟩ := ih w
      refine ⟨k + 1, by simp only; omega, ?_, hout⟩
      simp only [hvalue, hwv]
      ring

theorem dropZeros_spec (n : Nat) (v : Int) :
    ∃ k, n = k + (dropZeros n v).2 ∧ v = (dropZeros n v).1 * 10 ^ k ∧
      ((dropZeros n v).2 ≠ 0 → (dropZeros n v).1 % 10 ≠ 0) := by
  induction n generalizing v with
  | zero => exact ⟨0, rfl, (mul_one _).symm, fun h => absurd rfl h⟩
  | succ n ih =>
    rw [dropZeros]
    by_cases h : (v % 10 == 0) = true
    · rw [if_pos h]
      obtain ⟨k, hk, hvalue, hend⟩ := ih (v / 10)
      have hdiv : v / 10 * 10 = v := Int.ediv_mul_cancel (Int.dvd_of_emod_eq_zero (beq_iff_eq.mp h))
      refine ⟨k + 1, by omega, ?_, hend⟩
      rw [pow_succ, ← mul_assoc, ← hvalue, hdiv]
    · rw [if_neg h]
      exact ⟨0, by simp, (mul_one _).symm, fun _ hz => h (beq_iff_eq.mpr hz)⟩

/-- The canonical form denotes the number of the decimal and is reduced. -/
theorem canonical_spec (d : Decimal) :
    (d.canonical.1 : ℚ) / (10 : ℚ) ^ d.canonical.2 = d.toRat ∧
      Reduced d.canonical.1 d.canonical.2 := by
  obtain ⟨v, p, scale⟩ := d
  cases scale with
  | negSucc n =>
    obtain ⟨k, hk, hvalue, hout⟩ := appendFitting_spec (n + 1) v
    refine ⟨?_, fits_toInt _, fun h => ?_, fun h => ?_⟩
    · have hscale : -((appendFitting (n + 1) v).2 : Int) = Int.negSucc n + k := by omega
      show ((appendFitting (n + 1) v).1.toInt : ℚ) /
        (10 : ℚ) ^ (-((appendFitting (n + 1) v).2 : Int)) = v.toInt / (10 : ℚ) ^ (Int.negSucc n)
      rw [hscale, hvalue, ← div_zpow_eq]
    · exact absurd (show 0 < -((appendFitting (n + 1) v).2 : Int) from h) (by omega)
    · exact hout fun hz => absurd (show -((appendFitting (n + 1) v).2 : Int) < 0 from h) (by omega)
  | ofNat n =>
    obtain ⟨k, hk, hvalue, hend⟩ := dropZeros_spec n v.toInt
    refine ⟨?_, ?_, fun h => ?_, fun h => ?_⟩
    · have hscale : ((dropZeros n v.toInt).2 : Int) + k = Int.ofNat n := by
        rw [Int.ofNat_eq_natCast]
        omega
      show ((dropZeros n v.toInt).1 : ℚ) / (10 : ℚ) ^ ((dropZeros n v.toInt).2 : Int) =
        v.toInt / (10 : ℚ) ^ (Int.ofNat n)
      rw [div_zpow_eq _ _ k, ← hvalue, hscale]
    · exact .of_mul_ten_pow (hvalue ▸ fits_toInt v)
    · exact hend fun hz => absurd (show 0 < ((dropZeros n v.toInt).2 : Int) from h) (by omega)
    · exact absurd (show ((dropZeros n v.toInt).2 : Int) < 0 from h) (by omega)

/-- Decimals have one canonical form exactly if they denote one number. -/
theorem canonical_eq_iff (a b : Decimal) : a.canonical = b.canonical ↔ a.toRat = b.toRat := by
  obtain ⟨ha, hra⟩ := canonical_spec a
  obtain ⟨hb, hrb⟩ := canonical_spec b
  constructor
  · intro h
    rw [← ha, ← hb, h]
  · intro h
    obtain ⟨hvalue, hscale⟩ := hra.unique hrb (ha.trans (h.trans hb.symm))
    exact Prod.ext hvalue hscale

end Decimal
end Rollup
