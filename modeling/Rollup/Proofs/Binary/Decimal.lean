import Mathlib.Data.Nat.Digits.Defs
import Rollup.Proofs.Binary.Nearest
import Rollup.Proofs.Text.Digits

/-
Decimals rounded to the double format.

A decimal is a fraction of whole units, which `roundUnits` rounds.  Where its leading digit is
too far from the point no fraction is formed, but what comes out is what it would be rounded
to (`Binary.isNearest_ofDecimal`).
-/

namespace Rollup

namespace Text

theorem lt_pow_length_digits (n : Nat) : n < 10 ^ (digits n).length := by
  have h := ofDigits_lt (allDigits_digits n)
  rwa [ofDigits_digits] at h

theorem pow_length_digits_le {n : Nat} (h : 0 < n) : 10 ^ ((digits n).length - 1) ≤ n := by
  rcases Nat.eq_zero_or_pos ((digits n).length - 1) with hzero | hpos
  · rw [hzero]
    exact h
  · by_contra hlt
    have hle := Nat.toDigits_length 10 n _ hpos (Nat.lt_of_not_le hlt)
    have hlength : (digits n).length ≤ (digits n).length - 1 := hle
    omega

end Text

namespace Binary

variable {f : Format} {t : ℚ}

/-! ## Every number -/

theorem isNearest_div (hf : 0 < f.fractionBits) {num den : Nat} (hden : 0 < den)
    (ht : t * 2 ^ f.unitExponent = num / den) :
    (signed false (roundUnits f num den) : Binary f).IsNearest t := by
  refine isNearest_signed hf ?_
  rw [ht]
  exact Format.isNearest_roundUnits hf num hden

/-- Every number that is not negative is rounded, to one result. -/
theorem existsUnique_isNearest (hf : 0 < f.fractionBits) (ht : 0 ≤ t) :
    ∃! x : Binary f, x.IsNearest t := by
  have hunits : t * 2 ^ f.unitExponent =
      (t.num.toNat * 2 ^ f.unitExponent : Nat) / (t.den : ℚ) := by
    have hnum : ((t.num.toNat : Nat) : ℚ) = t.num :=
      congrArg Int.cast (Int.toNat_of_nonneg (Rat.num_nonneg.mpr ht))
    rw [Nat.cast_mul, hnum, mul_div_right_comm, Rat.num_div_den]
    push_cast
    rfl
  exact ⟨_, isNearest_div hf t.den_pos hunits, fun y hy =>
    hy.unique hf (isNearest_div hf t.den_pos hunits)⟩

/-! ## Numbers out of range -/

theorem isNearest_zero (hf : 0 < f.fractionBits) (ht : 0 ≤ t)
    (hhalf : t * 2 ^ f.unitExponent < 1 / 2) : (zero : Binary f).IsNearest t := by
  have hone : 1 < f.hidden := Nat.one_lt_two_pow hf.ne'
  have hzero := Format.units_subnormal f.hidden_pos
  have hnext := Format.units_subnormal hone
  have hpos : 0 ≤ t * 2 ^ f.unitExponent := by positivity
  refine isNearest_signed hf (Format.isNearest_lower ?_ ?_ (Nat.zero_le _) (.inl ?_))
  · rw [hzero]
    exact_mod_cast hpos
  · rw [Nat.zero_add, hnext]
    push_cast
    linarith
  · rw [Nat.zero_add, hzero, hnext]
    push_cast
    linarith

theorem isNearest_infinite (hf : 0 < f.fractionBits)
    (h : (f.units f.infinity : ℚ) ≤ t * 2 ^ f.unitExponent) :
    (infinite false : Binary f).IsNearest t :=
  isNearest_signed hf (Format.isNearest_limit h)

/-! ## Decimals -/

variable {c : Nat} {e : Int}

theorem ten_zpow_le {a b : Int} (h : a ≤ b) : (10 : ℚ) ^ a ≤ 10 ^ b :=
  zpow_le_zpow_right₀ (by norm_num) h

/-- A decimal is below the power of ten that its leading digit is a multiple of one tenth of. -/
theorem mul_zpow_lt (c : Nat) (e : Int) :
    (c : ℚ) * 10 ^ e < 10 ^ ((Text.digits c).length + e) := by
  have hpos : (0 : ℚ) < 10 ^ e := by positivity
  have hlt : (c : ℚ) < 10 ^ (Text.digits c).length := by exact_mod_cast Text.lt_pow_length_digits c
  rw [zpow_add₀ (by norm_num), zpow_natCast]
  exact mul_lt_mul_of_pos_right hlt hpos

theorem zpow_le_mul_zpow (hc : 0 < c) :
    (10 : ℚ) ^ ((Text.digits c).length + e - 1) ≤ c * 10 ^ e := by
  have hpos : (0 : ℚ) < 10 ^ e := by positivity
  have hlength : 0 < (Text.digits c).length :=
    List.length_pos_iff.mpr (Text.digits_ne_nil c)
  have hle : (10 : ℚ) ^ ((Text.digits c).length - 1) ≤ c := by
    exact_mod_cast Text.pow_length_digits_le hc
  have hexponent : ((Text.digits c).length + e - 1 : Int) =
      ((Text.digits c).length - 1 : Nat) + e := by omega
  rw [hexponent, zpow_add₀ (by norm_num), zpow_natCast]
  exact mul_le_mul_of_nonneg_right hle hpos.le

theorem isNearest_of_small (h : (Text.digits c).length + e < -400) :
    (zero : Double).IsNearest (c * 10 ^ e) := by
  have hnonneg : (0 : ℚ) ≤ c * 10 ^ e := by positivity
  have hunit : 2 ^ Format.double.unitExponent * 2 < 10 ^ 401 := by decide +kernel
  have hlt := (mul_zpow_lt c e).trans_le (ten_zpow_le (b := -401) (by omega))
  have hpos : (0 : ℚ) < 2 ^ Format.double.unitExponent := by positivity
  have hten : (0 : ℚ) < 10 ^ 401 := by positivity
  have htiny : (2 : ℚ) ^ Format.double.unitExponent * 2 < 10 ^ 401 := by exact_mod_cast hunit
  refine isNearest_zero (by decide) hnonneg ?_
  calc (c : ℚ) * 10 ^ e * 2 ^ Format.double.unitExponent
      < 10 ^ (-401 : Int) * 2 ^ Format.double.unitExponent := mul_lt_mul_of_pos_right hlt hpos
    _ = 2 ^ Format.double.unitExponent / 10 ^ 401 := by
        rw [zpow_neg, mul_comm, ← div_eq_mul_inv]
        rfl
    _ < 1 / 2 := by
        rw [div_lt_div_iff₀ hten (by norm_num), one_mul]
        exact htiny

theorem isNearest_of_large (hc : 0 < c) (h : 400 < (Text.digits c).length + e) :
    (infinite false : Double).IsNearest (c * 10 ^ e) := by
  have hunit : Format.double.units Format.double.infinity ≤
      10 ^ 400 * 2 ^ Format.double.unitExponent := by decide +kernel
  have hle := (ten_zpow_le (a := 400) (by omega)).trans (zpow_le_mul_zpow (e := e) hc)
  have hpos : (0 : ℚ) < 2 ^ Format.double.unitExponent := by positivity
  refine isNearest_infinite (by decide) ?_
  calc (Format.double.units Format.double.infinity : ℚ)
      ≤ 10 ^ 400 * 2 ^ Format.double.unitExponent := by exact_mod_cast hunit
    _ ≤ c * 10 ^ e * 2 ^ Format.double.unitExponent := mul_le_mul_of_nonneg_right hle hpos.le

theorem cast_mul_pow (c n : Nat) : ((c * Nat.pow 2 n : Nat) : ℚ) = c * 2 ^ n :=
  (Nat.cast_mul c (2 ^ n)).trans (congrArg _ (Nat.cast_pow 2 n))

theorem cast_tenPow (n : Nat) : ((Text.tenPow n : Nat) : ℚ) = 10 ^ n := Nat.cast_pow 10 n

theorem isNearest_ofDecimal (c : Nat) (e : Int) :
    (ofDecimal .double c e).IsNearest (c * 10 ^ e) := by
  unfold ofDecimal
  dsimp only
  split
  · rename_i hsmall
    rcases Bool.or_eq_true_iff.mp hsmall with hzero | hsmall
    · rw [beq_iff_eq.mp hzero, Nat.cast_zero, zero_mul]
      exact isNearest_zero (by decide) le_rfl (by rw [zero_mul]; norm_num)
    · exact isNearest_of_small (of_decide_eq_true hsmall)
  · rename_i hnonzero
    rw [Bool.or_eq_true, not_or, beq_iff_eq] at hnonzero
    split
    · rename_i hlarge
      exact isNearest_of_large (Nat.pos_of_ne_zero hnonzero.1) hlarge
    · split
      · have hexponent : e = -(e.natAbs : Int) := by omega
        refine isNearest_div (by decide) (Text.tenPow_pos _) ?_
        rw [cast_tenPow, cast_mul_pow, hexponent, zpow_neg, zpow_natCast, Int.natAbs_neg,
          Int.natAbs_natCast]
        ring
      · have hexponent : e = (e.natAbs : Int) := by omega
        refine isNearest_div (by decide) Nat.one_pos ?_
        rw [Nat.cast_mul, cast_tenPow, cast_mul_pow, Nat.cast_one, hexponent, zpow_natCast,
          Int.natAbs_natCast]
        ring

end Binary
end Rollup
