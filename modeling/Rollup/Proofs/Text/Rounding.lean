import Mathlib.Algebra.Order.Round
import Mathlib.Data.Rat.Floor
import Mathlib.Tactic.Linarith
import Rollup.Proofs.Text.Literal

/-
Rounding of numerals.

The first digit beyond the scale is the only one that is looked at, and yet the result is
the nearest integer of the exact number, a half going up.  Leading zeros do not count
towards the size of a numeral, and a carry adds no more than one.
-/

namespace Rollup
namespace Text

variable {c : Char} {n : Numeral} {precision scale : Nat}

theorem five_mul_pow_le_iff {rest : List Char} (h : allDigits rest = true) :
    5 * 10 ^ rest.length ≤ ofDigits (c :: rest) ↔ '5' ≤ c := by
  have hrest := ofDigits_lt h
  rw [ofDigits_cons, five_le_iff]
  constructor
  · intro hle
    by_contra hlt
    have hmul := Nat.mul_le_mul_right (10 ^ rest.length) (Nat.lt_of_not_le hlt)
    rw [Nat.succ_mul] at hmul
    omega
  · exact fun hle => Nat.le_add_right_of_le (Nat.mul_le_mul_right _ hle)

/-- What the first digit says about the fraction that a run of digits is. -/
theorem round_div_pow {rest : List Char} (h : allDigits (c :: rest) = true) :
    round ((ofDigits (c :: rest) : ℚ) / 10 ^ (rest.length + 1)) = if '5' ≤ c then 1 else 0 := by
  have hfive := five_mul_pow_le_iff (c := c) (Bool.and_eq_true_iff.mp h).2
  have hpow : (10 : ℚ) ^ (rest.length + 1) = 10 * 10 ^ rest.length := pow_succ' _ _
  have hpos : (0 : ℚ) < 10 ^ rest.length := by positivity
  have hless : (ofDigits (c :: rest) : ℚ) < 10 * 10 ^ rest.length := by
    rw [← hpow]
    exact_mod_cast ofDigits_lt h
  rw [round_eq_iff, Set.mem_Ico, hpow, le_div_iff₀ (by positivity), div_lt_iff₀ (by positivity)]
  by_cases hc : '5' ≤ c
  · have hhalf : (5 : ℚ) * 10 ^ rest.length ≤ ofDigits (c :: rest) := by
      exact_mod_cast hfive.mpr hc
    rw [if_pos hc]
    push_cast
    constructor <;> linarith
  · have hhalf : (ofDigits (c :: rest) : ℚ) < 5 * 10 ^ rest.length := by
      exact_mod_cast Nat.lt_of_not_le (mt hfive.mp hc)
    have hnonneg : (0 : ℚ) ≤ ofDigits (c :: rest) := Nat.cast_nonneg _
    rw [if_neg hc]
    push_cast
    constructor <;> linarith

namespace Numeral

/-- The digits of a numeral up to a scale, without the zeros that it begins with but with
zeros for the digits that it does not have. -/
def unitDigits (n : Numeral) (scale : Nat) : List Char :=
  n.whole.dropWhile (· == '0') ++ (n.fraction ++ zeros scale).take scale

/-- Whether the first digit beyond the scale makes one more of the digits up to it. -/
def roundsUp (n : Numeral) (scale : Nat) : Bool :=
  match n.fraction.drop scale with
  | c :: _ => '5' ≤ c
  | [] => false

theorem length_take_zeros (ds : List Char) (scale : Nat) :
    ((ds ++ zeros scale).take scale).length = scale := by
  apply List.length_take_of_le
  rw [List.length_append, zeros, List.length_replicate]
  exact Nat.le_add_left _ _

theorem length_unitDigits (n : Numeral) (scale : Nat) :
    (n.unitDigits scale).length = (n.whole.dropWhile (· == '0')).length + scale := by
  rw [unitDigits, List.length_append, length_take_zeros]

theorem WellFormed.unitDigits (h : n.WellFormed) (scale : Nat) :
    allDigits (n.unitDigits scale) = true := by
  have htake : allDigits ((n.fraction ++ zeros scale).take scale) = true :=
    allDigits_iff.mpr fun c hc =>
      allDigits_iff.mp (allDigits_append.mpr ⟨h.fraction, allDigits_zeros scale⟩) c
        (List.mem_of_mem_take hc)
  exact allDigits_append.mpr ⟨allDigits_dropWhile h.whole, htake⟩

theorem ofDigits_unitDigits (n : Numeral) (scale : Nat) :
    ofDigits (n.unitDigits scale) = ofDigits (n.whole ++ n.fraction.take scale) *
      10 ^ (scale - (n.fraction.take scale).length) := by
  have hpadded : (n.fraction ++ zeros scale).take scale =
      n.fraction.take scale ++ zeros (scale - (n.fraction.take scale).length) := by
    have hcount : min (scale - n.fraction.length) scale = scale - min scale n.fraction.length := by
      omega
    rw [List.take_append, zeros, zeros, List.take_replicate, List.length_take, hcount]
  rw [← ofDigits_append_zeros, unitDigits, hpadded, List.append_assoc, ofDigits_append,
    ofDigits_dropWhile, ← ofDigits_append]

theorem scaledHalfUp_eq (n : Numeral) (scale : Nat) :
    n.scaledHalfUp scale =
      ofDigits (n.unitDigits scale) + if n.roundsUp scale = true then 1 else 0 := by
  rw [ofDigits_unitDigits, ← ofDigits_append_zeros]
  unfold scaledHalfUp roundsUp
  cases n.fraction.drop scale with
  | nil => rfl
  | cons c rest =>
    dsimp only
    by_cases hc : '5' ≤ c
    · rw [if_pos hc, if_pos (decide_eq_true hc)]
    · rw [if_neg hc, if_neg (by simpa using hc), Nat.add_zero]

/-- The digits up to the scale count in full, and those beyond it are a fraction. -/
theorem toRat_mul_pow (n : Numeral) (scale : Nat) :
    n.toRat * 10 ^ scale = (ofDigits (n.unitDigits scale) : Nat) +
      (ofDigits (n.fraction.drop scale) : ℚ) / 10 ^ (n.fraction.drop scale).length := by
  obtain ⟨k, hk⟩ := Nat.exists_eq_add_of_le (List.length_take_le scale n.fraction)
  -- Either nothing is beyond the scale or nothing is missing up to it.
  have hbeyond : (ofDigits (n.fraction.drop scale) : ℚ) * 10 ^ k =
      ofDigits (n.fraction.drop scale) := by
    rcases Nat.le_total n.fraction.length scale with hle | hle
    · rw [List.drop_eq_nil_iff.mpr hle]
      exact (congrArg (· * (10 : ℚ) ^ k) Nat.cast_zero).trans (zero_mul _)
    · rw [List.length_take_of_le hle] at hk
      rw [Nat.add_eq_left.mp hk.symm, pow_zero, mul_one]
  have hcoefficient : n.coefficient = ofDigits (n.whole ++ n.fraction.take scale) *
      10 ^ (n.fraction.drop scale).length + ofDigits (n.fraction.drop scale) := by
    rw [← ofDigits_append, List.append_assoc, List.take_append_drop, coefficient]
  have hlength : n.fraction.length =
      (n.fraction.take scale).length + (n.fraction.drop scale).length := by
    rw [← List.length_append, List.take_append_drop]
  have hpow : (10 : ℚ) ^ scale = 10 ^ (n.fraction.take scale).length * 10 ^ k := by
    rw [← pow_add, ← hk]
  rw [ofDigits_unitDigits, ← hbeyond, toRat, hcoefficient, hlength, hpow, pow_add,
    show scale - (n.fraction.take scale).length = k by omega]
  push_cast
  field_simp

theorem round_dropped (h : allDigits n.fraction = true) (scale : Nat) :
    round ((ofDigits (n.fraction.drop scale) : ℚ) / 10 ^ (n.fraction.drop scale).length) =
      if n.roundsUp scale = true then 1 else 0 := by
  have hdropped : allDigits (n.fraction.drop scale) = true :=
    allDigits_iff.mpr fun c hc => allDigits_iff.mp h c (List.mem_of_mem_drop hc)
  unfold roundsUp
  cases hdrop : n.fraction.drop scale with
  | nil =>
    have hzero : (ofDigits [] : ℚ) = 0 := Nat.cast_zero
    rw [hzero, zero_div, round_zero]
    rfl
  | cons c rest =>
    rw [hdrop] at hdropped
    simp only [decide_eq_true_eq]
    exact round_div_pow hdropped

theorem scaledHalfUp_eq_round (h : allDigits n.fraction = true) (scale : Nat) :
    (n.scaledHalfUp scale : Int) = round (n.toRat * 10 ^ scale) := by
  rw [toRat_mul_pow, round_natCast_add, round_dropped h, scaledHalfUp_eq]
  push_cast
  rfl

/-! ## Size -/

/-- No carry is needed to reach the bound when there are too many digits before the point. -/
theorem pow_le_scaledHalfUp (h : n.WellFormed) (hscale : scale ≤ precision)
    (hmany : precision - scale < (n.whole.dropWhile (· == '0')).length) :
    10 ^ precision ≤ n.scaledHalfUp scale := by
  calc 10 ^ precision = 10 ^ (precision - scale) * 10 ^ scale := by
        rw [← Nat.pow_add, Nat.sub_add_cancel hscale]
    _ ≤ ofDigits n.whole * 10 ^ scale := Nat.mul_le_mul_right _ (pow_le_ofDigits h.whole hmany)
    _ ≤ ofDigits (n.unitDigits scale) := by
        rw [unitDigits, ofDigits_append, ofDigits_dropWhile, length_take_zeros]
        exact Nat.le_add_right _ _
    _ ≤ n.scaledHalfUp scale := by
        rw [scaledHalfUp_eq]
        exact Nat.le_add_right _ _

theorem ofDigits_unitDigits_lt (h : n.WellFormed) (hscale : scale ≤ precision)
    (hfew : (n.whole.dropWhile (· == '0')).length ≤ precision - scale) :
    ofDigits (n.unitDigits scale) < 10 ^ precision := by
  have hlength : (n.unitDigits scale).length ≤ precision := by
    rw [length_unitDigits]
    omega
  exact Nat.lt_of_lt_of_le (ofDigits_lt (h.unitDigits scale))
    (Nat.pow_le_pow_right (by decide) hlength)

end Numeral

end Text
end Rollup
