import Mathlib.Data.Sign.Basic
import Rollup.Decimal
import Rollup.Proofs.Text.Rounding
import Rollup.Proofs.Value.Rational

/-
What is read from a literal.

A literal is accepted exactly if it denotes a number that, rounded half up to the scale,
has no more digits than the precision, and the rounded number is what is read.  The test
of the digits before the point is therefore implied by that of the result.
-/

namespace Rollup
namespace Decimal

open Text (Literal Numeral)

variable {literal : String} {precision : Nat} {scale : Int} {x : ℚ} {n : Numeral} {d : Decimal}

/-! ## Types -/

/-- The precisions and scales of decimal types. -/
def IsType (precision : Nat) (scale : Int) : Prop :=
  0 ≤ scale ∧ scale ≤ precision ∧ precision ≤ maxPrecision

theorem isType_iff : IsType precision scale ↔
    ¬ (scale < 0 || (precision : Int) < scale || maxPrecision < precision) = true := by
  simp only [IsType, Bool.or_eq_true, decide_eq_true_eq]
  omega

theorem pow_le_of_isType (h : IsType precision scale) : 10 ^ precision ≤ 10 ^ 38 :=
  Nat.pow_le_pow_right (by decide) h.2.2

theorem exists_ofInt? {i : Int} (h : Fits i) :
    ∃ v : Signed 128, Signed.ofInt? i = some v ∧ v.toInt = i := by
  cases hv : (Signed.ofInt? i : Option (Signed 128)) with
  | none => exact absurd h (ofInt?_eq_none_iff.mp hv)
  | some v => exact ⟨v, rfl, Signed.ofInt?_eq_some_iff.mp hv⟩

/-- A decimal of the greatest precision fits, whatever its sign. -/
theorem fits_of_lt {m : Nat} (h : IsType precision scale) (hm : m < 10 ^ precision)
    (minus : Bool) : Fits (if minus = true then -(m : Int) else m) := by
  have hpow := pow_le_of_isType h
  have hword : (10 : Nat) ^ 38 < 2 ^ 127 := by decide
  have hlt : (m : Int) < 2 ^ 127 := by exact_mod_cast (by omega : m < 2 ^ 127)
  cases minus <;> constructor <;> simp only [if_true, Bool.false_eq_true, if_false] <;> omega

/-! ## The parts of a literal -/

/-- The sign of a literal, `true` for a minus, and the text of its magnitude. -/
def signSplit (literal : String) : Bool × List Char :=
  Text.takeSign (Text.stripEnds Text.isBlank literal.toList)

/-- The number with a sign given and a magnitude read. -/
def signed (minus : Bool) (n : Numeral) : ℚ := if minus = true then -n.toRat else n.toRat

theorem literal_iff_numeral : Literal literal x ↔
    ∃ n, Numeral.ofChars? (signSplit literal).2 = some n ∧ signed (signSplit literal).1 n = x := by
  rw [Text.literal_iff, Text.number_iff]
  constructor
  · rintro ⟨_, hmagnitude, rfl⟩
    obtain ⟨n, hn, rfl⟩ := Text.Numeral.magnitude_iff.mp hmagnitude
    exact ⟨n, hn, rfl⟩
  · rintro ⟨n, hn, rfl⟩
    exact ⟨n.toRat, Text.Numeral.magnitude_iff.mpr ⟨n, hn, rfl⟩, rfl⟩

theorem round_abs_signed (h : n.WellFormed) (hscale : 0 ≤ scale) (minus : Bool) :
    round (|signed minus n| * 10 ^ scale) = n.scaledHalfUp scale.toNat := by
  have habs : |signed minus n| = n.toRat := by
    cases minus with
    | false => exact abs_of_nonneg n.toRat_nonneg
    | true => exact (abs_neg _).trans (abs_of_nonneg n.toRat_nonneg)
  have hpow : (10 : ℚ) ^ scale = 10 ^ scale.toNat := by
    rw [← zpow_natCast, Int.toNat_of_nonneg hscale]
  rw [habs, hpow, Text.Numeral.scaledHalfUp_eq_round h.fraction]

/-- The sign of zero is lost, but the value is zero then. -/
theorem sign_mul_scaledHalfUp (h : n.WellFormed) (k : Nat) (minus : Bool) :
    (SignType.sign (signed minus n) : Int) * n.scaledHalfUp k =
      if minus = true then -(n.scaledHalfUp k : Int) else n.scaledHalfUp k := by
  rcases n.toRat_nonneg.eq_or_lt with hzero | hpos
  · have hscaled : (n.scaledHalfUp k : Int) = 0 := by
      rw [Text.Numeral.scaledHalfUp_eq_round h.fraction, ← hzero, zero_mul, round_zero]
    rw [hscaled, mul_zero, neg_zero, ite_self]
  · cases minus with
    | false =>
      have hsign : SignType.sign (signed false n) = 1 := sign_pos hpos
      rw [hsign, SignType.coe_one, one_mul]
      rfl
    | true =>
      have hsign : SignType.sign (signed true n) = -1 := sign_neg (neg_lt_zero.mpr hpos)
      rw [hsign, SignType.coe_neg_one, neg_one_mul]
      rfl

/-! ## What is read -/

theorem read_of_not_isType (h : ¬ IsType precision scale) :
    read literal precision scale = .error (.type precision scale) :=
  if_pos (not_not.mp (mt isType_iff.mpr h))

theorem read_of_none (h : IsType precision scale)
    (hn : Numeral.ofChars? (signSplit literal).2 = none) :
    read literal precision scale = .error (.literal literal) := by
  unfold read
  rw [if_neg (isType_iff.mp h)]
  dsimp only
  rw [show Text.takeSign (Text.stripEnds Text.isBlank literal.toList) = signSplit literal from rfl,
    hn]

theorem read_of_some (h : IsType precision scale)
    (hn : Numeral.ofChars? (signSplit literal).2 = some n) :
    (10 ^ precision ≤ n.scaledHalfUp scale.toNat ∧
      read literal precision scale = .error (.exceeds literal precision scale)) ∨
    (n.scaledHalfUp scale.toNat < 10 ^ precision ∧ ∃ v : Signed 128,
      v.toInt = (if (signSplit literal).1 = true then -(n.scaledHalfUp scale.toNat : Int)
        else n.scaledHalfUp scale.toNat) ∧
      read literal precision scale = .ok ⟨v, precision, scale⟩) := by
  have hwell := (Text.Numeral.ofChars?_eq_some_iff.mp hn).1
  have hscale : scale.toNat ≤ precision := by
    have hle := h.2.1
    omega
  unfold read
  rw [if_neg (isType_iff.mp h)]
  dsimp only
  rw [show Text.takeSign (Text.stripEnds Text.isBlank literal.toList) = signSplit literal from rfl,
    hn]
  dsimp only
  split
  · rename_i hmany
    exact .inl ⟨Text.Numeral.pow_le_scaledHalfUp hwell hscale hmany, rfl⟩
  · split
    · rename_i hbound
      exact .inl ⟨hbound, rfl⟩
    · rename_i hbound
      have hlt : n.scaledHalfUp scale.toNat < 10 ^ precision := Nat.lt_of_not_le hbound
      obtain ⟨v, hv, hvalue⟩ := exists_ofInt? (fits_of_lt h hlt (signSplit literal).1)
      refine .inr ⟨hlt, v, hvalue, ?_⟩
      rw [hv]

theorem read_eq_ok_iff : read literal precision scale = .ok d ↔
    IsType precision scale ∧ d.precision = precision ∧ d.scale = scale ∧
      ∃ x, Literal literal x ∧ round (|x| * 10 ^ scale) < 10 ^ precision ∧
        d.unscaled.toInt = SignType.sign x * round (|x| * 10 ^ scale) := by
  constructor
  · intro hd
    by_cases h : IsType precision scale
    · cases hn : Numeral.ofChars? (signSplit literal).2 with
      | none =>
        rw [read_of_none h hn] at hd
        exact nomatch hd
      | some n =>
        have hwell := (Text.Numeral.ofChars?_eq_some_iff.mp hn).1
        rcases read_of_some h hn with ⟨_, herror⟩ | ⟨hlt, v, hv, hok⟩
        · rw [herror] at hd
          exact nomatch hd
        · obtain rfl : ⟨v, precision, scale⟩ = d := Except.ok.inj (hok.symm.trans hd)
          refine ⟨h, rfl, rfl, _, literal_iff_numeral.mpr ⟨n, hn, rfl⟩, ?_, ?_⟩
          · rw [round_abs_signed hwell h.1]
            exact_mod_cast hlt
          · rw [round_abs_signed hwell h.1, sign_mul_scaledHalfUp hwell]
            exact hv
    · rw [read_of_not_isType h] at hd
      exact nomatch hd
  · rintro ⟨h, hprecision, hscale, x, hx, hlt, hd⟩
    obtain ⟨n, hn, rfl⟩ := literal_iff_numeral.mp hx
    have hwell := (Text.Numeral.ofChars?_eq_some_iff.mp hn).1
    rw [round_abs_signed hwell h.1] at hlt hd
    rw [sign_mul_scaledHalfUp hwell] at hd
    rcases read_of_some h hn with ⟨hge, _⟩ | ⟨_, v, hv, hok⟩
    · have hge : (10 : Int) ^ precision ≤ n.scaledHalfUp scale.toNat := by exact_mod_cast hge
      exact absurd hlt (not_lt.mpr hge)
    · obtain rfl : v = d.unscaled := Signed.ext (hv.trans hd.symm)
      rw [hok, ← hprecision, ← hscale]

end Decimal
end Rollup
