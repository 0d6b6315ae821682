import Rollup.Proofs.Decimal.Reading

/-
Reading what was written.

At a scale that is not negative the text of a decimal is a literal of its number, so that
nothing is rounded when it is read again, and the digits before its point are no more than
the precision leaves.  What was read from any literal comes back unchanged.
-/

namespace Rollup
namespace Decimal

open Text (Literal Magnitude Number)

variable {precision : Nat} {scale : Int} {d : Decimal}

/-! ## The number of a text -/

theorem magnitude_magnitudeText (n s : Nat) : Magnitude (magnitudeText n s) (n / 10 ^ s) := by
  cases s with
  | zero =>
    have h := Magnitude.plain (Text.digits_ne_nil n) (Text.allDigits_digits n)
    rw [Text.ofDigits_digits] at h
    rw [pow_zero, div_one]
    exact h
  | succ s =>
    have hlength : s + 2 ≤ (Text.padded (s + 2) n).length := Text.le_length_padded _ _
    have h := Magnitude.split (Text.padded_ne_nil (s + 2) n) (Text.allDigits_padded (s + 2) n)
      ((Text.padded (s + 2) n).length - (s + 1))
    rw [Text.ofDigits_padded, Nat.sub_sub_self (by omega)] at h
    exact h

theorem number_text (v : Int) (s : Nat) : Number (text v s) (v / 10 ^ s) :=
  .signed (magnitude_magnitudeText v.natAbs s)

theorem literal_render (h : 0 ≤ d.scale) : Literal d.render d.toRat := by
  obtain ⟨s, hs⟩ := Int.eq_ofNat_of_zero_le h
  rw [render, toRat, hs, zpow_natCast]
  exact (number_text _ s).literal

/-! ## The way back -/

theorem round_abs_toRat (d : Decimal) :
    round (|d.toRat| * 10 ^ d.scale) = |d.unscaled.toInt| := by
  have hpos : (0 : ℚ) < 10 ^ d.scale := zpow_pos (by norm_num) _
  have habs : |d.toRat| * 10 ^ d.scale = (|d.unscaled.toInt| : Int) := by
    rw [toRat, abs_div, abs_of_pos hpos, div_mul_cancel₀ _ hpos.ne', Int.cast_abs]
  rw [habs, round_intCast]

theorem sign_toRat_mul (d : Decimal) :
    (SignType.sign d.toRat : Int) * |d.unscaled.toInt| = d.unscaled.toInt := by
  have hpos : (0 : ℚ) < 10 ^ d.scale := zpow_pos (by norm_num) _
  rcases lt_trichotomy d.unscaled.toInt 0 with hv | hv | hv
  · have hneg : d.toRat < 0 := div_neg_of_neg_of_pos (by exact_mod_cast hv) hpos
    rw [sign_neg hneg, abs_of_neg hv, SignType.coe_neg_one, neg_one_mul, neg_neg]
  · rw [hv, abs_zero, mul_zero]
  · have hpositive : 0 < d.toRat := div_pos (by exact_mod_cast hv) hpos
    rw [sign_pos hpositive, abs_of_pos hv, SignType.coe_one, one_mul]

theorem read_render_of_lt (h : IsType d.precision d.scale)
    (hd : |d.unscaled.toInt| < 10 ^ d.precision) :
    read d.render d.precision d.scale = .ok d := by
  refine read_eq_ok_iff.mpr ⟨h, rfl, rfl, d.toRat, literal_render h.1, ?_, ?_⟩
  · rw [round_abs_toRat]
    exact hd
  · rw [round_abs_toRat, sign_toRat_mul]

/-- What is read is within the precision. -/
theorem abs_lt_of_read {literal : String} (h : read literal precision scale = .ok d) :
    |d.unscaled.toInt| < 10 ^ precision := by
  obtain ⟨htype, _, _, x, hx, hlt, hvalue⟩ := read_eq_ok_iff.mp h
  obtain ⟨n, hn, rfl⟩ := literal_iff_numeral.mp hx
  have hwell := (Text.Numeral.ofChars?_eq_some_iff.mp hn).1
  rw [round_abs_signed hwell htype.1] at hlt hvalue
  rw [sign_mul_scaledHalfUp hwell] at hvalue
  rw [hvalue]
  split
  · rw [abs_neg, Nat.abs_cast]
    exact hlt
  · rw [Nat.abs_cast]
    exact hlt

/-- A value within the precision is read from its text as it was, and so is all that was
ever read, however many digits of its literal were dropped. -/
theorem read_text (precision : Nat) (scale : Int) :
    (∀ v : Signed 128, IsType precision scale → |v.toInt| < 10 ^ precision →
      read (String.ofList (text v.toInt scale)) precision scale =
        .ok ⟨v, precision, scale⟩) ∧
    ∀ literal d, read literal precision scale = .ok d → read d.render precision scale = .ok d := by
  constructor
  · intro v h hv
    exact read_render_of_lt (d := ⟨v, precision, scale⟩) h hv
  · intro literal d hd
    have hlt := abs_lt_of_read hd
    obtain ⟨h, rfl, rfl, _⟩ := read_eq_ok_iff.mp hd
    exact read_render_of_lt h hlt

/-- All digits of the greatest precision behind the point, and all but one of them zeros. -/
theorem read_text_least_fraction :
    read (String.ofList (text (-5) 38)) 38 38 = .ok ⟨⟨-5, by decide, by decide⟩, 38, 38⟩ :=
  (read_text 38 38).1 ⟨-5, by decide, by decide⟩ ⟨by decide, by decide, by decide⟩ (by decide)

example : String.ofList (text (-5) 38) = "-0.00000000000000000000000000000000000005" := by decide

end Decimal
end Rollup
