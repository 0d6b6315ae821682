import Rollup.Proofs.Decimal.RoundTrip
import Rollup.Proofs.Value.Equality
import Rollup.Value.Text

/-
The numbers that the texts of decimals show.

A text has as many places as a positive scale asks for and none at any other scale, so what
it shows (`Decimal.shown`) lacks the zeros of a negative scale.  It is the number of the
decimal at all other scales, and it settles which decimals of one text are equal
(`Decimal.render_shows`).
-/

namespace Rollup
namespace Decimal

open Text (Literal)

variable {d e : Decimal}

/-- The unscaled value behind as many places as the text has. -/
def shown (d : Decimal) : ℚ := d.unscaled.toInt / 10 ^ d.scale.toNat

theorem text_toNat (v : Int) : (scale : Int) → text v scale.toNat = text v scale
  | .ofNat _ => rfl
  | .negSucc _ => rfl

theorem literal_shown (d : Decimal) : Literal d.render d.shown := by
  rw [render, ← text_toNat, shown]
  exact (number_text _ _).literal

/-! ## Negative scales -/

theorem toRat_eq_shown (d : Decimal) : d.toRat = d.shown / 10 ^ min d.scale 0 := by
  have hscale : d.scale = (d.scale.toNat : Int) + min d.scale 0 := by omega
  rw [shown, div_div, ← zpow_natCast, ← zpow_add₀ (by norm_num), ← hscale, toRat]

theorem shown_eq_zero_iff : d.shown = 0 ↔ d.unscaled.toInt = 0 := by
  rw [shown, div_eq_zero_iff, Int.cast_eq_zero, or_iff_left (pow_ne_zero _ (by norm_num))]

/-- Only zero is the same at two scales. -/
theorem div_zpow_eq_iff {x : ℚ} {m n : Int} :
    x / (10 : ℚ) ^ m = x / (10 : ℚ) ^ n ↔ m = n ∨ x = 0 := by
  by_cases hx : x = 0
  · simp [hx]
  · rw [div_eq_mul_inv, div_eq_mul_inv, mul_right_inj' hx, inv_inj,
      zpow_right_inj₀ (by norm_num) (by norm_num), or_iff_left hx]

theorem toRat_eq_shown_iff : d.toRat = d.shown ↔ 0 ≤ d.scale ∨ d.unscaled.toInt = 0 := by
  have h := div_zpow_eq_iff (x := d.shown) (m := min d.scale 0) (n := 0)
  rw [zpow_zero, div_one, ← toRat_eq_shown, shown_eq_zero_iff] at h
  rw [h]
  exact or_congr_left min_eq_right_iff

/-- Of two decimals that show the same the scales decide whether they are equal. -/
theorem toRat_eq_iff_of_shown (h : d.shown = e.shown) :
    d.toRat = e.toRat ↔ min d.scale 0 = min e.scale 0 ∨ d.unscaled.toInt = 0 := by
  rw [toRat_eq_shown, toRat_eq_shown, ← h, div_zpow_eq_iff, shown_eq_zero_iff]

/-! ## Texts -/

/-- The text of a decimal shows its unscaled value behind as many places as its scale has, and
none at a negative scale.  That is the number of the decimal unless the scale is negative and
the value not zero, and among decimals of one text the equal ones are those that drop the
same zeros. -/
theorem render_shows (d : Decimal) :
    Literal (Value.decimal d).render (d.unscaled.toInt / 10 ^ d.scale.toNat) ∧
    (Literal (Value.decimal d).render (d.unscaled.toInt / (10 : ℚ) ^ d.scale) ↔
      0 ≤ d.scale ∨ d.unscaled.toInt = 0) ∧
    ∀ e : Decimal, (Value.decimal d).render = (Value.decimal e).render →
      ((Value.decimal d).equal (.decimal e) = true ↔
        min d.scale 0 = min e.scale 0 ∨ d.unscaled.toInt = 0) := by
  refine ⟨d.literal_shown, ?_, fun e htext => ?_⟩
  · show Literal d.render d.toRat ↔ _
    rw [← toRat_eq_shown_iff]
    constructor
    · exact fun h => h.unique d.literal_shown
    · intro h
      exact h ▸ d.literal_shown
  · have hshown : d.shown = e.shown := by
      refine d.literal_shown.unique ?_
      rw [show d.render = e.render from htext]
      exact e.literal_shown
    rw [Value.equal_eq_true_iff, Value.content, Value.content, Value.Content.decimal.injEq,
      ← Prod.ext_iff, canonical_eq_iff]
    exact toRat_eq_iff_of_shown hshown

/-- Five hundred is shown as five. -/
theorem render_drops_zeros :
    (Value.decimal ⟨.wrap 5, 3, -2⟩).render = "5" ∧
    toRat ⟨.wrap 5, 3, -2⟩ = 500 ∧
    ¬ Literal (Value.decimal ⟨.wrap 5, 3, -2⟩).render (toRat ⟨.wrap 5, 3, -2⟩) ∧
    (Value.decimal ⟨.wrap 5, 3, 0⟩).render = "5" ∧
    (Value.decimal ⟨.wrap 5, 3, -2⟩).equal (.decimal ⟨.wrap 5, 3, 0⟩) = false := by
  have hvalue : toRat ⟨.wrap 5, 3, -2⟩ = 500 := by
    show (5 : ℚ) / (10 : ℚ) ^ (-2 : Int) = 500
    norm_num
  refine ⟨by decide, hvalue, fun hliteral => ?_, by decide, by decide⟩
  have hshown := literal_shown ⟨.wrap 5, 3, -2⟩
  have hfive : shown ⟨.wrap 5, 3, -2⟩ = 5 := by
    show (5 : ℚ) / 10 ^ 0 = 5
    norm_num
  rw [hvalue] at hliteral
  rw [hfive] at hshown
  exact absurd (hliteral.unique hshown) (by norm_num)

end Decimal
end Rollup
