import Mathlib.Order.Monotone.Basic
import Mathlib.Tactic.FieldSimp
import Mathlib.Tactic.Linarith
import Mathlib.Tactic.Positivity
import Mathlib.Tactic.Ring
import Rollup.Binary.Rounding
import Rollup.Proofs.Value.Equality

/-
Correct rounding.

The magnitudes of a format are numbered in the order of what they denote, so the numbers next
to each other are those whose magnitudes are (`Format.units_strictMono`).  A number between
two of them is rounded to the nearer one, and from half way to the even one
(`Binary.IsNearest`).  That fixes the result (`IsNearest.unique`), and it is what `roundUnits`
computes (`isNearest_roundUnits`).
-/

namespace Rollup

namespace Format

variable {f : Format} {p q m k limit : Nat} {t : ℚ}

/-! ## Units -/

/-- The units that a magnitude stands for. -/
def units (f : Format) (m : Nat) : Nat :=
  (if m < f.hidden then m else m % f.hidden + f.hidden) * Nat.pow 2 (m / f.hidden - 1)

theorem hidden_pos (f : Format) : 0 < f.hidden := Nat.pow_pos (by decide)

theorem units_subnormal (h : m < f.hidden) : f.units m = m := by
  rw [units, if_pos h, Nat.div_eq_of_lt h]
  exact Nat.mul_one m

theorem units_normal (h : q < f.hidden) :
    f.units ((p + 1) * f.hidden + q) = (f.hidden + q) * 2 ^ p := by
  have hge : ¬ (p + 1) * f.hidden + q < f.hidden := by
    rw [Nat.add_mul]
    omega
  have hmod : ((p + 1) * f.hidden + q) % f.hidden = q := by
    rw [Nat.mul_add_mod_self_right, Nat.mod_eq_of_lt h]
  have hdiv : ((p + 1) * f.hidden + q) / f.hidden = p + 1 := by
    rw [Nat.mul_comm, Nat.mul_add_div f.hidden_pos, Nat.div_eq_of_lt h, Nat.add_zero]
  rw [units, if_neg hge, hmod, hdiv, Nat.add_sub_cancel, Nat.add_comm q]
  rfl

/-- A significand counts multiples of a power of two.  The greatest one here is that of the
next power, into which the carry of a rounding moves. -/
theorem units_add (hq : q ≤ 2 * f.hidden) (hp : p = 0 ∨ f.hidden ≤ q) :
    f.units (p * f.hidden + q) = q * 2 ^ p := by
  rcases Nat.lt_or_ge q f.hidden with hlt | hge
  · obtain rfl : p = 0 := by omega
    rw [Nat.zero_mul, Nat.zero_add, units_subnormal hlt, Nat.pow_zero, Nat.mul_one]
  · obtain ⟨r, rfl⟩ := Nat.exists_eq_add_of_le hge
    rcases Nat.lt_or_ge r f.hidden with hr | hr
    · rw [← Nat.add_assoc, ← Nat.succ_mul, units_normal hr]
    · obtain rfl : r = f.hidden := by omega
      have hcarry := units_normal (p := p + 1) f.hidden_pos
      rw [Nat.add_zero, Nat.add_zero] at hcarry
      rw [← Nat.add_assoc, ← Nat.succ_mul, ← Nat.succ_mul, hcarry, Nat.pow_succ]
      ring

/-- Every magnitude is put together in this way. -/
theorem exists_eq_add (f : Format) (m : Nat) :
    ∃ p q, m = p * f.hidden + q ∧ q < 2 * f.hidden ∧ (p = 0 ∨ f.hidden ≤ q) := by
  have hpos := f.hidden_pos
  rcases Nat.lt_or_ge m f.hidden with hlt | hge
  · exact ⟨0, m, by rw [Nat.zero_mul, Nat.zero_add], by omega, .inl rfl⟩
  · obtain ⟨r, rfl⟩ := Nat.exists_eq_add_of_le hge
    have hr := Nat.mod_lt r hpos
    have hdiv := Nat.div_add_mod' r f.hidden
    exact ⟨r / f.hidden, f.hidden + r % f.hidden, by omega, by omega, .inr (by omega)⟩

theorem units_strictMono (f : Format) : StrictMono f.units := by
  refine strictMono_nat_of_lt_succ fun m => ?_
  obtain ⟨p, q, rfl, hq, hp⟩ := f.exists_eq_add m
  have hnext := units_add (f := f) (p := p) (q := q + 1) (by omega) (by omega)
  rw [units_add (Nat.le_of_lt hq) hp, Nat.add_assoc, hnext]
  exact Nat.mul_lt_mul_of_pos_right (Nat.lt_succ_self q) (Nat.two_pow_pos p)

/-! ## The nearest magnitude -/

/-- Of the magnitudes up to a limit, the one nearest to a number of units. -/
structure IsNearest (f : Format) (limit : Nat) (t : ℚ) (m : Nat) : Prop where
  le : m ≤ limit
  nearest : ∀ k ≤ limit, |t - f.units m| ≤ |t - f.units k|
  even : ∀ k ≤ limit, k ≠ m → |t - f.units k| = |t - f.units m| → m % 2 = 0

theorem units_lt (h : k < m) : (f.units k : ℚ) < f.units m :=
  Nat.cast_lt.mpr (f.units_strictMono h)

theorem units_le (h : k ≤ m) : (f.units k : ℚ) ≤ f.units m :=
  Nat.cast_le.mpr (f.units_strictMono.monotone h)

theorem IsNearest.not_lt (hm : f.IsNearest limit t m) (hk : f.IsNearest limit t k) : ¬ m < k := by
  intro hlt
  have hunits := units_lt (f := f) hlt
  have hsame := le_antisymm (hm.nearest k hk.le) (hk.nearest m hm.le)
  have hbetween : t - f.units m = f.units k - t := by
    rcases abs_cases (t - f.units m) with ⟨habs, _⟩ | ⟨habs, _⟩ <;>
      rcases abs_cases (t - f.units k) with ⟨habs', _⟩ | ⟨habs', _⟩ <;> linarith
  rcases Nat.lt_or_eq_of_le hlt with hfar | rfl
  · -- a magnitude between the two would be nearer than both
    have hlow := units_lt (f := f) (Nat.lt_succ_self m)
    have hhigh := units_lt (f := f) hfar
    have hnearer : |t - f.units (m + 1)| < t - f.units m := abs_lt.mpr ⟨by linarith, by linarith⟩
    have hnearest := hm.nearest (m + 1) (hfar.le.trans hk.le)
    rw [abs_of_nonneg (by linarith)] at hnearest
    linarith
  · have heven := hm.even _ hk.le (Nat.succ_ne_self m) hsame.symm
    have hodd := hk.even m hm.le (Nat.succ_ne_self m).symm hsame
    omega

theorem IsNearest.unique (hm : f.IsNearest limit t m) (hk : f.IsNearest limit t k) : m = k :=
  Nat.le_antisymm (Nat.le_of_not_lt (hk.not_lt hm)) (Nat.le_of_not_lt (hm.not_lt hk))

/-- What is past the limit is rounded to it. -/
theorem isNearest_limit (h : (f.units limit : ℚ) ≤ t) : f.IsNearest limit t limit := by
  have hdistance {k : Nat} (hk : (f.units k : ℚ) ≤ t) : |t - f.units k| = t - f.units k :=
    abs_of_nonneg (sub_nonneg.mpr hk)
  refine ⟨Nat.le_refl _, fun k hk => ?_, fun k hk hne heq => ?_⟩
  · have hle := units_le (f := f) hk
    rw [hdistance h, hdistance (hle.trans h)]
    linarith
  · have hlt := units_lt (f := f) (Nat.lt_of_le_of_ne hk hne)
    rw [hdistance h, hdistance (hlt.le.trans h)] at heq
    linarith

variable (hlow : (f.units m : ℚ) ≤ t) (hhigh : t < f.units (m + 1))

include hlow hhigh

/-- Between two magnitudes that follow each other, the distance to any other one is the
distance to one of them and more. -/
theorem distance_cases (k : Nat) :
    (k = m ∧ |t - f.units k| = t - f.units m) ∨
      (k = m + 1 ∧ |t - f.units k| = f.units (m + 1) - t) ∨
      (t - f.units m < |t - f.units k| ∧ k < m) ∨
      f.units (m + 1) - t < |t - f.units k| ∧ m + 1 < k := by
  rcases Nat.lt_or_ge m k with hk | hk
  · have hle := units_le (f := f) hk
    rw [abs_of_neg (by linarith)]
    rcases Nat.lt_or_eq_of_le hk with hk | rfl
    · have hlt := units_lt (f := f) hk
      exact .inr (.inr (.inr ⟨by linarith, hk⟩))
    · exact .inr (.inl ⟨rfl, by ring⟩)
  · have hle := units_le (f := f) hk
    rw [abs_of_nonneg (by linarith)]
    rcases Nat.lt_or_eq_of_le hk with hk | rfl
    · have hlt := units_lt (f := f) hk
      exact .inr (.inr (.inl ⟨by linarith, hk⟩))
    · exact .inl ⟨rfl, rfl⟩

theorem isNearest_lower (hm : m ≤ limit)
    (hhalf : t - f.units m < f.units (m + 1) - t ∨
      t - f.units m = f.units (m + 1) - t ∧ m % 2 = 0) : f.IsNearest limit t m := by
  have hself : |t - f.units m| = t - f.units m := abs_of_nonneg (by linarith)
  refine ⟨hm, fun k _ => ?_, fun k _ hne heq => ?_⟩
  · rcases distance_cases hlow hhigh k with ⟨_, hk⟩ | ⟨_, hk⟩ | ⟨hk, _⟩ | ⟨hk, _⟩ <;>
      rcases hhalf with hhalf | ⟨hhalf, _⟩ <;> linarith
  · rcases hhalf with hhalf | ⟨_, heven⟩
    · rcases distance_cases hlow hhigh k with ⟨hk, _⟩ | ⟨_, hk⟩ | ⟨hk, _⟩ | ⟨hk, _⟩
      · exact absurd hk hne
      all_goals linarith
    · exact heven

theorem isNearest_upper (hm : m + 1 ≤ limit)
    (hhalf : f.units (m + 1) - t < t - f.units m ∨
      f.units (m + 1) - t = t - f.units m ∧ (m + 1) % 2 = 0) : f.IsNearest limit t (m + 1) := by
  have hself : |t - f.units (m + 1)| = f.units (m + 1) - t := by
    rw [abs_of_neg (by linarith), neg_sub]
  refine ⟨hm, fun k _ => ?_, fun k _ hne heq => ?_⟩
  · rcases distance_cases hlow hhigh k with ⟨_, hk⟩ | ⟨_, hk⟩ | ⟨hk, _⟩ | ⟨hk, _⟩ <;>
      rcases hhalf with hhalf | ⟨hhalf, _⟩ <;> linarith
  · rcases hhalf with hhalf | ⟨_, heven⟩
    · rcases distance_cases hlow hhigh k with ⟨_, hk⟩ | ⟨hk, _⟩ | ⟨hk, _⟩ | ⟨hk, _⟩
      · linarith
      · exact absurd hk hne
      all_goals linarith
    · exact heven

omit hlow hhigh

/-! ## Rounding -/

/-- The power of two that `roundUnits` divides by leaves a significand of the right size. -/
theorem significand_bounds (f : Format) (n : Nat) :
    n / 2 ^ (n.log2 - f.fractionBits) < 2 * f.hidden ∧
      (n.log2 - f.fractionBits = 0 ∨ f.hidden ≤ n / 2 ^ (n.log2 - f.fractionBits)) := by
  obtain ⟨p, hp⟩ : ∃ p, n.log2 - f.fractionBits = p := ⟨_, rfl⟩
  rw [hp]
  have hhidden : f.hidden = 2 ^ f.fractionBits := rfl
  constructor
  · have hexponent : n.log2 + 1 ≤ f.fractionBits + 1 + p := by omega
    refine Nat.div_lt_of_lt_mul ?_
    calc n < 2 ^ (n.log2 + 1) := Nat.lt_log2_self
      _ ≤ 2 ^ (f.fractionBits + 1 + p) := Nat.pow_le_pow_right (by decide) hexponent
      _ = 2 ^ p * (2 * f.hidden) := by rw [hhidden]; ring
  · rcases Nat.eq_zero_or_pos p with hzero | hpos
    · exact .inl hzero
    · refine .inr ((Nat.le_div_iff_mul_le (Nat.two_pow_pos p)).mpr ?_)
      have hne : n ≠ 0 := by
        rintro rfl
        rw [Nat.log2_zero] at hp
        omega
      calc f.hidden * 2 ^ p = 2 ^ n.log2 := by
            rw [hhidden, ← Nat.pow_add]
            congr 1
            omega
        _ ≤ n := Nat.log2_self_le hne

theorem hidden_mod_two (hf : 0 < f.fractionBits) : f.hidden % 2 = 0 := by
  obtain ⟨b, hb⟩ := Nat.exists_eq_add_of_lt hf
  have hhidden : f.hidden = 2 ^ b * 2 := by
    show 2 ^ f.fractionBits = _
    rw [hb, Nat.zero_add, Nat.pow_succ]
  omega

/-- Quotient and remainder by the multiples that a significand counts, as distances to the
magnitudes on both sides. -/
theorem units_bracket {num den p : Nat} (hden : 0 < den)
    (hq : num / (den * 2 ^ p) < 2 * f.hidden) (hp : p = 0 ∨ f.hidden ≤ num / (den * 2 ^ p)) :
    (num : ℚ) / den - f.units (p * f.hidden + num / (den * 2 ^ p)) =
        (num % (den * 2 ^ p) : Nat) / den ∧
      f.units (p * f.hidden + num / (den * 2 ^ p) + 1) - (num : ℚ) / den =
        ((den * 2 ^ p : Nat) - (num % (den * 2 ^ p) : Nat)) / den := by
  have hdiv := Nat.div_add_mod num (den * 2 ^ p)
  generalize num / (den * 2 ^ p) = q at hq hp hdiv ⊢
  generalize num % (den * 2 ^ p) = r at hdiv ⊢
  have hnext : f.units (p * f.hidden + (q + 1)) = (q + 1) * 2 ^ p :=
    units_add (Nat.succ_le_of_lt hq) (hp.imp_right Nat.le_succ_of_le)
  have hne : (den : ℚ) ≠ 0 := Nat.cast_ne_zero.mpr hden.ne'
  rw [units_add hq.le hp, Nat.add_assoc, hnext, ← hdiv]
  push_cast
  constructor
  · field_simp
    ring
  · field_simp
    ring

/-- What `nearestEven` looks at: the remainder against what is left to the next multiple. -/
theorem remainder_compare (d r : Nat) {den : Nat} (hden : 0 < den) :
    ((r : ℚ) / den < (d - r) / den ↔ 2 * r < d) ∧
      ((r : ℚ) / den = (d - r) / den ↔ 2 * r = d) ∧
      ((d - r : ℚ) / den < r / den ↔ d < 2 * r) := by
  have hpos : (0 : ℚ) < den := Nat.cast_pos.mpr hden
  rw [div_lt_div_iff_of_pos_right hpos, div_left_inj' hpos.ne', div_lt_div_iff_of_pos_right hpos,
    lt_sub_iff_add_lt, eq_sub_iff_add_eq, sub_lt_iff_lt_add, ← two_mul]
  exact ⟨by exact_mod_cast Iff.rfl, by exact_mod_cast Iff.rfl, by exact_mod_cast Iff.rfl⟩

theorem isNearest_roundUnits (hf : 0 < f.fractionBits) (num : Nat) {den : Nat} (hden : 0 < den) :
    f.IsNearest f.infinity (num / den) (Binary.roundUnits f num den) := by
  obtain ⟨hq, hp⟩ := f.significand_bounds (num / den)
  unfold Binary.roundUnits Binary.nearestEven
  dsimp only
  generalize (num / den).log2 - f.fractionBits = p at hq hp ⊢
  rw [Nat.div_div_eq_div_mul] at hq hp
  have hpow : Nat.pow 2 p = 2 ^ p := rfl
  rw [hpow]
  obtain ⟨hlower, hupper⟩ := units_bracket hden hq hp
  have hparity : (p * f.hidden + num / (den * 2 ^ p)) % 2 = num / (den * 2 ^ p) % 2 := by
    rw [Nat.add_mod, Nat.mul_mod, hidden_mod_two hf, Nat.mul_zero, Nat.zero_mod, Nat.zero_add,
      Nat.mod_mod]
  have hr : num % (den * 2 ^ p) < den * 2 ^ p :=
    Nat.mod_lt _ (Nat.mul_pos hden (Nat.two_pow_pos p))
  generalize num / (den * 2 ^ p) = q at *
  generalize num % (den * 2 ^ p) = r at *
  generalize den * 2 ^ p = d at *
  have hden' : (0 : ℚ) < den := Nat.cast_pos.mpr hden
  have hlow : (f.units (p * f.hidden + q) : ℚ) ≤ num / den := by
    rw [← sub_nonneg, hlower]
    positivity
  have hhigh : (num : ℚ) / den < f.units (p * f.hidden + q + 1) := by
    rw [← sub_pos, hupper]
    exact div_pos (sub_pos.mpr (Nat.cast_lt.mpr hr)) hden'
  obtain ⟨hnear, htie, hfar⟩ := remainder_compare d r hden
  rcases Nat.lt_or_ge (p * f.hidden + q) f.infinity with hlt | hge
  · split
    · rename_i hround
      rw [Nat.min_eq_left hlt.le]
      refine isNearest_lower hlow hhigh hlt.le ?_
      rw [hlower, hupper, hnear, htie, hparity]
      simpa using hround
    · rename_i hround
      rw [← Nat.add_assoc, Nat.min_eq_left hlt]
      refine isNearest_upper hlow hhigh hlt ?_
      rw [hlower, hupper, hfar, eq_comm, htie]
      simp only [Bool.or_eq_true, Bool.and_eq_true, decide_eq_true_eq, beq_iff_eq] at hround
      omega
  · rw [Nat.min_eq_right (by split <;> omega)]
    exact isNearest_limit ((units_le hge).trans hlow)

end Format

namespace Binary

variable {f : Format} {x y : Binary f} {t : ℚ}

/-- The number that a pattern stands for, its sign left out.  Infinity stands for the one that
would follow the greatest number. -/
def toRat (x : Binary f) : ℚ := x.units / 2 ^ f.unitExponent

/-- Of the numbers that are not negative, the nearest to `t`, and of two that are equally near
the one with the even significand.  Infinity is the result from half way between the greatest
number and the one that would follow it. -/
structure IsNearest (t : ℚ) (x : Binary f) : Prop where
  sign : x.isNegative = false
  number : x.isNaN = false
  nearest : ∀ y : Binary f, y.isNegative = false → y.isNaN = false →
    |t - x.toRat| ≤ |t - y.toRat|
  even : ∀ y : Binary f, y.isNegative = false → y.isNaN = false → y ≠ x →
    |t - y.toRat| = |t - x.toRat| → x.significand % 2 = 0

/-! ## Patterns and magnitudes -/

theorem infinity_lt_signWeight (f : Format) : f.infinity < f.signWeight := by
  have hpow : f.signWeight = 2 ^ f.exponentBits * f.hidden := Nat.pow_add ..
  rw [hpow]
  exact Nat.mul_lt_mul_of_pos_right (Nat.sub_lt (Nat.two_pow_pos _) Nat.one_pos) f.hidden_pos

theorem isNaN_eq_false_iff : x.isNaN = false ↔ x.magnitude ≤ f.infinity := by
  rw [← Bool.not_eq_true, isNaN_iff, Nat.not_lt]

theorem eq_of_magnitude_eq (hx : x.isNegative = false) (hy : y.isNegative = false)
    (h : x.magnitude = y.magnitude) : x = y := by
  refine rank_injective f ?_
  rw [rank, rank, hx, hy, h]

theorem significand_mod_two (hf : 0 < f.fractionBits) (x : Binary f) :
    x.significand % 2 = x.magnitude % 2 := by
  have heven := Format.hidden_mod_two hf
  unfold significand
  split
  · rfl
  · rw [Nat.add_mod, heven, Nat.add_zero, Nat.mod_mod,
      Nat.mod_mod_of_dvd _ (Nat.dvd_of_mod_eq_zero heven)]

theorem abs_sub_toRat (t : ℚ) (x : Binary f) :
    |t - x.toRat| = |t * 2 ^ f.unitExponent - f.units x.magnitude| / 2 ^ f.unitExponent := by
  have hpos : (0 : ℚ) < 2 ^ f.unitExponent := by positivity
  have hunits : t - x.toRat =
      (t * 2 ^ f.unitExponent - f.units x.magnitude) / 2 ^ f.unitExponent := by
    rw [sub_div, mul_div_cancel_right₀ _ hpos.ne']
    rfl
  rw [hunits, abs_div, abs_of_pos hpos]

theorem isNearest_iff (hf : 0 < f.fractionBits) : x.IsNearest t ↔ x.isNegative = false ∧
    f.IsNearest f.infinity (t * 2 ^ f.unitExponent) x.magnitude := by
  have hpos : (0 : ℚ) < 2 ^ f.unitExponent := by positivity
  constructor
  · intro h
    have hpattern {k : Nat} (hk : k ≤ f.infinity) : ∃ y : Binary f,
        y.isNegative = false ∧ y.isNaN = false ∧ y.magnitude = k := by
      have hlt := Nat.lt_of_le_of_lt hk (infinity_lt_signWeight f)
      have hmagnitude : (signed false k : Binary f).magnitude = k := magnitude_signed hlt
      exact ⟨signed false k, isNegative_signed hlt,
        isNaN_eq_false_iff.mpr (by rwa [hmagnitude]), hmagnitude⟩
    refine ⟨h.sign, isNaN_eq_false_iff.mp h.number, fun k hk => ?_, fun k hk hne heq => ?_⟩
    · obtain ⟨y, hsign, hnumber, rfl⟩ := hpattern hk
      have hle := h.nearest y hsign hnumber
      rwa [abs_sub_toRat, abs_sub_toRat, div_le_div_iff_of_pos_right hpos] at hle
    · obtain ⟨y, hsign, hnumber, rfl⟩ := hpattern hk
      rw [← significand_mod_two hf]
      refine h.even y hsign hnumber (fun hyx => hne (hyx ▸ rfl)) ?_
      rw [abs_sub_toRat, abs_sub_toRat, heq]
  · rintro ⟨hsign, h⟩
    refine ⟨hsign, isNaN_eq_false_iff.mpr h.le, fun y _ hy => ?_, fun y hysign hy hne heq => ?_⟩
    · rw [abs_sub_toRat, abs_sub_toRat, div_le_div_iff_of_pos_right hpos]
      exact h.nearest _ (isNaN_eq_false_iff.mp hy)
    · rw [significand_mod_two hf]
      rw [abs_sub_toRat, abs_sub_toRat, div_left_inj' hpos.ne'] at heq
      exact h.even _ (isNaN_eq_false_iff.mp hy)
        (fun hmagnitude => hne (eq_of_magnitude_eq hysign hsign hmagnitude)) heq

theorem IsNearest.unique (hf : 0 < f.fractionBits) (hx : x.IsNearest t) (hy : y.IsNearest t) :
    x = y := by
  obtain ⟨hxsign, hxnearest⟩ := (isNearest_iff hf).mp hx
  obtain ⟨hysign, hynearest⟩ := (isNearest_iff hf).mp hy
  exact eq_of_magnitude_eq hxsign hysign (hxnearest.unique hynearest)

theorem isNearest_signed (hf : 0 < f.fractionBits) {m : Nat}
    (h : f.IsNearest f.infinity (t * 2 ^ f.unitExponent) m) :
    (signed false m : Binary f).IsNearest t := by
  have hlt := Nat.lt_of_le_of_lt h.le (infinity_lt_signWeight f)
  refine (isNearest_iff hf).mpr ⟨isNegative_signed hlt, ?_⟩
  rwa [magnitude_signed hlt]

end Binary
end Rollup
