import Rollup.Proofs.Binary.Nearest

/-
What patterns stand for, and the doubles that stand for the same as singles do.

A number of a format is its own rounding (`Format.roundUnits_units`), and a significand that
the double format has room for can be scaled by any power of two that does not take it beyond
that format (`Format.exists_units_eq`).  So every number of the single format is one of the
double format, and widening keeps it with its sign, as it keeps infinities and NaNs
(`Binary.datum_toDouble`).
-/

namespace Rollup
namespace Format

variable {f : Format} {m q : Nat}

/-- A number of the format is its own rounding. -/
theorem roundUnits_units (hf : 0 < f.fractionBits) (hm : m ≤ f.infinity) :
    Binary.roundUnits f (f.units m) 1 = m := by
  have hself : f.IsNearest f.infinity (f.units m) m := by
    refine ⟨hm, fun k _ => ?_, fun k _ hne heq => ?_⟩
    · rw [sub_self, abs_zero]
      exact abs_nonneg _
    · rw [sub_self, abs_zero, abs_eq_zero, sub_eq_zero, Nat.cast_inj] at heq
      exact absurd (f.units_strictMono.injective heq).symm hne
  have hround := isNearest_roundUnits hf (f.units m) Nat.one_pos
  rw [Nat.cast_one, div_one] at hround
  exact hround.unique hself

/-- As long as the significand has room, a factor of two goes into it, and from then on into
the exponent. -/
theorem exists_units_eq (n : Nat) (hq : q < 2 * f.hidden) : ∃ m, f.units m = q * 2 ^ n := by
  induction n generalizing q with
  | zero =>
    have hunits := units_add (f := f) (p := 0) hq.le (.inl rfl)
    exact ⟨_, hunits⟩
  | succ n ih =>
    rcases Nat.lt_or_ge q f.hidden with hlt | hge
    · obtain ⟨m, hm⟩ := ih (q := 2 * q) (by omega)
      refine ⟨m, ?_⟩
      rw [hm, Nat.pow_succ]
      ring
    · exact ⟨(n + 1) * f.hidden + q, units_add hq.le (.inr hge)⟩

theorem units_infinity (hf : 0 < f.exponentBits) :
    f.units f.infinity = 2 ^ (f.fractionBits + (2 ^ f.exponentBits - 2)) := by
  have htwo : 2 ≤ 2 ^ f.exponentBits := Nat.le_self_pow hf.ne' 2
  have hinfinity : f.infinity = (2 ^ f.exponentBits - 2 + 1) * f.hidden + 0 :=
    congrArg (· * f.hidden) (show 2 ^ f.exponentBits - 1 = _ by omega)
  rw [hinfinity, units_normal f.hidden_pos, Nat.pow_add, Nat.add_zero]
  rfl

/-- A format with room for the significands of another one, and for its numbers in smaller
units, has all of its numbers. -/
theorem exists_wide {f g : Format} {m n : Nat} (hroom : f.hidden ≤ g.hidden)
    (hfits : f.units f.infinity * 2 ^ n ≤ g.units g.infinity) (hm : m < f.infinity) :
    ∃ k < g.infinity, g.units k = f.units m * 2 ^ n := by
  obtain ⟨p, q, hsplit, hq, hp⟩ := f.exists_eq_add m
  obtain ⟨k, hk⟩ := exists_units_eq (f := g) (q := q) (p + n) (by omega)
  have hunits : g.units k = f.units m * 2 ^ n := by
    rw [hk, hsplit, units_add hq.le hp, Nat.pow_add, Nat.mul_assoc]
  refine ⟨k, g.units_strictMono.lt_iff_lt.mp ?_, hunits⟩
  calc g.units k = f.units m * 2 ^ n := hunits
    _ < f.units f.infinity * 2 ^ n :=
      Nat.mul_lt_mul_of_pos_right (f.units_strictMono hm) (Nat.two_pow_pos n)
    _ ≤ g.units g.infinity := hfits

/-- How often the unit of the double format is halved to make that of the single format
again. -/
def gap : Nat := double.unitExponent - single.unitExponent

theorem units_infinity_le :
    single.units single.infinity * 2 ^ gap ≤ double.units double.infinity := by
  rw [units_infinity (by decide), units_infinity (by decide), ← Nat.pow_add]
  exact Nat.pow_le_pow_right Nat.two_pos (by decide)

end Format

namespace Binary

variable {f : Format}

/-- What a pattern stands for.  Zero has a sign, and the payload of a NaN stands for nothing. -/
inductive Datum where
  | nan
  | infinite (negative : Bool)
  | finite (negative : Bool) (magnitude : ℚ)

def datum (x : Binary f) : Datum :=
  if x.isNaN then .nan
  else if x.isInfinite then .infinite x.isNegative
  else .finite x.isNegative x.toRat

theorem isInfinite_iff {x : Binary f} : x.isInfinite = true ↔ x.magnitude = f.infinity :=
  beq_iff_eq

theorem not_isNaN_of_le {x : Binary f} (h : x.magnitude ≤ f.infinity) : ¬ x.isNaN = true :=
  fun hx => (isNaN_iff.mp hx).not_ge h

theorem not_isInfinite_of_lt {x : Binary f} (h : x.magnitude < f.infinity) :
    ¬ x.isInfinite = true :=
  fun hx => h.ne (isInfinite_iff.mp hx)

theorem datum_of_lt {x : Binary f} (h : x.magnitude < f.infinity) :
    x.datum = .finite x.isNegative x.toRat := by
  rw [datum, if_neg (not_isNaN_of_le h.le), if_neg (not_isInfinite_of_lt h)]

theorem datum_infinite (negative : Bool) :
    (infinite negative : Binary f).datum = .infinite negative := by
  have hmagnitude : (infinite negative : Binary f).magnitude = f.infinity :=
    magnitude_signed (infinity_lt_signWeight f)
  rw [datum, if_neg (not_isNaN_of_le hmagnitude.le), if_pos (isInfinite_iff.mpr hmagnitude)]
  exact congrArg _ (isNegative_signed (infinity_lt_signWeight f))

/-- The same sign and the same number, counted in smaller units. -/
theorem toDouble_of_lt {x : Single} (h : x.magnitude < Format.single.infinity) :
    x.toDouble.magnitude < Format.double.infinity ∧ x.toDouble.isNegative = x.isNegative ∧
      x.toDouble.units = x.units * 2 ^ Format.gap := by
  obtain ⟨k, hk, hunits⟩ := Format.exists_wide (by decide) Format.units_infinity_le h
  have hlt := hk.trans (infinity_lt_signWeight .double)
  have hround : roundUnits .double (x.units * 2 ^ Format.gap) 1 = k := by
    have hself := Format.roundUnits_units (f := .double) (by decide) hk.le
    rwa [hunits] at hself
  have hdouble : x.toDouble = signed x.isNegative k := by
    rw [toDouble, if_neg (not_isNaN_of_le h.le), if_neg (not_isInfinite_of_lt h), Nat.pow_eq,
      ← Format.gap, hround]
  have hmagnitude : x.toDouble.magnitude = k := by rw [hdouble, magnitude_signed hlt]
  refine ⟨hmagnitude ▸ hk, by rw [hdouble, isNegative_signed hlt], ?_⟩
  exact (congrArg Format.double.units hmagnitude).trans hunits

theorem toRat_toDouble {x : Single} (h : x.magnitude < Format.single.infinity) :
    x.toDouble.toRat = x.toRat := by
  have hpow : (2 : ℚ) ^ Format.double.unitExponent =
      2 ^ Format.single.unitExponent * 2 ^ Format.gap := by
    rw [← pow_add]
    rfl
  rw [toRat, toRat, (toDouble_of_lt h).2.2, hpow, Nat.cast_mul, Nat.cast_pow, Nat.cast_ofNat,
    mul_div_mul_right _ _ (pow_ne_zero _ two_ne_zero)]

/-- Widening changes the pattern but not what it stands for. -/
theorem datum_toDouble (x : Single) : x.toDouble.datum = x.datum := by
  rcases Nat.lt_trichotomy x.magnitude Format.single.infinity with hlt | heq | hgt
  · obtain ⟨hfinite, hsign, _⟩ := toDouble_of_lt hlt
    rw [datum_of_lt hlt, datum_of_lt hfinite, hsign, toRat_toDouble hlt]
  · have hnan := not_isNaN_of_le heq.le
    have hinfinite := isInfinite_iff.mpr heq
    rw [toDouble, if_neg hnan, if_pos hinfinite, datum_infinite, datum, if_neg hnan,
      if_pos hinfinite]
  · have hnan := isNaN_iff.mpr hgt
    rw [datum, datum, if_pos hnan, if_pos (isNaN_toDouble hnan)]

end Binary
end Rollup
