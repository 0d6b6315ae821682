import Rollup.Proofs.Value.Order
import Rollup.Proofs.Value.Rational

/-
Equality of values, and what an index may look at.

Two values are equal exactly if their contents are the same, for values of any families and
decimals of any scales.  So equality is an equivalence, and a hash of the content never
tells equal values apart.
-/

namespace Rollup

/-! ## Binary numbers -/

namespace Binary

variable {f : Format}

theorem isZero_iff {x : Binary f} : x.isZero = true ↔ x.magnitude = 0 := beq_iff_eq

theorem isNaN_iff {x : Binary f} : x.isNaN = true ↔ f.infinity < x.magnitude := decide_eq_true_iff

theorem canonical_of_isZero {x : Binary f} (h : x.isZero = true) : x.canonical = zero := by
  rw [canonical, if_pos h]

theorem canonical_of_isNaN {x : Binary f} (h : x.isNaN = true) : x.canonical = nan false := by
  have hzero : ¬ x.isZero = true := by
    rw [isZero_iff]
    have := isNaN_iff.mp h
    omega
  rw [canonical, if_neg hzero, if_pos h]

theorem magnitude_lt (x : Binary f) : x.magnitude < f.signWeight :=
  Nat.mod_lt _ (signWeight_pos f)

theorem word_signed {negative : Bool} {m : Nat} (h : m < f.signWeight) :
    (signed negative m : Binary f).word = if negative then f.signWeight + m else m := by
  have hwidth : 2 ^ f.width = 2 * f.signWeight := by
    rw [Format.width, Nat.pow_succ, Nat.mul_comm]
    rfl
  rw [signed, ofWord, word, BitVec.toNat_ofNat, hwidth]
  exact Nat.mod_eq_of_lt (by split <;> omega)

theorem magnitude_signed {negative : Bool} {m : Nat} (h : m < f.signWeight) :
    (signed negative m : Binary f).magnitude = m := by
  rw [magnitude, word_signed h]
  split
  · rw [Nat.add_mod_left, Nat.mod_eq_of_lt h]
  · exact Nat.mod_eq_of_lt h

theorem isNegative_signed {negative : Bool} {m : Nat} (h : m < f.signWeight) :
    (signed negative m : Binary f).isNegative = negative := by
  rw [isNegative, word_signed h]
  cases negative with
  | false => exact decide_eq_false (Nat.not_le_of_lt h)
  | true => exact decide_eq_true (Nat.le_add_right f.signWeight m)

/-! ## Widening -/

theorem hidden_double : Format.double.hidden = 4503599627370496 := rfl

theorem infinity_double : Format.double.infinity = 9218868437227405312 := rfl

theorem signWeight_double : Format.double.signWeight = 9223372036854775808 := rfl

theorem isNaN_quiet {x : Double} (h : x.isNaN = true) : x.quiet.isNaN = true := by
  have hlt := x.magnitude_lt
  rw [isNaN_iff, infinity_double] at h
  rw [signWeight_double] at hlt
  rw [quiet, isNaN_iff, infinity_double, hidden_double]
  split
  · rename_i hbit
    rw [magnitude_signed (by rw [signWeight_double]; omega)]
    omega
  · exact h

/-- A NaN stays one when it is widened: its payload moves up and is not lost. -/
theorem isNaN_toDouble {x : Single} (h : x.isNaN = true) : x.toDouble.isNaN = true := by
  have hlt := x.magnitude_lt
  rw [toDouble, if_pos h]
  rw [isNaN_iff, show Format.single.infinity = 2139095040 from rfl] at h
  rw [show Format.single.signWeight = 2147483648 from rfl] at hlt
  refine isNaN_quiet (isNaN_iff.mpr ?_)
  rw [show Format.single.hidden = 8388608 from rfl,
    show Nat.pow 2 (Format.double.fractionBits - Format.single.fractionBits) = 536870912 from rfl,
    magnitude_signed (by rw [signWeight_double, infinity_double]; omega)]
  omega

theorem isZero_toDouble {x : Single} (h : x.isZero = true) : x.toDouble.isZero = true := by
  have hm : x.magnitude = 0 := isZero_iff.mp h
  have hnan : ¬ x.isNaN = true := by rw [isNaN_iff, hm]; exact Nat.not_lt_zero _
  have hinfinite : ¬ x.isInfinite = true := by
    rw [isInfinite, hm]
    decide
  have hunits : x.units = 0 := by
    rw [units, significand, hm, if_pos (by decide), Nat.zero_mul]
  rw [toDouble, if_neg hnan, if_neg hinfinite, hunits, Nat.zero_mul, isZero_iff]
  exact magnitude_signed (signWeight_pos .double)

end Binary

namespace Value

/-! ## Contents -/

theorem compare_beq_eq_iff {ι : Type} {cmp : ι → ι → Ordering} [Std.LawfulEqCmp cmp] {a b : ι} :
    (some (cmp a b) == some .eq) = true ↔ a = b := by
  rw [beq_iff_eq, Option.some.injEq]
  exact Std.LawfulEqCmp.compare_eq_iff_eq

theorem equal_eq_true_iff (a b : Value) : a.equal b = true ↔ a.content = b.content := by
  cases a <;> cases b
  case boolean.boolean a b =>
    rw [content, content, Content.boolean.injEq]
    exact compare_beq_eq_iff
  case integer.integer a b =>
    rw [content, content, Content.integer.injEq]
    exact compare_beq_eq_iff
  case float.float a b =>
    rw [content, content, Content.float.injEq]
    exact beq_iff_eq
  case double.double a b =>
    rw [content, content, Content.double.injEq]
    exact beq_iff_eq
  case string.string a b =>
    rw [content, content, Content.string.injEq]
    exact compare_beq_eq_iff
  case binary.binary a b =>
    rw [content, content, Content.binary.injEq]
    exact compare_beq_eq_iff
  case decimal.decimal a b =>
    have hcompare : (decimal a).equal (decimal b) = true ↔ a.compare b = .eq := by
      show (some (a.compare b) == some .eq) = true ↔ _
      rw [beq_iff_eq, Option.some.injEq]
    rw [hcompare, Decimal.compare_eq_eq_iff, ← Decimal.canonical_eq_iff, content, content,
      Content.decimal.injEq, Prod.ext_iff]
  case date.date a b =>
    have := lawfulEqCmp_compareOn Date.day_injective
    rw [content, content, Content.date.injEq]
    exact @compare_beq_eq_iff _ (compareOn Date.day) _ _ _
  case timestamp.timestamp a b =>
    rw [content, content, Content.timestamp.injEq]
    exact compare_beq_eq_iff
  all_goals exact iff_of_false nofun nofun

/-! ## The relation -/

theorem equal_refl (a : Value) : a.equal a = true := (equal_eq_true_iff a a).mpr rfl

theorem equal_comm (a b : Value) : a.equal b = b.equal a := by
  rw [Bool.eq_iff_iff, equal_eq_true_iff, equal_eq_true_iff, eq_comm]

theorem equal_trans {a b c : Value} (hab : a.equal b = true) (hbc : b.equal c = true) :
    a.equal c = true := by
  rw [equal_eq_true_iff] at hab hbc ⊢
  exact hab.trans hbc

/-- Equality is the equivalence of having the same content, whatever the families of the
two values.  NaNs of one format are all equal, and so are its zeros; decimals are equal
exactly if they denote one number, at any scales and where aligning them leaves 128 bits. -/
theorem equal_agrees_with_content :
    Equivalence (fun a b : Value => a.equal b = true) ∧
    (∀ a b : Value, a.equal b = true ↔ a.content = b.content) ∧
    (∀ x y : Single, (x.isNaN && y.isNaN || x.isZero && y.isZero) = true →
      (float x).equal (float y) = true) ∧
    (∀ x y : Double, (x.isNaN && y.isNaN || x.isZero && y.isZero) = true →
      (double x).equal (double y) = true) ∧
    ∀ d e : Decimal, (decimal d).equal (decimal e) = true ↔ d.toRat = e.toRat := by
  have hdouble (x y : Double) (h : (x.isNaN && y.isNaN || x.isZero && y.isZero) = true) :
      x.canonical = y.canonical := by
    rw [Bool.or_eq_true, Bool.and_eq_true, Bool.and_eq_true] at h
    rcases h with ⟨hx, hy⟩ | ⟨hx, hy⟩
    · rw [Binary.canonical_of_isNaN hx, Binary.canonical_of_isNaN hy]
    · rw [Binary.canonical_of_isZero hx, Binary.canonical_of_isZero hy]
  refine ⟨⟨equal_refl, fun h => equal_comm _ _ ▸ h, equal_trans⟩, equal_eq_true_iff,
    fun x y h => ?_, fun x y h => ?_, fun d e => ?_⟩
  · rw [equal_eq_true_iff, content, content, hdouble x.toDouble y.toDouble]
    rw [Bool.or_eq_true, Bool.and_eq_true, Bool.and_eq_true] at h ⊢
    exact h.imp (.imp Binary.isNaN_toDouble Binary.isNaN_toDouble)
      (.imp Binary.isZero_toDouble Binary.isZero_toDouble)
  · rw [equal_eq_true_iff, content, content, hdouble x y h]
  · rw [equal_eq_true_iff, content, content, Content.decimal.injEq, ← Prod.ext_iff,
      Decimal.canonical_eq_iff]

end Value

/-! ## Cells -/

theorem Cell.equal_eq_true_iff (a b : Cell) :
    Cell.equal a b = true ↔ a.map Value.content = b.map Value.content := by
  cases a with
  | none => cases b <;> simp [Cell.equal]
  | some v =>
    cases b with
    | none => simp [Cell.equal]
    | some w => simpa [Cell.equal] using v.equal_eq_true_iff w

end Rollup
