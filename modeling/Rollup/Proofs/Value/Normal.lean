import Rollup.Proofs.Binary.Datum
import Rollup.Proofs.Column.Accepted

/-
What normalizing keeps.

A value stands for the same before and after (`Meaning.Same`): a decimal only gets zeros at its
end, and a single that becomes a double keeps its sign and its number.  Every value is
normalized twice, when its row is checked and when it is taken in, and the second pass changes
nothing.  The zeros are appended one by one, but whether there is room is decided by the last
unscaled value alone (`exists_normalize_decimal_iff`).
-/

namespace Rollup

/-- The same but for the width of floats: a double may stand where there was a single, with
another pattern that stands for the same number, infinity or NaN. -/
inductive Meaning.Same : Meaning → Meaning → Prop where
  | refl (m : Meaning) : Same m m
  | widened {x : Single} {y : Double} (h : y.datum = x.datum) : Same (.double y) (.float x)

theorem Meaning.Same.of_eq {m n : Meaning} (h : m = n) : m.Same n := h ▸ .refl m

namespace ColumnType

theorem same_of_normalize {type : ColumnType} {v w : Value} (h : type.normalize v = .ok w) :
    w.meaning.Same v.meaning := by
  unfold normalize at h
  split at h
  case h_1 width i =>
    split at h
    · cases h
      exact .refl _
    · exact nomatch h
  case h_2 p s d =>
    split at h
    · rename_i u hu
      cases h
      exact .of_eq (congrArg Meaning.rational (Decimal.toRat_of_rescale hu))
    · exact nomatch h
  case h_5 x =>
    cases h
    exact .widened (Binary.datum_toDouble x)
  all_goals cases h
  all_goals exact .refl _

theorem exists_normalize_decimal_iff {p : Nat} {s : Int} {d : Decimal} :
    (∃ w, (decimal p s).normalize (.decimal d) = .ok w) ↔
      d.scale ≤ s ∧ Decimal.Fits (d.unscaled.toInt * 10 ^ (s - d.scale).toNat) := by
  rw [← Decimal.exists_rescale_iff]
  simp only [normalize]
  cases Decimal.rescale d.unscaled d.scale s with
  | ok u => exact iff_of_true ⟨_, rfl⟩ ⟨u, rfl⟩
  | error e =>
    constructor
    · rintro ⟨_, ⟨⟩⟩
    · rintro ⟨_, ⟨⟩⟩

/-- Normalizing is exact and a second pass changes nothing.  A decimal is taken exactly if its
scale is no larger than that of the type and it fits with the zeros appended, so that no step
on the way fails unless the last one does, and a change of scale can be made in two steps. -/
theorem normalize_exact :
    (∀ (type : ColumnType) (v w : Value), type.normalize v = .ok w →
      type.normalize w = .ok w ∧ w.meaning.Same v.meaning) ∧
    (∀ (p : Nat) (s : Int) (d : Decimal),
      (∃ w, (decimal p s).normalize (.decimal d) = .ok w) ↔
        d.scale ≤ s ∧ Decimal.Fits (d.unscaled.toInt * 10 ^ (s - d.scale).toNat)) ∧
    ∀ (v : Signed 128) (source middle target : Int), source ≤ middle → middle ≤ target →
      ((Decimal.rescale v source middle).bind fun w => Decimal.rescale w middle target) =
        Decimal.rescale v source target :=
  ⟨fun _ _ _ h => ⟨(Holds.of_normalize h).normalize_eq, same_of_normalize h⟩,
    fun _ _ _ => exists_normalize_decimal_iff,
    fun _ _ _ _ => Decimal.rescale_rescale⟩

/-- 1.11 takes three zeros.  There is no room for 38 of them after a 2, and it does not help to
append half of them first. -/
theorem normalize_exact_zeros :
    (decimal 10 5).normalize (.decimal ⟨.wrap 111000, 10, 5⟩) =
      .ok (.decimal ⟨.wrap 111000, 10, 5⟩) ∧
    (Value.decimal ⟨.wrap 111000, 10, 5⟩).meaning.Same (Value.decimal ⟨.wrap 111, 3, 2⟩).meaning ∧
    (¬ ∃ w, (decimal 38 38).normalize (.decimal ⟨.wrap 2, 1, 0⟩) = .ok w) ∧
    ((Decimal.rescale (.wrap 2) 0 19).bind fun w => Decimal.rescale w 19 38) =
      .error .overflow := by
  obtain ⟨hkept, hroom, hsteps⟩ := normalize_exact
  obtain ⟨hagain, hsame⟩ := hkept (.decimal 10 5) (.decimal ⟨.wrap 111, 3, 2⟩) _ rfl
  refine ⟨hagain, hsame, fun h => ?_, ?_⟩
  · have hfits := ((hroom _ _ _).mp h).2
    exact absurd hfits (by unfold Decimal.Fits; decide)
  · rw [hsteps _ 0 19 38 (by decide) (by decide)]
    rfl

end ColumnType
end Rollup
