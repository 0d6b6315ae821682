import Rollup.Proofs.Value.Order
import Rollup.Proofs.Value.Rational

/-
The order of all values of one family.

A family is the image of one carrier, whatever types its values are declared with, and the
values of a family are compared as the carrier is (`Value.exists_family`).  So a comparison
gives no answer across families only, and within a family it is a total order of what the
values denote.  For decimals of any scales that is the order of the rational numbers.
-/

namespace Rollup

namespace Decimal

theorem div_zpow_lt_div_zpow {v w : Int} (h : v < w) (s : Int) :
    (v : ℚ) / (10 : ℚ) ^ s < (w : ℚ) / (10 : ℚ) ^ s := by
  have hpos : (0 : ℚ) < 10 ^ s := zpow_pos (by decide) s
  exact div_lt_div_of_pos_right (Int.cast_lt.mpr h) hpos

/-- Decimals are ordered as the numbers that they denote. -/
theorem compare_eq_compare_toRat (a b : Decimal) :
    a.compare b = Ord.compare a.toRat b.toRat := by
  rw [compare_eq_compare_aligned, toRat_eq_aligned (Int.le_max_left a.scale b.scale),
    toRat_eq_aligned (Int.le_max_right a.scale b.scale)]
  generalize a.aligned (max a.scale b.scale) = x
  generalize b.aligned (max a.scale b.scale) = y
  rcases Int.lt_trichotomy x y with h | h | h
  · rw [Int.compare_eq_lt.mpr h]
    exact (compare_lt_iff_lt.mpr (div_zpow_lt_div_zpow h _)).symm
  · rw [h, Int.compare_eq_eq.mpr rfl]
    exact (compare_eq_iff_eq.mpr rfl).symm
  · rw [Int.compare_eq_gt.mpr h]
    exact (compare_gt_iff_gt.mpr (div_zpow_lt_div_zpow h _)).symm

/-- Of three scales, two may be too far apart to be aligned and the others not.  The numbers
that the decimals denote do not show it. -/
instance : Std.TransCmp Decimal.compare := by
  have hcompare : Decimal.compare = compareOn Decimal.toRat := by
    funext a b
    exact compare_eq_compare_toRat a b
  rw [hcompare]
  infer_instance

end Decimal

namespace Value

/-- The values of a family are those of a carrier, and are compared as they are there. -/
theorem exists_family (a : Value) :
    ∃ (α : Type) (cmp : α → α → Ordering) (f : α → Value), Std.TransCmp cmp ∧
      (∀ b : Value, b.ctorIdx = a.ctorIdx → ∃ x, f x = b) ∧
      ∀ x y, (f x).compare? (f y) = some (cmp x y) := by
  cases a
  case' boolean => refine ⟨Bool, Ord.compare, .boolean, inferInstance, ?_, fun _ _ => rfl⟩
  case' integer =>
    refine ⟨Signed 64, compareOn Signed.toInt, .integer, inferInstance, ?_, fun _ _ => rfl⟩
  case' float => refine ⟨Single, Binary.compare, .float, inferInstance, ?_, fun _ _ => rfl⟩
  case' double => refine ⟨Double, Binary.compare, .double, inferInstance, ?_, fun _ _ => rfl⟩
  case' string => refine ⟨String, Ord.compare, .string, inferInstance, ?_, fun _ _ => rfl⟩
  case' binary =>
    refine ⟨List UInt8, List.compareLex Ord.compare, .binary, inferInstance, ?_, fun _ _ => rfl⟩
  case' decimal =>
    refine ⟨Decimal, Decimal.compare, .decimal, inferInstance, ?_, fun _ _ => rfl⟩
  case' date => refine ⟨Date, Date.compare, .date, inferInstance, ?_, fun _ _ => rfl⟩
  case' timestamp =>
    refine ⟨Timestamp, Timestamp.compare, .timestamp, inferInstance, ?_, fun _ _ => rfl⟩
  all_goals
    intro b hb
    cases b <;> first | exact ⟨_, rfl⟩ | exact nomatch hb

theorem exists_compare?_of_ctorIdx_eq {a b : Value} (h : a.ctorIdx = b.ctorIdx) :
    ∃ (α : Type) (cmp : α → α → Ordering) (x y : α), Std.TransCmp cmp ∧
      a.compare? b = some (cmp x y) ∧ b.compare? a = some (cmp y x) := by
  obtain ⟨α, cmp, f, htrans, hf, hcmp⟩ := a.exists_family
  obtain ⟨x, rfl⟩ := hf a rfl
  obtain ⟨y, rfl⟩ := hf b h.symm
  exact ⟨α, cmp, x, y, htrans, hcmp x y, hcmp y x⟩

theorem compare?_eq_none_iff (a b : Value) : a.compare? b = none ↔ a.ctorIdx ≠ b.ctorIdx := by
  by_cases h : a.ctorIdx = b.ctorIdx
  · obtain ⟨α, cmp, x, y, _, hab, _⟩ := exists_compare?_of_ctorIdx_eq h
    simp [hab, h]
  · have hnone : a.compare? b = none := by
      cases a <;> cases b <;> first | rfl | exact absurd rfl h
    simp [h, hnone]

theorem compare?_swap (a b : Value) : b.compare? a = (a.compare? b).map Ordering.swap := by
  by_cases h : a.ctorIdx = b.ctorIdx
  · obtain ⟨α, cmp, x, y, _, hab, hba⟩ := exists_compare?_of_ctorIdx_eq h
    rw [hab, hba, Option.map_some]
    exact congrArg some Std.OrientedCmp.eq_swap
  · rw [(compare?_eq_none_iff a b).mpr h, (compare?_eq_none_iff b a).mpr (Ne.symm h)]
    rfl

theorem ctorIdx_eq_of_compare? {a b : Value} {o : Ordering} (h : a.compare? b = some o) :
    a.ctorIdx = b.ctorIdx := by
  by_contra hne
  rw [(compare?_eq_none_iff a b).mpr hne] at h
  exact nomatch h

/-- Three values of one family are compared as three elements of its carrier. -/
theorem exists_family_of_compare? {a b c : Value} {o o' : Ordering} (hab : a.compare? b = some o)
    (hbc : b.compare? c = some o') :
    ∃ (α : Type) (cmp : α → α → Ordering) (x y z : α), Std.TransCmp cmp ∧
      cmp x y = o ∧ cmp y z = o' ∧ a.compare? c = some (cmp x z) := by
  have hb := ctorIdx_eq_of_compare? hab
  have hc := ctorIdx_eq_of_compare? hbc
  obtain ⟨α, cmp, f, htrans, hf, hcmp⟩ := a.exists_family
  obtain ⟨x, rfl⟩ := hf a rfl
  obtain ⟨y, rfl⟩ := hf b hb.symm
  obtain ⟨z, rfl⟩ := hf c (hb.trans hc).symm
  rw [hcmp, Option.some.injEq] at hab hbc
  exact ⟨α, cmp, x, y, z, htrans, hab, hbc, hcmp x z⟩

theorem AtMost.trans {a b c : Value} (hab : a.AtMost b) (hbc : b.AtMost c) : a.AtMost c := by
  obtain ⟨o, ho, hle⟩ := hab
  obtain ⟨o', ho', hle'⟩ := hbc
  obtain ⟨α, cmp, x, y, z, htrans, rfl, rfl, hxz⟩ := exists_family_of_compare? ho ho'
  exact ⟨_, hxz, Std.TransCmp.isLE_trans hle hle'⟩

/-- Less, equal and greater are each passed on. -/
theorem compare?_trans {a b c : Value} {o : Ordering} (hab : a.compare? b = some o)
    (hbc : b.compare? c = some o) : a.compare? c = some o := by
  obtain ⟨α, cmp, x, y, z, htrans, hxy, hyz, hxz⟩ := exists_family_of_compare? hab hbc
  rw [hxz]
  cases o with
  | lt => exact congrArg some (Std.TransCmp.lt_trans hxy hyz)
  | eq => exact congrArg some (Std.TransCmp.eq_trans hxy hyz)
  | gt => exact congrArg some (Std.TransCmp.gt_trans hxy hyz)

theorem atMost_total {a b : Value} (h : a.ctorIdx = b.ctorIdx) : a.AtMost b ∨ b.AtMost a := by
  cases ho : a.compare? b with
  | none => exact absurd h ((compare?_eq_none_iff a b).mp ho)
  | some o =>
    have hswap : b.compare? a = some o.swap := by rw [compare?_swap, ho, Option.map_some]
    cases o with
    | lt => exact .inl ⟨.lt, ho, rfl⟩
    | eq => exact .inl ⟨.eq, ho, rfl⟩
    | gt => exact .inr ⟨.lt, hswap, rfl⟩

/-- Comparison refuses two values exactly if they are of different families.  On each family
it is a total order: turning the two values around turns the answer around, and every
answer is passed on from pair to pair.  Decimals are ordered as the rational numbers that
they denote, at any scales and also where aligning the scales leaves 128 bits. -/
theorem compare?_total_order :
    (∀ a b : Value, a.compare? b = none ↔ a.ctorIdx ≠ b.ctorIdx) ∧
    (∀ a b : Value, b.compare? a = (a.compare? b).map Ordering.swap) ∧
    (∀ (a b c : Value) (o : Ordering), a.compare? b = some o → b.compare? c = some o →
      a.compare? c = some o) ∧
    (∀ a b c : Value, a.AtMost b → b.AtMost c → a.AtMost c) ∧
    (∀ a b : Value, a.ctorIdx = b.ctorIdx → a.AtMost b ∨ b.AtMost a) ∧
    ∀ d e : Decimal, (decimal d).compare? (decimal e) = some (Ord.compare d.toRat e.toRat) := by
  refine ⟨compare?_eq_none_iff, compare?_swap, ?_, ?_, ?_, ?_⟩
  · intro a b c o hab hbc
    exact compare?_trans hab hbc
  · intro a b c hab hbc
    exact hab.trans hbc
  · intro a b h
    exact atMost_total h
  · intro d e
    exact congrArg some (d.compare_eq_compare_toRat e)

end Value
end Rollup
