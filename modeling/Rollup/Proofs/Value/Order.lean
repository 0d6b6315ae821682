import Mathlib.Logic.Function.Basic
import Rollup.Proofs.Value.Held

/-
The order of the values of one declared type.

The values of a type are an image of a linearly ordered set, and `Value.compare?` compares
the preimages (`ColumnType.exists_order`).  Everything that extremes and group keys need of
the order follows from that alone.
-/

namespace Rollup

/-! ## Orders of the carriers -/

theorem lawfulEqCmp_compareOn {α β : Type} [Ord β] [Std.LawfulEqOrd β] {f : α → β}
    (hf : Function.Injective f) : Std.LawfulEqCmp (compareOn f) where
  compare_self := Std.ReflOrd.compare_self
  eq_of_compare h := hf (Std.LawfulEqOrd.eq_of_compare h)

theorem Signed.toInt_injective (bits : Nat) :
    Function.Injective (Signed.toInt : Signed bits → Int) :=
  fun _ _ => Signed.ext

namespace Binary

theorem signWeight_pos (f : Format) : 0 < f.signWeight := Nat.pow_pos (by decide)

theorem word_lt (x : Binary f) : x.word < 2 * f.signWeight := by
  have h := x.bits.isLt
  have hw : 2 ^ f.width = 2 * f.signWeight := by
    show 2 ^ (f.exponentBits + f.fractionBits + 1) = 2 * 2 ^ (f.exponentBits + f.fractionBits)
    rw [Nat.pow_succ, Nat.mul_comm]
  exact hw ▸ h

/-- The total order separates any two patterns. -/
theorem rank_injective (f : Format) : Function.Injective (rank : Binary f → Int) := by
  intro x y h
  have hx := word_lt x
  have hy := word_lt y
  have hword : x.word = y.word := by
    unfold rank isNegative magnitude at h
    have hp := signWeight_pos f
    have mod (n : Nat) (hn : n < 2 * f.signWeight) :
        n % f.signWeight = if f.signWeight ≤ n then n - f.signWeight else n := by
      split
      · rw [Nat.mod_eq_sub_mod (by assumption), Nat.mod_eq_of_lt (by omega)]
      · exact Nat.mod_eq_of_lt (by omega)
    rw [mod x.word hx, mod y.word hy] at h
    by_cases hxn : f.signWeight ≤ x.word <;> by_cases hyn : f.signWeight ≤ y.word <;>
      simp only [hxn, hyn, decide_true, decide_false, if_true, if_false,
        Bool.false_eq_true] at h <;>
      omega
  cases x
  cases y
  exact congrArg Binary.mk (BitVec.eq_of_toNat_eq hword)

instance (f : Format) : Std.TransCmp (compare : Binary f → Binary f → Ordering) :=
  inferInstanceAs (Std.TransCmp (compareOn rank))

end Binary

instance : Std.TransCmp Date.compare := inferInstanceAs (Std.TransCmp (compareOn Date.day))

theorem Date.day_injective : Function.Injective Date.day := by
  rintro ⟨a, _, _⟩ ⟨b, _, _⟩ rfl
  rfl

namespace Timestamp

instance : Std.TransCmp compare :=
  inferInstanceAs (Std.TransCmp (compareLex (compareOn fun t : Timestamp => t.date.day)
    (compareLex (compareOn Timestamp.second) (compareOn Timestamp.nanos))))

instance : Std.LawfulEqCmp compare where
  eq_of_compare {a b} h := by
    obtain ⟨hd, hrest⟩ := Ordering.then_eq_eq.mp h
    obtain ⟨hs, hn⟩ := Ordering.then_eq_eq.mp hrest
    have hdate : a.date = b.date := Date.day_injective (Std.LawfulEqOrd.eq_of_compare hd)
    have hsecond : a.second = b.second := Std.LawfulEqOrd.eq_of_compare hs
    have hnanos : a.nanos = b.nanos := Std.LawfulEqOrd.eq_of_compare hn
    cases a
    cases b
    simp_all

end Timestamp

namespace ColumnType

/-! ## The order of one type -/

/-- The values of a type are the values of a carrier with a lawful comparison, which is the
one that `Value.compare?` answers with. -/
theorem exists_order (type : ColumnType) :
    ∃ (α : Type) (cmp : α → α → Ordering) (f : α → Value), Std.TransCmp cmp ∧
      Std.LawfulEqCmp cmp ∧ (∀ v, type.Holds v → ∃ x, f x = v) ∧
      ∀ x y, (f x).compare? (f y) = some (cmp x y) := by
  cases type with
  | integer width =>
    refine ⟨Signed 64, compareOn Signed.toInt, .integer, inferInstance,
      lawfulEqCmp_compareOn (Signed.toInt_injective 64), ?_, fun _ _ => rfl⟩
    rintro _ ⟨_⟩
    exact ⟨_, rfl⟩
  | decimal p s =>
    refine ⟨Signed 128, compareOn Signed.toInt, fun v => .decimal ⟨v, p, s⟩, inferInstance,
      lawfulEqCmp_compareOn (Signed.toInt_injective 128), ?_, fun x y => ?_⟩
    · rintro _ ⟨_⟩
      exact ⟨_, rfl⟩
    · simp only [Value.compare?, Decimal.compare, Int.max_self, Decimal.rescale_self]
      rfl
  | float =>
    refine ⟨Single, Binary.compare, .float, inferInstance,
      lawfulEqCmp_compareOn (Binary.rank_injective .single), ?_, fun _ _ => rfl⟩
    rintro _ ⟨_⟩
    exact ⟨_, rfl⟩
  | double =>
    refine ⟨Double, Binary.compare, .double, inferInstance,
      lawfulEqCmp_compareOn (Binary.rank_injective .double), ?_, fun _ _ => rfl⟩
    rintro _ ⟨_⟩
    exact ⟨_, rfl⟩
  | string =>
    refine ⟨String, Ord.compare, .string, inferInstance, inferInstance, ?_, fun _ _ => rfl⟩
    rintro _ ⟨_⟩
    exact ⟨_, rfl⟩
  | boolean =>
    refine ⟨Bool, Ord.compare, .boolean, inferInstance, inferInstance, ?_, fun _ _ => rfl⟩
    rintro _ ⟨_⟩
    exact ⟨_, rfl⟩
  | timestamp p =>
    refine ⟨Timestamp, Timestamp.compare, .timestamp, inferInstance, inferInstance, ?_,
      fun _ _ => rfl⟩
    rintro _ ⟨_⟩
    exact ⟨_, rfl⟩
  | date =>
    refine ⟨Date, Date.compare, .date, inferInstance, lawfulEqCmp_compareOn Date.day_injective,
      ?_, fun _ _ => rfl⟩
    rintro _ ⟨_⟩
    exact ⟨_, rfl⟩
  | binary =>
    refine ⟨List UInt8, List.compareLex Ord.compare, .binary, inferInstance, inferInstance, ?_,
      fun _ _ => rfl⟩
    rintro _ ⟨_⟩
    exact ⟨_, rfl⟩
  | _ =>
    -- Nothing belongs to a complex type, so any carrier will do.
    refine ⟨Bool, Ord.compare, .boolean, inferInstance, inferInstance, ?_, fun _ _ => rfl⟩
    rintro _ ⟨⟩

end ColumnType

/-- Whether a value stands at or before another one of its family. -/
def Value.AtMost (a b : Value) : Prop := ∃ o, a.compare? b = some o ∧ o.isLE = true

namespace ColumnType.Holds

variable {type : ColumnType} {a b c : Value}

theorem atMost_refl (ha : type.Holds a) : a.AtMost a := by
  obtain ⟨α, cmp, f, htrans, hlawful, hf, hcmp⟩ := type.exists_order
  obtain ⟨x, rfl⟩ := hf a ha
  exact ⟨_, hcmp x x, Std.ReflCmp.isLE_rfl⟩

theorem atMost_trans (ha : type.Holds a) (hb : type.Holds b) (hc : type.Holds c)
    (hab : a.AtMost b) (hbc : b.AtMost c) : a.AtMost c := by
  obtain ⟨α, cmp, f, htrans, hlawful, hf, hcmp⟩ := type.exists_order
  obtain ⟨x, rfl⟩ := hf a ha
  obtain ⟨y, rfl⟩ := hf b hb
  obtain ⟨z, rfl⟩ := hf c hc
  obtain ⟨o, ho, hle⟩ := hab
  obtain ⟨o', ho', hle'⟩ := hbc
  rw [hcmp] at ho ho'
  cases ho
  cases ho'
  exact ⟨_, hcmp x z, Std.TransCmp.isLE_trans hle hle'⟩

theorem atMost_antisymm (ha : type.Holds a) (hb : type.Holds b) (hab : a.AtMost b)
    (hba : b.AtMost a) : a = b := by
  obtain ⟨α, cmp, f, htrans, hlawful, hf, hcmp⟩ := type.exists_order
  obtain ⟨x, rfl⟩ := hf a ha
  obtain ⟨y, rfl⟩ := hf b hb
  obtain ⟨o, ho, hle⟩ := hab
  obtain ⟨o', ho', hle'⟩ := hba
  rw [hcmp] at ho ho'
  cases ho
  cases ho'
  have heq : cmp x y = .eq := Std.OrientedCmp.isLE_antisymm hle hle'
  exact congrArg f (Std.LawfulEqCmp.eq_of_compare heq)

/-- The answer to a comparison says which of two values of one type comes first. -/
theorem compare_cases (ha : type.Holds a) (hb : type.Holds b) :
    ∃ o, a.compare? b = some o ∧ (o ≠ .gt → a.AtMost b) ∧ (o ≠ .lt → b.AtMost a) := by
  obtain ⟨α, cmp, f, htrans, hlawful, hf, hcmp⟩ := type.exists_order
  obtain ⟨x, rfl⟩ := hf a ha
  obtain ⟨y, rfl⟩ := hf b hb
  refine ⟨_, hcmp x y, fun h => ⟨_, hcmp x y, Ordering.isLE_iff_ne_gt.mpr h⟩, fun h => ?_⟩
  refine ⟨_, hcmp y x, Ordering.isLE_iff_ne_gt.mpr fun hgt => h ?_⟩
  exact Std.OrientedCmp.gt_iff_lt.mp hgt

end ColumnType.Holds

end Rollup
