import Rollup.Proofs.Aggregate.Load

/-
What states retain of the values they took in.

A sum keeps no value, an extreme keeps one of those that it was offered.  So a property of
values (`P`, which may depend on their type) holds of the value that an extreme keeps if it
held of all that it was offered.  Every state reached has the form of its aggregate, so it
can be finished, and a decimal sum only finishes into a decimal of its result type.
-/

namespace Rollup
namespace Aggregate

variable {P : ColumnType → Value → Prop}

/-- The form of a state, with the property for the value that an extreme keeps. -/
inductive Retains (P : ColumnType → Value → Prop) : Aggregate → State → Prop where
  | integer (width : IntWidth) (sum : Option (Signed 64)) :
      Retains P (.sumInteger width) (.integer sum)
  | real {a : Aggregate} (isReal : a.isReal = true) (sum : Option Double) :
      Retains P a (.double sum)
  | decimal (p : Nat) (s : Int) (sum : Option (Signed 256)) :
      Retains P (.sumDecimal p s) (.decimal sum)
  | extreme {side : Extreme} {type : ColumnType} {value : Option Value}
      (holds : type.HoldsCell value) (kept : Cell.Satisfies (P type) value) :
      Retains P (.extreme side type) (.extreme value)

/-- An extreme is offered cells with the property, a sum any. -/
def Offered (P : ColumnType → Value → Prop) : Aggregate → Cell → Prop
  | .extreme _ type, c => c.Satisfies (P type)
  | _, _ => True

/-- An extreme expects values of its type, partial results or not. -/
theorem offered_of_satisfies {a : Aggregate} {ofPartials : Bool} {c : Cell}
    (h : c.Satisfies (P (a.expects ofPartials))) : Offered P a c := by
  cases a with
  | extreme side type => cases ofPartials <;> exact h
  | _ => trivial

theorem retains_start (P : ColumnType → Value → Prop) (a : Aggregate) : Retains P a a.start := by
  cases a with
  | sumInteger width => exact .integer width none
  | sumFloat | sumDouble | sumString => exact .real rfl none
  | sumDecimal p s => exact .decimal p s none
  | extreme side type =>
    exact .extreme (ColumnType.holdsCell_none type) (Cell.satisfies_none (P type))

namespace Retains

variable {a : Aggregate} {s t other : State}

/-! ## Taking values in -/

theorem addDecimal {p : Nat} {sc : Int} {sum : Option (Signed 256)} {v : Signed 256}
    (h : Aggregate.addDecimal sum v = .ok t) : Retains P (.sumDecimal p sc) t := by
  unfold Aggregate.addDecimal at h
  split at h
  · cases h
    exact .decimal p sc _
  · exact nomatch h

/-- The value that comes and the value that is held both have the property, so it does not
matter which of them stays. -/
theorem updateExtreme {side : Extreme} {type : ColumnType} {v : Value} {held : Option Value}
    (hholds : type.HoldsCell held) (hkept : Cell.Satisfies (P type) held)
    (hv : type.Holds v) (hP : P type v)
    (h : Aggregate.updateExtreme side type (.extreme held) v = .ok t) :
    Retains P (.extreme side type) t := by
  rw [Aggregate.updateExtreme, hv.normalize_eq] at h
  cases held with
  | none =>
    cases h
    exact .extreme (ColumnType.holdsCell_some hv) (Cell.satisfies_some.mpr hP)
  | some u =>
    simp only [keepExtreme] at h
    split at h
    · cases h
    · rename_i o _
      cases h
      by_cases ho : (o == Extreme.replaces side) = true
      · rw [if_pos ho]
        exact .extreme (ColumnType.holdsCell_some hv) (Cell.satisfies_some.mpr hP)
      · rw [if_neg ho]
        exact .extreme hholds hkept

theorem take {ofPartials : Bool} {c : Cell} (hs : Retains P a s)
    (hc : (a.expects ofPartials).HoldsCell c) (hP : Offered P a c)
    (h : a.take ofPartials s c = .ok t) : Retains P a t := by
  cases c with
  | none =>
    rw [take_none] at h
    cases h
    exact hs
  | some v =>
    have hv := hc v rfl
    cases hs with
    | integer width sum =>
      obtain ⟨i, rfl, htake⟩ := take_integer hv
      rw [htake] at h
      cases h
      exact .integer width _
    | real isReal sum =>
      rcases take_real isReal hv sum with ⟨w, _, htake⟩ | ⟨_, htake⟩
      · rw [htake] at h
        cases h
        exact .real isReal _
      · rw [htake] at h
        cases h
        exact .real isReal sum
    | decimal p sc sum =>
      obtain ⟨d, rfl, htake⟩ := take_decimal hv
      rw [htake] at h
      exact addDecimal h
    | @extreme side type held hholds hkept =>
      rw [expects_extreme] at hv
      rw [take_extreme] at h
      exact updateExtreme hholds hkept hv (hP v rfl) h

/-! ## Joining states -/

theorem merge (hs : Retains P a s) (ho : Retains P a other) (h : a.merge s other = .ok t) :
    Retains P a t := by
  cases hs with
  | integer width x =>
    cases ho with
    | real isReal => exact nomatch isReal
    | integer _ y =>
      cases h
      exact .integer width _
  | real isReal x =>
    cases a with
    | sumFloat | sumDouble | sumString =>
      cases ho with
      | real _ y =>
        cases h
        exact .real isReal _
    | _ => exact nomatch isReal
  | decimal p sc x =>
    cases ho with
    | real isReal => exact nomatch isReal
    | decimal _ _ y =>
      have hmerge : (Aggregate.sumDecimal p sc).merge (.decimal x) (.decimal y) =
          mergeSum (.sumDecimal p sc) (.decimal x) (.decimal y) := rfl
      rw [hmerge, mergeSum] at h
      split at h
      · cases h
        exact .decimal p sc _
      · cases h
  | @extreme side type held hholds hkept =>
    cases ho with
    | real isReal => exact nomatch isReal
    | @extreme _ _ value hvalue hP =>
      cases value with
      | none =>
        cases h
        exact .extreme hholds hkept
      | some v => exact updateExtreme hholds hkept (hvalue v rfl) (hP v rfl) h

end Retains

/-! ## Results -/

/-- A result of the right form: that of a sum is in the range of its type, and that of an
extreme has the property. -/
inductive Yields (P : ColumnType → Value → Prop) : Aggregate → Cell → Prop where
  | missing (a : Aggregate) : Yields P a none
  | integer (width : IntWidth) (i : Signed 64) : Yields P (.sumInteger width) (some (.integer i))
  | real {a : Aggregate} (isReal : a.isReal = true) (x : Double) :
      Yields P a (some (.double x))
  | decimal {p : Nat} {s : Int} {v : Signed 128}
      (fits : v.toInt.natAbs < 10 ^ min (p + 10) 38) :
      Yields P (.sumDecimal p s) (some (.decimal ⟨v, min (p + 10) 38, s⟩))
  | extreme {side : Extreme} {type : ColumnType} {v : Value} (holds : type.Holds v)
      (kept : P type v) : Yields P (.extreme side type) (some v)

/-- Whatever its values were, a state of the right form can be finished. -/
theorem Retains.finish {a : Aggregate} {s : State} (h : Retains P a s) :
    ∃ c, a.finish s = .ok c ∧ Yields P a c := by
  cases h with
  | integer width sum =>
    refine ⟨sum.map .integer, rfl, ?_⟩
    cases sum with
    | none => exact .missing _
    | some i => exact .integer width i
  | real isReal sum =>
    refine ⟨sum.map .double, ?_, ?_⟩
    · cases a with
      | sumFloat | sumDouble | sumString => rfl
      | _ => exact nomatch isReal
    · cases sum with
      | none => exact .missing a
      | some x => exact .real isReal x
  | decimal p sc sum =>
    cases sum with
    | none => exact ⟨none, rfl, .missing _⟩
    | some x =>
      refine ⟨_, rfl, ?_⟩
      by_cases hfits : x.toInt.natAbs < 10 ^ min (p + 10) 38
      · obtain ⟨v, hv, hvx⟩ := fitDecimal?_eq_some (s := sc) (Nat.min_le_right _ _) hfits
        rw [hv]
        exact .decimal (hvx ▸ hfits)
      · rw [fitDecimal?, tenPow_eq, if_neg hfits]
        exact .missing _
  | @extreme side type value holds kept =>
    refine ⟨value, rfl, ?_⟩
    cases value with
    | none => exact .missing _
    | some v => exact .extreme (holds v rfl) (kept v rfl)

theorem Yields.holdsCell {a : Aggregate} {c : Cell} (h : Yields P a c) :
    a.output.HoldsCell c := by
  cases h with
  | missing => exact ColumnType.holdsCell_none _
  | integer => exact ColumnType.holdsCell_some (.integer (IntWidth.holds_big _))
  | real isReal =>
    cases a with
    | sumFloat | sumDouble | sumString => exact ColumnType.holdsCell_some (.double _)
    | _ => exact nomatch isReal
  | decimal => exact ColumnType.holdsCell_some (.decimal _ _ _)
  | extreme holds => exact ColumnType.holdsCell_some holds

/-- A property that the results of sums have on their own account. -/
structure OfSums (P : ColumnType → Value → Prop) : Prop where
  integer : ∀ i, P (.integer .big) (.integer i)
  double : ∀ x, P .double (.double x)
  decimal : ∀ p s (v : Signed 128), v.toInt.natAbs < 10 ^ p → P (.decimal p s) (.decimal ⟨v, p, s⟩)

theorem Yields.satisfies {a : Aggregate} {c : Cell} (h : Yields P a c) (hP : OfSums P) :
    c.Satisfies (P a.output) := by
  cases h with
  | missing => exact Cell.satisfies_none _
  | integer width i => exact Cell.satisfies_some.mpr (hP.integer i)
  | real isReal x =>
    cases a with
    | sumFloat | sumDouble | sumString => exact Cell.satisfies_some.mpr (hP.double x)
    | _ => exact nomatch isReal
  | decimal fits => exact Cell.satisfies_some.mpr (hP.decimal _ _ _ fits)
  | extreme _ kept => exact Cell.satisfies_some.mpr kept

end Aggregate
end Rollup
