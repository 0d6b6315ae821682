import Rollup.Aggregate.Accumulator
import Rollup.Proofs.Column.Nesting

/-
What becomes of a call at plan time.

`Aggregate.Ruling` lists the outcomes with the conditions under which they arise, in terms
of the parts of the argument's type.  The conditions exclude each other, and a call is
classified by the one that holds (`Aggregate.ruling_classify`).
-/

namespace Rollup

namespace ColumnType

inductive Summable : ColumnType → Prop where
  | integer (width : IntWidth) : Summable (.integer width)
  | decimal (p : Nat) (s : Int) : Summable (.decimal p s)
  | float : Summable .float
  | double : Summable .double
  | string : Summable .string

inductive Composite : ColumnType → Prop where
  | array (element : ColumnType) : Composite (.array element)
  | row (fields : RowFields) : Composite (.row fields)

variable {type : ColumnType}

theorem not_hasMap_of_simple (h : type.isComplex = false) : ¬ type.HasMap := by
  rintro ⟨key, value, hpart⟩
  cases type with
  | array | map | row => exact nomatch h
  | _ => cases hpart

theorem composite_of_not_hasMap (hmap : ¬ type.HasMap) (h : type.isComplex = true) :
    type.Composite := by
  cases type with
  | array element => exact .array element
  | row fields => exact .row fields
  | map key value => exact absurd ⟨key, value, .self _⟩ hmap
  | _ => exact nomatch h

theorem not_composite_of_simple (h : type.isComplex = false) : ¬ type.Composite := by
  rintro (_ | _) <;> exact nomatch h

end ColumnType

theorem Extreme.name_ne_sum (side : Extreme) : side.name ≠ "sum" := by
  cases side <;> decide

theorem Extreme.name_injective : Function.Injective Extreme.name := by
  intro side other h
  cases side <;> cases other <;> first | rfl | exact absurd h (by decide)

namespace Aggregate

/-! ## Sums -/

theorem exists_sumOf?_iff {type : ColumnType} :
    (∃ a, sumOf? type = some a) ↔ type.Summable := by
  cases type with
  | integer | decimal | float | double | string => exact iff_of_true ⟨_, rfl⟩ (by constructor)
  | _ => exact iff_of_false (fun ⟨_, h⟩ => nomatch h) (by rintro ⟨⟩)

section

variable {type : ColumnType} {a : Aggregate} (h : sumOf? type = some a)

include h

theorem spec_of_sumOf? : a.name = "sum" ∧ a.input = type := by
  cases type with
  | integer | decimal | float | double | string =>
    cases h
    exact ⟨rfl, rfl⟩
  | _ => exact nomatch h

theorem isComplex_of_sumOf? (ofPartials : Bool) : (a.expects ofPartials).isComplex = false := by
  cases type with
  | integer | decimal | float | double | string =>
    cases h
    cases ofPartials <;> rfl
  | _ => exact nomatch h

/-- The ten more digits of a sum leave its type valid. -/
theorem isValid_output_of_sumOf? (valid : type.IsValid) : a.output.IsValid := by
  have hrange : type.InRange := valid type (.self type)
  cases type with
  | decimal p s =>
    cases h
    refine (ColumnType.forall_part_iff_of_simple rfl).mpr ?_
    obtain ⟨hp, hp', hs, hs'⟩ := hrange
    show 1 ≤ min (p + 10) 38 ∧ min (p + 10) 38 ≤ 38 ∧ 0 ≤ s ∧ s ≤ (min (p + 10) 38 : Nat)
    omega
  | integer | float | double | string =>
    cases h
    exact (ColumnType.forall_part_iff_of_simple rfl).mpr trivial
  | _ => exact nomatch h

end

/-! ## Rules -/

inductive Ruling (function : String) (type : ColumnType) : Except PlanFault Aggregate → Prop where
  | invalid {fault : TypeFault} (invalid : ¬ type.IsValid) :
      Ruling function type (.error (.type fault))
  | unknown (valid : type.IsValid) (notSum : function ≠ "sum")
      (notExtreme : ∀ side : Extreme, function ≠ side.name) :
      Ruling function type (.error (.function function))
  | sum {a : Aggregate} (valid : type.IsValid) (function_eq : function = "sum")
      (summable : type.Summable) (sumOf : sumOf? type = some a) : Ruling function type (.ok a)
  | notSummable (valid : type.IsValid) (function_eq : function = "sum")
      (notSummable : ¬ type.Summable) : Ruling function type (.error (.sum type))
  | unordered (valid : type.IsValid) (side : Extreme) (function_eq : function = side.name)
      (hasMap : type.HasMap) : Ruling function type (.error .comparison)
  | composite (valid : type.IsValid) (side : Extreme) (function_eq : function = side.name)
      (noMap : ¬ type.HasMap) (composite : type.Composite) :
      Ruling function type (.error (.extreme side type))
  | extreme (valid : type.IsValid) (side : Extreme) (function_eq : function = side.name)
      (simple : type.isComplex = false) : Ruling function type (.ok (.extreme side type))

variable {function name : String} {type : ColumnType} {a : Aggregate}
  {outcome other : Except PlanFault Aggregate}

theorem ruling_classifySum (valid : type.IsValid) :
    Ruling "sum" type (classifySum type) := by
  unfold classifySum
  split
  · rename_i a ha
    exact .sum valid rfl (exists_sumOf?_iff.mp ⟨a, ha⟩) ha
  · rename_i hnone
    refine .notSummable valid rfl fun hsummable => ?_
    obtain ⟨a, ha⟩ := exists_sumOf?_iff.mpr hsummable
    rw [hnone] at ha
    exact nomatch ha

theorem ruling_classifyExtreme (valid : type.IsValid) (side : Extreme) :
    Ruling side.name type (classifyExtreme side type) := by
  unfold classifyExtreme
  split
  · rename_i hmap
    exact .unordered valid side rfl (type.containsMap_iff.mp hmap)
  · rename_i hmap
    have hnoMap := type.containsMap_eq_false_iff.mp (Bool.eq_false_iff.mpr hmap)
    split
    · rename_i hcomplex
      exact .composite valid side rfl hnoMap (ColumnType.composite_of_not_hasMap hnoMap hcomplex)
    · rename_i hsimple
      exact .extreme valid side rfl (Bool.eq_false_iff.mpr hsimple)

theorem ruling_classify (name : String) (type : ColumnType) :
    Ruling (canonicalName name) type (classify name type) := by
  unfold classify
  split
  · rename_i fault hcheck
    refine .invalid fun valid => ?_
    rw [type.check_eq_ok_iff.mpr valid] at hcheck
    exact nomatch hcheck
  · rename_i hcheck
    have valid := type.check_eq_ok_iff.mp hcheck
    generalize canonicalName name = function
    dsimp only
    split
    · rename_i hsum
      exact beq_iff_eq.mp hsum ▸ ruling_classifySum valid
    · rename_i hsum
      split
      · rename_i hmin
        exact beq_iff_eq.mp hmin ▸ ruling_classifyExtreme valid .min
      · rename_i hmin
        split
        · rename_i hmax
          exact beq_iff_eq.mp hmax ▸ ruling_classifyExtreme valid .max
        · rename_i hmax
          refine .unknown valid (fun h => hsum (beq_iff_eq.mpr h)) fun side => ?_
          cases side with
          | min => exact fun h => hmin (beq_iff_eq.mpr h)
          | max => exact fun h => hmax (beq_iff_eq.mpr h)

/-- Two rules for a valid type exclude each other: one needs what the other denies. -/
theorem Ruling.eq (h : Ruling function type outcome) (h' : Ruling function type other)
    (valid : type.IsValid) : outcome = other := by
  cases h with
  | invalid invalid => exact absurd valid invalid
  | unknown => cases h' <;> grind
  | sum | notSummable => cases h' <;> grind [Extreme.name_ne_sum]
  | unordered | composite | extreme =>
    cases h' <;> grind [Extreme.name_ne_sum, Extreme.name_injective,
      ColumnType.not_hasMap_of_simple, ColumnType.not_composite_of_simple]

theorem classify_eq_iff (valid : type.IsValid) :
    classify name type = outcome ↔ Ruling (canonicalName name) type outcome :=
  ⟨fun h => h ▸ ruling_classify name type, fun h => (ruling_classify name type).eq h valid⟩

/-! ## When each outcome arises -/

theorem classify_eq_type_iff :
    (∃ fault, classify name type = .error (.type fault)) ↔ ¬ type.IsValid := by
  have hruling := ruling_classify name type
  constructor
  · rintro ⟨fault, h⟩
    rw [h] at hruling
    cases hruling with
    | invalid invalid => exact invalid
  · intro invalid
    generalize classify name type = outcome at hruling
    cases hruling with
    | invalid => exact ⟨_, rfl⟩
    | unknown valid | sum valid | notSummable valid | unordered valid | composite valid
    | extreme valid => exact absurd valid invalid

theorem classify_eq_function_iff :
    classify name type = .error (.function (canonicalName name)) ↔
      type.IsValid ∧ canonicalName name ≠ "sum" ∧
        ∀ side : Extreme, canonicalName name ≠ side.name := by
  constructor
  · intro h
    have hruling := h ▸ ruling_classify name type
    cases hruling with
    | unknown valid notSum notExtreme => exact ⟨valid, notSum, notExtreme⟩
  · rintro ⟨valid, notSum, notExtreme⟩
    exact (classify_eq_iff valid).mpr (.unknown valid notSum notExtreme)

theorem classify_eq_sum_iff :
    classify name type = .error (.sum type) ↔
      type.IsValid ∧ canonicalName name = "sum" ∧ ¬ type.Summable := by
  constructor
  · intro h
    have hruling := h ▸ ruling_classify name type
    cases hruling with
    | notSummable valid function_eq notSummable => exact ⟨valid, function_eq, notSummable⟩
  · rintro ⟨valid, function_eq, notSummable⟩
    exact (classify_eq_iff valid).mpr (.notSummable valid function_eq notSummable)

theorem classify_eq_comparison_iff :
    classify name type = .error .comparison ↔
      type.IsValid ∧ (∃ side : Extreme, canonicalName name = side.name) ∧ type.HasMap := by
  constructor
  · intro h
    have hruling := h ▸ ruling_classify name type
    cases hruling with
    | unordered valid side function_eq hasMap => exact ⟨valid, ⟨side, function_eq⟩, hasMap⟩
  · rintro ⟨valid, ⟨side, function_eq⟩, hasMap⟩
    exact (classify_eq_iff valid).mpr (.unordered valid side function_eq hasMap)

theorem classify_eq_extreme_iff {side : Extreme} :
    classify name type = .error (.extreme side type) ↔
      type.IsValid ∧ canonicalName name = side.name ∧ ¬ type.HasMap ∧ type.Composite := by
  constructor
  · intro h
    have hruling := h ▸ ruling_classify name type
    cases hruling with
    | composite valid _ function_eq noMap composite =>
      exact ⟨valid, function_eq, noMap, composite⟩
  · rintro ⟨valid, function_eq, noMap, composite⟩
    exact (classify_eq_iff valid).mpr (.composite valid side function_eq noMap composite)

theorem exists_classify_iff :
    (∃ a, classify name type = .ok a) ↔
      type.IsValid ∧
        (canonicalName name = "sum" ∧ type.Summable ∨
          (∃ side : Extreme, canonicalName name = side.name) ∧ ¬ type.HasMap ∧
            ¬ type.Composite) := by
  constructor
  · rintro ⟨a, h⟩
    have hruling := h ▸ ruling_classify name type
    cases hruling with
    | sum valid function_eq summable => exact ⟨valid, .inl ⟨function_eq, summable⟩⟩
    | extreme valid side function_eq simple =>
      exact ⟨valid, .inr ⟨⟨side, function_eq⟩, ColumnType.not_hasMap_of_simple simple,
        ColumnType.not_composite_of_simple simple⟩⟩
  · rintro ⟨valid, ⟨function_eq, summable⟩ | ⟨⟨side, function_eq⟩, noMap, notComposite⟩⟩
    · obtain ⟨a, ha⟩ := exists_sumOf?_iff.mpr summable
      exact ⟨a, (classify_eq_iff valid).mpr (.sum valid function_eq summable ha)⟩
    · have simple : type.isComplex = false := Bool.eq_false_iff.mpr fun hcomplex =>
        notComposite (ColumnType.composite_of_not_hasMap noMap hcomplex)
      exact ⟨_, (classify_eq_iff valid).mpr (.extreme valid side function_eq simple)⟩

/-! ## Kinds of refusals -/

/-- Whether a call is refused with an error of this kind. -/
def Refuses (name : String) (type : ColumnType) (kind : ErrorKind) : Prop :=
  ∃ fault, classify name type = .error fault ∧ fault.kind = kind

theorem refuses_internal_iff : Refuses name type .internal ↔ ¬ type.IsValid := by
  rw [← @classify_eq_type_iff name]
  constructor
  · rintro ⟨fault, h, hkind⟩
    cases fault with
    | type fault => exact ⟨fault, h⟩
    | _ => cases hkind
  · rintro ⟨fault, h⟩
    exact ⟨_, h, rfl⟩

theorem refuses_unsupportedFunction_iff :
    Refuses name type .unsupportedFunction ↔
      type.IsValid ∧ canonicalName name ≠ "sum" ∧
        ∀ side : Extreme, canonicalName name ≠ side.name := by
  constructor
  · rintro ⟨fault, h, hkind⟩
    have hruling := h ▸ ruling_classify name type
    cases hruling with
    | unknown valid notSum notExtreme => exact ⟨valid, notSum, notExtreme⟩
    | _ => cases hkind
  · exact fun h => ⟨_, classify_eq_function_iff.mpr h, rfl⟩

theorem refuses_unsupportedComparison_iff :
    Refuses name type .unsupportedComparison ↔
      type.IsValid ∧ (∃ side : Extreme, canonicalName name = side.name) ∧ type.HasMap := by
  rw [← classify_eq_comparison_iff]
  constructor
  · rintro ⟨fault, h, hkind⟩
    cases fault with
    | comparison => exact h
    | _ => cases hkind
  · exact fun h => ⟨_, h, rfl⟩

/-- A sum lacks a type that can be summed, or an extreme has an array or a row without maps. -/
theorem refuses_unsupportedAggregateType_iff :
    Refuses name type .unsupportedAggregateType ↔
      type.IsValid ∧
        (canonicalName name = "sum" ∧ ¬ type.Summable ∨
          (∃ side : Extreme, canonicalName name = side.name) ∧ ¬ type.HasMap ∧
            type.Composite) := by
  constructor
  · rintro ⟨fault, h, hkind⟩
    have hruling := h ▸ ruling_classify name type
    cases hruling with
    | notSummable valid function_eq notSummable =>
      exact ⟨valid, .inl ⟨function_eq, notSummable⟩⟩
    | composite valid side function_eq noMap composite =>
      exact ⟨valid, .inr ⟨⟨side, function_eq⟩, noMap, composite⟩⟩
    | _ => cases hkind
  · rintro ⟨valid, ⟨function_eq, notSummable⟩ | ⟨⟨side, function_eq⟩, noMap, composite⟩⟩
    · exact ⟨_, classify_eq_sum_iff.mpr ⟨valid, function_eq, notSummable⟩, rfl⟩
    · exact ⟨_, classify_eq_extreme_iff.mpr ⟨valid, function_eq, noMap, composite⟩, rfl⟩

/-! ## Aggregates that come out -/

theorem spec_of_classify (h : classify name type = .ok a) :
    a.name = canonicalName name ∧ a.input = type := by
  have hruling := h ▸ ruling_classify name type
  cases hruling with
  | sum _ function_eq _ sumOf =>
    obtain ⟨hname, hinput⟩ := spec_of_sumOf? sumOf
    exact ⟨hname.trans function_eq.symm, hinput⟩
  | extreme _ _ function_eq => exact ⟨function_eq.symm, rfl⟩

theorem output_of_classify {side : Extreme} (h : classify name type = .ok a)
    (hname : canonicalName name = side.name) : a.output = type := by
  have hruling := h ▸ ruling_classify name type
  cases hruling with
  | sum _ function_eq => exact absurd (hname.symm.trans function_eq) side.name_ne_sum
  | extreme => rfl

theorem isValid_output_of_classify (h : classify name type = .ok a) : a.output.IsValid := by
  have hruling := h ▸ ruling_classify name type
  cases hruling with
  | sum valid _ _ sumOf => exact isValid_output_of_sumOf? sumOf valid
  | extreme valid => exact valid

/-- Neither arguments nor results of an aggregate are of a complex type. -/
theorem isComplex_of_classify (h : classify name type = .ok a) (ofPartials : Bool) :
    (a.expects ofPartials).isComplex = false := by
  have hruling := h ▸ ruling_classify name type
  cases hruling with
  | sum _ _ _ sumOf => exact isComplex_of_sumOf? sumOf ofPartials
  | extreme _ _ _ simple => cases ofPartials <;> exact simple

end Aggregate
end Rollup
