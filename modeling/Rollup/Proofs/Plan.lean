import Rollup.Plan
import Rollup.Proofs.Aggregate.Classification
import Rollup.Proofs.Outcome

/-
Plans and the nodes they are made from.

`Plan.calls_classified` says what becomes of a call, of a list of calls and of a node: a list
fails as the first of its calls does, and a node whose group columns have valid types fares
as its calls do.
-/

namespace Rollup
namespace Plan

theorem measure_eq_ok_iff {c : Call} {m : Measure} :
    measure c = .ok m ↔
      m.call = c ∧ Aggregate.classify c.function c.argument = .ok m.aggregate := by
  unfold measure
  rw [map_eq_ok_iff]
  constructor
  · rintro ⟨a, ha, rfl⟩
    exact ⟨rfl, ha⟩
  · rintro ⟨rfl, ha⟩
    exact ⟨m.aggregate, ha, rfl⟩

theorem measure_eq_error_iff {c : Call} {fault : PlanFault} :
    measure c = .error fault ↔ Aggregate.classify c.function c.argument = .error fault :=
  map_eq_error_iff

theorem exists_measure_iff {c : Call} :
    (∃ m, measure c = .ok m) ↔ ∃ a, Aggregate.classify c.function c.argument = .ok a := by
  simp only [measure_eq_ok_iff]
  exact ⟨fun ⟨m, _, ha⟩ => ⟨m.aggregate, ha⟩, fun ⟨a, ha⟩ => ⟨⟨c, a⟩, rfl, ha⟩⟩

theorem measuresOf_eq_ok_iff {calls : List Call} {measures : List Measure} :
    measuresOf calls = .ok measures ↔
      List.Forall₂ (fun c m => m.call = c ∧
        Aggregate.classify c.function c.argument = .ok m.aggregate) calls measures := by
  simp only [measuresOf, mapM_eq_ok_iff, measure_eq_ok_iff]

theorem measuresOf_eq_error_iff {calls : List Call} {fault : PlanFault} :
    measuresOf calls = .error fault ↔
      ∃ before c after, calls = before ++ c :: after ∧
        (∀ b ∈ before, ∃ a, Aggregate.classify b.function b.argument = .ok a) ∧
        Aggregate.classify c.function c.argument = .error fault := by
  simp only [measuresOf, mapM_eq_error_iff, exists_measure_iff, measure_eq_error_iff]

theorem ofNode_eq_ok_iff {n : Node} {p : Plan} :
    ofNode n = .ok p ↔
      checkTypes n.groupBy = .ok () ∧ measuresOf n.calls = .ok p.measures ∧
        p.groupBy = n.groupBy ∧ p.name = n.name := by
  unfold ofNode
  cases checkTypes n.groupBy with
  | error e => exact ⟨(nomatch ·), fun h => nomatch h.1⟩
  | ok u =>
    show (measuresOf n.calls).map _ = .ok p ↔ _
    rw [map_eq_ok_iff]
    constructor
    · rintro ⟨measures, hmeasures, rfl⟩
      exact ⟨rfl, hmeasures, rfl, rfl⟩
    · rintro ⟨_, hmeasures, hgroup, hname⟩
      refine ⟨p.measures, hmeasures, ?_⟩
      rw [← hgroup, ← hname]

/-- The calls of a node, one by one, with the aggregates they stand for. -/
theorem measures_of_ofNode {n : Node} {p : Plan} (h : ofNode n = .ok p) :
    List.Forall₂ (fun c m => m.call = c ∧
      Aggregate.classify c.function c.argument = .ok m.aggregate) n.calls p.measures :=
  measuresOf_eq_ok_iff.mp (ofNode_eq_ok_iff.mp h).2.1

theorem checkTypes_congr {columns others : List GroupColumn}
    (h : columns.map (·.type) = others.map (·.type)) : checkTypes columns = checkTypes others := by
  induction columns generalizing others with
  | nil =>
    rw [List.map_nil, eq_comm, List.map_eq_nil_iff] at h
    rw [h]
  | cons g rest ih =>
    cases others with
    | nil => exact nomatch h
    | cons g' rest' =>
      obtain ⟨hhead, hrest⟩ := List.cons.inj h
      have htype : g.type = g'.type := hhead
      rw [checkTypes, checkTypes, htype, ih hrest]

theorem checkTypes_eq_ok_iff {columns : List GroupColumn} :
    checkTypes columns = .ok () ↔ ∀ g ∈ columns, g.type.IsValid := by
  induction columns with
  | nil => exact iff_of_true rfl (List.forall_mem_nil _)
  | cons g rest ih =>
    rw [List.forall_mem_cons, ← ih, ← ColumnType.check_eq_ok_iff, checkTypes]
    cases g.type.check with
    | error e => exact iff_of_false nofun fun h => nomatch h.1
    | ok u => exact (and_iff_right rfl).symm

/-- No aggregate of a plan has arguments or results of a complex type. -/
theorem isComplex_expects_of_ofNode {n : Node} {p : Plan} (h : ofNode n = .ok p) :
    ∀ a ∈ p.aggregates, ∀ ofPartials, (a.expects ofPartials).isComplex = false := by
  intro a ha
  obtain ⟨m, hm, rfl⟩ := List.mem_map.mp ha
  obtain ⟨c, _, _, hclassify⟩ := exists_of_mem_forall₂ (measures_of_ofNode h).flip hm
  exact Aggregate.isComplex_of_classify hclassify

theorem isComplex_of_ofNode {n : Node} {p : Plan} (h : ofNode n = .ok p) :
    ∀ a ∈ p.aggregates, a.output.isComplex = false :=
  fun a ha => a.expects_true ▸ isComplex_expects_of_ofNode h a ha true

/-! ## Classification -/

section

open Aggregate

/-- What becomes of a call is settled by its name and by the parts of its type: which fault
and which kind of error it is refused with, or which aggregate it gets. -/
theorem calls_classified (name : String) (type : ColumnType) (calls : List Call) (n : Node) :
    ((∃ fault, classify name type = .error (.type fault)) ↔ ¬ type.IsValid) ∧
    (classify name type = .error (.function (canonicalName name)) ↔
      type.IsValid ∧ canonicalName name ≠ "sum" ∧
        ∀ side : Extreme, canonicalName name ≠ side.name) ∧
    (classify name type = .error (.sum type) ↔
      type.IsValid ∧ canonicalName name = "sum" ∧ ¬ type.Summable) ∧
    (classify name type = .error .comparison ↔
      type.IsValid ∧ (∃ side : Extreme, canonicalName name = side.name) ∧
        type.HasMap) ∧
    (∀ side, classify name type = .error (.extreme side type) ↔
      type.IsValid ∧ canonicalName name = side.name ∧ ¬ type.HasMap ∧
        type.Composite) ∧
    (Refuses name type .internal ↔ ¬ type.IsValid) ∧
    (Refuses name type .unsupportedFunction ↔
      type.IsValid ∧ canonicalName name ≠ "sum" ∧
        ∀ side : Extreme, canonicalName name ≠ side.name) ∧
    (Refuses name type .unsupportedComparison ↔
      type.IsValid ∧ (∃ side : Extreme, canonicalName name = side.name) ∧
        type.HasMap) ∧
    (Refuses name type .unsupportedAggregateType ↔
      type.IsValid ∧
        (canonicalName name = "sum" ∧ ¬ type.Summable ∨
          (∃ side : Extreme, canonicalName name = side.name) ∧ ¬ type.HasMap ∧
            type.Composite)) ∧
    ((∃ a, classify name type = .ok a) ↔
      type.IsValid ∧
        (canonicalName name = "sum" ∧ type.Summable ∨
          (∃ side : Extreme, canonicalName name = side.name) ∧ ¬ type.HasMap ∧
            ¬ type.Composite)) ∧
    (∀ a, classify name type = .ok a →
      a.name = canonicalName name ∧ a.expects false = type ∧
        a.expects true = a.intermediate ∧ a.intermediate = a.output ∧
        a.expects true = a.output ∧ a.intermediate.check = .ok () ∧ a.output.check = .ok () ∧
        ∀ side : Extreme, canonicalName name = side.name → a.output = type) ∧
    (register name type =
      (classify name type).map (⟨⟨name, type, 0, none, false⟩, ·⟩)) ∧
    (∀ measures, measuresOf calls = .ok measures ↔
      List.Forall₂ (fun c m => m.call = c ∧
        classify c.function c.argument = .ok m.aggregate) calls measures) ∧
    (∀ fault, measuresOf calls = .error fault ↔
      ∃ before c after, calls = before ++ c :: after ∧
        (∀ b ∈ before, ∃ a, classify b.function b.argument = .ok a) ∧
        classify c.function c.argument = .error fault) ∧
    ((∀ g ∈ n.groupBy, g.type.IsValid) →
      ofNode n = (measuresOf n.calls).map (⟨n.name, n.groupBy, ·⟩)) := by
  refine ⟨classify_eq_type_iff, classify_eq_function_iff, classify_eq_sum_iff,
    classify_eq_comparison_iff, fun _ => classify_eq_extreme_iff, refuses_internal_iff,
    refuses_unsupportedFunction_iff, refuses_unsupportedComparison_iff,
    refuses_unsupportedAggregateType_iff, exists_classify_iff, fun a ha => ?_, rfl,
    fun _ => measuresOf_eq_ok_iff, fun _ => measuresOf_eq_error_iff, fun hvalid => ?_⟩
  · obtain ⟨hname, hinput⟩ := spec_of_classify ha
    have hcheck := a.output.check_eq_ok_iff.mpr (isValid_output_of_classify ha)
    have heq := a.intermediate_eq_output
    exact ⟨hname, hinput, rfl, heq, a.expects_true, heq ▸ hcheck, hcheck,
      fun _ => output_of_classify ha⟩
  · rw [ofNode, checkTypes_eq_ok_iff.mpr hvalid]

end

end Plan
end Rollup
