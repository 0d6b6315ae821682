import Rollup.Proofs.Table.Chunks

/-
The rows that a run stands for, and the rows that it leaves.

What a feed stands for is said without the checks: rows as they are, the picked cells of an
input, the decoded cells of a chunk.  The history of a run holds these rows in order, every
cell in the normal form of its column (`history_eq_ok_iff`), and there is a history only if
all of them can be read and normalized.
-/

namespace Rollup
namespace Plan

variable {p : Plan} {f : Feed} {fs : List Feed} {input : List Cell} {raw r : Row}
  {rows : List Row}

/-! ## Rows of an input -/

/-- A row whose cells are those of an input, under the column numbers of the plan. -/
structure Picks (p : Plan) (input : List Cell) (r : Row) : Prop where
  key : List.Forall₂ (fun g cell => input[g.column]? = some cell) p.groupBy r.key
  values : List.Forall₂ (fun m cell => input[m.call.column]? = some cell) p.measures r.values

theorem rowOf_eq_ok_iff : p.rowOf input = .ok r ↔ p.Picks input r := by
  have hkey (key : List Cell) : (p.groupBy.mapM fun g => pick input g.column) = .ok key ↔
      List.Forall₂ (fun g cell => input[g.column]? = some cell) p.groupBy key := by
    simp only [mapM_eq_ok_iff, pick_eq_ok_iff]
  have hvalues (values : List Cell) :
      (p.measures.mapM fun m => pick input m.call.column) = .ok values ↔
        List.Forall₂ (fun m cell => input[m.call.column]? = some cell) p.measures values := by
    simp only [mapM_eq_ok_iff, pick_eq_ok_iff]
  rw [rowOf]
  constructor
  · intro h
    split at h
    · cases h
    · rename_i key hpicked
      obtain ⟨values, hread, rfl⟩ := map_eq_ok_iff.mp h
      exact ⟨(hkey key).mp hpicked, (hvalues values).mp hread⟩
  · intro h
    rw [(hkey r.key).mpr h.key]
    exact map_eq_ok_iff.mpr ⟨r.values, (hvalues r.values).mpr h.values, rfl⟩

theorem prepareInput_eq_ok_iff :
    p.prepareInput input = .ok r ↔ ∃ raw, p.Picks input raw ∧ p.Normalizes raw r := by
  rw [prepareInput]
  constructor
  · intro h
    split at h
    · cases h
    · rename_i raw hraw
      exact ⟨raw, rowOf_eq_ok_iff.mp hraw, prepare_eq_ok_iff.mp h⟩
  · rintro ⟨raw, hraw, h⟩
    rw [rowOf_eq_ok_iff.mpr hraw]
    exact prepare_eq_ok_iff.mpr h

/-- Every cell of a row that was prepared from an input is one of the input's, normalized. -/
theorem forall₂_of_prepareInput (h : p.prepareInput input = .ok r) :
    List.Forall₂ (fun g w => ∃ cell, input[g.column]? = some cell ∧
        g.type.normalizeCell cell = .ok w) p.groupBy r.key ∧
      List.Forall₂ (fun m w => ∃ cell, input[m.call.column]? = some cell ∧
        (m.aggregate.expects m.call.ofPartials).normalizeCell cell = .ok w) p.measures
        r.values := by
  obtain ⟨raw, hpicks, hnormal⟩ := prepareInput_eq_ok_iff.mp h
  exact ⟨exists_of_forall₂_zip hpicks.key hnormal.key,
    exists_of_forall₂_zip hpicks.values hnormal.values⟩

/-! ## Feeds -/

/-- The rows that a feed stands for, as they come. -/
inductive StandsFor (p : Plan) : Feed → List Row → Prop where
  | row (r : Row) : StandsFor p (.row r) [r]
  | rows (rs : List Row) : StandsFor p (.rows rs) rs
  | input {input : List Cell} {r : Row} (picks : p.Picks input r) : StandsFor p (.input input) [r]
  | chunk {c : Chunk} {inputs : List (List Cell)} {rs : List Row} (fits : c.Fits p)
      (decodes : c.DecodesTo p inputs) (picks : List.Forall₂ p.Picks inputs rs) :
      StandsFor p (.chunk c) rs

end Plan
end Rollup
