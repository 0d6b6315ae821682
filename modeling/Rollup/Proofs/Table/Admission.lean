import Rollup.Proofs.Outcome
import Rollup.Proofs.Table.Key
import Rollup.Table.Row

/-
Rows that a plan admits: every cell in the form its column has.

Checking a row gives the row of its normal cells (`prepare_eq_ok_iff`), which is admitted, and
an admitted row passes the check unchanged, so from the check on only admitted rows matter.
-/

namespace Rollup
namespace Plan

def keyTypes (p : Plan) : List ColumnType := p.groupBy.map (·.type)

theorem length_of_holdsAll {p : Plan} {key : List Cell}
    (h : ColumnType.HoldsAll p.keyTypes key) : key.length = p.groupBy.length := by
  rw [← h.length_eq, keyTypes, List.length_map]

structure Admits (p : Plan) (r : Row) : Prop where
  key : ColumnType.HoldsAll p.keyTypes r.key
  values : List.Forall₂
    (fun m c => (m.aggregate.expects m.call.ofPartials).HoldsCell c) p.measures r.values

/-! ## Keys -/

theorem normalKey_eq_mapM (groupBy : List GroupColumn) (key : List Cell) :
    normalKey groupBy key = (groupBy.zip key).mapM fun x =>
      (x.1.type.normalizeCell x.2).mapError (.key x.1.column) := by
  induction groupBy generalizing key with
  | nil => cases key <;> rfl
  | cons g gs ih =>
    cases key with
    | nil => rfl
    | cons c cs =>
      rw [List.zip_cons_cons, List.mapM_cons, normalKey, ih cs]
      cases g.type.normalizeCell c <;> rfl

theorem normalKey_eq {groupBy : List GroupColumn} {key : List Cell}
    (h : ColumnType.HoldsAll (groupBy.map (·.type)) key) : normalKey groupBy key = .ok key := by
  induction groupBy generalizing key with
  | nil =>
    cases h
    rfl
  | cons g gs ih =>
    cases h with
    | cons hc hcs => rw [normalKey, hc.normalizeCell_eq, ih hcs]; rfl

/-! ## Values -/

theorem normalize_eq_ok_iff {a : Aggregate} {ofPartials : Bool} {c w : Cell} :
    a.normalize ofPartials c = .ok w ↔ (a.expects ofPartials).normalizeCell c = .ok w := by
  unfold Aggregate.normalize
  cases (a.expects ofPartials).normalizeCell c <;> simp

theorem normalValues_eq_mapM (measures : List Measure) (values : List Cell) :
    normalValues measures values = (measures.zip values).mapM fun x =>
      (x.1.aggregate.normalize x.1.call.ofPartials x.2).mapError .argument := by
  induction measures generalizing values with
  | nil => cases values <;> rfl
  | cons m ms ih =>
    cases values with
    | nil => rfl
    | cons c cs =>
      rw [List.zip_cons_cons, List.mapM_cons, normalValues, ih cs]
      cases m.aggregate.normalize m.call.ofPartials c <;> rfl

theorem normalValues_eq {measures : List Measure} {values : List Cell}
    (h : List.Forall₂ (fun m c => (m.aggregate.expects m.call.ofPartials).HoldsCell c) measures
      values) : normalValues measures values = .ok values := by
  induction h with
  | nil => rfl
  | cons hc _ ih => rw [normalValues, Aggregate.normalize, hc.normalizeCell_eq]; rw [ih]; rfl

/-! ## Rows -/

/-- A row with every cell of another in the normal form of its column. -/
structure Normalizes (p : Plan) (raw r : Row) : Prop where
  keyLength : raw.key.length = p.groupBy.length
  valueCount : raw.values.length = p.measures.length
  key : List.Forall₂ (fun x cell => x.1.type.normalizeCell x.2 = .ok cell)
    (p.groupBy.zip raw.key) r.key
  values : List.Forall₂
    (fun x cell => (x.1.aggregate.expects x.1.call.ofPartials).normalizeCell x.2 = .ok cell)
    (p.measures.zip raw.values) r.values

variable {p : Plan} {raw r : Row}

theorem normalizes_iff : p.Normalizes raw r ↔ raw.key.length = p.groupBy.length ∧
    raw.values.length = p.measures.length ∧ normalKey p.groupBy raw.key = .ok r.key ∧
    normalValues p.measures raw.values = .ok r.values := by
  rw [normalKey_eq_mapM, normalValues_eq_mapM]
  simp only [mapM_eq_ok_iff, mapError_eq_ok_iff, normalize_eq_ok_iff]
  exact ⟨fun h => ⟨h.keyLength, h.valueCount, h.key, h.values⟩,
    fun ⟨hkey, hvalues, hcells, hvalueCells⟩ => ⟨hkey, hvalues, hcells, hvalueCells⟩⟩

/-- A row passes the check as the row of its normal cells. -/
theorem prepare_eq_ok_iff : p.prepare raw = .ok r ↔ p.Normalizes raw r := by
  rw [normalizes_iff, prepare]
  by_cases hkey : raw.key.length = p.groupBy.length
  · by_cases hvalues : raw.values.length = p.measures.length
    · rw [if_neg (not_not.mpr hkey), if_neg (not_not.mpr hvalues)]
      cases normalKey p.groupBy raw.key with
      | error e => simp
      | ok key =>
        simp only [map_eq_ok_iff, hkey, hvalues, Except.ok.injEq, true_and]
        constructor
        · rintro ⟨values, hresult, rfl⟩
          exact ⟨rfl, hresult⟩
        · rintro ⟨rfl, hresult⟩
          exact ⟨_, hresult, rfl⟩
    · simp [hkey, hvalues]
  · simp [hkey]

theorem Normalizes.admits (h : p.Normalizes raw r) : p.Admits r := by
  -- nothing need be known of the cells that came
  have hkeys : List.Forall₂ (fun g w => ∃ cell, True ∧ g.type.normalizeCell cell = .ok w)
      p.groupBy r.key :=
    exists_of_forall₂_zip (List.forall₂_iff_zip.mpr ⟨h.keyLength.symm, fun _ => trivial⟩) h.key
  have hcells : List.Forall₂ (fun m w => ∃ cell, True ∧
      (m.aggregate.expects m.call.ofPartials).normalizeCell cell = .ok w) p.measures r.values :=
    exists_of_forall₂_zip (List.forall₂_iff_zip.mpr ⟨h.valueCount.symm, fun _ => trivial⟩)
      h.values
  constructor
  · refine List.forall₂_map_left_iff.mpr (hkeys.imp ?_)
    intro g w h
    obtain ⟨cell, _, hw⟩ := h
    exact .of_normalizeCell hw
  · refine hcells.imp ?_
    intro m w h
    obtain ⟨cell, _, hw⟩ := h
    exact .of_normalizeCell hw

theorem Admits.of_prepare (h : p.prepare raw = .ok r) : p.Admits r :=
  (prepare_eq_ok_iff.mp h).admits

theorem Admits.prepare_eq (h : p.Admits r) : p.prepare r = .ok r :=
  prepare_eq_ok_iff.mpr (normalizes_iff.mpr ⟨length_of_holdsAll h.key,
    h.values.length_eq.symm, normalKey_eq h.key, normalValues_eq h.values⟩)

theorem admits_of_mapM_prepare {rows result : List Row}
    (h : rows.mapM p.prepare = .ok result) : ∀ r ∈ result, p.Admits r := by
  intro r hr
  obtain ⟨raw, _, hraw⟩ := exists_of_mem_mapM h hr
  exact .of_prepare hraw

end Plan
end Rollup
