import Rollup.Proofs.Plan
import Rollup.Proofs.Table.Agreement
import Rollup.Proofs.Table.Layout

/-
From the chunk of one stage to the rows of the next.

A plan follows another one when it reads the chunks that the other finishes into: the same
group columns at the front, and behind them a merging call for every call.  The rows that
it takes from such a chunk are then the groups of the stage before, key and results.
-/

namespace Rollup

open ColumnType (HoldsAll)

namespace Plan

/-- The plan of the next stage. -/
structure Follows (p q : Plan) : Prop where
  groupBy : q.groupBy.map (fun g => (g.column, g.type)) = p.groupBy.mapIdx fun j g => (j, g.type)
  measures : q.measures =
    p.measures.mapIdx fun i m => ⟨m.call.asMerge (p.groupBy.length + i), m.aggregate⟩

namespace Follows

variable {p q : Plan}

theorem groupBy_length (h : p.Follows q) : q.groupBy.length = p.groupBy.length := by
  have hlength := congrArg List.length h.groupBy
  rwa [List.length_map, List.length_mapIdx] at hlength

theorem measures_length (h : p.Follows q) : q.measures.length = p.measures.length := by
  rw [h.measures, List.length_mapIdx]

theorem getElem_groupBy (h : p.Follows q) {j : Nat} (hq : j < q.groupBy.length)
    (hp : j < p.groupBy.length) :
    q.groupBy[j].column = j ∧ q.groupBy[j].type = p.groupBy[j].type := by
  have hpair : (q.groupBy.map fun g => (g.column, g.type))[j]? =
      (p.groupBy.mapIdx fun j g => (j, g.type))[j]? := by rw [h.groupBy]
  rw [List.getElem?_map, List.getElem?_mapIdx, List.getElem?_eq_getElem hq,
    List.getElem?_eq_getElem hp] at hpair
  exact Prod.mk.injEq _ _ _ _ ▸ Option.some.inj hpair

theorem getElem_measures (h : p.Follows q) {i : Nat} (hq : i < q.measures.length)
    (hp : i < p.measures.length) :
    q.measures[i] =
      ⟨p.measures[i].call.asMerge (p.groupBy.length + i), p.measures[i].aggregate⟩ := by
  have hmeasure : q.measures[i]? =
      (p.measures.mapIdx fun i m => ⟨m.call.asMerge (p.groupBy.length + i), m.aggregate⟩)[i]? := by
    rw [h.measures]
  rw [List.getElem?_mapIdx, List.getElem?_eq_getElem hq, List.getElem?_eq_getElem hp] at hmeasure
  exact Option.some.inj hmeasure

theorem keyTypes_eq (h : p.Follows q) : q.keyTypes = p.keyTypes := by
  refine List.ext_getElem ?_ fun j hq hp => ?_
  · rw [keyTypes, keyTypes, List.length_map, List.length_map, h.groupBy_length]
  · simp only [keyTypes, List.length_map] at hq hp
    simp only [keyTypes, List.getElem_map]
    exact (h.getElem_groupBy hq hp).2

theorem aggregates_eq (h : p.Follows q) : q.aggregates = p.aggregates := by
  refine List.ext_getElem ?_ fun i hq hp => ?_
  · rw [aggregates, aggregates, List.length_map, List.length_map, h.measures_length]
  · simp only [aggregates, List.length_map] at hq hp
    simp only [aggregates, List.getElem_map]
    rw [h.getElem_measures hq hp]

theorem expects_eq (h : p.Follows q) {i : Nat} (hq : i < q.measures.length)
    (hp : i < p.measures.length) :
    q.measures[i].aggregate.expects q.measures[i].call.ofPartials =
      p.measures[i].aggregate.output := by
  rw [h.getElem_measures hq hp]
  exact Aggregate.expects_true _

/-- What a merging call takes in is what the call before it answers with. -/
theorem admits (h : p.Follows q) {key cells : List Cell} (hkey : HoldsAll p.keyTypes key)
    (hcells : HoldsAll (p.measures.map (·.aggregate.output)) cells) :
    q.Admits ⟨key, cells⟩ where
  key := h.keyTypes_eq.symm ▸ hkey
  values := by
    have hlength := hcells.length_eq
    rw [List.length_map] at hlength
    refine List.forall₂_iff_get.mpr ⟨h.measures_length.trans hlength, fun i hq hc => ?_⟩
    have hp : i < p.measures.length := h.measures_length ▸ hq
    have hcell := getElem_of_forall₂ hcells (by rwa [List.length_map]) hc
    rw [List.getElem_map] at hcell
    rw [List.get_eq_getElem, h.expects_eq hq hp]
    exact hcell

/-- The stages after the next one do as the next one does. -/
theorem self (h : p.Follows q) : q.Follows q where
  groupBy := by
    refine List.ext_getElem ?_ fun j hj hj' => ?_
    · rw [List.length_map, List.length_mapIdx]
    · rw [List.length_map] at hj
      rw [List.getElem_map, List.getElem_mapIdx,
        (h.getElem_groupBy hj (h.groupBy_length ▸ hj)).1]
  measures := by
    refine List.ext_getElem ?_ fun i hi hi' => ?_
    · rw [List.length_mapIdx]
    · rw [List.getElem_mapIdx, h.getElem_measures hi (h.measures_length ▸ hi), h.groupBy_length]
      rfl

end Follows
end Plan

/-- The node of the next stage: group columns of the same types, and every call turned into
a merging one over its output column. -/
structure Node.Follows (n next : Node) : Prop where
  groupBy :
    next.groupBy.map (fun g => (g.column, g.type)) = n.groupBy.mapIdx fun j g => (j, g.type)
  calls : next.calls = n.calls.mapIdx fun i c => c.asMerge (n.groupBy.length + i)

/-- A node that is accepted is followed by one that is accepted. -/
theorem Node.Follows.exists_ofNode {n next : Node} {p : Plan} (h : n.Follows next)
    (hp : Plan.ofNode n = .ok p) : ∃ q, Plan.ofNode next = .ok q ∧ p.Follows q := by
  obtain ⟨htypes, _, hgroupBy, _⟩ := Plan.ofNode_eq_ok_iff.mp hp
  have hmeasures := Plan.measures_of_ofNode hp
  refine ⟨⟨next.name, next.groupBy,
    p.measures.mapIdx fun i m => ⟨m.call.asMerge (p.groupBy.length + i), m.aggregate⟩⟩,
    Plan.ofNode_eq_ok_iff.mpr ⟨?_, ?_, rfl, rfl⟩, hgroupBy ▸ h.groupBy, rfl⟩
  · have hsame : next.groupBy.map (·.type) = n.groupBy.map (·.type) := by
      have hpairs := congrArg (List.map Prod.snd) h.groupBy
      rw [List.map_map] at hpairs
      refine hpairs.trans (List.ext_getElem ?_ fun j hj hj' => ?_)
      · rw [List.length_map, List.length_mapIdx, List.length_map]
      · rw [List.getElem_map, List.getElem_mapIdx, List.getElem_map]
    rw [Plan.checkTypes_congr hsame]
    exact htypes
  · rw [Plan.measuresOf, h.calls]
    refine mapM_eq_ok_of_getElem ?_ fun i hi hi' => ?_
    · rw [List.length_mapIdx, List.length_mapIdx, hmeasures.length_eq]
    · rw [List.length_mapIdx] at hi hi'
      obtain ⟨hcall, hclassify⟩ := getElem_of_forall₂ hmeasures hi hi'
      rw [List.getElem_mapIdx, List.getElem_mapIdx, hcall]
      refine Plan.measure_eq_ok_iff.mpr ⟨?_, hclassify⟩
      show n.calls[i].asMerge (p.groupBy.length + i) = _
      rw [hgroupBy]

namespace Plan

/-! ## Reading the chunk -/

section

variable {p q : Plan} {c : Chunk} {rows : List Row}

/-- The columns of a chunk hold the given rows, key and values side by side. -/
structure Carries (p : Plan) (c : Chunk) (rows : List Row) : Prop where
  rows_eq : c.rows = rows.length
  stores : StoresAll c.columns p.outputTypes (rows.map fun r => r.key ++ r.values)
  key_length : ∀ r ∈ rows, r.key.length = p.groupBy.length
  values_length : ∀ r ∈ rows, r.values.length = p.measures.length

theorem Carries.columns_length (h : Carries p c rows) :
    c.columns.length = p.groupBy.length + p.measures.length := by
  rw [h.stores.1, outputTypes, aggregates, List.length_append, List.length_map, List.length_map,
    List.length_map]

theorem getElem?_outputTypes_key {j : Nat} (hj : j < p.groupBy.length) :
    p.outputTypes[j]? = some p.groupBy[j].type := by
  rw [outputTypes, List.getElem?_append_left (by rwa [List.length_map]), List.getElem?_map,
    List.getElem?_eq_getElem hj]
  rfl

theorem getElem?_outputTypes_measure {i : Nat} (hi : i < p.measures.length) :
    p.outputTypes[p.groupBy.length + i]? = some p.measures[i].aggregate.output := by
  rw [outputTypes, List.getElem?_append_right (by rw [List.length_map]; omega), List.length_map,
    Nat.add_sub_cancel_left, aggregates, List.getElem?_map, List.getElem?_map,
    List.getElem?_eq_getElem hi]
  rfl

theorem Carries.stores_getElem (h : Carries p c rows) {j : Nat} {type : ColumnType}
    (hj : j < c.columns.length) (htype : p.outputTypes[j]? = some type) :
    c.columns[j].Stores type (rows.map fun r => (r.key ++ r.values).getD j none) := by
  have hstores := h.stores.2 j _ type (List.getElem?_eq_getElem hj) htype
  rwa [List.map_map] at hstores

theorem Carries.read (h : Carries p c rows) {j i : Nat} (hj : j < c.columns.length)
    (hi : i < rows.length) :
    c.columns[j].read i = .ok ((rows[i].key ++ rows[i].values).getD j none) := by
  have htype : j < p.outputTypes.length := h.stores.1 ▸ hj
  refine (h.stores_getElem hj (List.getElem?_eq_getElem htype)).read_eq i _ ?_
  rw [List.getElem?_map, List.getElem?_eq_getElem hi]
  rfl

theorem Carries.groupColumns (h : Carries p c rows) (hf : p.Follows q)
    (hplain : ∀ g ∈ p.groupBy, g.type.isPlain = true) :
    q.groupBy.mapM (groupColumn c) = .ok (c.columns.take p.groupBy.length) := by
  have hcolumns := h.columns_length
  refine mapM_eq_ok_of_getElem ?_ fun j hj hj' => ?_
  · rw [List.length_take, hf.groupBy_length]
    omega
  · have hp : j < p.groupBy.length := hf.groupBy_length ▸ hj
    have hc : j < c.columns.length := by omega
    obtain ⟨hcolumn, htype⟩ := hf.getElem_groupBy hj hp
    have hstorage := (h.stores_getElem hc (getElem?_outputTypes_key hp)).type_eq
    rw [groupColumn, chunkColumn, hcolumn, htype, List.getElem?_eq_getElem hc]
    show (if p.groupBy[j].type.accepts c.columns[j].type = true then Except.ok c.columns[j]
      else _) = _
    rw [hstorage, if_pos (ColumnType.accepts_storage (hplain _ (List.getElem_mem hp))),
      List.getElem_take]

theorem Carries.measureColumns (h : Carries p c rows) (hf : p.Follows q) :
    (q.measures.mapM fun m => chunkColumn c m.call.column) =
      .ok (c.columns.drop p.groupBy.length) := by
  have hcolumns := h.columns_length
  have hmeasures := hf.measures_length
  refine mapM_eq_ok_of_getElem ?_ fun i hi hi' => ?_
  · rw [List.length_drop]
    omega
  · have hc : p.groupBy.length + i < c.columns.length := by omega
    rw [hf.getElem_measures hi (hmeasures ▸ hi), List.getElem_drop]
    show chunkColumn c (p.groupBy.length + i) = _
    rw [chunkColumn, List.getElem?_eq_getElem hc]

/-- The columns of the results, each seen as the argument of its merging call. -/
def resultViews (q : Plan) (columns : List Column) : List View :=
  columns.zipWith (fun column m => ⟨column, m.aggregate.expects m.call.ofPartials⟩) q.measures

theorem Carries.views (h : Carries p c rows) (hf : p.Follows q)
    (hplain : ∀ m ∈ p.measures, m.aggregate.output.isPlain = true) :
    (((c.columns.drop p.groupBy.length).zip q.measures).mapM fun x => measureView x.1 x.2) =
      .ok (q.resultViews (c.columns.drop p.groupBy.length)) := by
  have hcolumns := h.columns_length
  refine mapM_eq_ok_of_getElem ?_ fun i hi hi' => ?_
  · rw [resultViews, List.length_zip, List.length_zipWith]
  · rw [List.length_zip, List.length_drop, hf.measures_length] at hi
    have hp : i < p.measures.length := by omega
    have hq : i < q.measures.length := hf.measures_length ▸ hp
    have hc : p.groupBy.length + i < c.columns.length := by omega
    have hstorage := (h.stores_getElem hc (getElem?_outputTypes_measure hp)).type_eq
    simp only [resultViews, List.getElem_zip, List.getElem_zipWith, List.getElem_drop]
    rw [measureView, View.ofColumn, hf.expects_eq hq hp, hstorage,
      if_pos (ColumnType.accepts_storage (hplain _ (List.getElem_mem hp)))]

theorem Carries.chunkRow (h : Carries p c rows) (hf : p.Follows q) {i : Nat}
    (hi : i < rows.length) :
    chunkRow (c.columns.take p.groupBy.length)
      (q.resultViews (c.columns.drop p.groupBy.length)) i = .ok rows[i] := by
  have hcolumns := h.columns_length
  have hkey := h.key_length rows[i] (List.getElem_mem hi)
  have hvalues := h.values_length rows[i] (List.getElem_mem hi)
  have hkeys : ((c.columns.take p.groupBy.length).mapM fun column => readCell column i) =
      .ok rows[i].key := by
    refine mapM_eq_ok_of_getElem ?_ fun j hj hj' => ?_
    · rw [List.length_take]
      omega
    · rw [List.getElem_take, readCell, h.read (by omega) hi, List.getD_eq_getElem?_getD,
        List.getElem?_append_left hj', List.getElem?_eq_getElem hj']
      rfl
  have hresults : ((q.resultViews (c.columns.drop p.groupBy.length)).mapM fun v =>
      readCell v.column i) = .ok rows[i].values := by
    refine mapM_eq_ok_of_getElem ?_ fun j hj hj' => ?_
    · rw [resultViews, List.length_zipWith, List.length_drop, hf.measures_length]
      omega
    · simp only [resultViews, List.getElem_zipWith, List.getElem_drop]
      rw [readCell, h.read (by omega) hi, List.getD_eq_getElem?_getD,
        List.getElem?_append_right (by omega), hkey, Nat.add_sub_cancel_left,
        List.getElem?_eq_getElem hj']
      rfl
  rw [Plan.chunkRow, hkeys, hresults]
  rfl

theorem length_of_chunkRows (h : p.chunkRows c = .ok rows) : rows.length = c.rows := by
  rw [Plan.chunkRows] at h
  split at h
  · exact nomatch h
  · rw [← (mapM_eq_ok_iff.mp h).length_eq, List.length_range]

/-- The next stage reads the rows that the chunk carries. -/
theorem Carries.chunkRows (h : Carries p c rows) (hf : p.Follows q)
    (hkeys : ∀ g ∈ p.groupBy, g.type.isPlain = true)
    (houtputs : ∀ m ∈ p.measures, m.aggregate.output.isPlain = true)
    (hadmits : ∀ r ∈ rows, q.Admits r) : q.chunkRows c = .ok rows := by
  have hcolumns : q.chunkColumns c = .ok (c.columns.take p.groupBy.length,
      q.resultViews (c.columns.drop p.groupBy.length)) := by
    simp only [chunkColumns, h.groupColumns hf hkeys, h.measureColumns hf, h.views hf houtputs]
    rfl
  rw [Plan.chunkRows, hcolumns]
  refine mapM_eq_ok_of_getElem ?_ fun i hi hi' => ?_
  · rw [List.length_range, h.rows_eq]
  · rw [List.getElem_range, h.chunkRow hf hi']
    exact (hadmits _ (List.getElem_mem hi')).prepare_eq

end

end Plan

namespace Table

/-- The groups of a finished table as rows for the next stage. -/
def crossing (t : Table) : List Row := t.finalGroups.map fun g => ⟨g.key, cellsOf t.plan g⟩

/-- A table of plain types finishes into a chunk that every following plan reads as the
groups of the table. -/
theorem Summarizes.finishChunk_chunkRows {t : Table} {rows : List Row} {q : Plan}
    (h : t.Summarizes rows) (hf : t.plan.Follows q)
    (hkeys : ∀ g ∈ t.plan.groupBy, g.type.isPlain = true)
    (houtputs : ∀ m ∈ t.plan.measures, m.aggregate.output.isPlain = true) :
    ∃ c, t.finishChunk.1 = .ok c ∧ q.chunkRows c = .ok t.crossing := by
  obtain ⟨c, hc, hrows, hstores⟩ := h.finishChunk hkeys houtputs
  have hholds : ∀ g ∈ t.finalGroups, HoldsAll t.plan.keyTypes g.key :=
    fun _ hg => h.resultKeys.holds_key hg
  have hmem : ∀ r ∈ t.crossing, ∃ g ∈ t.finalGroups, r = ⟨g.key, cellsOf t.plan g⟩ := by
    intro r hr
    obtain ⟨g, hg, rfl⟩ := List.mem_map.mp hr
    exact ⟨g, hg, rfl⟩
  have hcarries : Plan.Carries t.plan c t.crossing := by
    refine ⟨?_, ?_, fun r hr => ?_, fun r hr => ?_⟩
    · rw [hrows, resultRows, rowsOf, crossing, List.length_map, List.length_map]
    · rw [crossing, List.map_map]
      exact hstores
    · obtain ⟨g, hg, rfl⟩ := hmem r hr
      exact Plan.length_of_holdsAll (hholds g hg)
    · obtain ⟨g, hg, rfl⟩ := hmem r hr
      exact (h.answers hg).2.1.1
  refine ⟨c, hc, hcarries.chunkRows hf hkeys houtputs fun r hr => ?_⟩
  obtain ⟨g, hg, rfl⟩ := hmem r hr
  exact hf.admits (hholds g hg) (h.answers hg).2.2

/-! ## Classes across stages -/

/-- A class comes out of a table as one row, if it went in at all. -/
theorem Summarizes.rowsWith_crossing {t : Table} {rows : List Row} (h : t.Summarizes rows)
    (key : List Cell) :
    (∃ g ∈ t.finalGroups, keysEqual key g.key = true ∧
      rowsWith key t.crossing = [⟨g.key, cellsOf t.plan g⟩]) ∨
    (rowsWith key t.crossing = [] ∧ rowsWith key rows = []) := by
  have hkeys := h.resultKeys
  have hcrossing : rowsWith key t.crossing =
      (t.finalGroups.filter fun g => keysEqual key g.key).map
        fun g => ⟨g.key, cellsOf t.plan g⟩ := by
    rw [rowsWith, crossing, List.filter_map]
    rfl
  by_cases hany : ∃ g ∈ t.finalGroups, keysEqual key g.key = true
  · obtain ⟨g, hg, heq⟩ := hany
    refine .inl ⟨g, hg, heq, ?_⟩
    rw [hcrossing, filter_key_eq_singleton (List.pairwise_map.mp hkeys.distinct) hg heq]
    rfl
  · have hnone : ∀ g ∈ t.finalGroups, ¬ keysEqual key g.key = true :=
      fun g hg heq => hany ⟨g, hg, heq⟩
    refine .inr ⟨?_, ?_⟩
    · rw [hcrossing, List.filter_eq_nil_iff.mpr hnone]
      rfl
    · refine List.filter_eq_nil_iff.mpr fun r hr heq => ?_
      obtain ⟨g, hg, hgr⟩ := hkeys.exists_group hr
      refine hnone g hg ?_
      rw [keysEqual_congr heq, keysEqual_comm]
      exact hgr

end Table

/-- Rows of the same classes. -/
structure SameClasses (p : Plan) (base rows : List Row) : Prop where
  cover : ∀ r ∈ rows, ∃ b ∈ base, keysEqual b.key r.key = true
  origin : p.groupBy ≠ [] → ∀ b ∈ base, ∃ r ∈ rows, r.key = b.key

namespace SameClasses

variable {p q : Plan} {base rows extra more : List Row} {keys : List (List Cell)}

theorem nil (p : Plan) : SameClasses p [] [] where
  cover _ hr := nomatch hr
  origin _ _ hb := nomatch hb

theorem refl (p : Plan) (rows : List Row) : SameClasses p rows rows where
  cover r hr := ⟨r, hr, keysEqual_refl r.key⟩
  origin _ b hb := ⟨b, hb, rfl⟩

theorem append (h : SameClasses p base rows) (h' : SameClasses p extra more) :
    SameClasses p (base ++ extra) (rows ++ more) where
  cover r hr := by
    rcases List.mem_append.mp hr with hr | hr
    · obtain ⟨b, hb, heq⟩ := h.cover r hr
      exact ⟨b, List.mem_append_left extra hb, heq⟩
    · obtain ⟨b, hb, heq⟩ := h'.cover r hr
      exact ⟨b, List.mem_append_right base hb, heq⟩
  origin hne b hb := by
    rcases List.mem_append.mp hb with hb | hb
    · obtain ⟨r, hr, heq⟩ := h.origin hne b hb
      exact ⟨r, List.mem_append_left more hr, heq⟩
    · obtain ⟨r, hr, heq⟩ := h'.origin hne b hb
      exact ⟨r, List.mem_append_right rows hr, heq⟩

/-- A finished table hands on the classes that it reports. -/
theorem crossing {t : Table} (h : ResultKeys p rows (t.finalGroups.map (·.key))) :
    SameClasses p t.crossing rows where
  cover r hr := by
    obtain ⟨g, hg, hgr⟩ := h.exists_group hr
    exact ⟨⟨g.key, Table.cellsOf t.plan g⟩, List.mem_map_of_mem hg, hgr⟩
  origin hne b hb := by
    obtain ⟨g, hg, rfl⟩ := List.mem_map.mp hb
    exact h.origin hne g.key (List.mem_map_of_mem hg)

/-- Result keys for rows of a later stage are result keys for the rows at the bottom. -/
theorem resultKeys (h : SameClasses p base rows) (htypes : q.keyTypes = p.keyTypes)
    (hkeys : ResultKeys q base keys) : ResultKeys p rows keys := by
  have hnil : q.groupBy = [] ↔ p.groupBy = [] := by
    have hlength := congrArg List.length htypes
    rw [Plan.keyTypes, Plan.keyTypes, List.length_map, List.length_map] at hlength
    rw [← List.length_eq_zero_iff, ← List.length_eq_zero_iff, hlength]
  refine ⟨htypes ▸ hkeys.holds, hkeys.distinct, fun r hr => ?_, fun hne k hk => ?_, ?_⟩
  · obtain ⟨b, hb, hbr⟩ := h.cover r hr
    obtain ⟨k, hk, hkb⟩ := hkeys.cover b hb
    refine ⟨k, hk, ?_⟩
    rw [← keysEqual_congr_right hbr]
    exact hkb
  · obtain ⟨b, hb, rfl⟩ := hkeys.origin (mt hnil.mp hne) k hk
    exact h.origin hne b hb
  · exact fun hp => hkeys.single (hnil.mpr hp)

end SameClasses
end Rollup
