import Rollup.Proofs.Table.Report

/-
Results that agree as maps from group keys to cells.

Exact aggregates answer for the values of a class in any order, so two lists of result rows
that report on the same rows agree, however the rows were ordered.
-/

namespace Rollup

open Aggregate (Answers)
open ColumnType (HoldsAll)

/-- Lists of result rows whose first `width` cells are the key.  Every key stands once in
each list, and the rows with equal keys hold the same cells. -/
structure SameResults (width : Nat) (out other : List (List Cell)) : Prop where
  distinct : (out.map (·.take width)).Pairwise fun k l => keysEqual k l = false
  distinct' : (other.map (·.take width)).Pairwise fun k l => keysEqual k l = false
  forth : ∀ row ∈ out, ∃ row' ∈ other,
    keysEqual (row.take width) (row'.take width) = true ∧ row.drop width = row'.drop width
  back : ∀ row' ∈ other, ∃ row ∈ out,
    keysEqual (row'.take width) (row.take width) = true ∧ row'.drop width = row.drop width

/-! ## Answers for the same rows -/

/-- The cells that admitted rows bring for a call have the form that its aggregate expects. -/
theorem holdsCell_of_mem_columnOf {p : Plan} {rows : List Row} (h : ∀ r ∈ rows, p.Admits r)
    {i : Nat} {m : Measure} (hm : p.measures[i]? = some m) {c : Cell}
    (hc : c ∈ columnOf rows i) : (m.aggregate.expects m.call.ofPartials).HoldsCell c := by
  obtain ⟨r, hr, rfl⟩ := List.mem_map.mp hc
  have hvalues := (h r hr).values
  obtain ⟨hi, rfl⟩ := List.getElem?_eq_some_iff.mp hm
  have hi' : i < r.values.length := hvalues.length_eq ▸ hi
  rw [List.getD_eq_getElem?_getD, List.getElem?_eq_getElem hi']
  exact getElem_of_forall₂ hvalues hi hi'

theorem admits_addends_columnOf {p : Plan} {rows : List Row} (h : ∀ r ∈ rows, p.Admits r)
    {i : Nat} {m : Measure} (hm : p.measures[i]? = some m) :
    m.aggregate.Admits (m.aggregate.addends (columnOf rows i)) :=
  Aggregate.admits_addends fun _ hc => holdsCell_of_mem_columnOf h hm hc

theorem Columnwise.answers_unique {p : Plan} {rows more : List Row} {cells cells' : List Cell}
    (hexact : ∀ m ∈ p.measures, m.aggregate.isReal = false) (hadmits : ∀ r ∈ rows, p.Admits r)
    (hperm : rows.Perm more) (h : Columnwise Answers p.measures (columnOf rows) cells)
    (h' : Columnwise Answers p.measures (columnOf more) cells') : cells = cells' := by
  refine List.ext_getElem (h.1.trans h'.1.symm) fun i hi hi' => ?_
  have hm : i < p.measures.length := h.1 ▸ hi
  have hget : p.measures[i]? = some p.measures[i] := List.getElem?_eq_getElem hm
  have hc := h.2 i _ _ hget (List.getElem?_eq_getElem hi)
  have hc' := h'.2 i _ _ hget (List.getElem?_eq_getElem hi')
  have hcolumn : (columnOf rows i).Perm (columnOf more i) := hperm.map _
  exact (hc.perm (hexact _ (List.getElem_mem hm)) (Aggregate.addends_perm _ hcolumn)).unique
    (fun side type ha v hv => admits_addends_columnOf hadmits hget side type ha v
      ((Aggregate.addends_perm _ hcolumn).mem_iff.mpr hv)) hc'

/-! ## Agreement, class by class -/

/-- The key of a result row is its first cells. -/
theorem take_resultRow {p : Plan} {key : List Cell} (h : HoldsAll p.keyTypes key)
    (cells : List Cell) : (key ++ cells).take p.groupBy.length = key := by
  rw [← Plan.length_of_holdsAll h, List.take_left]

theorem drop_resultRow {p : Plan} {key : List Cell} (h : HoldsAll p.keyTypes key)
    (cells : List Cell) : (key ++ cells).drop p.groupBy.length = cells := by
  rw [← Plan.length_of_holdsAll h, List.drop_left]

/-- Of groups with distinct keys one at most has the given key. -/
theorem filter_key_eq_singleton {groups : List Group} {key : List Cell} {g : Group}
    (hdistinct : groups.Pairwise fun g g' => keysEqual g.key g'.key = false)
    (hg : g ∈ groups) (heq : keysEqual key g.key = true) :
    (groups.filter fun g' => keysEqual key g'.key) = [g] := by
  induction groups with
  | nil => exact nomatch hg
  | cons head rest ih =>
    obtain ⟨hhead, hrest⟩ := List.pairwise_cons.mp hdistinct
    rcases List.mem_cons.mp hg with rfl | hmem
    · have hnil : (rest.filter fun g' => keysEqual key g'.key) = [] := by
        refine List.filter_eq_nil_iff.mpr fun g' hg' => ?_
        rw [keysEqual_congr heq, hhead g' hg']
        decide
      rw [List.filter_cons, if_pos heq, hnil]
    · have hne : ¬ keysEqual key head.key = true := by
        rw [keysEqual_congr heq, keysEqual_comm, hhead g hmem]
        decide
      rw [List.filter_cons, if_neg hne]
      exact ih hrest hmem

section

variable {p : Plan} {rows more : List Row} {groups groups' : List Group}
  {cells cells' : Group → List Cell}

theorem map_take_rowsOf (h : ∀ g ∈ groups, HoldsAll p.keyTypes g.key) :
    (rowsOf groups cells).map (·.take p.groupBy.length) = groups.map (·.key) := by
  rw [rowsOf, List.map_map]
  exact List.map_congr_left fun g hg => take_resultRow (h g hg) (cells g)

theorem exists_partner (hkeys : ResultKeys p rows (groups.map (·.key)))
    (hkeys' : ResultKeys p rows (groups'.map (·.key)))
    (h : ∀ g ∈ groups, ∀ g' ∈ groups', keysEqual g.key g'.key = true → cells g = cells' g') :
    ∀ row ∈ rowsOf groups cells, ∃ row' ∈ rowsOf groups' cells',
      keysEqual (row.take p.groupBy.length) (row'.take p.groupBy.length) = true ∧
        row.drop p.groupBy.length = row'.drop p.groupBy.length := by
  intro row hrow
  obtain ⟨g, hg, rfl⟩ := List.mem_map.mp hrow
  obtain ⟨g', hg', heq⟩ := hkeys.exists_same_group hkeys' hg
  have hkey := hkeys.holds_key hg
  have hkey' := hkeys'.holds_key hg'
  refine ⟨g'.key ++ cells' g', List.mem_map_of_mem hg', ?_, ?_⟩
  · rw [take_resultRow hkey, take_resultRow hkey']
    exact heq
  · rw [drop_resultRow hkey, drop_resultRow hkey']
    exact h g hg g' hg' heq

/-- Results with a row for every class agree if and only if their cells do, class by
class. -/
theorem sameResults_iff (hkeys : ResultKeys p rows (groups.map (·.key)))
    (hkeys' : ResultKeys p rows (groups'.map (·.key))) :
    SameResults p.groupBy.length (rowsOf groups cells) (rowsOf groups' cells') ↔
      ∀ g ∈ groups, ∀ g' ∈ groups', keysEqual g.key g'.key = true → cells g = cells' g' := by
  have hholds : ∀ g ∈ groups, HoldsAll p.keyTypes g.key :=
    fun _ hg => hkeys.holds_key hg
  have hholds' : ∀ g ∈ groups', HoldsAll p.keyTypes g.key :=
    fun _ hg => hkeys'.holds_key hg
  constructor
  · intro h g hg g' hg' heq
    obtain ⟨row', hrow', htake, hdrop⟩ := h.forth (g.key ++ cells g) (List.mem_map_of_mem hg)
    obtain ⟨g'', hg'', rfl⟩ := List.mem_map.mp hrow'
    rw [take_resultRow (hholds g hg), take_resultRow (hholds' g'' hg'')] at htake
    rw [drop_resultRow (hholds g hg), drop_resultRow (hholds' g'' hg'')] at hdrop
    -- The partner of the row and `g'` have the same key, so they are one group.
    have hdistinct := List.pairwise_map.mp hkeys'.distinct
    have hone := filter_key_eq_singleton hdistinct hg' heq
    rw [filter_key_eq_singleton hdistinct hg'' htake] at hone
    rw [hdrop, (List.cons.inj hone).1]
  · intro h
    have hback : ∀ g' ∈ groups', ∀ g ∈ groups, keysEqual g'.key g.key = true →
        cells' g' = cells g := by
      intro g' hg' g hg heq
      rw [keysEqual_comm] at heq
      exact (h g hg g' hg' heq).symm
    refine ⟨?_, ?_, exists_partner hkeys hkeys' h, exists_partner hkeys' hkeys hback⟩
    · rw [map_take_rowsOf hholds]
      exact hkeys.distinct
    · rw [map_take_rowsOf hholds']
      exact hkeys'.distinct

/-- Answers of exact aggregates for the same rows agree. -/
theorem sameResults_of_answers (hexact : ∀ m ∈ p.measures, m.aggregate.isReal = false)
    (hadmits : ∀ r ∈ rows, p.Admits r) (hperm : rows.Perm more)
    (hkeys : ResultKeys p rows (groups.map (·.key)))
    (hkeys' : ResultKeys p more (groups'.map (·.key)))
    (h : ∀ g ∈ groups, Columnwise Answers p.measures (columnOf (rowsWith g.key rows)) (cells g))
    (h' : ∀ g ∈ groups',
      Columnwise Answers p.measures (columnOf (rowsWith g.key more)) (cells' g)) :
    SameResults p.groupBy.length (rowsOf groups cells) (rowsOf groups' cells') := by
  refine (sameResults_iff hkeys (hkeys'.perm hperm.symm)).mpr fun g hg g' hg' heq => ?_
  have hclass : (rowsWith g.key rows).Perm (rowsWith g'.key more) := by
    rw [rowsWith_congr heq]
    exact hperm.filter _
  exact (h g hg).answers_unique hexact (admits_rowsWith hadmits g.key) hclass (h' g' hg')

end

end Rollup
