import Rollup.Proofs.Table.Run

/-
Chunks as lists of input rows.

The columns that a plan reads from a chunk are those that it picks from an input row, so a
chunk is taken in as the rows that its cells decode to (`chunkRows_eq_mapM`).
-/

namespace Rollup

namespace Plan

variable {p : Plan} {type : ColumnType} {j : Nat}

/-- The numbers of the columns that a plan reads. -/
def columnNumbers (p : Plan) : List Nat :=
  p.groupBy.map (·.column) ++ p.measures.map (·.call.column)

theorem column_mem_of_groupBy {g : GroupColumn} (h : g ∈ p.groupBy) :
    g.column ∈ p.columnNumbers :=
  List.mem_append_left _ (List.mem_map_of_mem h)

theorem column_mem_of_measures {m : Measure} (h : m ∈ p.measures) :
    m.call.column ∈ p.columnNumbers :=
  List.mem_append_right _ (List.mem_map.mpr ⟨m, h, rfl⟩)

/-- A column that the plan reads as a declared type, for the key or for a call. -/
def ReadsAs (p : Plan) (j : Nat) (type : ColumnType) : Prop :=
  (∃ g ∈ p.groupBy, g.column = j ∧ g.type = type) ∨
    ∃ m ∈ p.measures, m.call.column = j ∧ m.aggregate.expects m.call.ofPartials = type

theorem ReadsAs.mem_columnNumbers (h : p.ReadsAs j type) : j ∈ p.columnNumbers := by
  rcases h with ⟨g, hg, rfl, _⟩ | ⟨m, hm, rfl, _⟩
  · exact column_mem_of_groupBy hg
  · exact column_mem_of_measures hm

/-- The row of an input, once it has passed the check. -/
def prepareInput (p : Plan) (input : List Cell) : Except TableFault Row :=
  match p.rowOf input with
  | .error e => .error e
  | .ok r => p.prepare r

theorem accepted_input_eq_ok_iff {input : List Cell} {rows : List Row} :
    p.accepted (.input input) = .ok rows ↔ ∃ r, p.prepareInput input = .ok r ∧ rows = [r] := by
  have haccepted : p.accepted (.input input) = (p.prepareInput input).map fun r => [r] := by
    rw [accepted, prepareInput]
    cases p.rowOf input <;> rfl
  rw [haccepted, map_eq_ok_iff]
  exact exists_congr fun r => and_congr_right fun _ => eq_comm

end Plan

namespace Chunk

variable {c : Chunk} {p : Plan} {i j : Nat}

/-- The cell of a column in a row, if there is one and it can be read. -/
def cell? (c : Chunk) (column row : Nat) : Option Cell :=
  match c.columns[column]? with
  | some stored =>
      match stored.read row with
      | .ok cell => some cell
      | .error _ => none
  | none => none

theorem cell?_eq_some_iff {cell : Cell} :
    c.cell? j i = some cell ↔ ∃ column, c.columns[j]? = some column ∧ column.read i = .ok cell := by
  unfold cell?
  cases c.columns[j]? with
  | none => simp
  | some column => cases hread : column.read i <;> simp [hread]

/-- Whether every cell that the plan reads in a row can be read. -/
def Readable (c : Chunk) (p : Plan) (i : Nat) : Prop :=
  ∀ j ∈ p.columnNumbers, (c.cell? j i).isSome = true

/-- An input that holds in the columns of the plan what the chunk holds in a row. -/
def Decodes (c : Chunk) (p : Plan) (i : Nat) (input : List Cell) : Prop :=
  ∀ j ∈ p.columnNumbers, ∃ cell, c.cell? j i = some cell ∧ input[j]? = some cell

/-- Inputs that hold what the chunk holds, row by row. -/
structure DecodesTo (c : Chunk) (p : Plan) (inputs : List (List Cell)) : Prop where
  length_eq : inputs.length = c.rows
  decodes : ∀ i input, inputs[i]? = some input → c.Decodes p i input

/-- The cells of a row; those that cannot be read are missing. -/
def inputAt (c : Chunk) (i : Nat) : List Cell :=
  (List.range c.columns.length).map fun j => (c.cell? j i).getD none

theorem Readable.decodes (h : c.Readable p i) :
    c.Decodes p i (c.inputAt i) := by
  intro j hj
  obtain ⟨cell, hcell⟩ := Option.isSome_iff_exists.mp (h j hj)
  obtain ⟨column, hcolumn, _⟩ := cell?_eq_some_iff.mp hcell
  have hlt : j < c.columns.length := (List.getElem?_eq_some_iff.mp hcolumn).1
  refine ⟨cell, hcell, ?_⟩
  rw [inputAt, List.getElem?_map, List.getElem?_range hlt, Option.map_some, hcell]
  rfl

theorem exists_decodesTo (h : ∀ i < c.rows, c.Readable p i) : ∃ inputs, c.DecodesTo p inputs := by
  refine ⟨(List.range c.rows).map c.inputAt, by simp, fun i input hinput => ?_⟩
  obtain ⟨hlt, rfl⟩ := List.getElem?_eq_some_iff.mp hinput
  rw [List.length_map, List.length_range] at hlt
  rw [List.getElem_map, List.getElem_range]
  exact (h i hlt).decodes

/-- Whether every column that the plan reads exists and has a type that is accepted. -/
structure Fits (c : Chunk) (p : Plan) : Prop where
  keys : ∀ g ∈ p.groupBy, ∃ column, c.columns[g.column]? = some column ∧
    g.type.accepts column.type = true
  values : ∀ m ∈ p.measures, ∃ column, c.columns[m.call.column]? = some column ∧
    (m.aggregate.expects m.call.ofPartials).accepts column.type = true

end Chunk

namespace Plan

variable {p : Plan} {c : Chunk} {keys : List Column} {views : List View} {i : Nat}
  {input : List Cell} {rows : List Row}

/-! ## Columns -/

theorem pick_eq_ok_iff {j : Nat} {cell : Cell} :
    pick input j = .ok cell ↔ input[j]? = some cell := by
  unfold pick
  cases input[j]? <;> simp

theorem chunkColumn_eq_ok_iff {j : Nat} {column : Column} :
    chunkColumn c j = .ok column ↔ c.columns[j]? = some column := by
  unfold chunkColumn
  cases c.columns[j]? <;> simp

theorem groupColumn_eq_ok_iff {g : GroupColumn} {column : Column} :
    groupColumn c g = .ok column ↔
      c.columns[g.column]? = some column ∧ g.type.accepts column.type = true := by
  unfold groupColumn
  rw [← chunkColumn_eq_ok_iff]
  cases chunkColumn c g.column with
  | error e => simp
  | ok found =>
    by_cases h : g.type.accepts found.type = true
    · simp only [h, if_true, Except.ok.injEq]
      exact ⟨fun heq => ⟨heq, heq ▸ h⟩, And.left⟩
    · simp only [h]
      refine ⟨(nomatch ·), fun ⟨heq, hok⟩ => ?_⟩
      rw [← Except.ok.inj heq] at hok
      exact absurd hok h

theorem measureView_eq_ok_iff {m : Measure} {column : Column} {v : View} :
    measureView column m = .ok v ↔
      (m.aggregate.expects m.call.ofPartials).accepts column.type = true ∧
        v = ⟨column, m.aggregate.expects m.call.ofPartials⟩ := by
  unfold measureView View.ofColumn
  by_cases h : (m.aggregate.expects m.call.ofPartials).accepts column.type = true
  · simp [h, eq_comm]
  · simp [h]

/-- A column for each call, under its number and of a type that it accepts. -/
theorem exists_measureColumns_iff {ms : List Measure} {views : List View} :
    (∃ columns, (ms.mapM fun m => chunkColumn c m.call.column) = .ok columns ∧
      ((columns.zip ms).mapM fun x => measureView x.1 x.2) = .ok views) ↔
    List.Forall₂ (fun m v => c.columns[m.call.column]? = some v.column ∧
      measureView v.column m = .ok v) ms views := by
  induction ms generalizing views with
  | nil =>
    rw [List.forall₂_nil_left_iff]
    constructor
    · rintro ⟨_, h, hviews⟩
      cases h
      exact (Except.ok.inj hviews).symm
    · rintro rfl
      exact ⟨[], rfl, rfl⟩
  | cons m ms ih =>
    rw [List.forall₂_cons_left_iff]
    constructor
    · rintro ⟨_, hcolumns, hviews⟩
      obtain ⟨column, columns, hcolumn, hrest, rfl⟩ := mapM_cons_eq_ok_iff.mp hcolumns
      rw [List.zip_cons_cons] at hviews
      obtain ⟨v, vs, hv, hvs, rfl⟩ := mapM_cons_eq_ok_iff.mp hviews
      obtain ⟨_, rfl⟩ := measureView_eq_ok_iff.mp hv
      exact ⟨_, vs, ⟨chunkColumn_eq_ok_iff.mp hcolumn, hv⟩, ih.mp ⟨columns, hrest, hvs⟩, rfl⟩
    · rintro ⟨v, vs, ⟨hcolumn, hv⟩, hrest, rfl⟩
      obtain ⟨columns, hcolumns, hvs⟩ := ih.mpr hrest
      refine ⟨v.column :: columns, ?_, ?_⟩
      · exact mapM_cons_eq_ok_iff.mpr ⟨_, _, chunkColumn_eq_ok_iff.mpr hcolumn, hcolumns, rfl⟩
      · rw [List.zip_cons_cons]
        exact mapM_cons_eq_ok_iff.mpr ⟨_, _, hv, hvs, rfl⟩

theorem chunkColumns_eq_ok_iff : p.chunkColumns c = .ok (keys, views) ↔
    p.groupBy.mapM (groupColumn c) = .ok keys ∧
      List.Forall₂ (fun m v => c.columns[m.call.column]? = some v.column ∧
        measureView v.column m = .ok v) p.measures views := by
  rw [← exists_measureColumns_iff, chunkColumns]
  cases p.groupBy.mapM (groupColumn c) with
  | error e => simp
  | ok found =>
    cases p.measures.mapM fun m => chunkColumn c m.call.column with
    | error e => simp
    | ok columns => simp [map_eq_ok_iff, and_comm]

/-- A plan reads a chunk that fits it, and no other. -/
theorem exists_chunkColumns_iff : (∃ columns, p.chunkColumns c = .ok columns) ↔ c.Fits p := by
  have hkeys : (∃ keys, p.groupBy.mapM (groupColumn c) = .ok keys) ↔
      ∀ g ∈ p.groupBy, ∃ column, c.columns[g.column]? = some column ∧
        g.type.accepts column.type = true := by
    simp only [exists_mapM_eq_ok_iff, groupColumn_eq_ok_iff]
  have hviews : (∃ views, List.Forall₂ (fun m v => c.columns[m.call.column]? = some v.column ∧
        measureView v.column m = .ok v) p.measures views) ↔
      ∀ m ∈ p.measures, ∃ column, c.columns[m.call.column]? = some column ∧
        (m.aggregate.expects m.call.ofPartials).accepts column.type = true := by
    rw [exists_forall₂_iff]
    refine forall₂_congr fun m _ => ⟨?_, ?_⟩
    · rintro ⟨v, hcolumn, hv⟩
      exact ⟨v.column, hcolumn, (measureView_eq_ok_iff.mp hv).1⟩
    · rintro ⟨column, hcolumn, haccepts⟩
      exact ⟨⟨column, _⟩, hcolumn, measureView_eq_ok_iff.mpr ⟨haccepts, rfl⟩⟩
  constructor
  · rintro ⟨⟨keys, views⟩, h⟩
    obtain ⟨hk, hv⟩ := chunkColumns_eq_ok_iff.mp h
    exact ⟨hkeys.mp ⟨keys, hk⟩, hviews.mp ⟨views, hv⟩⟩
  · rintro ⟨hk, hv⟩
    obtain ⟨keys, hk⟩ := hkeys.mpr hk
    obtain ⟨views, hv⟩ := hviews.mpr hv
    exact ⟨(keys, views), chunkColumns_eq_ok_iff.mpr ⟨hk, hv⟩⟩

/-! ## Rows -/

theorem readCell_eq_pick {j : Nat} {column : Column} (hcolumn : c.columns[j]? = some column)
    (hd : c.Decodes p i input) (hj : j ∈ p.columnNumbers) : readCell column i = pick input j := by
  obtain ⟨cell, hcell, hinput⟩ := hd j hj
  obtain ⟨found, hfound, hread⟩ := Chunk.cell?_eq_some_iff.mp hcell
  obtain rfl : column = found := Option.some.inj (hcolumn.symm.trans hfound)
  rw [readCell, hread, pick, hinput]

/-- A row of a chunk is the row of an input that holds the same cells. -/
theorem chunkRow_eq_rowOf (h : p.chunkColumns c = .ok (keys, views)) (hd : c.Decodes p i input) :
    chunkRow keys views i = p.rowOf input := by
  obtain ⟨hgroup, hviews⟩ := chunkColumns_eq_ok_iff.mp h
  have hkeys : (keys.mapM fun column => readCell column i) =
      p.groupBy.mapM fun g => pick input g.column := by
    refine (mapM_eq_mapM ?_).symm
    refine ((List.forall₂_and_left _ _).mpr ⟨fun _ hg => hg, mapM_eq_ok_iff.mp hgroup⟩).imp ?_
    rintro g column ⟨hg, hcolumn⟩
    exact (readCell_eq_pick (groupColumn_eq_ok_iff.mp hcolumn).1 hd
      (column_mem_of_groupBy hg)).symm
  have hvalues : (views.mapM fun v => readCell v.column i) =
      p.measures.mapM fun m => pick input m.call.column := by
    refine (mapM_eq_mapM ?_).symm
    refine ((List.forall₂_and_left _ _).mpr ⟨fun _ hm => hm, hviews⟩).imp ?_
    rintro m v ⟨hm, hcolumn, _⟩
    exact (readCell_eq_pick hcolumn hd (column_mem_of_measures hm)).symm
  rw [chunkRow, rowOf, hkeys, hvalues]

/-- A chunk is taken in as the rows of inputs that hold the same cells. -/
theorem chunkRows_eq_mapM {inputs : List (List Cell)} (h : c.Fits p)
    (hd : c.DecodesTo p inputs) : p.chunkRows c = inputs.mapM p.prepareInput := by
  obtain ⟨⟨keys, views⟩, hcolumns⟩ := exists_chunkColumns_iff.mpr h
  rw [chunkRows, hcolumns]
  refine mapM_eq_mapM (List.forall₂_iff_get.mpr ⟨?_, fun i hi hinput => ?_⟩)
  · rw [List.length_range, hd.length_eq]
  · have hdecodes := hd.decodes i _ (List.getElem?_eq_getElem hinput)
    simp only [List.get_eq_getElem, List.getElem_range, chunkRow_eq_rowOf hcolumns hdecodes]
    rfl

theorem readCell_eq_ok_iff {column : Column} {cell : Cell} :
    readCell column i = .ok cell ↔ column.read i = .ok cell := by
  unfold readCell
  cases column.read i <;> simp

theorem isSome_cell? {j : Nat} {column : Column} {cell : Cell}
    (hcolumn : c.columns[j]? = some column) (hread : readCell column i = .ok cell) :
    (c.cell? j i).isSome = true := by
  rw [Chunk.cell?_eq_some_iff.mpr ⟨column, hcolumn, readCell_eq_ok_iff.mp hread⟩]
  rfl

theorem readable_of_chunkRow {r : Row} (h : p.chunkColumns c = .ok (keys, views))
    (hr : chunkRow keys views i = .ok r) : c.Readable p i := by
  obtain ⟨hgroup, hviews⟩ := chunkColumns_eq_ok_iff.mp h
  unfold chunkRow at hr
  cases hkeys : keys.mapM fun column => readCell column i with
  | error e => rw [hkeys] at hr; exact nomatch hr
  | ok key =>
    rw [hkeys] at hr
    obtain ⟨values, hvalues, _⟩ := map_eq_ok_iff.mp hr
    have hkeyCells := exists_mapM_eq_ok_iff.mp ⟨key, hkeys⟩
    have hvalueCells := exists_mapM_eq_ok_iff.mp ⟨values, hvalues⟩
    intro j hj
    rcases List.mem_append.mp hj with hj | hj
    · obtain ⟨g, hg, rfl⟩ := List.mem_map.mp hj
      obtain ⟨column, hmem, hcolumn⟩ := exists_of_mem_forall₂ (mapM_eq_ok_iff.mp hgroup) hg
      obtain ⟨cell, hcell⟩ := hkeyCells column hmem
      exact isSome_cell? (groupColumn_eq_ok_iff.mp hcolumn).1 hcell
    · obtain ⟨m, hm, rfl⟩ := List.mem_map.mp hj
      obtain ⟨v, hmem, hcolumn, _⟩ := exists_of_mem_forall₂ hviews hm
      obtain ⟨cell, hcell⟩ := hvalueCells v hmem
      exact isSome_cell? hcolumn hcell

/-- A chunk that is taken in fits, and all of it can be read. -/
theorem readable_of_chunkRows (h : p.chunkRows c = .ok rows) :
    c.Fits p ∧ ∀ i < c.rows, c.Readable p i := by
  unfold chunkRows at h
  split at h
  · exact nomatch h
  · rename_i keys views hcolumns
    refine ⟨exists_chunkColumns_iff.mp ⟨_, hcolumns⟩, fun i hi => ?_⟩
    obtain ⟨r, hr⟩ := exists_mapM_eq_ok_iff.mp ⟨rows, h⟩ i (List.mem_range.mpr hi)
    cases hrow : chunkRow keys views i with
    | error e => rw [hrow] at hr; exact nomatch hr
    | ok raw => exact readable_of_chunkRow hcolumns hrow

/-- A row of a chunk that is taken in is among the rows that it brings. -/
theorem exists_prepareInput (h : p.chunkRows c = .ok rows) (hi : i < c.rows)
    (hd : c.Decodes p i input) : ∃ r ∈ rows, p.prepareInput input = .ok r := by
  unfold chunkRows at h
  split at h
  · exact nomatch h
  · rename_i keys views hcolumns
    obtain ⟨r, hr, hrow⟩ :=
      exists_of_mem_forall₂ (mapM_eq_ok_iff.mp h) (List.mem_range.mpr hi)
    rw [chunkRow_eq_rowOf hcolumns hd] at hrow
    exact ⟨r, hr, hrow⟩

/-- A chunk is taken in if all of it can be read and every row passes the check. -/
theorem exists_chunkRows (hfits : c.Fits p) (hread : ∀ i < c.rows, c.Readable p i)
    (h : ∀ i < c.rows, ∀ input, c.Decodes p i input → ∃ r, p.prepareInput input = .ok r) :
    ∃ rows, p.chunkRows c = .ok rows := by
  obtain ⟨inputs, hd⟩ := Chunk.exists_decodesTo hread
  rw [chunkRows_eq_mapM hfits hd, exists_mapM_eq_ok_iff]
  intro input hinput
  obtain ⟨i, hi⟩ := List.mem_iff_getElem?.mp hinput
  have hlt : i < c.rows := hd.length_eq ▸ (List.getElem?_eq_some_iff.mp hi).1
  exact h i hlt input (hd.decodes i input hi)

end Plan
end Rollup
