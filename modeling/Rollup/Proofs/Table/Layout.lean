import Rollup.Proofs.Column.Stored
import Rollup.Proofs.Table.Report

/-
Chunks of results.

A chunk lays out rows as columns, key columns and result columns alike (`Column.ofRows`),
so what becomes of it is settled by the cells of the rows: whether they are in reach of
their columns and whether they are exact there.
-/

namespace Rollup

open ColumnType (HoldsAll)

/-! ## Rows as columns -/

namespace Column

/-- Columns of the given types for the cells of rows, from left to right. -/
def ofRows : List ColumnType → List (List Cell) → Except BuildFault (List Column)
  | [], _ => .ok []
  | type :: types, rows =>
      match ofCells type (rows.map (·.headD none)) with
      | .error e => .error e
      | .ok c => (ofRows types (rows.map (·.tail))).map (c :: ·)

variable {type : ColumnType} {types others : List ColumnType} {rows : List (List Cell)}
  {columns : List Column}

theorem ofRows_cons_eq_ok_iff : ofRows (type :: types) rows = .ok columns ↔
    ∃ c cs, ofCells type (rows.map (·.headD none)) = .ok c ∧
      ofRows types (rows.map (·.tail)) = .ok cs ∧ columns = c :: cs := by
  rw [ofRows]
  cases ofCells type (rows.map (·.headD none)) with
  | error e => exact iff_of_false nofun nofun
  | ok c =>
    show (ofRows types (rows.map (·.tail))).map (c :: ·) = .ok columns ↔ _
    rw [map_eq_ok_iff]
    constructor
    · intro h
      obtain ⟨cs, hcs, rfl⟩ := h
      exact ⟨c, cs, rfl, hcs, rfl⟩
    · intro h
      obtain ⟨_, cs, h, hcs, rfl⟩ := h
      cases h
      exact ⟨cs, hcs, rfl⟩

/-- Columns for the first cells of rows, then columns for the other cells. -/
theorem ofRows_append {ι : Type} {keys results : ι → List Cell} {xs : List ι}
    (h : ∀ x ∈ xs, (keys x).length = types.length) :
    ofRows (types ++ others) (xs.map fun x => keys x ++ results x) =
      (ofRows types (xs.map keys)).bind fun columns =>
        (ofRows others (xs.map results)).map (columns ++ ·) := by
  induction types generalizing keys with
  | nil =>
    have hrows : (xs.map fun x => keys x ++ results x) = xs.map results :=
      List.map_congr_left fun x hx => by rw [List.eq_nil_of_length_eq_zero (h x hx)]; rfl
    show ofRows others _ = (ofRows others _).map fun columns => columns
    rw [hrows]
    cases ofRows others (xs.map results) <;> rfl
  | cons type types ih =>
    have hcons : ∀ x ∈ xs, ∃ c cs, keys x = c :: cs := fun x hx =>
      List.exists_cons_of_length_eq_add_one (h x hx)
    have hheads : ((xs.map fun x => keys x ++ results x).map fun row => row.headD none) =
        (xs.map keys).map fun row => row.headD none := by
      rw [List.map_map, List.map_map]
      refine List.map_congr_left fun x hx => ?_
      obtain ⟨c, cs, hx⟩ := hcons x hx
      rw [Function.comp_apply, Function.comp_apply, hx]
      rfl
    have htails : ((xs.map fun x => keys x ++ results x).map fun row => row.tail) =
        xs.map fun x => (keys x).tail ++ results x := by
      rw [List.map_map]
      refine List.map_congr_left fun x hx => ?_
      obtain ⟨c, cs, hx⟩ := hcons x hx
      rw [Function.comp_apply, hx]
      rfl
    have hrest : (xs.map keys).map (fun row => row.tail) = xs.map fun x => (keys x).tail :=
      List.map_map
    have hlength : ∀ x ∈ xs, (keys x).tail.length = types.length := fun x hx => by
      rw [List.length_tail, h x hx]
      rfl
    rw [List.cons_append, ofRows, ofRows, hheads, htails, ih hlength, hrest]
    cases ofCells type ((xs.map keys).map fun row => row.headD none) with
    | error e => rfl
    | ok c =>
      cases ofRows types (xs.map fun x => (keys x).tail) with
      | error e => rfl
      | ok columns => cases ofRows others (xs.map results) <;> rfl

theorem types_ofRows (h : ofRows types rows = .ok columns) :
    columns.map (·.type) = types.map (·.storage) := by
  induction types generalizing rows columns with
  | nil =>
    cases h
    rfl
  | cons type types ih =>
    obtain ⟨c, cs, hc, hcs, rfl⟩ := ofRows_cons_eq_ok_iff.mp h
    rw [List.map_cons, List.map_cons, type_ofCells hc, ih hcs]

theorem length_of_mem_ofRows (h : ofRows types rows = .ok columns) :
    ∀ c ∈ columns, c.length = rows.length := by
  induction types generalizing rows columns with
  | nil =>
    cases h
    exact fun _ hc => nomatch hc
  | cons type types ih =>
    obtain ⟨c, cs, hc, hcs, rfl⟩ := ofRows_cons_eq_ok_iff.mp h
    have hrest := ih hcs
    rw [List.length_map] at hrest
    refine List.forall_mem_cons.mpr ⟨?_, hrest⟩
    rw [length_ofCells hc, List.length_map]

/-! ## Complex types -/

theorem isComplex_of_ofRows (h : ofRows types rows = .ok columns) :
    ∀ type ∈ types, type.isComplex = false := by
  induction types generalizing rows columns with
  | nil => exact List.forall_mem_nil _
  | cons type types ih =>
    obtain ⟨_, _, hc, hcs, _⟩ := ofRows_cons_eq_ok_iff.mp h
    exact List.forall_mem_cons.mpr ⟨(ofCells_eq_ok_iff.mp hc).1, ih hcs⟩

theorem ofRows_cons_eq_error_iff {e : BuildFault} : ofRows (type :: types) rows = .error e ↔
    ofCells type (rows.map (·.headD none)) = .error e ∨
      (∃ c, ofCells type (rows.map (·.headD none)) = .ok c) ∧
        ofRows types (rows.map (·.tail)) = .error e := by
  rw [ofRows]
  cases ofCells type (rows.map (·.headD none)) with
  | error e' => simp
  | ok c => simp [map_eq_error_iff]

theorem complex_of_ofRows {other : ColumnType} (h : ofRows types rows = .error (.complex other)) :
    other ∈ types ∧ other.isComplex = true := by
  induction types generalizing rows with
  | nil => exact nomatch h
  | cons type types ih =>
    rcases ofRows_cons_eq_error_iff.mp h with hc | ⟨_, hcs⟩
    · obtain ⟨hcomplex, rfl⟩ := ofCells_eq_complex_iff.mp hc
      exact ⟨List.mem_cons_self, hcomplex⟩
    · obtain ⟨hmem, hcomplex⟩ := ih hcs
      exact ⟨List.mem_cons_of_mem type hmem, hcomplex⟩

/-- Without rows the first complex type is what fails. -/
theorem exists_ofRows_nil (h : ∃ type ∈ types, type.isComplex = true) :
    ∃ type ∈ types, type.isComplex = true ∧ ofRows types [] = .error (.complex type) := by
  induction types with
  | nil => exact nomatch h
  | cons type types ih =>
    cases hcomplex : type.isComplex with
    | true =>
      refine ⟨type, List.mem_cons_self, hcomplex, ofRows_cons_eq_error_iff.mpr (.inl ?_)⟩
      exact ofCells_eq_complex_iff.mpr ⟨hcomplex, rfl⟩
    | false =>
      have hrest : ∃ type ∈ types, type.isComplex = true := by
        obtain ⟨found, hmem, hfound⟩ := h
        rcases List.mem_cons.mp hmem with rfl | hmem
        · rw [hcomplex] at hfound
          exact nomatch hfound
        · exact ⟨found, hmem, hfound⟩
      obtain ⟨found, hmem, hfound, hfault⟩ := ih hrest
      refine ⟨found, List.mem_cons_of_mem type hmem, hfound, ?_⟩
      exact ofRows_cons_eq_error_iff.mpr
        (.inr ⟨⟨_, ofCells_eq_ok_iff.mpr ⟨hcomplex, [], rfl, rfl⟩⟩, hfault⟩)

/-! ## Cells of rows -/

theorem holdsCell_headD {cells : List Cell} (h : HoldsAll (type :: types) cells) :
    type.HoldsCell (cells.headD none) := by
  cases h with
  | cons hc _ => exact hc

theorem holdsAll_tail {cells : List Cell} (h : HoldsAll (type :: types) cells) :
    HoldsAll types cells.tail := by
  cases h with
  | cons _ hcs => exact hcs

theorem satisfyAll_cons_iff {P : ColumnType → Value → Prop} {cells : List Cell}
    (h : HoldsAll (type :: types) cells) : SatisfyAll P (type :: types) cells ↔
      (cells.headD none).Satisfies (P type) ∧ SatisfyAll P types cells.tail := by
  cases h with
  | cons _ _ => exact List.forall₂_cons

theorem holdsCell_heads (h : ∀ row ∈ rows, HoldsAll (type :: types) row) :
    ∀ c ∈ rows.map (·.headD none), type.HoldsCell c :=
  List.forall_mem_map.mpr fun row hrow => holdsCell_headD (h row hrow)

theorem holdsAll_tails (h : ∀ row ∈ rows, HoldsAll (type :: types) row) :
    ∀ row ∈ rows.map (·.tail), HoldsAll types row :=
  List.forall_mem_map.mpr fun row hrow => holdsAll_tail (h row hrow)

/-- Rows can be laid out if all of their cells are in reach of their columns. -/
theorem exists_ofRows_iff (hsimple : ∀ type ∈ types, type.isComplex = false)
    (h : ∀ row ∈ rows, HoldsAll types row) :
    (∃ columns, ofRows types rows = .ok columns) ↔
      ∀ row ∈ rows, SatisfyAll ColumnType.InReach types row := by
  induction types generalizing rows with
  | nil =>
    refine iff_of_true ⟨[], rfl⟩ fun row hrow => ?_
    cases h row hrow
    exact .nil
  | cons type types ih =>
    obtain ⟨htype, htypes⟩ := List.forall_mem_cons.mp hsimple
    have hsplit : (∃ columns, ofRows (type :: types) rows = .ok columns) ↔
        (∃ c, ofCells type (rows.map (·.headD none)) = .ok c) ∧
          ∃ cs, ofRows types (rows.map (·.tail)) = .ok cs := by
      simp only [ofRows_cons_eq_ok_iff]
      constructor
      · intro hcolumns
        obtain ⟨_, c, cs, hc, hcs, _⟩ := hcolumns
        exact ⟨⟨c, hc⟩, cs, hcs⟩
      · intro hcolumns
        obtain ⟨⟨c, hc⟩, cs, hcs⟩ := hcolumns
        exact ⟨c :: cs, c, cs, hc, hcs, rfl⟩
    rw [hsplit, exists_ofCells_iff htype (holdsCell_heads h), ih htypes (holdsAll_tails h),
      List.forall_mem_map, List.forall_mem_map, ← forall₂_and]
    exact forall₂_congr fun row hrow => (satisfyAll_cons_iff (h row hrow)).symm

/-- A row comes back if all of its cells are exact in their columns. -/
theorem mapM_read_eq_iff (hcolumns : ofRows types rows = .ok columns)
    (h : ∀ row ∈ rows, HoldsAll types row) {i : Nat} {row : List Cell}
    (hi : rows[i]? = some row) :
    columns.mapM (·.read i) = .ok row ↔ SatisfyAll ColumnType.IsExact types row := by
  induction types generalizing rows columns row with
  | nil =>
    cases hcolumns
    cases h row (List.mem_of_getElem? hi)
    exact iff_of_true rfl .nil
  | cons type types ih =>
    obtain ⟨c, cs, hc, hcs, rfl⟩ := ofRows_cons_eq_ok_iff.mp hcolumns
    have hrow := h row (List.mem_of_getElem? hi)
    have hhead : (rows.map (·.headD none))[i]? = some (row.headD none) := by
      rw [List.getElem?_map, hi]
      rfl
    have htail : (rows.map (·.tail))[i]? = some row.tail := by
      rw [List.getElem?_map, hi]
      rfl
    have hread := read_eq_iff hc hhead (holdsCell_headD hrow)
    have hreads := ih hcs (holdsAll_tails h) htail
    rw [satisfyAll_cons_iff hrow, ← hread, ← hreads, mapM_cons_eq_ok_iff]
    cases hrow with
    | cons _ _ => simp

end Column

/-! ## Columns of plain types -/

/-- Columns of the given types that hold the cells of `rows` from top to bottom. -/
def StoresAll (columns : List Column) (types : List ColumnType) (rows : List (List Cell)) :
    Prop :=
  columns.length = types.length ∧
    ∀ (j : Nat) (c : Column) (type : ColumnType), columns[j]? = some c → types[j]? = some type →
      c.Stores type (rows.map fun row => row.getD j none)

theorem storesAll_nil (rows : List (List Cell)) : StoresAll [] [] rows :=
  ⟨rfl, fun _ _ _ hc => nomatch hc⟩

theorem storesAll_cons {c : Column} {columns : List Column} {type : ColumnType}
    {types : List ColumnType} {rows : List (List Cell)}
    (hc : c.Stores type (rows.map fun row => row.headD none))
    (h : StoresAll columns types (rows.map (·.tail))) :
    StoresAll (c :: columns) (type :: types) rows := by
  have hhead (row : List Cell) : row.headD none = row.getD 0 none := by cases row <;> rfl
  have htail (j : Nat) : (fun row : List Cell => row.getD j none) ∘ List.tail =
      fun row : List Cell => row.getD (j + 1) none := by
    funext row
    cases row <;> rfl
  refine ⟨congrArg Nat.succ h.1, fun j d type' hd htype => ?_⟩
  cases j with
  | zero =>
    cases hd
    cases htype
    rwa [List.map_congr_left fun row _ => hhead row] at hc
  | succ j =>
    have hstores := h.2 j d type' hd htype
    rwa [List.map_map, htail j] at hstores

theorem Column.exists_storesAll {types : List ColumnType} {rows : List (List Cell)}
    (hplain : ∀ type ∈ types, type.isPlain = true) (h : ∀ row ∈ rows, HoldsAll types row) :
    ∃ columns, ofRows types rows = .ok columns ∧ StoresAll columns types rows := by
  induction types generalizing rows with
  | nil => exact ⟨[], rfl, storesAll_nil rows⟩
  | cons type types ih =>
    obtain ⟨htype, htypes⟩ := List.forall_mem_cons.mp hplain
    obtain ⟨c, hc, hstores⟩ := exists_stores htype (holdsCell_heads h)
    obtain ⟨cs, hcs, hall⟩ := ih htypes (holdsAll_tails h)
    exact ⟨c :: cs, ofRows_cons_eq_ok_iff.mpr ⟨c, cs, hc, hcs, rfl⟩,
      storesAll_cons hstores hall⟩

/-! ## Groups that can be finished -/

/-- The states of a group together with the cells that they finish into. -/
structure Finishes (measures : List Measure) (states : List State) (cells : List Cell) :
    Prop where
  length_eq : states.length = measures.length
  finish_eq : Table.finishStates measures states = .ok cells
  holds : HoldsAll (measures.map (·.aggregate.output)) cells

theorem Finishes.exists_cons {m : Measure} {measures : List Measure} {states : List State}
    {cells : List Cell} (h : Finishes (m :: measures) states cells) :
    ∃ s rest c cs, states = s :: rest ∧ cells = c :: cs ∧ m.aggregate.finish s = .ok c ∧
      Finishes measures rest cs := by
  obtain ⟨hlength, hfinish, hholds⟩ := h
  cases states with
  | nil => exact nomatch hlength
  | cons s rest =>
    rw [Table.finishStates] at hfinish
    split at hfinish
    · cases hfinish
    · rename_i c hc
      obtain ⟨cs, hcs, rfl⟩ := map_eq_ok_iff.mp hfinish
      exact ⟨s, rest, c, cs, rfl, rfl, hc, Nat.succ.inj hlength, hcs,
        Column.holdsAll_tail hholds⟩

namespace Table

theorem keyColumns_eq (groupBy : List GroupColumn) (keys : List (List Cell)) :
    keyColumns groupBy keys =
      (Column.ofRows (groupBy.map (·.type)) keys).mapError .build := by
  induction groupBy generalizing keys with
  | nil => rfl
  | cons g rest ih =>
    rw [keyColumns, List.map_cons, Column.ofRows, ih]
    cases Column.ofCells g.type (keys.map fun key => key.headD none) with
    | error e => rfl
    | ok c => cases Column.ofRows (rest.map (·.type)) (keys.map (·.tail)) <;> rfl

theorem resultColumn_eq {a : Aggregate} {states : List State} {cells : List Cell}
    (hfinish : states.mapM a.finish = .ok cells) :
    resultColumn a states = (Column.ofCells a.output cells).mapError .build := by
  rw [resultColumn, Aggregate.column, hfinish]
  cases h : Column.ofCells a.output cells <;> simp only [h] <;> rfl

theorem resultColumns_eq {ι : Type} {measures : List Measure} {states : ι → List State}
    {cells : ι → List Cell} {xs : List ι}
    (h : ∀ x ∈ xs, Finishes measures (states x) (cells x)) :
    resultColumns measures (xs.map states) =
      (Column.ofRows (measures.map (·.aggregate.output)) (xs.map cells)).mapError .build := by
  induction measures generalizing states cells with
  | nil => rfl
  | cons m rest ih =>
    have hfinish : (statesOf m.aggregate (xs.map states)).mapM m.aggregate.finish =
        .ok ((xs.map cells).map fun row => row.headD none) := by
      rw [statesOf, List.map_map, List.map_map]
      refine mapM_eq_ok_of_getElem (by rw [List.length_map, List.length_map]) fun i hx hy => ?_
      have hi : i < xs.length := by rwa [List.length_map] at hx
      obtain ⟨s, ss, c, cs, hs, hc, hsc, _⟩ := (h xs[i] (List.getElem_mem hi)).exists_cons
      rw [List.getElem_map, List.getElem_map, Function.comp_apply, Function.comp_apply, hs, hc]
      exact hsc
    have hrest : ∀ x ∈ xs, Finishes rest (states x).tail (cells x).tail := by
      intro x hx
      obtain ⟨s, ss, c, cs, hs, hc, _, hfinishes⟩ := (h x hx).exists_cons
      rw [hs, hc]
      exact hfinishes
    have hstates : (xs.map states).map (fun ss => ss.tail) = xs.map fun x => (states x).tail :=
      List.map_map
    have hcells : (xs.map cells).map (fun row => row.tail) = xs.map fun x => (cells x).tail :=
      List.map_map
    rw [resultColumns, resultColumn_eq hfinish, hstates, ih hrest, List.map_cons, Column.ofRows,
      hcells]
    cases Column.ofCells m.aggregate.output ((xs.map cells).map fun row => row.headD none) with
    | error e => rfl
    | ok c =>
      cases Column.ofRows (rest.map (·.aggregate.output)) (xs.map fun x => (cells x).tail) <;> rfl

/-- A table with keys of its plan's types and states that can be finished. -/
structure Settled (t : Table) : Prop where
  unfinished : t.isFinished = false
  keys : ∀ g ∈ t.finalGroups, HoldsAll t.plan.keyTypes g.key
  states : ∀ g ∈ t.finalGroups, Finishes t.plan.measures g.states (cellsOf t.plan g)

namespace Settled

variable {t : Table}

theorem finish_eq (h : t.Settled) : t.finish.1 = .ok t.resultRows := by
  rw [Table.finish, h.unfinished]
  show t.finalGroups.mapM (finishGroup t.plan) = _
  refine mapM_eq_ok_map fun g hg => ?_
  rw [finishGroup, (h.states g hg).finish_eq]

theorem holdsAll (h : t.Settled) : ∀ row ∈ t.resultRows, HoldsAll t.plan.outputTypes row := by
  refine List.forall_mem_map.mpr fun g hg => ?_
  rw [Plan.outputTypes, Plan.aggregates, List.map_map]
  exact List.rel_append (h.keys g hg) (h.states g hg).holds

/-- The chunk of a table is the layout of its result rows. -/
theorem finishChunk_eq (h : t.Settled) :
    t.finishChunk.1 = ((Column.ofRows t.plan.outputTypes t.resultRows).mapError .build).map
      fun columns => ⟨t.resultRows.length, columns⟩ := by
  have hwidth : ∀ g ∈ t.finalGroups, g.key.length = (t.plan.groupBy.map (·.type)).length :=
    fun g hg => (h.keys g hg).length_eq.symm
  have houtputs : t.plan.aggregates.map (·.output) =
      t.plan.measures.map (·.aggregate.output) := List.map_map
  rw [Table.finishChunk, h.unfinished]
  show t.chunk = _
  rw [Table.chunk, keyColumns_eq, resultColumns_eq h.states, Plan.outputTypes, houtputs,
    resultRows, rowsOf, Column.ofRows_append hwidth, List.length_map]
  cases Column.ofRows (t.plan.groupBy.map (·.type)) (t.finalGroups.map (·.key)) with
  | error e => rfl
  | ok keys =>
    cases Column.ofRows (t.plan.measures.map (·.aggregate.output))
        (t.finalGroups.map (cellsOf t.plan)) <;> rfl

end Settled

/-! ## Tables that summarize rows -/

variable {t : Table} {rows : List Row}

theorem Summarizes.settled (h : t.Summarizes rows) : t.Settled where
  unfinished := h.unfinished
  keys g hg := h.resultKeys.holds g.key (List.mem_map_of_mem hg)
  states g hg := ⟨(h.digests_finalGroups g hg).1, (h.answers hg).1, (h.answers hg).2.2⟩

/-- The chunk of a table of plain types holds the rows that the table finishes into. -/
theorem Summarizes.finishChunk (h : t.Summarizes rows)
    (hkeys : ∀ g ∈ t.plan.groupBy, g.type.isPlain = true)
    (houtputs : ∀ m ∈ t.plan.measures, m.aggregate.output.isPlain = true) :
    ∃ c, t.finishChunk.1 = .ok c ∧ c.rows = t.resultRows.length ∧
      StoresAll c.columns t.plan.outputTypes t.resultRows := by
  have hplain : ∀ type ∈ t.plan.outputTypes, type.isPlain = true := by
    rw [Plan.outputTypes, Plan.aggregates, List.map_map, List.forall_mem_append,
      List.forall_mem_map, List.forall_mem_map]
    exact ⟨hkeys, houtputs⟩
  obtain ⟨columns, hcolumns, hstores⟩ := Column.exists_storesAll hplain h.settled.holdsAll
  refine ⟨⟨t.resultRows.length, columns⟩, ?_, rfl, hstores⟩
  rw [h.settled.finishChunk_eq, hcolumns]
  rfl

end Table
end Rollup
