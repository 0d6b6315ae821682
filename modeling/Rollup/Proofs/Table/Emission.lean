import Rollup.Proofs.Table.Results
import Rollup.Proofs.Table.SinglePass

/-
Chunks of results that read as the result rows.

A chunk `Mirrors` rows if it has the columns that the plan's schema names, as many rows, and
every row comes back when its columns are read.  A chunk that was laid out from rows mirrors
them if and only if all their cells are exact in their columns (`Chunk.mirrors_ofRows_iff`),
which is always so for plain types.
-/

namespace Rollup

namespace Chunk

/-- The fields of the columns under the given names. -/
def fields (c : Chunk) (names : List String) : List StorageField :=
  names.zipWith (fun name column => .mk name column.type true) c.columns

structure Mirrors (c : Chunk) (p : Plan) (rows : List (List Cell)) : Prop where
  width : c.columns.length = p.schema.length
  schema : c.fields p.outputNames = p.schema
  height : c.rows = rows.length
  lengths : ∀ column ∈ c.columns, column.length = rows.length
  reads : ∀ i row, rows[i]? = some row → c.columns.mapM (·.read i) = .ok row

variable {p : Plan} {columns : List Column} {rows : List (List Cell)}

theorem length_schema (p : Plan) : p.schema.length = p.outputTypes.length := by
  have hnames : p.outputNames.length = p.outputTypes.length := by
    simp [Plan.outputNames, Plan.outputTypes, Plan.aggregates]
  rw [Plan.schema, List.length_zipWith, hnames, Nat.min_self]

theorem fields_ofRows (h : Column.ofRows p.outputTypes rows = .ok columns) (n : Nat) :
    fields ⟨n, columns⟩ p.outputNames = p.schema := by
  have htypes := Column.types_ofRows h
  have hfields : fields ⟨n, columns⟩ p.outputNames =
      p.outputNames.zipWith (fun name type => StorageField.mk name type true)
        (columns.map (·.type)) := by
    rw [List.zipWith_map_right]
    rfl
  rw [hfields, htypes, List.zipWith_map_right]
  rfl

theorem mirrors_ofRows_iff (h : Column.ofRows p.outputTypes rows = .ok columns)
    (hholds : ∀ row ∈ rows, ColumnType.HoldsAll p.outputTypes row) :
    Mirrors ⟨rows.length, columns⟩ p rows ↔
      ∀ row ∈ rows, SatisfyAll ColumnType.IsExact p.outputTypes row := by
  constructor
  · intro hmirrors row hrow
    obtain ⟨i, hi⟩ := List.mem_iff_getElem?.mp hrow
    exact (Column.mapM_read_eq_iff h hholds hi).mp (hmirrors.reads i row hi)
  · intro hexact
    have hlength : columns.length = p.outputTypes.length := by
      have hlengths := congrArg List.length (Column.types_ofRows h)
      rwa [List.length_map, List.length_map] at hlengths
    exact {
      width := hlength.trans (length_schema p).symm
      schema := fields_ofRows h _
      height := rfl
      lengths := Column.length_of_mem_ofRows h
      reads := fun i row hi =>
        (Column.mapM_read_eq_iff h hholds hi).mpr (hexact row (List.mem_of_getElem? hi)) }

end Chunk

/-! ## Chunks of lives -/

namespace Life

variable {life : Life}

theorem finishChunk_eq_ok_iff (hopen : life.isFinished = false) {c : Chunk} :
    life.ledger.finishChunk.1 = .ok c ↔
      ∃ columns, Column.ofRows life.plan.outputTypes life.results = .ok columns ∧
        c = ⟨life.results.length, columns⟩ := by
  rw [finishChunk_eq hopen]
  cases Column.ofRows life.plan.outputTypes life.results with
  | error e => exact iff_of_false nofun nofun
  | ok columns =>
    constructor
    · intro h
      exact ⟨columns, rfl, (Except.ok.inj h).symm⟩
    · intro h
      obtain ⟨_, hcolumns, rfl⟩ := h
      cases hcolumns
      rfl

/-- The results can be laid out if all of their cells are in reach of their columns. -/
theorem exists_finishChunk_iff (hopen : life.isFinished = false)
    (hsimple : ∀ type ∈ life.plan.outputTypes, type.isComplex = false) :
    (∃ c, life.ledger.finishChunk.1 = .ok c) ↔
      ∀ row ∈ life.results, SatisfyAll ColumnType.InReach life.plan.outputTypes row := by
  rw [← Column.exists_ofRows_iff hsimple (holdsAll_results hopen)]
  simp only [finishChunk_eq_ok_iff hopen]
  constructor
  · intro h
    obtain ⟨_, columns, hcolumns, _⟩ := h
    exact ⟨columns, hcolumns⟩
  · intro h
    obtain ⟨columns, hcolumns⟩ := h
    exact ⟨_, columns, hcolumns, rfl⟩

theorem mirrors_iff (hopen : life.isFinished = false) {c : Chunk}
    (hc : life.ledger.finishChunk.1 = .ok c) :
    c.Mirrors life.plan life.results ↔
      ∀ row ∈ life.results, SatisfyAll ColumnType.IsExact life.plan.outputTypes row := by
  obtain ⟨columns, hcolumns, rfl⟩ := (finishChunk_eq_ok_iff hopen).mp hc
  exact Chunk.mirrors_ofRows_iff hcolumns (holdsAll_results hopen)

theorem forall_outputTypes {Q : ColumnType → Prop} {p : Plan}
    (hkeys : ∀ g ∈ p.groupBy, Q g.type) (houtputs : ∀ a ∈ p.aggregates, Q a.output) :
    ∀ type ∈ p.outputTypes, Q type :=
  List.forall_mem_append.mpr ⟨List.forall_mem_map.mpr hkeys, List.forall_mem_map.mpr houtputs⟩

/-- Whatever an open ledger has been through, if no group column and no extreme is of a
complex type or a timestamp then it can be finished into a chunk, and the chunk mirrors the
rows that it would have been finished into. -/
theorem chunk_mirrors_rows (hopen : life.isFinished = false)
    (hkeys : ∀ g ∈ life.plan.groupBy, g.type.isPlain = true)
    (hextremes : ∀ side type, .extreme side type ∈ life.plan.aggregates →
      type.isPlain = true) :
    ∃ c rows, life.ledger.finishChunk.1 = .ok c ∧ life.ledger.finish.1 = .ok rows ∧
      c.Mirrors life.plan rows := by
  have houtputs : ∀ a ∈ life.plan.aggregates, a.output.isPlain = true := by
    intro a ha
    cases a with
    | extreme side type => exact hextremes side type ha
    | _ => rfl
  have hplain := forall_outputTypes (Q := (·.isPlain = true)) hkeys houtputs
  have hlength : ∀ row ∈ life.results, life.plan.outputTypes.length = row.length :=
    fun row hrow => (holdsAll_results hopen row hrow).length_eq
  have hreach : ∃ c, life.ledger.finishChunk.1 = .ok c := by
    rw [exists_finishChunk_iff hopen fun type htype =>
      ColumnType.not_isComplex_of_isPlain (hplain type htype)]
    exact fun row hrow => satisfyAll_of_forall (hlength row hrow) fun type htype =>
      ColumnType.inReach_of_isPlain (hplain type htype)
  obtain ⟨c, hc⟩ := hreach
  refine ⟨c, life.results, hc, finish_eq hopen, ?_⟩
  rw [mirrors_iff hopen hc]
  exact fun row hrow => satisfyAll_of_forall (hlength row hrow) fun type htype =>
    ColumnType.isExact_of_isPlain (hplain type htype)

theorem chunk_mirrors_rows_orders :
    ∃ p, Plan.ofNode Orders.node = .ok p ∧
      ∃ c rows, (ofFeeds p Orders.feeds).ledger.finishChunk.1 = .ok c ∧
        (ofFeeds p Orders.feeds).ledger.finish.1 = .ok rows ∧ c.Mirrors p rows := by
  refine ⟨_, rfl, chunk_mirrors_rows rfl ?_ ?_⟩
  · intro g hg
    rw [List.mem_singleton.mp hg]
    rfl
  · intro side type hextreme
    rcases List.mem_cons.mp hextreme with h | h
    · exact nomatch h
    · cases List.mem_singleton.mp h
      rfl

end Life
end Rollup
