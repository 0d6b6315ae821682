import Rollup.Proofs.Column.Accepted
import Rollup.Proofs.Plan
import Rollup.Proofs.Table.Emission
import Rollup.Proofs.Table.Refusals

/-
Declared types that nothing can be done with.

A column of a complex type is not read and not built.  Aggregates have neither arguments nor
results of such a type, but group columns may, and then no chunk with rows is taken in and
none comes out.  Apart from that no call fails because of a declared type
(`Life.supported_iff`).
-/

namespace Rollup

/-- A type that is not read from a column, or not stored in one. -/
def TableFault.IsUnsupported : TableFault → Prop
  | .read (.unsupported _) | .build (.complex _) => True
  | _ => False

theorem TableFault.IsRefusal.not_isUnsupported {e : TableFault} (h : e.IsRefusal) :
    ¬ e.IsUnsupported := by
  cases e with
  | state | build | read => exact h.elim
  | _ => exact id

/-- No call fails because of a declared type. -/
structure Ledger.Supported (l : Ledger) : Prop where
  feed (f : Feed) : FaultsIn (¬ ·.IsUnsupported) (l.feed f).1
  merge (other : Ledger) : FaultsIn (¬ ·.IsUnsupported) (l.merge other).1
  finish : FaultsIn (¬ ·.IsUnsupported) l.finish.1
  finishChunk : FaultsIn (¬ ·.IsUnsupported) l.finishChunk.1

namespace Column

variable {type : ColumnType} {column : Column} {i : Nat}

theorem read_of_isComplex (hcomplex : type.isComplex = true)
    (haccepts : type.accepts column.type = true) (hi : i < column.length) :
    column.read i = .error (.unsupported column.type) := by
  rw [read, List.getElem?_eq_getElem hi]
  exact ColumnType.decode_of_isComplex hcomplex haccepts _

theorem read_ne_ok_of_isComplex (hcomplex : type.isComplex = true)
    (haccepts : type.accepts column.type = true) {cell : Cell} : column.read i ≠ .ok cell := by
  intro hread
  obtain ⟨stored, _, hstored⟩ := read_eq_ok_iff.mp hread
  rw [ColumnType.decode_of_isComplex hcomplex haccepts] at hstored
  exact nomatch hstored

end Column

/-- The first row has a cell in every group column, and it can be read unless the column is of
a complex type. -/
def Chunk.Keyed (c : Chunk) (p : Plan) : Prop :=
  ∀ g ∈ p.groupBy, ∀ column, c.columns[g.column]? = some column →
    0 < column.length ∧ (g.type.isComplex = false → ∃ cell, column.read 0 = .ok cell)

/-! ## Plans -/

namespace Plan

variable {n : Node} {p : Plan} {f : Feed} {e : TableFault} {c : Chunk} {g : GroupColumn}
  {type : ColumnType} {rows : List Row}

/-- Complex types stand in group columns alone. -/
theorem exists_groupBy_of_readsAs (hplan : ofNode n = .ok p) {j : Nat} (h : p.ReadsAs j type)
    (hcomplex : type.isComplex = true) : ∃ g ∈ p.groupBy, g.column = j ∧ g.type = type := by
  rcases h with hkey | ⟨m, hm, _, rfl⟩
  · exact hkey
  · rw [isComplex_expects_of_ofNode hplan _ (List.mem_map_of_mem hm)] at hcomplex
    exact nomatch hcomplex

theorem exists_groupBy_of_outputTypes (hplan : ofNode n = .ok p) (h : type ∈ p.outputTypes)
    (hcomplex : type.isComplex = true) : ∃ g ∈ p.groupBy, g.type = type := by
  rcases List.mem_append.mp h with h | h
  · exact List.mem_map.mp h
  · obtain ⟨a, ha, rfl⟩ := List.mem_map.mp h
    rw [isComplex_of_ofNode hplan a ha] at hcomplex
    exact nomatch hcomplex

theorem mem_outputTypes (h : g ∈ p.groupBy) : g.type ∈ p.outputTypes :=
  List.mem_append_left _ (List.mem_map_of_mem h)

/-- A check fails because of a declared type where it reads a group column of a complex
type. -/
theorem CheckFault.unsupported (hplan : ofNode n = .ok p) (h : p.CheckFault f e)
    (hunsupported : e.IsUnsupported) :
    ∃ c g column, f = .chunk c ∧ c.Fits p ∧ g ∈ p.groupBy ∧ g.type.isComplex = true ∧
      c.columns[g.column]? = some column ∧ e = .read (.unsupported column.type) := by
  cases h with
  | refusal hrefusal => exact absurd hunsupported hrefusal.not_isUnsupported
  | @read c type j i column fault fits reads column_eq accepts read_eq =>
    cases fault with
    | unsupported storage =>
      rw [Column.read] at read_eq
      split at read_eq
      · cases read_eq
      · obtain ⟨hcomplex, rfl⟩ := (ColumnType.decode_eq_unsupported_iff accepts).mp read_eq
        obtain ⟨g, hg, rfl, rfl⟩ := exists_groupBy_of_readsAs hplan reads hcomplex
        exact ⟨c, g, column, rfl, fits, hg, hcomplex, column_eq, rfl⟩
    | _ => exact hunsupported.elim

/-! ## Chunks with a complex group column -/

theorem chunkRows_ne_ok (hg : g ∈ p.groupBy) (hcomplex : g.type.isComplex = true)
    (hrows : 0 < c.rows) : p.chunkRows c ≠ .ok rows := by
  intro h
  obtain ⟨hfits, hreadable⟩ := readable_of_chunkRows h
  obtain ⟨column, hcolumn, haccepts⟩ := hfits.keys g hg
  obtain ⟨cell, hcell⟩ :=
    Option.isSome_iff_exists.mp (hreadable 0 hrows g.column (column_mem_of_groupBy hg))
  obtain ⟨found, hfound, hread⟩ := Chunk.cell?_eq_some_iff.mp hcell
  obtain rfl : column = found := Option.some.inj (hcolumn.symm.trans hfound)
  exact Column.read_ne_ok_of_isComplex hcomplex haccepts hread

theorem exists_chunkRow_eq_unsupported {keys : List Column} {views : List View}
    (hcolumns : p.chunkColumns c = .ok (keys, views)) (hkeyed : c.Keyed p) (hg : g ∈ p.groupBy)
    (hcomplex : g.type.isComplex = true) :
    ∃ storage, chunkRow keys views 0 = .error (.read (.unsupported storage)) := by
  obtain ⟨hkeys, _⟩ := chunkColumns_eq_ok_iff.mp hcolumns
  cases hkey : keys.mapM fun column => readCell column 0 with
  | ok key =>
    obtain ⟨column, hmem, hgroup⟩ := exists_of_mem_forall₂ (mapM_eq_ok_iff.mp hkeys) hg
    obtain ⟨cell, hcell⟩ := exists_mapM_eq_ok_iff.mp ⟨key, hkey⟩ column hmem
    have haccepts := (groupColumn_eq_ok_iff.mp hgroup).2
    exact absurd (readCell_eq_ok_iff.mp hcell) (Column.read_ne_ok_of_isComplex hcomplex haccepts)
  | error e =>
    -- The first column that is not read need not be that of `g`, but it is complex as well.
    obtain ⟨column, hmem, hfault⟩ := exists_of_mapM_eq_error hkey
    obtain ⟨g', hg', hgroup⟩ := exists_of_mem_mapM hkeys hmem
    obtain ⟨hcolumn, haccepts⟩ := groupColumn_eq_ok_iff.mp hgroup
    obtain ⟨hlength, hread⟩ := hkeyed g' hg' column hcolumn
    cases hcomplex' : g'.type.isComplex with
    | false =>
      obtain ⟨cell, hcell⟩ := hread hcomplex'
      rw [readCell_eq_ok_iff.mpr hcell] at hfault
      exact nomatch hfault
    | true =>
      rw [readCell, Column.read_of_isComplex hcomplex' haccepts hlength] at hfault
      cases hfault
      exact ⟨column.type, by rw [chunkRow, hkey]⟩

theorem exists_chunkRows_eq_unsupported (hfits : c.Fits p) (hkeyed : c.Keyed p)
    (hrows : 0 < c.rows) (hg : g ∈ p.groupBy) (hcomplex : g.type.isComplex = true) :
    ∃ storage, p.chunkRows c = .error (.read (.unsupported storage)) := by
  obtain ⟨⟨keys, views⟩, hcolumns⟩ := exists_chunkColumns_iff.mpr hfits
  obtain ⟨storage, hrow⟩ := exists_chunkRow_eq_unsupported hcolumns hkeyed hg hcomplex
  obtain ⟨n, hn⟩ := Nat.exists_eq_add_one_of_ne_zero hrows.ne'
  refine ⟨storage, ?_⟩
  rw [chunkRows, hcolumns, hn, List.range_succ_eq_map]
  refine mapM_cons_eq_error_iff.mpr (.inl ?_)
  rw [hrow]

end Plan

/-! ## Lives -/

namespace Life

variable {n : Node} {p : Plan} {life : Life} {e : TableFault} {g : GroupColumn}

theorem unsupported_of_feed (hplan : Plan.ofNode n = .ok p) (hlife : life.plan = p) {f : Feed}
    (h : (life.ledger.feed f).1 = .error e) (hunsupported : e.IsUnsupported) :
    ∃ c g column, f = .chunk c ∧ c.Fits p ∧ g ∈ p.groupBy ∧ g.type.isComplex = true ∧
      c.columns[g.column]? = some column ∧ e = .read (.unsupported column.type) := by
  rcases life.ledger.faultsIn_feed f e h with hcheck | ⟨fault, rfl⟩
  · rw [plan_ledger, hlife] at hcheck
    exact hcheck.unsupported hplan hunsupported
  · exact hunsupported.elim

theorem supported_merge (life : Life) (other : Ledger) :
    FaultsIn (¬ ·.IsUnsupported) (life.ledger.merge other).1 := by
  refine (life.ledger.faultsIn_merge other).mono ?_
  rintro _ (hrefusal | ⟨fault, rfl⟩)
  · exact hrefusal.not_isUnsupported
  · exact id

theorem supported_finish (life : Life) : FaultsIn (¬ ·.IsUnsupported) life.ledger.finish.1 := by
  refine life.faultsIn_finish.mono ?_
  rintro _ rfl
  exact id

theorem unsupported_of_finishChunk (hplan : Plan.ofNode n = .ok p) (hlife : life.plan = p)
    (h : life.ledger.finishChunk.1 = .error e) (hunsupported : e.IsUnsupported) :
    ∃ g ∈ p.groupBy, g.type.isComplex = true ∧ e = .build (.complex g.type) := by
  rcases life.faultsIn_finishChunk e h with rfl | ⟨fault, hlayout, rfl⟩
  · exact hunsupported.elim
  · cases fault with
    | complex type =>
      obtain ⟨hmem, hcomplex⟩ := Column.complex_of_ofRows hlayout
      rw [hlife] at hmem
      obtain ⟨g, hg, rfl⟩ := Plan.exists_groupBy_of_outputTypes hplan hmem hcomplex
      exact ⟨g, hg, hcomplex, rfl⟩
    | _ => exact hunsupported.elim

theorem updateChunk_eq_unsupported (hopen : life.isFinished = false) (hg : g ∈ life.plan.groupBy)
    (hcomplex : g.type.isComplex = true) {c : Chunk} (hfits : c.Fits life.plan)
    (hkeyed : c.Keyed life.plan) (hrows : 0 < c.rows) :
    ∃ storage,
      life.ledger.updateChunk c = (.error (.read (.unsupported storage)), life.ledger) := by
  obtain ⟨storage, hfault⟩ :=
    Plan.exists_chunkRows_eq_unsupported hfits hkeyed hrows hg hcomplex
  have hcheck : life.ledger.plan.check life.ledger.isFinished (.chunk c) =
      .error (.read (.unsupported storage)) := by
    rw [plan_ledger, isFinished_ledger, hopen]
    exact hfault
  refine ⟨storage, ?_⟩
  show life.ledger.feed (.chunk c) = _
  rw [Ledger.feed_eq, hcheck]

theorem finishChunk_ne_ok (hg : g ∈ life.plan.groupBy) (hcomplex : g.type.isComplex = true)
    (c : Chunk) : life.ledger.finishChunk.1 ≠ .ok c := by
  intro h
  cases hopen : life.isFinished with
  | false =>
    obtain ⟨columns, hcolumns, _⟩ := (finishChunk_eq_ok_iff hopen).mp h
    rw [Column.isComplex_of_ofRows hcolumns _ (Plan.mem_outputTypes hg)] at hcomplex
    cases hcomplex
  | true =>
    rw [Ledger.finishChunk_of_isFinished (life.isFinished_ledger.trans hopen)] at h
    cases h

/-- Even where there is nothing to report, the columns cannot be built. -/
theorem finishChunk_eq_complex (hopen : life.isFinished = false) (hempty : life.results = [])
    (hg : g ∈ life.plan.groupBy) (hcomplex : g.type.isComplex = true) :
    ∃ type, life.ledger.finishChunk.1 = .error (.build (.complex type)) := by
  obtain ⟨type, _, _, hfault⟩ :=
    Column.exists_ofRows_nil ⟨g.type, Plan.mem_outputTypes hg, hcomplex⟩
  refine ⟨type, ?_⟩
  rw [finishChunk_eq hopen, hempty, hfault]
  rfl

theorem results_ofPlan (hg : g ∈ p.groupBy) : (Life.ofPlan p).results = [] := by
  have hgrouped : p.groupBy.isEmpty = false := by
    cases hgroups : p.groupBy with
    | nil => rw [hgroups] at hg; exact nomatch hg
    | cons => rfl
  show rowsOf (if p.groupBy.isEmpty then _ else []) _ = []
  rw [hgrouped]
  rfl

/-- The ledgers of a plan are free of faults that are due to a declared type if and only if
no group column is of a complex type.  Such faults come from a chunk of columns that have
passed the check of their types, or from the results as a chunk, and a group column of a
complex type always brings them about. -/
theorem supported_iff (hplan : Plan.ofNode n = .ok p) :
    ((∀ life : Life, life.plan = p → life.ledger.Supported) ↔
      ∀ g ∈ p.groupBy, g.type.isComplex = false) ∧
    (∀ life : Life, life.plan = p →
      (∀ f e, (life.ledger.feed f).1 = .error e → e.IsUnsupported →
        ∃ c g column, f = .chunk c ∧ c.Fits p ∧ g ∈ p.groupBy ∧ g.type.isComplex = true ∧
          c.columns[g.column]? = some column ∧ e = .read (.unsupported column.type)) ∧
      (∀ other, FaultsIn (¬ ·.IsUnsupported) (life.ledger.merge other).1) ∧
      FaultsIn (¬ ·.IsUnsupported) life.ledger.finish.1 ∧
      ∀ e, life.ledger.finishChunk.1 = .error e → e.IsUnsupported →
        ∃ g ∈ p.groupBy, g.type.isComplex = true ∧ e = .build (.complex g.type)) ∧
    ∀ g ∈ p.groupBy, g.type.isComplex = true → ∀ life : Life, life.plan = p →
      (∀ c, 0 < c.rows → ∃ e, life.ledger.updateChunk c = (.error e, life.ledger)) ∧
      (∀ c, life.ledger.finishChunk.1 ≠ .ok c) ∧
      (life.isFinished = false →
        (∀ c, c.Fits p → c.Keyed p → 0 < c.rows → ∃ storage,
          life.ledger.updateChunk c = (.error (.read (.unsupported storage)), life.ledger)) ∧
        (life.results = [] → ∃ type,
          life.ledger.finishChunk.1 = .error (.build (.complex type)))) := by
  refine ⟨⟨fun hsupported g hg => ?_, fun hsimple life hlife => ?_⟩, fun life hlife => ?_, ?_⟩
  · refine Bool.eq_false_iff.mpr fun hcomplex => ?_
    obtain ⟨type, hfault⟩ :=
      @finishChunk_eq_complex (.ofPlan p) g rfl (results_ofPlan hg) hg hcomplex
    exact (hsupported (.ofPlan p) rfl).finishChunk _ hfault trivial
  · have hcontra {g : GroupColumn} (hg : g ∈ p.groupBy) (hcomplex : g.type.isComplex = true) :
        False := by
      rw [hsimple g hg] at hcomplex
      exact nomatch hcomplex
    exact {
      feed := fun f e he hunsupported => by
        obtain ⟨_, g, _, _, _, hg, hcomplex, _⟩ := unsupported_of_feed hplan hlife he hunsupported
        exact hcontra hg hcomplex
      merge := life.supported_merge
      finish := life.supported_finish
      finishChunk := fun e he hunsupported => by
        obtain ⟨g, hg, hcomplex, _⟩ := unsupported_of_finishChunk hplan hlife he hunsupported
        exact hcontra hg hcomplex }
  · exact ⟨fun f e => unsupported_of_feed hplan hlife, life.supported_merge,
      life.supported_finish, fun e => unsupported_of_finishChunk hplan hlife⟩
  · rintro g hg hcomplex life rfl
    refine ⟨fun c hrows => ?_, finishChunk_ne_ok hg hcomplex, fun hopen => ⟨?_, ?_⟩⟩
    · rw [← plan_ledger] at hg
      exact Ledger.feed_eq_error (f := .chunk c) fun rows =>
        Plan.chunkRows_ne_ok hg hcomplex hrows
    · exact fun c => updateChunk_eq_unsupported hopen hg hcomplex
    · exact fun hempty => finishChunk_eq_complex hopen hempty hg hcomplex

namespace Lists

/-- Sums for each list of integers. -/
def node : Node where
  id := 2
  groupBy := [⟨0, .array (.integer .int), none⟩]
  calls := [⟨"sum", .integer .int, 1, none, false⟩]

def plan : Plan where
  name := "AGGREGATE (id=2)"
  groupBy := [⟨0, .array (.integer .int), none⟩]
  measures := [⟨⟨"sum", .integer .int, 1, none, false⟩, .sumInteger .int⟩]

/-- A missing list and a number. -/
def chunk : Chunk :=
  ⟨1, [⟨.list (.mk "item" (.int .int) true), [none]⟩, ⟨.int .int, [some (.wrap 1)]⟩]⟩

end Lists

theorem supported_iff_lists : ¬ ∀ life : Life, life.plan = Lists.plan → life.ledger.Supported := by
  have hplan : Plan.ofNode Lists.node = .ok Lists.plan := rfl
  intro hsupported
  exact nomatch (supported_iff hplan).1.mp hsupported _ (.head _)

/-- A plan that groups by lists is accepted; then a chunk whose columns pass the check of
their types is refused because lists cannot be read, and the results cannot be stored. -/
theorem complex_key_refused_late :
    ∃ p, Plan.ofNode Lists.node = .ok p ∧
      Lists.chunk.Fits p ∧
      (Ledger.ofPlan p).updateChunk Lists.chunk =
        (.error (.read (.unsupported (.list (.mk "item" (.int .int) true)))), Ledger.ofPlan p) ∧
      (Ledger.ofPlan p).finishChunk.1 = .error (.build (.complex (.array (.integer .int)))) := by
  refine ⟨Lists.plan, rfl, ⟨?_, ?_⟩, rfl, rfl⟩
  · exact List.forall_mem_singleton.mpr ⟨_, rfl, rfl⟩
  · exact List.forall_mem_singleton.mpr ⟨_, rfl, rfl⟩

end Life
end Rollup
