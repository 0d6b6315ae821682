import Rollup.Proofs.Table.Chunks
import Rollup.Proofs.Table.Results

/-
What calls can fail with.

A check fails with a fault of its own (`TableFault.IsRefusal`), or where a cell of a chunk
cannot be read although its column has been accepted (`Plan.CheckFault`).  Behind the checks
there are only the faults of states, and behind the results only those of their columns.
-/

namespace Rollup

/-- Whatever an outcome fails with is such a fault. -/
def FaultsIn {ρ : Type} (F : TableFault → Prop) (x : Except TableFault ρ) : Prop :=
  ∀ e, x = .error e → F e

namespace FaultsIn

variable {ι ρ : Type} {F G : TableFault → Prop} {x : Except TableFault ι} {e : TableFault}

theorem of_ok (a : ι) : FaultsIn F (.ok a) := fun _ h => nomatch h

theorem of_error (he : F e) : FaultsIn F (.error e : Except TableFault ι) :=
  fun _ h => Except.error.inj h ▸ he

theorem mono (h : FaultsIn F x) (hF : ∀ e, F e → G e) : FaultsIn G x :=
  fun e he => hF e (h e he)

theorem map (h : FaultsIn F x) (f : ι → ρ) : FaultsIn F (x.map f) :=
  fun e he => h e (map_eq_error_iff.mp he)

/-- A fault that is passed on stays what it is. -/
theorem error (h : FaultsIn F x) (hx : x = .error e) :
    FaultsIn F (.error e : Except TableFault ρ) :=
  of_error (h e hx)

theorem mapM {f : ι → Except TableFault ρ} {xs : List ι} (h : ∀ x ∈ xs, FaultsIn F (f x)) :
    FaultsIn F (xs.mapM f) := by
  intro e he
  obtain ⟨x, hx, hstep⟩ := exists_of_mapM_eq_error he
  exact h x hx e hstep

end FaultsIn

/-- Faults that checks have of their own.  They are not those of states, of columns of
results or of cells that cannot be read. -/
def TableFault.IsRefusal : TableFault → Prop
  | .state _ | .build _ | .read _ => False
  | _ => True

namespace Plan

/-! ## Rows -/

theorem faultsIn_normalKey (groupBy : List GroupColumn) (key : List Cell) :
    FaultsIn TableFault.IsRefusal (normalKey groupBy key) := by
  rw [normalKey_eq_mapM]
  apply FaultsIn.mapM
  intro x _
  cases x.1.type.normalizeCell x.2 with
  | error e => exact .of_error trivial
  | ok w => exact .of_ok w

theorem faultsIn_normalValues (measures : List Measure) (values : List Cell) :
    FaultsIn TableFault.IsRefusal (normalValues measures values) := by
  rw [normalValues_eq_mapM]
  apply FaultsIn.mapM
  intro x _
  cases x.1.aggregate.normalize x.1.call.ofPartials x.2 with
  | error e => exact .of_error trivial
  | ok w => exact .of_ok w

theorem faultsIn_prepare (p : Plan) (r : Row) :
    FaultsIn TableFault.IsRefusal (p.prepare r) := by
  unfold prepare
  split
  · exact .of_error trivial
  · split
    · exact .of_error trivial
    · split
      · exact (faultsIn_normalKey p.groupBy r.key).error (by assumption)
      · exact (faultsIn_normalValues p.measures r.values).map _

theorem faultsIn_pick (input : List Cell) (column : Nat) :
    FaultsIn TableFault.IsRefusal (pick input column) := by
  unfold pick
  split
  · exact .of_ok _
  · exact .of_error trivial

theorem faultsIn_rowOf (p : Plan) (input : List Cell) :
    FaultsIn TableFault.IsRefusal (p.rowOf input) := by
  unfold rowOf
  split
  · exact (FaultsIn.mapM fun (g : GroupColumn) _ => faultsIn_pick input g.column).error
      (by assumption)
  · exact (FaultsIn.mapM fun m _ => faultsIn_pick input m.call.column).map _

/-! ## Columns -/

theorem faultsIn_chunkColumn (c : Chunk) (index : Nat) :
    FaultsIn TableFault.IsRefusal (chunkColumn c index) := by
  unfold chunkColumn
  split
  · exact .of_ok _
  · exact .of_error trivial

theorem faultsIn_groupColumn (c : Chunk) (g : GroupColumn) :
    FaultsIn TableFault.IsRefusal (groupColumn c g) := by
  unfold groupColumn
  split
  · exact (faultsIn_chunkColumn c g.column).error (by assumption)
  · split
    · exact .of_ok _
    · exact .of_error trivial

theorem faultsIn_measureView (column : Column) (m : Measure) :
    FaultsIn TableFault.IsRefusal (measureView column m) := by
  unfold measureView
  split
  · exact .of_ok _
  · exact .of_error trivial

theorem faultsIn_chunkColumns (p : Plan) (c : Chunk) :
    FaultsIn TableFault.IsRefusal (p.chunkColumns c) := by
  unfold chunkColumns
  split
  · exact (FaultsIn.mapM fun g _ => faultsIn_groupColumn c g).error (by assumption)
  · split
    · exact (FaultsIn.mapM fun (m : Measure) _ => faultsIn_chunkColumn c m.call.column).error
        (by assumption)
    · exact (FaultsIn.mapM fun x _ => faultsIn_measureView x.1 x.2).map _

/-! ## Chunks -/

/-- What the check of a feed can fail with: a fault of its own, or one of reading a cell of
a column that is accepted as the type it is read as. -/
inductive CheckFault (p : Plan) : Feed → TableFault → Prop where
  | refusal {f : Feed} {e : TableFault} (refusal : e.IsRefusal) : CheckFault p f e
  | read {c : Chunk} {type : ColumnType} {j i : Nat} {column : Column} {fault : ReadFault}
      (fits : c.Fits p) (reads : p.ReadsAs j type) (column_eq : c.columns[j]? = some column)
      (accepts : type.accepts column.type = true) (read_eq : column.read i = .error fault) :
      CheckFault p (.chunk c) (.read fault)

variable {p : Plan} {c : Chunk} {type : ColumnType} {j : Nat} {column : Column}

theorem faultsIn_readCell (hfits : c.Fits p) (hreads : p.ReadsAs j type)
    (hcolumn : c.columns[j]? = some column) (haccepts : type.accepts column.type = true)
    (index : Nat) : FaultsIn (p.CheckFault (.chunk c)) (readCell column index) := by
  unfold readCell
  split
  · exact .of_ok _
  · rename_i fault hread
    exact .of_error (.read hfits hreads hcolumn haccepts hread)

theorem faultsIn_chunkRow {keys : List Column} {views : List View}
    (h : p.chunkColumns c = .ok (keys, views)) (index : Nat) :
    FaultsIn (p.CheckFault (.chunk c)) (chunkRow keys views index) := by
  have hfits := exists_chunkColumns_iff.mp ⟨_, h⟩
  obtain ⟨hkeys, hviews⟩ := chunkColumns_eq_ok_iff.mp h
  have hkeyCells : ∀ column ∈ keys, FaultsIn (p.CheckFault (.chunk c)) (readCell column index) := by
    intro column hmem
    obtain ⟨g, hg, hgroup⟩ := exists_of_mem_mapM hkeys hmem
    obtain ⟨hcolumn, haccepts⟩ := groupColumn_eq_ok_iff.mp hgroup
    exact faultsIn_readCell hfits (.inl ⟨g, hg, rfl, rfl⟩) hcolumn haccepts index
  have hviewCells : ∀ v ∈ views,
      FaultsIn (p.CheckFault (.chunk c)) (readCell v.column index) := by
    intro v hmem
    obtain ⟨m, hm, hcolumn, hview⟩ := exists_of_mem_forall₂ hviews.flip hmem
    have haccepts := (measureView_eq_ok_iff.mp hview).1
    exact faultsIn_readCell hfits (.inr ⟨m, hm, rfl, rfl⟩) hcolumn haccepts index
  unfold chunkRow
  split
  · exact (FaultsIn.mapM hkeyCells).error (by assumption)
  · exact (FaultsIn.mapM hviewCells).map _

theorem faultsIn_chunkRows (p : Plan) (c : Chunk) :
    FaultsIn (p.CheckFault (.chunk c)) (p.chunkRows c) := by
  unfold chunkRows
  split
  · exact ((faultsIn_chunkColumns p c).mono fun _ => .refusal).error (by assumption)
  · rename_i keys views hcolumns
    apply FaultsIn.mapM
    intro index _
    split
    · exact (faultsIn_chunkRow hcolumns index).error (by assumption)
    · exact (faultsIn_prepare p _).mono fun _ => .refusal

/-! ## Feeds -/

theorem faultsIn_accepted (p : Plan) (f : Feed) : FaultsIn (p.CheckFault f) (p.accepted f) := by
  cases f with
  | row r => exact ((faultsIn_prepare p r).map _).mono fun _ => .refusal
  | rows rs => exact (FaultsIn.mapM fun r _ => faultsIn_prepare p r).mono fun _ => .refusal
  | input cells =>
    rw [accepted]
    split
    · exact ((faultsIn_rowOf p cells).mono fun _ => .refusal).error (by assumption)
    · exact ((faultsIn_prepare p _).map _).mono fun _ => .refusal
  | chunk c => exact faultsIn_chunkRows p c

theorem faultsIn_check (p : Plan) (finished : Bool) (f : Feed) :
    FaultsIn (p.CheckFault f) (p.check finished f) := by
  cases finished with
  | false =>
    rw [check_false]
    exact faultsIn_accepted p f
  | true =>
    cases f with
    | input cells =>
      rw [check]
      split
      · exact ((faultsIn_rowOf p cells).mono fun _ => .refusal).error (by assumption)
      · exact .of_error (.refusal trivial)
    | _ => exact .of_error (.refusal trivial)

end Plan

/-! ## Calls -/

namespace Ledger

variable {ι : Type} {l other : Ledger} {e : TableFault}

theorem faultsIn_checkMerge (l other : Ledger) :
    FaultsIn TableFault.IsRefusal (l.checkMerge other) := by
  unfold checkMerge
  split
  · exact .of_error trivial
  · split
    · exact .of_error trivial
    · split
      · exact .of_error trivial
      · exact .of_ok _

/-- Behind the checks there are only the faults of states. -/
theorem faultsIn_accumulate (step : Step ι) (l : Ledger) (entries : List (Entry ι)) :
    FaultsIn (fun e => ∃ fault, e = .state fault) (l.accumulate step entries).1 := by
  rw [accumulate]
  cases (l.accumulating.takeEntries step entries).1 with
  | error fault => exact .of_error ⟨fault, rfl⟩
  | ok u => exact .of_ok u

theorem faultsIn_feed (l : Ledger) (f : Feed) :
    FaultsIn (fun e => l.plan.CheckFault f e ∨ ∃ fault, e = .state fault) (l.feed f).1 := by
  rw [feed_eq]
  split
  · rename_i hcheck
    exact .of_error (.inl (Plan.faultsIn_check _ _ f _ hcheck))
  · exact (faultsIn_accumulate takeCell l _).mono fun _ => .inr

theorem faultsIn_merge (l other : Ledger) :
    FaultsIn (fun e => e.IsRefusal ∨ ∃ fault, e = .state fault) (l.merge other).1 := by
  rw [merge_eq]
  split
  · rename_i hcheck
    exact .of_error (.inl (faultsIn_checkMerge l other _ hcheck))
  · exact (faultsIn_accumulate takeState l _).mono fun _ => .inr

end Ledger

namespace Life

theorem faultsIn_finish (life : Life) :
    FaultsIn (· = .alreadyFinished) life.ledger.finish.1 := by
  cases hopen : life.isFinished with
  | false =>
    rw [finish_eq hopen]
    exact .of_ok _
  | true =>
    rw [Ledger.finish_of_isFinished (life.isFinished_ledger.trans hopen)]
    exact .of_error rfl

theorem faultsIn_finishChunk (life : Life) :
    FaultsIn (fun e => e = .alreadyFinished ∨
      ∃ fault, Column.ofRows life.plan.outputTypes life.results = .error fault ∧
        e = .build fault) life.ledger.finishChunk.1 := by
  cases hopen : life.isFinished with
  | false =>
    rw [finishChunk_eq hopen]
    cases Column.ofRows life.plan.outputTypes life.results with
    | error fault => exact .of_error (.inr ⟨fault, rfl, rfl⟩)
    | ok columns => exact .of_ok _
  | true =>
    rw [Ledger.finishChunk_of_isFinished (life.isFinished_ledger.trans hopen)]
    exact .of_error (.inl rfl)

end Life
end Rollup
