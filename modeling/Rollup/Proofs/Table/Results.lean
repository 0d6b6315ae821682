import Rollup.Proofs.Table.Retention
import Rollup.Proofs.Table.RowByRow

/-
Results of lives.

`Life.rows` are all rows that passed their checks in the course of a life, those of merged
lives included.  A ledger retains what these rows offered (`Life.retains_ledger`), and so do
the rows that it finishes into (`Life.yields_results`).  The results of an open ledger
always exist, as rows (`Life.finish_eq`) and laid out as columns (`Life.finishChunk_eq`).
-/

namespace Rollup

open ColumnType (HoldsAll)

variable {P : ColumnType → Value → Prop}

/-! ## Rows that are offered -/

namespace Plan

variable {p q : Plan} {r : Row}

theorem Offers.congr (h : p.Offers P r) (hkeys : p.keyTypes = q.keyTypes)
    (haggregates : p.aggregates = q.aggregates) : q.Offers P r :=
  ⟨hkeys ▸ h.key, haggregates ▸ h.values⟩

/-- What every value of a type has, the values of every admitted row have. -/
theorem Admits.offers (h : p.Admits r) (hP : ∀ type v, type.Holds v → P type v) :
    p.Offers P r where
  key := h.key.imp fun type _ hc v hv => hP type v (hc v hv)
  values := by
    refine List.forall₂_map_left_iff.mpr (h.values.imp fun m c hc => ?_)
    exact Aggregate.offered_of_satisfies fun v hv => hP _ v (hc v hv)

end Plan

/-! ## Rows of a life -/

namespace Life

variable {life : Life}

/-- The rows that have passed their checks, those of merged lives included, whether or not
they were taken in then. -/
def rows : Life → List Row
  | .ofPlan _ => []
  | .feed life f =>
      match life.ledger.plan.check life.ledger.isFinished f with
      | .error _ => life.rows
      | .ok rows => life.rows ++ rows
  | .merge life other =>
      match life.ledger.checkMerge other.ledger with
      | .error _ => life.rows
      | .ok _ => life.rows ++ other.rows
  | .finish life => life.rows
  | .finishChunk life => life.rows

/-- Whether all feeds are of one kind, those of merged lives included. -/
def FedBy (F : Feed → Prop) : Life → Prop
  | .ofPlan _ => True
  | .feed life f => life.FedBy F ∧ F f
  | .merge life other => life.FedBy F ∧ other.FedBy F
  | .finish life | .finishChunk life => life.FedBy F

theorem fedBy_true (life : Life) : life.FedBy fun _ => True := by
  induction life with
  | ofPlan p => trivial
  | feed life f ih => exact ⟨ih, trivial⟩
  | merge life other ih iho => exact ⟨ih, iho⟩
  | finish life ih | finishChunk life ih => exact ih

/-- The rows of a life have what each of its feeds gives the rows that it brings. -/
theorem offers_rows {F : Feed → Prop} (hlife : life.FedBy F)
    (h : ∀ (p : Plan) (f : Feed) (rows : List Row), F f → p.accepted f = .ok rows →
      ∀ r ∈ rows, p.Offers P r) :
    ∀ r ∈ life.rows, life.plan.Offers P r := by
  induction life with
  | ofPlan p => exact fun _ hr => nomatch hr
  | feed life f ih =>
    obtain ⟨hfed, hf⟩ := hlife
    intro r hr
    cases hcheck : life.ledger.plan.check life.ledger.isFinished f with
    | error e =>
      rw [rows, hcheck] at hr
      exact ih hfed r hr
    | ok rows =>
      rw [Life.rows, hcheck] at hr
      rcases List.mem_append.mp hr with hr | hr
      · exact ih hfed r hr
      · have haccepted := (Plan.check_eq_ok_iff.mp hcheck).2
        rw [plan_ledger] at haccepted
        exact h life.plan f rows hf haccepted r hr
  | merge life other ih iho =>
    obtain ⟨hfed, hother⟩ := hlife
    intro r hr
    cases hcheck : life.ledger.checkMerge other.ledger with
    | error e =>
      rw [rows, hcheck] at hr
      exact ih hfed r hr
    | ok groups =>
      have hsame := (Ledger.checkMerge_eq_ok_iff.mp hcheck).2.2.1
      rw [plan_ledger, plan_ledger] at hsame
      rw [rows, hcheck] at hr
      rcases List.mem_append.mp hr with hr | hr
      · exact ih hfed r hr
      · exact (iho hother r hr).congr (Ledger.keyTypes_eq_of_sameAggregation hsame).symm
          (Ledger.aggregates_eq_of_sameAggregation hsame).symm
  | finish life ih | finishChunk life ih => exact ih hlife

/-- What the rows of a life offered, its ledger retains, whatever became of the calls. -/
theorem retains_ledger {life : Life} (h : ∀ r ∈ life.rows, life.plan.Offers P r) :
    life.ledger.Retains P := by
  induction life with
  | ofPlan p => exact Ledger.retains_of_nil rfl rfl
  | feed life f ih =>
    rw [ledger, Ledger.feed_eq]
    cases hcheck : life.ledger.plan.check life.ledger.isFinished f with
    | error e =>
      rw [rows, hcheck] at h
      exact ih h
    | ok rows =>
      rw [Life.rows, hcheck] at h
      obtain ⟨hlife, hnew⟩ := List.forall_mem_append.mp h
      refine (ih hlife).accumulate fun e he => ?_
      obtain ⟨r, hr, rfl⟩ := List.mem_map.mp he
      have hadmits := Plan.admits_of_accepted (Plan.check_eq_ok_iff.mp hcheck).2 r hr
      exact Ledger.isSound_row hadmits (life.plan_ledger.symm ▸ hnew r hr)
  | merge life other ih iho =>
    rw [ledger, Ledger.merge_eq]
    cases hcheck : life.ledger.checkMerge other.ledger with
    | error e =>
      rw [rows, hcheck] at h
      exact ih h
    | ok groups =>
      rw [rows, hcheck] at h
      obtain ⟨hlife, hnew⟩ := List.forall_mem_append.mp h
      obtain ⟨_, _, hsame, rfl⟩ := Ledger.checkMerge_eq_ok_iff.mp hcheck
      have hother : ∀ r ∈ other.rows, other.plan.Offers P r := by
        intro r hr
        rw [plan_ledger, plan_ledger] at hsame
        exact (hnew r hr).congr (Ledger.keyTypes_eq_of_sameAggregation hsame)
          (Ledger.aggregates_eq_of_sameAggregation hsame)
      refine (ih hlife).accumulate fun e he => ?_
      obtain ⟨g, hg, rfl⟩ := List.mem_map.mp he
      exact (iho hother).isSound_group hsame hg
  | finish life ih =>
    rw [ledger, Ledger.finish]
    split
    · exact ih h
    · exact Ledger.retains_of_nil rfl rfl
  | finishChunk life ih =>
    rw [ledger, Ledger.finishChunk]
    split
    · exact ih h
    · exact Ledger.retains_of_nil rfl rfl

/-- What all values of their types have, the rows of every life offer. -/
theorem offers_of_holds (life : Life) (hP : ∀ type v, type.Holds v → P type v) :
    ∀ r ∈ life.rows, life.plan.Offers P r :=
  offers_rows life.fedBy_true fun _ _ _ _ haccepted r hr =>
    (Plan.admits_of_accepted haccepted r hr).offers hP

/-- So every ledger is in order. -/
theorem retains_holds (life : Life) : life.ledger.Retains ColumnType.Holds :=
  retains_ledger (life.offers_of_holds fun _ _ h => h)

/-! ## Results -/

/-- The rows that a life would finish into. -/
def results (life : Life) : List (List Cell) := life.ledger.table.resultRows

theorem settled (hopen : life.isFinished = false) : life.ledger.table.Settled :=
  life.wellKept_ledger.settled (life.isFinished_ledger.trans hopen) life.retains_holds

/-- An open ledger can be finished, whatever it has been through. -/
theorem finish_eq (hopen : life.isFinished = false) :
    life.ledger.finish.1 = .ok life.results := by
  have heq := (settled hopen).finish_eq
  rw [Ledger.finish_table] at heq
  exact heq

/-- The chunk of an open ledger is the layout of the rows that it would finish into. -/
theorem finishChunk_eq (hopen : life.isFinished = false) :
    life.ledger.finishChunk.1 =
      ((Column.ofRows life.plan.outputTypes life.results).mapError .build).map
        fun columns => ⟨life.results.length, columns⟩ := by
  have heq := (settled hopen).finishChunk_eq
  rw [Ledger.finishChunk_table] at heq
  rw [← plan_ledger]
  exact heq

theorem holdsAll_results (hopen : life.isFinished = false) :
    ∀ row ∈ life.results, HoldsAll life.plan.outputTypes row := by
  rw [← plan_ledger]
  exact (settled hopen).holdsAll

theorem yields_results (h : ∀ r ∈ life.rows, life.plan.Offers P r) :
    ∀ row ∈ life.results, life.plan.Yields P row := by
  rw [← plan_ledger] at h ⊢
  exact life.wellKept_ledger.yields (retains_ledger (life.plan_ledger ▸ h))

theorem distinct_results (life : Life) :
    (life.results.map (·.take life.plan.groupBy.length)).Pairwise fun key other =>
      keysEqual key other = false := by
  rw [← plan_ledger]
  exact life.wellKept_ledger.distinct_resultRows life.retains_holds

/-! ## Lives of feeds alone -/

def ofFeeds (p : Plan) (fs : List Feed) : Life := fs.foldl feed (.ofPlan p)

theorem rows_feeds {life : Life} {fs : List Feed} {rows : List Row}
    (hopen : life.isFinished = false) (h : life.plan.history fs = .ok rows) :
    (fs.foldl feed life).rows = life.rows ++ rows := by
  induction fs generalizing life rows with
  | nil =>
    cases h
    exact (List.append_nil _).symm
  | cons f fs ih =>
    obtain ⟨first, rest, hfirst, hrest, rfl⟩ := Plan.history_cons_eq_ok_iff.mp h
    have hcheck : life.ledger.plan.check life.ledger.isFinished f = .ok first := by
      rw [plan_ledger, isFinished_ledger]
      exact Plan.check_eq_ok_iff.mpr ⟨hopen, hfirst⟩
    have hfeed : (life.feed f).rows = life.rows ++ first := by rw [Life.rows, hcheck]
    have hfeeds : (fs.foldl feed (life.feed f)).rows = (life.feed f).rows ++ rest :=
      ih hopen hrest
    rw [List.foldl_cons, hfeeds, hfeed, List.append_assoc]

/-- The rows of such a life are its history. -/
theorem rows_ofFeeds {p : Plan} {fs : List Feed} {rows : List Row}
    (h : p.history fs = .ok rows) : (ofFeeds p fs).rows = rows :=
  @rows_feeds (.ofPlan p) fs rows rfl h

/-- A feed that the table takes in is taken in by the ledger that keeps it. -/
theorem feed_eq_of_table {life : Life} {f : Feed} {u : Table}
    (h : life.ledger.table.feed f = .ok u) :
    life.ledger.feed f = (.ok (), (life.feed f).ledger) ∧ (life.feed f).ledger.table = u := by
  rw [life.wellKept_ledger.feed_table] at h
  obtain ⟨l, hl, rfl⟩ := map_eq_ok_iff.mp h
  obtain ⟨_, hok, rfl⟩ := map_eq_ok_iff.mp hl
  exact ⟨Prod.ext hok rfl, rfl⟩

/-- A merge that the tables go through is gone through by the ledgers that keep them. -/
theorem merge_eq_of_table {life other : Life} {u : Table}
    (h : life.ledger.table.merge other.ledger.table = .ok u) :
    life.ledger.merge other.ledger = (.ok (), (life.merge other).ledger) ∧
      (life.merge other).ledger.table = u := by
  rw [life.wellKept_ledger.merge_table other.wellKept_ledger] at h
  obtain ⟨l, hl, rfl⟩ := map_eq_ok_iff.mp h
  obtain ⟨_, hok, rfl⟩ := map_eq_ok_iff.mp hl
  exact ⟨Prod.ext hok rfl, rfl⟩

theorem run_eq_of_table {life : Life} {fs : List Feed} {u : Table}
    (h : life.ledger.table.run fs = .ok u) :
    life.ledger.run fs = (.ok (), (fs.foldl feed life).ledger) ∧
      (fs.foldl feed life).ledger.table = u := by
  induction fs generalizing life with
  | nil => exact ⟨rfl, Except.ok.inj h⟩
  | cons f fs ih =>
    rw [Table.run] at h
    cases hv : life.ledger.table.feed f with
    | error e => rw [hv] at h; cases h
    | ok v =>
      rw [hv] at h
      obtain ⟨hfeed, rfl⟩ := feed_eq_of_table hv
      obtain ⟨hrun, htable⟩ := ih h
      refine ⟨?_, htable⟩
      rw [Ledger.run, hfeed]
      exact hrun

/-- What a run of the table comes to, the run of the ledger comes to. -/
theorem ofFeeds_eq_of_table {p : Plan} {fs : List Feed} {u : Table}
    (h : (Table.ofPlan p).run fs = .ok u) :
    (Ledger.ofPlan p).run fs = (.ok (), (ofFeeds p fs).ledger) ∧
      (ofFeeds p fs).ledger.finish.1 = u.finish.1 ∧
      (ofFeeds p fs).ledger.finishChunk.1 = u.finishChunk.1 := by
  have hstart : (Life.ofPlan p).ledger.table.run fs = .ok u := h
  obtain ⟨hrun, rfl⟩ := run_eq_of_table hstart
  refine ⟨hrun, ?_, ?_⟩
  · rw [Ledger.finish_table]
    rfl
  · rw [Ledger.finishChunk_table]
    rfl

end Life
end Rollup
