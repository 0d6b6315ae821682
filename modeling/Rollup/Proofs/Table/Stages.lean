import Rollup.Proofs.Aggregate.Condense
import Rollup.Proofs.Table.Crossing
import Rollup.Proofs.Table.SinglePass

/-
Aggregation in stages.

A table of a later stage takes in the chunks of tables of earlier stages.  The rows it has
then taken in stand for the rows at the bottom, class by class and call by call
(`StandsFor`), so for integer sums and extremes its results are those of a single pass.
-/

namespace Rollup

open Aggregate (Answers)
open ColumnType (HoldsAll)

/-! ## Rows that stand for others -/

structure StandsFor (p : Plan) (base rows : List Row) : Prop extends
    SameClasses p base rows where
  condenses : ∀ key, HoldsAll p.keyTypes key → ∀ (i : Nat) (m : Measure),
    p.measures[i]? = some m →
      m.aggregate.Condenses (m.aggregate.addends (columnOf (rowsWith key rows) i))
        (m.aggregate.addends (columnOf (rowsWith key base) i))

/-- Plans whose results can be handed on from stage to stage. -/
structure Plan.Stageable (p : Plan) : Prop where
  keys : ∀ g ∈ p.groupBy, g.type.isPlain = true
  aggregates : ∀ a ∈ p.aggregates, a.isStageable = true

namespace Plan.Stageable

variable {p q : Plan}

theorem isStageable (h : p.Stageable) {i : Nat} {m : Measure} (hm : p.measures[i]? = some m) :
    m.aggregate.isStageable = true :=
  h.aggregates m.aggregate (List.mem_map_of_mem (List.mem_of_getElem? hm))

theorem outputs (h : p.Stageable) : ∀ m ∈ p.measures, m.aggregate.output.isPlain = true :=
  fun m hm => Aggregate.isPlain_output (h.aggregates m.aggregate (List.mem_map_of_mem hm))

theorem exact (h : p.Stageable) : ∀ m ∈ p.measures, m.aggregate.isReal = false :=
  fun m hm => Aggregate.isReal_of_isStageable (h.aggregates m.aggregate (List.mem_map_of_mem hm))

theorem hasRoom (h : p.Stageable) (n : Nat) : p.HasRoom n := by
  refine .of_no_decimal fun m hm q s heq => ?_
  have hstageable := h.aggregates m.aggregate (List.mem_map_of_mem hm)
  rw [heq] at hstageable
  exact nomatch hstageable

theorem follows (h : p.Stageable) (hf : p.Follows q) : q.Stageable where
  keys g hg := by
    have htype : g.type ∈ p.keyTypes := hf.keyTypes_eq ▸ List.mem_map_of_mem hg
    obtain ⟨g', hg', heq⟩ := List.mem_map.mp htype
    rw [← heq]
    exact h.keys g' hg'
  aggregates a ha := h.aggregates a (hf.aggregates_eq ▸ ha)

end Plan.Stageable

namespace StandsFor

variable {p : Plan} {base rows more extra : List Row}

theorem nil (h : p.Stageable) : StandsFor p [] [] where
  toSameClasses := .nil p
  condenses _ _ _ _ hm := .refl (h.isStageable hm) fun _ _ _ _ hv => nomatch hv

theorem refl (h : p.Stageable) (hadmits : ∀ r ∈ rows, p.Admits r) : StandsFor p rows rows where
  toSameClasses := .refl p rows
  condenses key _ i m hm := by
    exact .refl (h.isStageable hm)
      (admits_addends_columnOf (admits_rowsWith hadmits key) hm)

theorem append (h : StandsFor p base rows) (h' : StandsFor p extra more) :
    StandsFor p (base ++ extra) (rows ++ more) where
  toSameClasses := h.toSameClasses.append h'.toSameClasses
  condenses key hkey i m hm := by
    rw [rowsWith_append, rowsWith_append, columnOf_append, columnOf_append,
      Aggregate.addends_append, Aggregate.addends_append]
    exact (h.condenses key hkey i m hm).append (h'.condenses key hkey i m hm)

end StandsFor

/-! ## Tables over several stages -/

/-- A table of the first or of a later stage, and the rows at the bottom of it. -/
structure Table.Stands (p q : Plan) (t : Table) (rows : List Row) : Prop where
  plan : t.plan = p ∨ t.plan = q
  admits : ∀ r ∈ rows, p.Admits r
  summary : ∃ base, t.Summarizes base ∧ StandsFor p base rows

namespace Table.Stands

variable {p q : Plan} {t u : Table} {rows more : List Row}

theorem follows (h : Table.Stands p q t rows) (hf : p.Follows q) : t.plan.Follows q := by
  rcases h.plan with heq | heq
  · exact heq ▸ hf
  · exact heq ▸ hf.self

theorem keyTypes_eq (h : Table.Stands p q t rows) (hf : p.Follows q) :
    t.plan.keyTypes = p.keyTypes := by
  rcases h.plan with heq | heq
  · rw [heq]
  · rw [heq, hf.keyTypes_eq]

theorem aggregates_eq (h : Table.Stands p q t rows) (hf : p.Follows q) :
    t.plan.aggregates = p.aggregates := by
  rcases h.plan with heq | heq
  · rw [heq]
  · rw [heq, hf.aggregates_eq]

theorem stageable (h : Table.Stands p q t rows) (hf : p.Follows q) (hp : p.Stageable) :
    t.plan.Stageable := by
  rcases h.plan with heq | heq
  · exact heq ▸ hp
  · exact heq ▸ hp.follows hf

/-- What a group of the table finishes into answers for the rows at the bottom. -/
theorem answers (h : Table.Stands p q t rows) (hf : p.Follows q) {g : Group}
    (hg : g ∈ t.finalGroups) :
    HoldsAll p.keyTypes g.key ∧
      Columnwise Answers p.measures (columnOf (rowsWith g.key rows)) (cellsOf t.plan g) := by
  obtain ⟨base, hbase, hstands⟩ := h.summary
  have hkey : HoldsAll p.keyTypes g.key := by
    rw [← h.keyTypes_eq hf]
    exact hbase.resultKeys.holds_key hg
  have hanswers := (hbase.answers hg).2.1.congr (h.aggregates_eq hf)
  refine ⟨hkey, hanswers.1, fun i m c hm hc => ?_⟩
  exact (hstands.condenses g.key hkey i m hm).answers (hanswers.2 i m c hm hc)

theorem resultKeys (h : Table.Stands p q t rows) (hf : p.Follows q) :
    ResultKeys p rows (t.finalGroups.map (·.key)) := by
  obtain ⟨base, hbase, hstands⟩ := h.summary
  exact hstands.toSameClasses.resultKeys (h.keyTypes_eq hf) hbase.resultKeys

/-- The rows that cross to the next stage stand for those at the bottom. -/
theorem crossing (h : Table.Stands p q t rows) (hf : p.Follows q) (hp : p.Stageable) :
    StandsFor p t.crossing rows := by
  refine ⟨.crossing (h.resultKeys hf), fun key hkey i m hm => ?_⟩
  obtain ⟨base, hbase, hstands⟩ := h.summary
  rcases hbase.rowsWith_crossing key with ⟨g, hg, heq, hone⟩ | ⟨hnone, hbaseNone⟩
  · obtain ⟨_, hlength, hanswers⟩ := h.answers hf hg
    have hi : i < (cellsOf t.plan g).length :=
      hlength.symm ▸ (List.getElem?_eq_some_iff.mp hm).1
    have hclass := admits_rowsWith h.admits g.key
    rw [hone, columnOf_singleton hi, rowsWith_congr heq]
    exact .of_answers (hp.isStageable hm) (admits_addends_columnOf hclass hm)
      (hanswers i m _ hm (List.getElem?_eq_getElem hi))
  · have hcondenses := hstands.condenses key hkey i m hm
    rw [hbaseNone] at hcondenses
    rw [hnone]
    exact hcondenses

theorem of_run {fs : List Feed} (hp : p.Stageable) (hfs : p.history fs = .ok rows) :
    ∃ t, (ofPlan p).run fs = .ok t ∧ Table.Stands p q t rows := by
  obtain ⟨t, ht, hplan, hsummarizes⟩ := exists_run hfs (hp.hasRoom _)
  have hadmits := Plan.admits_of_history hfs
  exact ⟨t, ht, .inl hplan, hadmits, rows, hsummarizes, .refl hp hadmits⟩

theorem ofPlan (hp : p.Stageable) (q : Plan) : Table.Stands p q (ofPlan q) [] :=
  ⟨.inr rfl, fun _ hr => (nomatch hr), [], summarizes_ofPlan q, .nil hp⟩

/-- One crossing: the chunk of a table is built, and the table of the next stage takes it
in. -/
theorem updateChunk (hf : p.Follows q) (hp : p.Stageable) (hu : u.plan = q)
    (h : Table.Stands p q u rows) (ht : Table.Stands p q t more) :
    ∃ c v, t.finishChunk.1 = .ok c ∧ u.updateChunk c = .ok v ∧ v.plan = q ∧
      Table.Stands p q v (rows ++ more) := by
  subst hu
  obtain ⟨base, hbase, hstands⟩ := h.summary
  obtain ⟨extra, hextra, _⟩ := ht.summary
  have htp := ht.stageable hf hp
  obtain ⟨c, hc, hrows⟩ := hextra.finishChunk_chunkRows (ht.follows hf) htp.keys htp.outputs
  have hcrossing := Plan.admits_of_chunkRows hrows
  obtain ⟨v, hv⟩ := hbase.exists_takePrepared hcrossing ((h.stageable hf hp).hasRoom _)
  obtain ⟨hplan, hnext⟩ := hbase.takePrepared hcrossing hv
  refine ⟨c, v, hc, ?_, hplan, .inr hplan, ?_, base ++ t.crossing, hnext,
    hstands.append (ht.crossing hf hp)⟩
  · rw [Table.updateChunk, hbase.unfinished, hrows]
    exact hv
  · intro r hr
    rcases List.mem_append.mp hr with hr | hr
    · exact h.admits r hr
    · exact ht.admits r hr

end Table.Stands

/-! ## Stages -/

mutual

/-- How a result comes about: from feeds at the bottom, or from the results of an earlier
stage. -/
inductive Stages where
  | bottom (feeds : List Feed)
  | stage (partials : Partials)

/-- Results that one table takes in, one after the other. -/
inductive Partials where
  | nil
  | cons (head : Stages) (rest : Partials)

end

mutual

def Stages.feeds : Stages → List Feed
  | .bottom feeds => feeds
  | .stage partials => partials.feeds

def Partials.feeds : Partials → List Feed
  | .nil => []
  | .cons head rest => head.feeds ++ rest.feeds

end

mutual

/-- Tables at the bottom have plan `p`, those above have plan `q`. -/
def Stages.run (p q : Plan) : Stages → Except TableFault Table
  | .bottom feeds => (Table.ofPlan p).run feeds
  | .stage partials => partials.run p q (Table.ofPlan q)

/-- Finishes the tables of a stage into chunks and feeds these to `t`. -/
def Partials.run (p q : Plan) (t : Table) : Partials → Except TableFault Table
  | .nil => .ok t
  | .cons head rest =>
      match head.run p q with
      | .error e => .error e
      | .ok u =>
          match u.finishChunk.1 with
          | .error e => .error e
          | .ok c =>
              match t.updateChunk c with
              | .error e => .error e
              | .ok t => rest.run p q t

end

section

variable {p q : Plan}

mutual

/-- No step of any stage fails. -/
theorem Stages.exists_run (hf : p.Follows q) (hp : p.Stageable) :
    (stages : Stages) → {rows : List Row} → p.history stages.feeds = .ok rows →
      ∃ t, stages.run p q = .ok t ∧ Table.Stands p q t rows
  | .bottom _, _, hrows => Table.Stands.of_run hp hrows
  | .stage partials, _, hrows => by
    obtain ⟨t, ht, _, hstands⟩ := partials.exists_run hf hp rfl (.ofPlan hp q) hrows
    exact ⟨t, ht, hstands⟩

theorem Partials.exists_run (hf : p.Follows q) (hp : p.Stageable) {t : Table} {rows : List Row}
    (ht : t.plan = q) (h : Table.Stands p q t rows) :
    (partials : Partials) → {more : List Row} → p.history partials.feeds = .ok more →
      ∃ u, partials.run p q t = .ok u ∧ u.plan = q ∧ Table.Stands p q u (rows ++ more)
  | .nil, _, hmore => by
    cases hmore
    exact ⟨t, rfl, ht, (List.append_nil rows).symm ▸ h⟩
  | .cons head rest, _, hmore => by
    obtain ⟨first, last, hfirst, hlast, rfl⟩ := Plan.history_append_eq_ok_iff.mp hmore
    obtain ⟨u, hu, hstands⟩ := head.exists_run hf hp hfirst
    obtain ⟨c, v, hc, hv, hplan, hnext⟩ := h.updateChunk hf hp ht hstands
    obtain ⟨w, hw, hwplan, hresult⟩ := rest.exists_run hf hp hplan hnext hlast
    refine ⟨w, ?_, hwplan, List.append_assoc rows first last ▸ hresult⟩
    simp only [Partials.run, hu, hc, hv]
    exact hw

end

end

/-- Integer sums and extremes of plain types can be computed in any number of stages.
However the rows are split over the tables at the bottom and whatever tables of later stages
take in the chunks, no chunk fails to be built or taken in, and the results agree with those
of one table over all the rows. -/
theorem finish_stages_agree {n next : Node} {p : Plan} {stages : Stages} {fs : List Feed}
    {rows more : List Row} (hp : Plan.ofNode n = .ok p) (hnext : n.Follows next)
    (hstageable : p.Stageable) (hrows : p.history stages.feeds = .ok rows)
    (hmore : p.history fs = .ok more) (hperm : rows.Perm more) :
    ∃ q t u out out', Plan.ofNode next = .ok q ∧ stages.run p q = .ok t ∧
      (Table.ofPlan p).run fs = .ok u ∧ t.finish.1 = .ok out ∧ u.finish.1 = .ok out' ∧
        SameResults n.groupBy.length out out' := by
  obtain ⟨q, hq, hf⟩ := hnext.exists_ofNode hp
  obtain ⟨t, ht, hstands⟩ := stages.exists_run hf hstageable hrows
  obtain ⟨u, hu, hup, hus⟩ := Table.exists_run hmore (hstageable.hasRoom _)
  obtain ⟨base, hbase, _⟩ := hstands.summary
  have hkeys' := hus.resultKeys
  have hanswers' := fun g hg => (hus.answers hg (g := g)).2.1
  rw [hup] at hkeys' hanswers'
  refine ⟨q, t, u, t.resultRows, u.resultRows, hq, ht, hu, hbase.finish.1, hus.finish.1, ?_⟩
  rw [← (Plan.ofNode_eq_ok_iff.mp hp).2.2.1, Table.resultRows, Table.resultRows, hup]
  exact sameResults_of_answers hstageable.exact hstands.admits hperm (hstands.resultKeys hf)
    hkeys' (fun g hg => (hstands.answers hf hg).2) hanswers'

namespace Orders

def merging : Node where
  id := 2
  groupBy := [⟨0, .string, none⟩]
  calls := [{ function := "sum", argument := .integer .int, column := 1, ofPartials := true },
    { function := " MAX", argument := .decimal 5 2, column := 2, ofPartials := true }]

/-- Two later stages, with an empty table at the bottom. -/
def staged : Stages :=
  .stage (.cons (.stage (.cons (.bottom [first]) (.cons (.bottom []) .nil)))
    (.cons (.bottom [second]) .nil))

end Orders

theorem finish_stages_agree_orders :
    ∃ p rows more, Plan.ofNode Orders.node = .ok p ∧ p.Stageable ∧
      p.history Orders.staged.feeds = .ok rows ∧
      p.history [Orders.second, Orders.first] = .ok more ∧ rows.Perm more ∧
      ∃ q t u out out', Plan.ofNode Orders.merging = .ok q ∧ Orders.staged.run p q = .ok t ∧
        (Table.ofPlan p).run [Orders.second, Orders.first] = .ok u ∧ t.finish.1 = .ok out ∧
        u.finish.1 = .ok out' ∧ SameResults Orders.node.groupBy.length out out' :=
  ⟨_, _, _, rfl, ⟨by decide, by decide⟩, rfl, rfl, .swap _ _ _,
    finish_stages_agree rfl ⟨rfl, rfl⟩ ⟨by decide, by decide⟩ rfl rfl (.swap _ _ _)⟩

end Rollup
