import Rollup.Proofs.Aggregate.Handover
import Rollup.Proofs.Table.Crossing
import Rollup.Proofs.Table.SinglePass

/-
Decimal sums in two stages.

The chunks of partial tables are taken in by one table of the next stage.  Its sums are those
of a single pass for the groups whose partial totals recover, and for no others: a partial
total that is too large for its column is lost on the way.
-/

namespace Rollup

open Aggregate (Answers HandsOn Recovers partTotals)
/-- What the rows of one class contribute to one call. -/
def contributions (a : Aggregate) (key : List Cell) (i : Nat) (rows : List Row) : List Value :=
  a.addends (columnOf (rowsWith key rows) i)

theorem contributions_flatten (a : Aggregate) (key : List Cell) (i : Nat)
    (parts : List (List Row)) :
    contributions a key i parts.flatten = (parts.map (contributions a key i)).flatten := by
  induction parts with
  | nil => rfl
  | cons rows rest ih =>
    rw [List.flatten_cons, List.map_cons, List.flatten_cons, ← ih]
    simp only [contributions, rowsWith_append, columnOf_append, Aggregate.addends_append]

/-! ## From one table to the next -/

section

variable {p q : Plan} {t : Table} {rows : List Row} {key : List Cell} {i : Nat} {m : Measure}

/-- What crosses for one class and one call is what its values hand on. -/
theorem Table.Summarizes.handsOn (h : t.Summarizes rows) (ht : t.plan = p)
    (hm : p.measures[i]? = some m) {d : Nat} {s : Int} (ha : m.aggregate = .sumDecimal d s) :
    HandsOn (min (d + 10) 38) (contributions m.aggregate key i rows)
      (contributions m.aggregate key i t.crossing) := by
  subst ht
  unfold contributions
  rcases h.rowsWith_crossing key with ⟨g, hg, heq, hone⟩ | ⟨hnone, hrowsNone⟩
  · obtain ⟨_, ⟨hlength, hanswers⟩, _⟩ := h.answers hg
    have hi : i < (Table.cellsOf t.plan g).length :=
      hlength.symm ▸ (List.getElem?_eq_some_iff.mp hm).1
    rw [hone, columnOf_singleton hi, rowsWith_congr heq]
    have hanswer := hanswers i m _ hm (List.getElem?_eq_getElem hi)
    rw [ha] at hanswer ⊢
    exact .of_answers hanswer
  · rw [hnone, hrowsNone]
    exact .nothing

end

/-- Partial tables of one plan and the rows that each of them has taken in. -/
def ArePartials (p : Plan) (tables : List Table) (histories : List (List Row)) : Prop :=
  List.Forall₂ (fun t rows => t.plan = p ∧ t.Summarizes rows) tables histories

/-- All the rows that the next stage takes in. -/
def crossings (tables : List Table) : List Row := (tables.map Table.crossing).flatten

namespace ArePartials

variable {p q : Plan} {tables : List Table} {histories : List (List Row)} {key : List Cell}
  {i : Nat} {m : Measure}

theorem of_runs {partials : List (List Feed)}
    (h : partials.mapM (Table.ofPlan p).run = .ok tables)
    (hh : partials.mapM p.history = .ok histories) : ArePartials p tables histories := by
  induction partials generalizing tables histories with
  | nil =>
    cases h
    cases hh
    exact .nil
  | cons fs rest ih =>
    obtain ⟨t, ts, ht, hts, rfl⟩ := mapM_cons_eq_ok_iff.mp h
    obtain ⟨rows, more, hrows, hmore, rfl⟩ := mapM_cons_eq_ok_iff.mp hh
    obtain ⟨rows', hrows', hplan, hsummarizes⟩ := Table.summarizes_run ht
    rw [hrows] at hrows'
    cases hrows'
    exact .cons ⟨hplan, hsummarizes⟩ (ih hts hmore)

theorem sameClasses (h : ArePartials p tables histories) :
    SameClasses p (crossings tables) histories.flatten := by
  induction h with
  | nil => exact .nil p
  | cons hhead _ ih =>
    obtain ⟨rfl, hsummarizes⟩ := hhead
    exact (SameClasses.crossing hsummarizes.resultKeys).append ih

theorem handsOn (h : ArePartials p tables histories) (key : List Cell)
    (hm : p.measures[i]? = some m) {d : Nat} {s : Int} (ha : m.aggregate = .sumDecimal d s) :
    List.Forall₂ (HandsOn (min (d + 10) 38)) (histories.map (contributions m.aggregate key i))
      ((tables.map Table.crossing).map (contributions m.aggregate key i)) := by
  rw [List.map_map, List.forall₂_map_left_iff, List.forall₂_map_right_iff]
  exact (h.imp fun t rows ht => ht.2.handsOn ht.1 hm ha).flip

/-- Every partial table finishes into a chunk that the next stage reads. -/
theorem exists_chunks (h : ArePartials p tables histories) (hf : p.Follows q)
    (hkeys : ∀ g ∈ p.groupBy, g.type.isPlain = true)
    (houtputs : ∀ m ∈ p.measures, m.aggregate.output.isPlain = true) :
    ∃ chunks, tables.mapM (fun t => t.finishChunk.1) = .ok chunks ∧
      q.history (chunks.map .chunk) = .ok (crossings tables) ∧
      (crossings tables).length = (chunks.map (·.rows)).sum := by
  induction h with
  | nil => exact ⟨[], rfl, rfl, rfl⟩
  | cons hhead _ ih =>
    obtain ⟨hplan, hsummarizes⟩ := hhead
    rw [← hplan] at hf hkeys houtputs
    obtain ⟨c, hc, hrows⟩ := hsummarizes.finishChunk_chunkRows hf hkeys houtputs
    obtain ⟨chunks, hchunks, hhistory, hlength⟩ := ih
    refine ⟨c :: chunks, mapM_cons_eq_ok_iff.mpr ⟨c, chunks, hc, hchunks, rfl⟩,
      Plan.history_cons_eq_ok_iff.mpr ⟨_, _, hrows, hhistory, rfl⟩, ?_⟩
    rw [List.map_cons, List.sum_cons, ← hlength, ← Plan.length_of_chunkRows hrows]
    exact List.length_append

end ArePartials

/-! ## Agreement with a single pass -/

section

variable {p q : Plan} {tables : List Table} {histories : List (List Row)} {rows : List Row}
  {v u : Table} {g g' : Group}

/-- The partial totals of all calls recover for one class. -/
def ClassRecovers (p : Plan) (histories : List (List Row)) (key : List Cell) : Prop :=
  ∀ (i : Nat) (m : Measure), p.measures[i]? = some m →
    Recovers m.aggregate.digits (partTotals (histories.map (contributions m.aggregate key i)))

theorem classRecovers_congr {k l : List Cell} (heq : keysEqual k l = true) :
    ClassRecovers p histories k ↔ ClassRecovers p histories l := by
  have hcontributions (a : Aggregate) (i : Nat) :
      histories.map (contributions a k i) = histories.map (contributions a l i) := by
    refine List.map_congr_left fun h _ => ?_
    rw [contributions, contributions, rowsWith_congr heq]
  unfold ClassRecovers
  simp only [hcontributions]

/-- Where there is nothing to sum, nothing is lost. -/
theorem classRecovers_of_no_row {key : List Cell}
    (h : ∀ r ∈ histories.flatten, ¬ keysEqual key r.key = true) :
    ClassRecovers p histories key := by
  intro i m _
  have hnone : partTotals (histories.map (contributions m.aggregate key i)) = [] := by
    have hparts : ∀ vs ∈ histories.map (contributions m.aggregate key i),
        ¬ (!vs.isEmpty) = true := by
      intro vs hvs
      obtain ⟨part, hpart, rfl⟩ := List.mem_map.mp hvs
      have hnil : rowsWith key part = [] :=
        List.filter_eq_nil_iff.mpr fun r hr => h r (List.mem_flatten.mpr ⟨part, hpart, hr⟩)
      rw [contributions, hnil]
      exact Bool.false_ne_true
    rw [partTotals, List.filter_eq_nil_iff.mpr hparts]
    rfl
  rw [hnone]
  exact .inl ⟨rfl, fun h => h⟩

/-- The answer for the values that are handed on is the one for all values of the class
exactly if their partial totals recover. -/
theorem cell_eq_iff {key : List Cell} {i : Nat} {m : Measure} {c d : Cell}
    (hpartials : ArePartials p tables histories)
    (hsums : ∀ a ∈ p.aggregates, ∃ d s, a = .sumDecimal d s)
    (hperm : histories.flatten.Perm rows) (hm : p.measures[i]? = some m)
    (hc : Answers m.aggregate (contributions m.aggregate key i (crossings tables)) c)
    (hd : Answers m.aggregate (contributions m.aggregate key i rows) d) :
    c = d ↔ Recovers m.aggregate.digits
      (partTotals (histories.map (contributions m.aggregate key i))) := by
  obtain ⟨w, s, ha⟩ := hsums m.aggregate (List.mem_map_of_mem (List.mem_of_getElem? hm))
  have hwhole : Answers m.aggregate (contributions m.aggregate key i histories.flatten) d := by
    have hcolumn : (columnOf (rowsWith key rows) i).Perm
        (columnOf (rowsWith key histories.flatten) i) := (hperm.symm.filter _).map _
    exact hd.perm (ha ▸ rfl) (Aggregate.addends_perm _ hcolumn)
  have hhands := hpartials.handsOn key hm ha
  rw [crossings, contributions_flatten] at hc
  rw [contributions_flatten] at hwhole
  rw [ha] at hc hwhole hhands ⊢
  exact hc.eq_iff_recovers hhands hwhole

/-- Two groups of one class, one of them fed by chunks, finish into the same cells exactly if
the partial totals of the class recover. -/
theorem cells_eq_iff (hpartials : ArePartials p tables histories) (hf : p.Follows q)
    (hsums : ∀ a ∈ p.aggregates, ∃ d s, a = .sumDecimal d s)
    (hperm : histories.flatten.Perm rows) (hvp : v.plan = q) (hup : u.plan = p)
    (hv : v.Summarizes (crossings tables)) (hu : u.Summarizes rows) (hg : g ∈ v.finalGroups)
    (hg' : g' ∈ u.finalGroups) (heq : keysEqual g.key g'.key = true) :
    Table.cellsOf v.plan g = Table.cellsOf u.plan g' ↔ ClassRecovers p histories g.key := by
  subst hup
  have haggregates : v.plan.aggregates = u.plan.aggregates := by rw [hvp, hf.aggregates_eq]
  obtain ⟨hlength, hanswers⟩ := (hv.answers hg).2.1.congr haggregates
  obtain ⟨hlength', hanswers'⟩ := (hu.answers hg').2.1
  rw [← rowsWith_congr heq] at hanswers'
  have hcell (i : Nat) (hm : i < u.plan.measures.length)
      (hc : i < (Table.cellsOf v.plan g).length) (hd : i < (Table.cellsOf u.plan g').length) :
      (Table.cellsOf v.plan g)[i] = (Table.cellsOf u.plan g')[i] ↔
        Recovers u.plan.measures[i].aggregate.digits
          (partTotals (histories.map
            (contributions u.plan.measures[i].aggregate g.key i))) := by
    have hget := List.getElem?_eq_getElem hm
    exact cell_eq_iff hpartials hsums hperm hget
      (hanswers i _ _ hget (List.getElem?_eq_getElem hc))
      (hanswers' i _ _ hget (List.getElem?_eq_getElem hd))
  constructor
  · intro h i m hm
    obtain ⟨hi, rfl⟩ := List.getElem?_eq_some_iff.mp hm
    have hd : i < (Table.cellsOf u.plan g').length := hlength'.symm ▸ hi
    refine (hcell i hi (hlength.symm ▸ hi) hd).mp ?_
    simp only [h]
  · intro h
    refine List.ext_getElem (hlength.trans hlength'.symm) fun i hc hd => ?_
    have hm : i < u.plan.measures.length := hlength ▸ hc
    exact (hcell i hm hc hd).mpr (h i _ (List.getElem?_eq_getElem hm))

/-- The result rows agree exactly if the partial totals of every class recover. -/
theorem sameResults_iff_classRecovers (hpartials : ArePartials p tables histories)
    (hf : p.Follows q) (hsums : ∀ a ∈ p.aggregates, ∃ d s, a = .sumDecimal d s)
    (hperm : histories.flatten.Perm rows) (hvp : v.plan = q) (hup : u.plan = p)
    (hv : v.Summarizes (crossings tables)) (hu : u.Summarizes rows) :
    SameResults p.groupBy.length v.resultRows u.resultRows ↔
      ∀ r ∈ rows, ClassRecovers p histories r.key := by
  have hkeys' := hu.resultKeys
  rw [hup] at hkeys'
  have hkeys : ResultKeys p rows (v.finalGroups.map (·.key)) := by
    refine (hpartials.sameClasses.resultKeys ?_ hv.resultKeys).perm hperm
    rw [hvp, hf.keyTypes_eq]
  have hcells : ∀ g ∈ v.finalGroups, ∀ g' ∈ u.finalGroups, keysEqual g.key g'.key = true →
      (Table.cellsOf v.plan g = Table.cellsOf u.plan g' ↔ ClassRecovers p histories g.key) :=
    fun g hg g' hg' => cells_eq_iff hpartials hf hsums hperm hvp hup hv hu hg hg'
  rw [Table.resultRows, Table.resultRows, sameResults_iff hkeys hkeys']
  constructor
  · intro h r hr
    obtain ⟨g, hg, hgr⟩ := hkeys.exists_group hr
    obtain ⟨g', hg', heq⟩ := hkeys.exists_same_group hkeys' hg
    rw [← classRecovers_congr hgr]
    exact (hcells g hg g' hg' heq).mp (h g hg g' hg' heq)
  · intro h g hg g' hg' heq
    refine (hcells g hg g' hg' heq).mpr ?_
    by_cases hany : ∃ r ∈ rows, keysEqual g.key r.key = true
    · obtain ⟨r, hr, hgr⟩ := hany
      rw [classRecovers_congr hgr]
      exact h r hr
    · exact classRecovers_of_no_row fun r hr hgr => hany ⟨r, hperm.mem_iff.mp hr, hgr⟩

end

/-- Decimal sums over the results of partial tables.  All chunks are built, and they are taken
in unless a total leaves its bits; the results then agree with those of one table over all
the rows exactly if the partial totals of every class recover. -/
theorem two_stage_sums_agree_iff {n next : Node} {p : Plan} {partials : List (List Feed)}
    {fs : List Feed} {tables : List Table} {histories : List (List Row)} {u : Table}
    {rows : List Row} (hp : Plan.ofNode n = .ok p) (hnext : n.Follows next)
    (hsums : ∀ a ∈ p.aggregates, ∃ d s, a = .sumDecimal d s)
    (hkeys : ∀ g ∈ p.groupBy, g.type.isPlain = true)
    (htables : partials.mapM (Table.ofPlan p).run = .ok tables)
    (hhistories : partials.mapM p.history = .ok histories)
    (hu : (Table.ofPlan p).run fs = .ok u) (hrows : p.history fs = .ok rows)
    (hperm : histories.flatten.Perm rows) :
    ∃ q chunks, Plan.ofNode next = .ok q ∧
      tables.mapM (fun t => t.finishChunk.1) = .ok chunks ∧
      ((chunks.map (·.rows)).sum < 2 ^ 128 →
        ∃ v, (Table.ofPlan q).run (chunks.map .chunk) = .ok v) ∧
      ∀ v, (Table.ofPlan q).run (chunks.map .chunk) = .ok v →
        ∃ out out', v.finish.1 = .ok out ∧ u.finish.1 = .ok out' ∧
          (SameResults n.groupBy.length out out' ↔
            ∀ r ∈ rows, ClassRecovers p histories r.key) := by
  obtain ⟨q, hq, hf⟩ := hnext.exists_ofNode hp
  have hpartials := ArePartials.of_runs htables hhistories
  have houtputs : ∀ m ∈ p.measures, m.aggregate.output.isPlain = true := by
    intro m hm
    obtain ⟨d, s, ha⟩ := hsums m.aggregate (List.mem_map_of_mem hm)
    rw [ha]
    rfl
  obtain ⟨chunks, hchunks, hhistory, hlength⟩ := hpartials.exists_chunks hf hkeys houtputs
  refine ⟨q, chunks, hq, hchunks, fun hfew => ?_, fun v hv => ?_⟩
  · obtain ⟨v, hv, _⟩ := Table.exists_run hhistory (.of_lt q (hlength ▸ hfew))
    exact ⟨v, hv⟩
  obtain ⟨_, hbase, hvp, hvs⟩ := Table.summarizes_run hv
  rw [hhistory] at hbase
  cases hbase
  obtain ⟨_, hmore, hup, hus⟩ := Table.summarizes_run hu
  rw [hrows] at hmore
  cases hmore
  refine ⟨v.resultRows, u.resultRows, hvs.finish.1, hus.finish.1, ?_⟩
  rw [← (Plan.ofNode_eq_ok_iff.mp hp).2.2.1]
  exact sameResults_iff_classRecovers hpartials hf hsums hperm hvp hup hvs hus

namespace Balances

def node : Node where
  id := 1
  groupBy := []
  calls := [{ function := "sum", argument := .decimal 38 0, column := 0 }]

def merging : Node where
  id := 2
  groupBy := []
  calls := [{ function := "sum", argument := .decimal 38 0, column := 0, ofPartials := true }]

def amount (units : Int) : Cell := some (.decimal ⟨.wrap units, 38, 0⟩)

/-- The first total has 39 digits, the whole one has 38. -/
def partials : List (List Feed) :=
  [[.input [amount (9 * 10 ^ 37)], .input [amount (9 * 10 ^ 37)]],
    [.input [amount (-9 * 10 ^ 37)]]]

end Balances

theorem two_stage_sums_agree_iff_balances :
    ∃ p tables histories u rows, Plan.ofNode Balances.node = .ok p ∧
      Balances.partials.mapM (Table.ofPlan p).run = .ok tables ∧
      Balances.partials.mapM p.history = .ok histories ∧
      (Table.ofPlan p).run Balances.partials.flatten = .ok u ∧
      p.history Balances.partials.flatten = .ok rows ∧
      ∃ q chunks, Plan.ofNode Balances.merging = .ok q ∧
        tables.mapM (fun t => t.finishChunk.1) = .ok chunks ∧
        ((chunks.map (·.rows)).sum < 2 ^ 128 →
          ∃ v, (Table.ofPlan q).run (chunks.map .chunk) = .ok v) ∧
        ∀ v, (Table.ofPlan q).run (chunks.map .chunk) = .ok v →
          ∃ out out', v.finish.1 = .ok out ∧ u.finish.1 = .ok out' ∧
            (SameResults Balances.node.groupBy.length out out' ↔
              ∀ r ∈ rows, ClassRecovers p histories r.key) :=
  ⟨_, _, _, _, _, rfl, rfl, rfl, rfl, rfl,
    @two_stage_sums_agree_iff Balances.node Balances.merging _ Balances.partials
      Balances.partials.flatten _ _ _ _ rfl ⟨rfl, rfl⟩
      (fun _ ha => ⟨38, 0, List.mem_singleton.mp ha⟩) nofun rfl rfl rfl rfl (.refl _)⟩

/-- The lost total turns the sum around. -/
theorem two_stage_sum_differs :
    ∃ p q tables chunks v u, Plan.ofNode Balances.node = .ok p ∧
      Plan.ofNode Balances.merging = .ok q ∧
      Balances.partials.mapM (Table.ofPlan p).run = .ok tables ∧
      tables.mapM (fun t => t.finishChunk.1) = .ok chunks ∧
      (Table.ofPlan q).run (chunks.map .chunk) = .ok v ∧
      (Table.ofPlan p).run Balances.partials.flatten = .ok u ∧
      v.finish.1 = .ok [[Balances.amount (-9 * 10 ^ 37)]] ∧
      u.finish.1 = .ok [[Balances.amount (9 * 10 ^ 37)]] ∧
      ¬ SameResults 0 [[Balances.amount (-9 * 10 ^ 37)]] [[Balances.amount (9 * 10 ^ 37)]] := by
  refine ⟨_, _, _, _, _, _, rfl, rfl, rfl, rfl, rfl, rfl, rfl, rfl, fun h => ?_⟩
  obtain ⟨row, hrow, _, hdrop⟩ := h.forth _ List.mem_cons_self
  rw [List.mem_singleton.mp hrow] at hdrop
  have hunits := congrArg (List.map (Option.map Value.units)) hdrop
  exact absurd hunits (by decide)

end Rollup
