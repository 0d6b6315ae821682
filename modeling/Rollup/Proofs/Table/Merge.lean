import Rollup.Proofs.Table.Results
import Rollup.Proofs.Table.SinglePass

/-
Merging tables of one plan.

A table takes in another one class by class, so the merged table summarizes the rows of
both.  For exact aggregates nothing else matters: however rows are split over tables, and in
whatever order and shape the tables are merged, the results agree.
-/

namespace Rollup

open Aggregate (Digests)

section

variable {p : Plan} {rows more batch : List Row} {groups others result : List Group}
  {states : List State} {g : Group}

/-! ## Taking in groups -/

theorem takesIn_group (hexact : ∀ m ∈ p.measures, m.aggregate.isReal = false)
    (hg : Columnwise Digests p.measures (columnOf batch) g.states) :
    TakesIn p batch fun states => Plan.takeStates p.measures states g.states := by
  intro rows states result hs ht
  rw [columnOf_append_funext]
  exact digests_takeStates hexact hs hg ht

theorem canTakeIn_group (hexact : ∀ m ∈ p.measures, m.aggregate.isReal = false)
    (hg : Columnwise Digests p.measures (columnOf batch) g.states) :
    CanTakeIn p batch fun states => Plan.takeStates p.measures states g.states := by
  intro rows states hs hroom
  have hrange := hroom.allInRange
  rw [columnOf_append_funext] at hrange
  exact exists_takeStates hexact hs hg hrange

/-- What a group of another table stands for: the rows of its class. -/
structure Brings (p : Plan) (more : List Row) (g : Group) : Prop where
  batch : Batch p.keyTypes g.key (rowsWith g.key more)
  digests : Columnwise Digests p.measures (columnOf (rowsWith g.key more)) g.states

theorem Summarizes.brings (h : Summarizes p more others) (hg : g ∈ others) :
    Brings p more g where
  batch := .of_rowsWith h.represents.holds (h.represents.origin g.key (List.mem_map_of_mem hg))
  digests := h.digests g hg

/-- The rows of the classes of some groups, class by class. -/
def broughtBy (more : List Row) (groups : List Group) : List Row :=
  groups.flatMap fun g => rowsWith g.key more

theorem Summarizes.broughtBy_perm (h : Summarizes p more others) :
    (broughtBy more others).Perm more := by
  have hperm := flatMap_rowsWith_perm h.represents.distinct h.represents.cover
  rw [List.flatMap_map] at hperm
  exact hperm

theorem Summarizes.takeGroups (hexact : ∀ m ∈ p.measures, m.aggregate.isReal = false)
    (hadmits : ∀ r ∈ more, p.Admits r) (hbrings : ∀ g ∈ others, Brings p more g)
    (h : Summarizes p rows groups) (ht : p.takeGroups groups others = .ok result) :
    Summarizes p (rows ++ broughtBy more others) result := by
  induction others generalizing rows groups with
  | nil =>
    cases ht
    exact (List.append_nil rows).symm ▸ h
  | cons g rest ih =>
    rw [Plan.takeGroups] at ht
    split at ht
    · exact nomatch ht
    · rename_i groups' he
      have hg := hbrings g List.mem_cons_self
      have hnext := h.enter (admits_rowsWith hadmits g.key) hg.batch
        (takesIn_group hexact hg.digests) he
      rw [broughtBy, List.flatMap_cons, ← List.append_assoc]
      exact ih (fun g' hg' => hbrings g' (List.mem_cons_of_mem g hg')) hnext ht

theorem Summarizes.exists_takeGroups (hexact : ∀ m ∈ p.measures, m.aggregate.isReal = false)
    (hadmits : ∀ r ∈ more, p.Admits r) (hbrings : ∀ g ∈ others, Brings p more g)
    (h : Summarizes p rows groups) (hroom : p.HasRoom (rows ++ broughtBy more others).length) :
    ∃ result, p.takeGroups groups others = .ok result := by
  induction others generalizing rows groups with
  | nil => exact ⟨groups, rfl⟩
  | cons g rest ih =>
    have hg := hbrings g List.mem_cons_self
    rw [broughtBy, List.flatMap_cons, ← List.append_assoc] at hroom
    have hstep : p.HasRoom (rows ++ rowsWith g.key more).length := hroom.mono (by simp)
    obtain ⟨groups', he⟩ := h.exists_enter g.key (canTakeIn_group hexact hg.digests) hstep
    have hnext := h.enter (admits_rowsWith hadmits g.key) hg.batch
      (takesIn_group hexact hg.digests) he
    obtain ⟨result, hresult⟩ :=
      ih (fun g' hg' => hbrings g' (List.mem_cons_of_mem g hg')) hnext hroom
    refine ⟨result, ?_⟩
    rw [Plan.takeGroups, he]
    exact hresult

end

namespace Table

variable {p : Plan} {rows more : List Row}

theorem sameAggregation_self (p : Plan) : sameAggregation p p = true := by
  simp [sameAggregation]

/-- A merged table summarizes the rows of both tables. -/
theorem Summarizes.merge {t o : Table} (hexact : ∀ m ∈ p.measures, m.aggregate.isReal = false)
    (ht : t.plan = p) (ho : o.plan = p) (h : t.Summarizes rows) (h' : o.Summarizes more)
    (hroom : p.HasRoom (rows ++ more).length) :
    ∃ u, t.merge o = .ok u ∧ u.plan = p ∧ u.Summarizes (rows ++ more) := by
  subst ht
  have hs := h.summary
  have hs' := h'.summary
  rw [ho] at hs'
  have hperm : (rows ++ broughtBy more o.groups).Perm (rows ++ more) :=
    hs'.broughtBy_perm.append_left rows
  rw [← hperm.length_eq] at hroom
  obtain ⟨groups, hgroups⟩ :=
    hs.exists_takeGroups hexact hs'.admits (fun g hg => hs'.brings hg) hroom
  have hresult := hs.takeGroups hexact hs'.admits (fun g hg => hs'.brings hg) hgroups
  refine ⟨{ t with stage := .accumulating groups }, ?_, rfl, rfl, hresult.perm hexact hperm⟩
  rw [Table.merge, h'.unfinished, h.unfinished, ho, sameAggregation_self, hgroups]
  rfl

end Table

/-! ## Merge trees -/

/-- Tables that are fed on their own, and the order in which they are merged. -/
inductive MergeTree where
  | leaf (feeds : List Feed)
  | node (left right : MergeTree)

namespace MergeTree

def feeds : MergeTree → List Feed
  | leaf feeds => feeds
  | node left right => left.feeds ++ right.feeds

def build (p : Plan) : MergeTree → Except TableFault Table
  | leaf feeds => (Table.ofPlan p).run feeds
  | node left right =>
      match left.build p with
      | .error e => .error e
      | .ok t =>
          match right.build p with
          | .error e => .error e
          | .ok o => t.merge o

/-- The same with ledgers in the place of tables. -/
def ledger (p : Plan) : MergeTree → Except TableFault Unit × Ledger
  | leaf feeds => (Ledger.ofPlan p).run feeds
  | node left right =>
      match left.ledger p with
      | (.error e, l) => (.error e, l)
      | (.ok (), l) =>
          match right.ledger p with
          | (.error e, _) => (.error e, l)
          | (.ok (), o) => l.merge o

/-- The calls that make the ledger. -/
def life (p : Plan) : MergeTree → Life
  | leaf feeds => .ofFeeds p feeds
  | node left right => .merge (left.life p) (right.life p)

theorem ledger_eq_of_build {p : Plan} {tree : MergeTree} {t : Table} (h : tree.build p = .ok t) :
    tree.ledger p = (.ok (), (tree.life p).ledger) ∧ (tree.life p).ledger.table = t := by
  induction tree generalizing t with
  | leaf feeds => exact @Life.run_eq_of_table (.ofPlan p) feeds t h
  | node left right ihl ihr =>
    rw [build] at h
    cases hl : left.build p with
    | error e => rw [hl] at h; cases h
    | ok t =>
      cases hr : right.build p with
      | error e => rw [hl, hr] at h; cases h
      | ok o =>
        obtain ⟨hleft, rfl⟩ := ihl hl
        obtain ⟨hright, rfl⟩ := ihr hr
        rw [hl, hr] at h
        obtain ⟨hmerge, htable⟩ := Life.merge_eq_of_table h
        refine ⟨?_, htable⟩
        rw [ledger, hleft, hright]
        exact hmerge

theorem exists_ledger {p : Plan} {tree : MergeTree} {t : Table} (h : tree.build p = .ok t) :
    ∃ l, tree.ledger p = (.ok (), l) ∧ l.finish.1 = t.finish.1 := by
  obtain ⟨hledger, rfl⟩ := ledger_eq_of_build h
  exact ⟨_, hledger, by rw [Ledger.finish_table]⟩

end MergeTree

/-- Every merge of a tree succeeds, and what comes out summarizes the rows of all its
leaves. -/
theorem MergeTree.summarizes_build {p : Plan} {tree : MergeTree} {rows : List Row}
    (hexact : ∀ m ∈ p.measures, m.aggregate.isReal = false)
    (hrows : p.history tree.feeds = .ok rows) (hroom : p.HasRoom rows.length) :
    ∃ t, tree.build p = .ok t ∧ t.plan = p ∧ t.Summarizes rows := by
  induction tree generalizing rows with
  | leaf feeds => exact Table.exists_run hrows hroom
  | node left right ihl ihr =>
    obtain ⟨first, rest, hfirst, hrest, rfl⟩ := Plan.history_append_eq_ok_iff.mp hrows
    obtain ⟨t, ht, htp, hts⟩ := ihl hfirst (hroom.mono (by simp))
    obtain ⟨o, ho, hop, hos⟩ := ihr hrest (hroom.mono (by simp))
    obtain ⟨u, hu, hup, hus⟩ := hts.merge hexact htp hop hos hroom
    refine ⟨u, ?_, hup, hus⟩
    rw [build, ht, ho]
    exact hu

/-- Tables of exact aggregates over the same rows can be merged in any way: whatever the
order of the rows, their split over the leaves, empty leaves included, and the shape of the
tree, all merges succeed and the results agree.  A leaf alone is a single pass.  Ledgers go
through the same and have the same results. -/
theorem finish_build_agree {p : Plan} {tree other : MergeTree} {rows more : List Row}
    (hexact : ∀ a ∈ p.aggregates, a.isReal = false) (hrows : p.history tree.feeds = .ok rows)
    (hmore : p.history other.feeds = .ok more) (hperm : rows.Perm more)
    (hfew : rows.length < 2 ^ 128) :
    ∃ t u out out', tree.build p = .ok t ∧ other.build p = .ok u ∧ t.finish.1 = .ok out ∧
      u.finish.1 = .ok out' ∧ SameResults p.groupBy.length out out' ∧
      ∃ l m, tree.ledger p = (.ok (), l) ∧ other.ledger p = (.ok (), m) ∧
        l.finish.1 = .ok out ∧ m.finish.1 = .ok out' := by
  have hmeasures : ∀ m ∈ p.measures, m.aggregate.isReal = false :=
    fun m hm => hexact m.aggregate (List.mem_map_of_mem hm)
  have hroom := Plan.HasRoom.of_lt p hfew
  obtain ⟨t, ht, rfl, hts⟩ := MergeTree.summarizes_build hmeasures hrows hroom
  obtain ⟨u, hu, hup, hus⟩ :=
    MergeTree.summarizes_build hmeasures hmore (hperm.length_eq ▸ hroom)
  have hkeys' := hus.resultKeys
  have hanswers' := fun g hg => (hus.answers hg (g := g)).2.1
  rw [hup] at hkeys' hanswers'
  obtain ⟨l, hl, hlout⟩ := MergeTree.exists_ledger ht
  obtain ⟨m, hm, hmout⟩ := MergeTree.exists_ledger hu
  refine ⟨t, u, t.resultRows, u.resultRows, ht, hu, hts.finish.1, hus.finish.1, ?_,
    l, m, hl, hm, hlout.trans hts.finish.1, hmout.trans hus.finish.1⟩
  rw [Table.resultRows, Table.resultRows, hup]
  exact sameResults_of_answers hmeasures hts.summary.admits hperm hts.resultKeys hkeys'
    (fun g hg => (hts.answers hg).2.1) hanswers'

namespace Orders

/-- Three tables, one of them empty. -/
def split : MergeTree := .node (.node (.leaf [first]) (.leaf [])) (.leaf [second])

def onePass : MergeTree := .leaf [second, first]

end Orders

theorem finish_build_agree_orders :
    ∃ p rows more, Plan.ofNode Orders.node = .ok p ∧ p.history Orders.split.feeds = .ok rows ∧
      p.history Orders.onePass.feeds = .ok more ∧ rows.Perm more ∧
      ∃ t u out out', Orders.split.build p = .ok t ∧ Orders.onePass.build p = .ok u ∧
        t.finish.1 = .ok out ∧ u.finish.1 = .ok out' ∧
        SameResults p.groupBy.length out out' ∧
        ∃ l m, Orders.split.ledger p = (.ok (), l) ∧ Orders.onePass.ledger p = (.ok (), m) ∧
          l.finish.1 = .ok out ∧ m.finish.1 = .ok out' :=
  ⟨_, _, _, rfl, rfl, rfl, .swap _ _ _,
    finish_build_agree (by decide) rfl rfl (.swap _ _ _) (by decide)⟩

end Rollup
