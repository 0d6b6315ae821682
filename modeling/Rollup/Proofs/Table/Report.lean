import Rollup.Proofs.Table.Run
import Rollup.Table.Result

/-
What a table reports when it is finished.

One row for every class of the rows taken in, in the order in which the classes first came
up: the first key of the class, then what each call answers for the cells that the class
brought it.
-/

namespace Rollup

open Aggregate (Digests Answers)
open ColumnType (HoldsAll)

/-! ## Keys in order of arrival -/

/-- The keys that no earlier key equals. -/
def firstKeys (rows : List Row) : List (List Cell) :=
  (rows.map (·.key)).eraseDupsBy fun key earlier => keysEqual earlier key

/-- The keys of result rows: one for every class of the rows taken in and, without group
columns, the empty key whether or not there are rows. -/
structure ResultKeys (p : Plan) (rows : List Row) (keys : List (List Cell)) : Prop where
  holds : ∀ k ∈ keys, HoldsAll p.keyTypes k
  distinct : keys.Pairwise fun k l => keysEqual k l = false
  cover : ∀ r ∈ rows, ∃ k ∈ keys, keysEqual k r.key = true
  origin : p.groupBy ≠ [] → ∀ k ∈ keys, ∃ r ∈ rows, r.key = k
  single : p.groupBy = [] → keys = [[]]

theorem eq_nil_of_holdsAll {p : Plan} {key : List Cell} (hp : p.groupBy = [])
    (h : HoldsAll p.keyTypes key) : key = [] := by
  rw [Plan.keyTypes, hp] at h
  cases h
  rfl

theorem ResultKeys.of_represents {p : Plan} {rows : List Row} {keys : List (List Cell)}
    (hp : p.groupBy ≠ []) (h : Represents p.keyTypes keys rows) : ResultKeys p rows keys where
  holds _ hk := h.holds_key hk
  distinct := h.distinct
  cover := h.cover
  origin _ := h.origin
  single hnil := absurd hnil hp

theorem ResultKeys.singleton {p : Plan} {rows : List Row} (hp : p.groupBy = [])
    (hrows : ∀ r ∈ rows, p.Admits r) : ResultKeys p rows [[]] where
  holds k hk := by
    obtain rfl := List.mem_singleton.mp hk
    rw [Plan.keyTypes, hp]
    exact .nil
  distinct := List.pairwise_singleton _ _
  cover r hr := by
    refine ⟨[], List.mem_cons_self, ?_⟩
    rw [eq_nil_of_holdsAll hp (hrows r hr).key]
    rfl
  origin hne := absurd hp hne
  single _ := rfl

/-- Two lists of result keys for the same rows have a key of every class in common. -/
theorem ResultKeys.exists_equal {p : Plan} {rows : List Row} {keys keys' : List (List Cell)}
    {key : List Cell} (h : ResultKeys p rows keys) (h' : ResultKeys p rows keys')
    (hk : key ∈ keys) : ∃ l ∈ keys', keysEqual key l = true := by
  by_cases hp : p.groupBy = []
  · have heq := hk
    rw [h.single hp, ← h'.single hp] at heq
    exact ⟨key, heq, keysEqual_refl key⟩
  · obtain ⟨r, hr, rfl⟩ := h.origin hp key hk
    obtain ⟨l, hl, hlr⟩ := h'.cover r hr
    exact ⟨l, hl, (keysEqual_comm _ l).trans hlr⟩

theorem ResultKeys.perm {p : Plan} {rows more : List Row} {keys : List (List Cell)}
    (h : ResultKeys p rows keys) (hp : rows.Perm more) : ResultKeys p more keys where
  holds := h.holds
  distinct := h.distinct
  cover r hr := h.cover r (hp.mem_iff.mpr hr)
  origin hne k hk := by
    obtain ⟨r, hr, hrk⟩ := h.origin hne k hk
    exact ⟨r, hp.mem_iff.mp hr, hrk⟩
  single := h.single

section

variable {p : Plan} {rows : List Row} {groups : List Group}

theorem ResultKeys.holds_key (h : ResultKeys p rows (groups.map (·.key))) {g : Group}
    (hg : g ∈ groups) : HoldsAll p.keyTypes g.key :=
  h.holds g.key (List.mem_map_of_mem hg)

theorem ResultKeys.exists_group (h : ResultKeys p rows (groups.map (·.key))) {r : Row}
    (hr : r ∈ rows) : ∃ g ∈ groups, keysEqual g.key r.key = true := by
  obtain ⟨k, hk, hkr⟩ := h.cover r hr
  obtain ⟨g, hg, rfl⟩ := List.mem_map.mp hk
  exact ⟨g, hg, hkr⟩

/-- Groups that report on the same rows have a group of every class in common. -/
theorem ResultKeys.exists_same_group {others : List Group}
    (h : ResultKeys p rows (groups.map (·.key))) (h' : ResultKeys p rows (others.map (·.key)))
    {g : Group} (hg : g ∈ groups) : ∃ g' ∈ others, keysEqual g.key g'.key = true := by
  obtain ⟨k, hk, heq⟩ := h.exists_equal h' (List.mem_map_of_mem hg)
  obtain ⟨g', hg', rfl⟩ := List.mem_map.mp hk
  exact ⟨g', hg', heq⟩

end

/-! ## Finishing -/

/-- Result rows made of the keys of groups and of cells for each group. -/
def rowsOf (groups : List Group) (cells : Group → List Cell) : List (List Cell) :=
  groups.map fun g => g.key ++ cells g

/-- A result row for one key: the key, then an answer for every call. -/
def Plan.Reports (p : Plan) (rows : List Row) (key row : List Cell) : Prop :=
  ∃ cells, row = key ++ cells ∧
    Columnwise Answers p.measures (columnOf (rowsWith key rows)) cells

namespace Table

theorem finalGroups_of_grouped {t : Table} (hp : t.plan.groupBy ≠ []) :
    t.finalGroups = t.groups := by
  unfold finalGroups
  have hne : t.plan.groupBy.isEmpty = false := by simpa using hp
  rw [hne]
  cases t.groups <;> rfl

variable {t : Table} {rows : List Row}

/-- Without group columns there is one class at most, since every key is empty. -/
theorem Summarizes.keys_of_ungrouped (h : t.Summarizes rows) (hp : t.plan.groupBy = []) :
    t.finalGroups.map (·.key) = [[]] := by
  have hnil : ∀ g ∈ t.groups, g.key = [] := fun g hg =>
    eq_nil_of_holdsAll hp (h.summary.holds_key hg)
  unfold finalGroups
  cases hgroups : t.groups with
  | nil =>
    rw [hp]
    rfl
  | cons g rest =>
    have hg := hnil g (hgroups ▸ List.mem_cons_self)
    have hrest : rest = [] := by
      refine List.eq_nil_iff_forall_not_mem.mpr fun g' hg' => ?_
      have hdistinct := h.summary.represents.distinct
      rw [hgroups, List.map_cons] at hdistinct
      have hne := (List.pairwise_cons.mp hdistinct).1 g'.key (List.mem_map_of_mem hg')
      rw [hg, hnil g' (hgroups ▸ List.mem_cons_of_mem g hg')] at hne
      exact nomatch hne
    rw [hrest, List.map_singleton, hg]

theorem Summarizes.resultKeys (h : t.Summarizes rows) :
    ResultKeys t.plan rows (t.finalGroups.map (·.key)) := by
  by_cases hp : t.plan.groupBy = []
  · rw [h.keys_of_ungrouped hp]
    exact .singleton hp h.summary.admits
  · rw [finalGroups_of_grouped hp]
    exact .of_represents hp h.summary.represents

theorem Summarizes.digests_finalGroups (h : t.Summarizes rows) :
    ∀ g ∈ t.finalGroups,
      Columnwise Digests t.plan.measures (columnOf (rowsWith g.key rows)) g.states := by
  unfold finalGroups
  cases hgroups : t.groups with
  | nil =>
    intro g hg
    have hrows : rows = [] := by
      refine List.eq_nil_iff_forall_not_mem.mpr fun r hr => ?_
      obtain ⟨k, hk, _⟩ := h.summary.represents.cover r hr
      rw [hgroups] at hk
      exact nomatch hk
    by_cases hp : t.plan.groupBy.isEmpty = true
    · rw [if_pos hp] at hg
      obtain rfl := List.mem_singleton.mp hg
      rw [hrows]
      exact digests_start t.plan
    · rw [if_neg hp] at hg
      exact nomatch hg
  | cons g rest =>
    show ∀ g' ∈ g :: rest, _
    rw [← hgroups]
    exact h.summary.digests

/-- The cells that the states of a group finish into. -/
def cellsOf (p : Plan) (g : Group) : List Cell :=
  (finishStates p.measures g.states).toOption.getD []

theorem Summarizes.answers (h : t.Summarizes rows) {g : Group} (hg : g ∈ t.finalGroups) :
    finishStates t.plan.measures g.states = .ok (cellsOf t.plan g) ∧
      Columnwise Answers t.plan.measures (columnOf (rowsWith g.key rows)) (cellsOf t.plan g) ∧
      HoldsAll (t.plan.measures.map (·.aggregate.output)) (cellsOf t.plan g) := by
  obtain ⟨cells, hcells, hanswers, hholds⟩ := answers_finishStates (h.digests_finalGroups g hg)
  have heq : cellsOf t.plan g = cells := by
    rw [cellsOf, hcells]
    rfl
  rw [heq]
  exact ⟨hcells, hanswers, hholds⟩

/-- The rows that a table of groups finishes into. -/
def resultRows (t : Table) : List (List Cell) :=
  rowsOf t.finalGroups (cellsOf t.plan)

/-- A table that summarizes rows can be finished, and reports on every class of them. -/
theorem Summarizes.finish (h : t.Summarizes rows) :
    t.finish.1 = .ok t.resultRows ∧
      List.Forall₂ (t.plan.Reports rows) (t.finalGroups.map (·.key)) t.resultRows := by
  constructor
  · rw [Table.finish, h.unfinished]
    show t.finalGroups.mapM (finishGroup t.plan) = _
    refine mapM_eq_ok_map fun g hg => ?_
    rw [finishGroup, (h.answers hg).1]
  · rw [resultRows, rowsOf, List.forall₂_map_left_iff, List.forall₂_map_right_iff,
      List.forall₂_same]
    exact fun g hg => ⟨cellsOf t.plan g, rfl, (h.answers hg).2.1⟩

end Table
end Rollup
