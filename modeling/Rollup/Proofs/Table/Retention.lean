import Rollup.Proofs.Aggregate.Retention
import Rollup.Proofs.Table.Agreement
import Rollup.Proofs.Table.Layout
import Rollup.Proofs.Table.Simulation

/-
What ledgers retain of the entries they take in.

A property of values that the keys of entries have, and the items for extremes, is one of
the keys and the states of the ledger afterwards, also if an entry fails halfway: a step that
fails leaves its state alone, and every step that succeeds leaves one of the right form.  So
an open ledger can always be finished, whatever it has been through, and its result rows
have the property too.
-/

namespace Rollup

open ColumnType (HoldsAll)

variable {P : ColumnType → Value → Prop}

/-- A row with the property in its key and in the cells for extremes. -/
structure Plan.Offers (P : ColumnType → Value → Prop) (p : Plan) (r : Row) : Prop where
  key : SatisfyAll P p.keyTypes r.key
  values : List.Forall₂ (Aggregate.Offered P) p.aggregates r.values

theorem Plan.retains_start (P : ColumnType → Value → Prop) (p : Plan) :
    List.Forall₂ (Aggregate.Retains P) p.aggregates p.start :=
  p.forall₂_start (Aggregate.retains_start P)

/-- A result row with the property in its key and in the results of extremes. -/
def Plan.Yields (P : ColumnType → Value → Prop) (p : Plan) (row : List Cell) : Prop :=
  ∃ key cells, row = key ++ cells ∧ SatisfyAll P p.keyTypes key ∧
    List.Forall₂ (Aggregate.Yields P) p.aggregates cells

theorem Plan.Yields.satisfyAll {p : Plan} {row : List Cell} (h : p.Yields P row)
    (hP : Aggregate.OfSums P) : SatisfyAll P p.outputTypes row := by
  obtain ⟨key, cells, rfl, hkey, hcells⟩ := h
  refine List.rel_append hkey (List.forall₂_map_left_iff.mpr ?_)
  exact hcells.imp fun _ _ hc => hc.satisfies hP

/-- An item after which every state is one that its aggregate can have, in the sense of `Q`,
if the step succeeds. -/
def Ledger.IsSound {ι : Type} (Q : Aggregate → State → Prop) (step : Ledger.Step ι)
    (m : Measure) (x : ι) : Prop :=
  ∀ s t, Q m.aggregate s → step m s x = .ok t → Q m.aggregate t

/-- An entry that leaves a ledger of the plan in order. -/
structure Entry.IsSound {ι : Type} (P : ColumnType → Value → Prop) (step : Ledger.Step ι)
    (p : Plan) (e : Entry ι) : Prop where
  key : SatisfyAll P p.keyTypes e.key.cells
  items : List.Forall₂ (Ledger.IsSound (Aggregate.Retains P) step) p.measures e.items

/-- A group with key and states in order. -/
structure Group.Retains (P : ColumnType → Value → Prop) (p : Plan) (g : Group) : Prop where
  holds : HoldsAll p.keyTypes g.key
  key : SatisfyAll P p.keyTypes g.key
  states : List.Forall₂ (Aggregate.Retains P) p.aggregates g.states

namespace Ledger

/-! ## States -/

/-- Every state is one that its aggregate can have, in the sense of `Q`. -/
def StatesAre (Q : Aggregate → State → Prop) (l : Ledger) : Prop :=
  ∀ states ∈ l.states, List.Forall₂ Q l.plan.aggregates states

section

variable {ι : Type} {Q : Aggregate → State → Prop} {step : Step ι} {l : Ledger} {e : Entry ι}
  {entries : List (Entry ι)}

theorem statesAre_of_nil (h : l.states = []) : l.StatesAre Q :=
  fun _ hs => nomatch h ▸ hs

/-- The states before the first failure have been changed, those from there on have not. -/
theorem statesAre_advance {ms : List Measure} {ss : List State} {xs : List ι}
    (hs : List.Forall₂ Q (ms.map (·.aggregate)) ss) (hx : List.Forall₂ (IsSound Q step) ms xs) :
    List.Forall₂ Q (ms.map (·.aggregate)) (advance step ms ss xs).2 := by
  induction hx generalizing ss with
  | nil => exact hs
  | @cons m x ms xs hx _ ih =>
    cases hs with
    | cons hs hss =>
      rw [advance]
      split
      · exact .cons hs hss
      · rename_i t ht
        exact .cons (hx _ t hs ht) (ih hss)

theorem StatesAre.place (h : l.StatesAre Q) (hstart : List.Forall₂ Q l.plan.aggregates l.plan.start)
    (key : GroupKey) : (l.place key).2.StatesAre Q := by
  unfold Ledger.place
  split
  · exact h
  · intro states hs
    rcases List.mem_append.mp hs with hs | hs
    · exact h states hs
    · exact List.mem_singleton.mp hs ▸ hstart

/-- Where there is no such place nothing is changed. -/
theorem StatesAre.setStates (h : l.StatesAre Q) (i : Nat) {states : List State}
    (hstates : i < l.states.length → List.Forall₂ Q l.plan.aggregates states) :
    (l.setStates i states).StatesAre Q := by
  intro ss hss
  by_cases hi : i < l.states.length
  · rcases List.mem_or_eq_of_mem_set hss with hss | rfl
    · exact h ss hss
    · exact hstates hi
  · have hset := List.set_eq_of_length_le (a := states) (Nat.le_of_not_lt hi)
    exact h ss (hset ▸ hss)

theorem StatesAre.takeEntry (h : l.StatesAre Q)
    (hstart : List.Forall₂ Q l.plan.aggregates l.plan.start)
    (he : List.Forall₂ (IsSound Q step) l.plan.measures e.items) :
    (l.takeEntry step e).2.StatesAre Q := by
  have hplace := h.place hstart e.key
  have hplan := l.place_plan e.key
  refine hplace.setStates _ fun hi => ?_
  have hold := hplace _ (List.getElem_mem hi)
  rw [List.getD_eq_getElem?_getD, List.getElem?_eq_getElem hi, Option.getD_some]
  rw [hplan] at hold ⊢
  exact statesAre_advance hold he

/-- What entries preserve of a ledger of this plan, they preserve together, whether they are
all taken in or not. -/
theorem accumulate_induction {R : Ledger → Prop} (hl : R l.accumulating)
    (hstep : ∀ m : Ledger, m.plan = l.plan → R m → ∀ e ∈ entries, R (m.takeEntry step e).2) :
    R (l.accumulate step entries).2 := by
  have hall : (l.accumulate step entries).2.plan = l.plan ∧ R (l.accumulate step entries).2 := by
    apply takeEntries_induction (P := fun m => m.plan = l.plan ∧ R m)
    · exact ⟨rfl, hl⟩
    · rintro m e he ⟨hplan, hm⟩
      exact ⟨(takeEntry_plan step m e).trans hplan, hstep m hplan hm e he⟩
  exact hall.2

theorem StatesAre.accumulate (h : l.StatesAre Q)
    (hstart : List.Forall₂ Q l.plan.aggregates l.plan.start)
    (hentries : ∀ e ∈ entries, List.Forall₂ (IsSound Q step) l.plan.measures e.items) :
    (l.accumulate step entries).2.StatesAre Q := by
  refine accumulate_induction (R := fun m => m.StatesAre Q) h fun m hplan hm e he => ?_
  exact hm.takeEntry (hplan.symm ▸ hstart) (hplan.symm ▸ hentries e he)

end

/-! ## Entries -/

structure Retains (P : ColumnType → Value → Prop) (l : Ledger) : Prop where
  keys : ∀ key ∈ l.keys, SatisfyAll P l.plan.keyTypes key.cells
  states : l.StatesAre (Aggregate.Retains P)

variable {ι : Type} {step : Step ι} {l other : Ledger} {e : Entry ι} {entries : List (Entry ι)}

theorem retains_of_nil (hkeys : l.keys = []) (hstates : l.states = []) : l.Retains P where
  keys _ h := by rw [hkeys] at h; exact nomatch h
  states := statesAre_of_nil hstates

theorem Retains.place (h : l.Retains P) {key : GroupKey}
    (hkey : SatisfyAll P l.plan.keyTypes key.cells) : (l.place key).2.Retains P where
  keys := by
    unfold Ledger.place
    split
    · exact h.keys
    · intro k hk
      rcases List.mem_append.mp hk with hk | hk
      · exact h.keys k hk
      · exact List.mem_singleton.mp hk ▸ hkey
  states := h.states.place (l.plan.retains_start P) key

theorem Retains.takeEntry (h : l.Retains P) (he : e.IsSound P step l.plan) :
    (l.takeEntry step e).2.Retains P where
  keys := (h.place he.key).keys
  states := h.states.takeEntry (l.plan.retains_start P) he.items

/-- Entries leave the ledger in order, whether they are all taken in or not. -/
theorem Retains.accumulate (h : l.Retains P)
    (hentries : ∀ e ∈ entries, e.IsSound P step l.plan) :
    (l.accumulate step entries).2.Retains P := by
  refine accumulate_induction (R := fun m => m.Retains P) ⟨h.keys, h.states⟩ ?_
  exact fun m hplan hm e he => hm.takeEntry (hplan.symm ▸ hentries e he)

/-! ## Calls -/

theorem isSound_row {p : Plan} {r : Row} (hadmits : p.Admits r) (hoffers : p.Offers P r) :
    r.entry.IsSound P takeCell p where
  key := hoffers.key
  items := by
    have hvalues := List.forall₂_map_left_iff.mp hoffers.values
    refine hadmits.values.mp (fun m c hc hoffered s t hs ht => ?_) hvalues
    exact hs.take hc hoffered ht

theorem Retains.isSound_group (h : other.Retains P) {p : Plan}
    (hsame : Table.sameAggregation p other.plan = true) {g : Group} (hg : g ∈ other.groups) :
    g.entry.IsSound P takeState p where
  key := by
    obtain ⟨k, hk, hkey⟩ := exists_key_of_mem_groups hg
    show SatisfyAll P p.keyTypes g.key
    rw [keyTypes_eq_of_sameAggregation hsame, hkey]
    exact h.keys k hk
  items := by
    have hstates := h.states g.states (states_of_mem_groups hg)
    rw [← aggregates_eq_of_sameAggregation hsame] at hstates
    exact (List.forall₂_map_left_iff.mp hstates).imp fun m o ho s t hs ht => hs.merge ho ht

/-! ## Results -/

theorem exists_finishStates {ms : List Measure} {ss : List State}
    (h : List.Forall₂ (Aggregate.Retains P) (ms.map (·.aggregate)) ss) :
    ∃ cells, Finishes ms ss cells ∧
      List.Forall₂ (Aggregate.Yields P) (ms.map (·.aggregate)) cells := by
  induction ms generalizing ss with
  | nil =>
    cases h
    exact ⟨[], ⟨rfl, rfl, .nil⟩, .nil⟩
  | cons m ms ih =>
    cases h with
    | cons hs hss =>
      obtain ⟨c, hc, hyields⟩ := hs.finish
      obtain ⟨cells, hfinishes, hall⟩ := ih hss
      refine ⟨c :: cells, ⟨congrArg Nat.succ hfinishes.length_eq, ?_, ?_⟩, .cons hyields hall⟩
      · rw [Table.finishStates, hc, hfinishes.finish_eq]
        rfl
      · exact .cons hyields.holdsCell hfinishes.holds

theorem WellKept.retains_finalGroups (hkept : l.WellKept) (h : l.Retains P) :
    ∀ g ∈ l.table.finalGroups, g.Retains P l.plan := by
  have hgroups : ∀ g ∈ l.groups, g.Retains P l.plan := by
    intro g hg
    obtain ⟨k, hk, hkey⟩ := exists_key_of_mem_groups hg
    refine ⟨?_, hkey ▸ h.keys k hk, h.states g.states (states_of_mem_groups hg)⟩
    exact Plan.isNormal_iff.mp (hkey ▸ hkept.normal k hk)
  have hplan : l.table.plan = l.plan := rfl
  unfold Table.finalGroups
  rw [hkept.groups_table, hplan]
  split
  · by_cases hp : l.plan.groupBy.isEmpty = true
    · rw [if_pos hp]
      have htypes : l.plan.keyTypes = [] := by
        rw [Plan.keyTypes, List.isEmpty_iff.mp hp, List.map_nil]
      exact List.forall_mem_singleton.mpr
        ⟨htypes ▸ .nil, htypes ▸ .nil, l.plan.retains_start P⟩
    · rw [if_neg hp]
      exact List.forall_mem_nil _
  · exact hgroups

theorem WellKept.finishes (hkept : l.WellKept) (h : l.Retains P) :
    ∀ g ∈ l.table.finalGroups, Finishes l.plan.measures g.states (Table.cellsOf l.plan g) ∧
      List.Forall₂ (Aggregate.Yields P) l.plan.aggregates (Table.cellsOf l.plan g) := by
  intro g hg
  obtain ⟨cells, hfinishes, hyields⟩ :=
    exists_finishStates (hkept.retains_finalGroups h g hg).states
  have hcells : Table.cellsOf l.plan g = cells := by
    rw [Table.cellsOf, hfinishes.finish_eq]
    rfl
  rw [hcells]
  exact ⟨hfinishes, hyields⟩

/-- Any ledger that still takes rows in can be finished. -/
theorem WellKept.settled (hkept : l.WellKept) (hopen : l.isFinished = false)
    (h : l.Retains P) : l.table.Settled where
  unfinished := l.isFinished_table.trans hopen
  keys g hg := (hkept.retains_finalGroups h g hg).holds
  states g hg := (hkept.finishes h g hg).1

theorem WellKept.yields (hkept : l.WellKept) (h : l.Retains P) :
    ∀ row ∈ l.table.resultRows, l.plan.Yields P row := by
  refine List.forall_mem_map.mpr fun g hg => ?_
  exact ⟨g.key, _, rfl, (hkept.retains_finalGroups h g hg).key, (hkept.finishes h g hg).2⟩

theorem WellKept.distinct_finalGroups (hkept : l.WellKept) :
    l.table.finalGroups.Pairwise fun g g' => keysEqual g.key g'.key = false := by
  unfold Table.finalGroups
  rw [hkept.groups_table]
  split
  · by_cases hp : l.table.plan.groupBy.isEmpty = true
    · rw [if_pos hp]
      exact List.pairwise_singleton _ _
    · rw [if_neg hp]
      exact .nil
  · exact hkept.groups_distinct

/-- No two rows are reported for one key. -/
theorem WellKept.distinct_resultRows (hkept : l.WellKept) (h : l.Retains P) :
    (l.table.resultRows.map (·.take l.plan.groupBy.length)).Pairwise fun key other =>
      keysEqual key other = false := by
  have hholds : ∀ g ∈ l.table.finalGroups, HoldsAll l.plan.keyTypes g.key := fun g hg =>
    (hkept.retains_finalGroups h g hg).holds
  rw [Table.resultRows, map_take_rowsOf hholds]
  exact List.pairwise_map.mpr hkept.distinct_finalGroups

end Ledger

end Rollup
