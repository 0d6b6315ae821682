import Rollup.Proofs.Aggregate.Digest
import Rollup.Proofs.Table.Admission
import Rollup.Table.Result

/-
The calls of a plan side by side.

Each call has a column of cells of its own, and its state and its result depend on that
column alone.  `Columnwise` says so for all calls at once, so that what holds of one
aggregate is lifted to the states of a group in one place.
-/

namespace Rollup

/-- Every call is related to its own entry by what its own column contributes. -/
def Columnwise {ι : Type} (R : Aggregate → List Value → ι → Prop) (measures : List Measure)
    (column : Nat → List Cell) (entries : List ι) : Prop :=
  entries.length = measures.length ∧
    ∀ (i : Nat) (m : Measure) (x : ι), measures[i]? = some m → entries[i]? = some x →
      R m.aggregate (m.aggregate.addends (column i)) x

section

variable {ι : Type} {R : Aggregate → List Value → ι → Prop} {m : Measure}
  {measures : List Measure} {column : Nat → List Cell} {x : ι} {entries : List ι}

theorem columnwise_nil_iff : Columnwise R [] column entries ↔ entries = [] := by
  constructor
  · exact fun h => List.eq_nil_of_length_eq_zero h.1
  · rintro rfl
    exact ⟨rfl, fun i m x hm => nomatch hm⟩

theorem columnwise_cons_iff :
    Columnwise R (m :: measures) column (x :: entries) ↔
      R m.aggregate (m.aggregate.addends (column 0)) x ∧
        Columnwise R measures (fun i => column (i + 1)) entries := by
  constructor
  · rintro ⟨hlength, h⟩
    refine ⟨h 0 m x rfl rfl, Nat.succ.inj hlength, fun i m' x' hm hx => ?_⟩
    exact h (i + 1) m' x' hm hx
  · rintro ⟨hhead, hlength, h⟩
    refine ⟨congrArg Nat.succ hlength, fun i m' x' hm hx => ?_⟩
    cases i with
    | zero =>
      cases hm
      cases hx
      exact hhead
    | succ i => exact h i m' x' hm hx

theorem Columnwise.exists_cons (h : Columnwise R (m :: measures) column entries) :
    ∃ x rest, entries = x :: rest ∧ R m.aggregate (m.aggregate.addends (column 0)) x ∧
      Columnwise R measures (fun i => column (i + 1)) rest := by
  cases entries with
  | nil => exact nomatch h.1
  | cons x rest => exact ⟨x, rest, rfl, columnwise_cons_iff.mp h⟩

/-- Only the aggregates of the calls matter. -/
theorem Columnwise.congr {others : List Measure}
    (haggregates : measures.map (·.aggregate) = others.map (·.aggregate))
    (h : Columnwise R measures column entries) : Columnwise R others column entries := by
  have hlength : measures.length = others.length := by
    have hlengths := congrArg List.length haggregates
    rwa [List.length_map, List.length_map] at hlengths
  refine ⟨h.1.trans hlength, fun i m x hm hx => ?_⟩
  have hi : i < measures.length := h.1 ▸ (List.getElem?_eq_some_iff.mp hx).1
  have hget : (measures.map (·.aggregate))[i]? = some m.aggregate := by
    rw [haggregates, List.getElem?_map, hm]
    rfl
  rw [List.getElem?_map, List.getElem?_eq_getElem hi] at hget
  rw [← Option.some.inj hget]
  exact h.2 i _ x (List.getElem?_eq_getElem hi) hx

end

open Aggregate (Digests Answers)

/-- The cells that rows bring for one call. -/
def columnOf (rows : List Row) (i : Nat) : List Cell := rows.map fun r => r.values.getD i none

theorem columnOf_append (rows more : List Row) (i : Nat) :
    columnOf (rows ++ more) i = columnOf rows i ++ columnOf more i :=
  List.map_append

theorem columnOf_append_funext (rows more : List Row) :
    columnOf (rows ++ more) = fun i => columnOf rows i ++ columnOf more i :=
  funext fun i => columnOf_append rows more i

theorem columnOf_singleton {key cells : List Cell} {i : Nat} (hi : i < cells.length) :
    columnOf [⟨key, cells⟩] i = [cells[i]] := by
  rw [columnOf, List.map_singleton, List.getD_eq_getElem?_getD, List.getElem?_eq_getElem hi]
  rfl

/-- The totals of all decimal sums stay within the bits in which they are added. -/
def AllInRange (measures : List Measure) (column : Nat → List Cell) : Prop :=
  ∀ (i : Nat) (m : Measure), measures[i]? = some m →
    m.aggregate.InRange (m.aggregate.addends (column i))

section

variable {measures : List Measure} {column more : Nat → List Cell} {states others : List State}
  {values : List Cell} {result : List State}

theorem digests_start (p : Plan) : Columnwise Digests p.measures (columnOf []) p.start := by
  refine ⟨List.length_map _, fun i m s hm hs => ?_⟩
  rw [Plan.start, List.getElem?_map, hm] at hs
  cases hs
  exact .start m.aggregate

/-! ## Taking in a row -/

theorem digests_takeValues (hs : Columnwise Digests measures column states)
    (hv : List.Forall₂ (fun m c => (m.aggregate.expects m.call.ofPartials).HoldsCell c) measures
      values) (h : Plan.takeValues measures states values = .ok result) :
    Columnwise Digests measures (fun i => column i ++ [values.getD i none]) result := by
  induction hv generalizing column states result with
  | nil =>
    obtain rfl := columnwise_nil_iff.mp hs
    cases h
    exact columnwise_nil_iff.mpr rfl
  | @cons m c ms cs hc _ ih =>
    obtain ⟨s, ss, rfl, hs, hss⟩ := hs.exists_cons
    have htake := hs.take hc
    rw [← Aggregate.addends_append] at htake
    rw [Plan.takeValues] at h
    split at h
    · exact nomatch h
    · rename_i t ht
      obtain ⟨rest, hrest, rfl⟩ := map_eq_ok_iff.mp h
      exact columnwise_cons_iff.mpr ⟨htake.of_ok ht, ih hss hrest⟩

theorem exists_takeValues (hs : Columnwise Digests measures column states)
    (hv : List.Forall₂ (fun m c => (m.aggregate.expects m.call.ofPartials).HoldsCell c) measures
      values) (hr : AllInRange measures fun i => column i ++ [values.getD i none]) :
    ∃ result, Plan.takeValues measures states values = .ok result := by
  induction hv generalizing column states with
  | nil => exact ⟨[], by cases states <;> rfl⟩
  | @cons m c ms cs hc _ ih =>
    obtain ⟨s, ss, rfl, hs, hss⟩ := hs.exists_cons
    have htake := hs.take hc
    rw [← Aggregate.addends_append] at htake
    obtain ⟨t, ht, _⟩ := htake.exists_ok (hr 0 m rfl)
    obtain ⟨rest, hrest⟩ := ih hss fun i m' hm => hr (i + 1) m' hm
    refine ⟨t :: rest, ?_⟩
    rw [Plan.takeValues, show (if m.call.ofPartials = true then _ else _) = _ from ht, hrest]
    rfl

/-! ## Joining the states of another run -/

theorem digests_takeStates (hexact : ∀ m ∈ measures, m.aggregate.isReal = false)
    (hs : Columnwise Digests measures column states)
    (ho : Columnwise Digests measures more others)
    (h : Plan.takeStates measures states others = .ok result) :
    Columnwise Digests measures (fun i => column i ++ more i) result := by
  induction measures generalizing column more states others result with
  | nil =>
    obtain rfl := columnwise_nil_iff.mp hs
    cases h
    exact columnwise_nil_iff.mpr rfl
  | cons m ms ih =>
    obtain ⟨s, ss, rfl, hs, hss⟩ := hs.exists_cons
    obtain ⟨o, os, rfl, ho, hos⟩ := ho.exists_cons
    have hmerge := hs.merge (hexact m List.mem_cons_self) ho
    rw [← Aggregate.addends_append] at hmerge
    rw [Plan.takeStates] at h
    split at h
    · exact nomatch h
    · rename_i t ht
      obtain ⟨rest, hrest, rfl⟩ := map_eq_ok_iff.mp h
      have hms : ∀ m' ∈ ms, m'.aggregate.isReal = false :=
        fun m' hm => hexact m' (List.mem_cons_of_mem m hm)
      exact columnwise_cons_iff.mpr ⟨hmerge.of_ok ht, ih hms hss hos hrest⟩

theorem exists_takeStates (hexact : ∀ m ∈ measures, m.aggregate.isReal = false)
    (hs : Columnwise Digests measures column states)
    (ho : Columnwise Digests measures more others)
    (hr : AllInRange measures fun i => column i ++ more i) :
    ∃ result, Plan.takeStates measures states others = .ok result := by
  induction measures generalizing column more states others with
  | nil => exact ⟨[], by cases states <;> rfl⟩
  | cons m ms ih =>
    obtain ⟨s, ss, rfl, hs, hss⟩ := hs.exists_cons
    obtain ⟨o, os, rfl, ho, hos⟩ := ho.exists_cons
    have hmerge := hs.merge (hexact m List.mem_cons_self) ho
    rw [← Aggregate.addends_append] at hmerge
    obtain ⟨t, ht, _⟩ := hmerge.exists_ok (hr 0 m rfl)
    have hms : ∀ m' ∈ ms, m'.aggregate.isReal = false :=
      fun m' hm => hexact m' (List.mem_cons_of_mem m hm)
    obtain ⟨rest, hrest⟩ := ih hms hss hos fun i m' hm => hr (i + 1) m' hm
    refine ⟨t :: rest, ?_⟩
    rw [Plan.takeStates, ht, hrest]
    rfl

/-! ## Results -/

/-- The states of a group can be finished, each into a cell of its result type. -/
theorem answers_finishStates (hs : Columnwise Digests measures column states) :
    ∃ cells, Table.finishStates measures states = .ok cells ∧
      Columnwise Answers measures column cells ∧
      ColumnType.HoldsAll (measures.map (·.aggregate.output)) cells := by
  induction measures generalizing column states with
  | nil =>
    obtain rfl := columnwise_nil_iff.mp hs
    exact ⟨[], rfl, columnwise_nil_iff.mpr rfl, .nil⟩
  | cons m ms ih =>
    obtain ⟨s, ss, rfl, hs, hss⟩ := hs.exists_cons
    obtain ⟨c, hc, hanswers⟩ := hs.finish
    obtain ⟨cells, hcells, hall, hholds⟩ := ih hss
    refine ⟨c :: cells, ?_, columnwise_cons_iff.mpr ⟨hanswers, hall⟩,
      .cons (hanswers.holdsCell hs.admits) hholds⟩
    rw [Table.finishStates, hc, hcells]
    rfl

end

end Rollup
