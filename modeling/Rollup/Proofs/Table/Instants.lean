import Rollup.Proofs.Plan
import Rollup.Proofs.Table.Emission
import Rollup.Proofs.Table.Intake

/-
Timestamps in chunks of results.

A row may bring a timestamp with parts finer than the units that its column counts, or one
that is out of reach of the count, and neither is noticed before the results are laid out as
columns.  A chunk brings none of the first kind, since its columns must count units that are
no finer.  `Life.timestamps_restored_iff` says when the chunk of the results exists and when
it gives back every timestamp, in terms of the results and of what was brought.
-/

namespace Rollup

namespace ColumnType

/-! ## Timestamps in reach -/

/-- All dates are in reach of a count of microseconds. -/
theorem inReach_of_precision_le {type : ColumnType} (h : ∀ p, type = .timestamp p → p ≤ 6)
    (v : Value) : type.InReach v := by
  cases type with
  | timestamp p =>
    cases v with
    | timestamp t =>
      have hp := h p rfl
      have hlower := t.date.lower
      have hupper := t.date.upper
      have hsecond := t.second_lt
      have hnanos := t.nanos_lt
      show -(Nat.pow 2 63 : Nat) ≤ t.toUnits (.ofPrecision p) ∧
        t.toUnits (.ofPrecision p) < (Nat.pow 2 63 : Nat)
      have hpow : Nat.pow 2 63 = 9223372036854775808 := rfl
      rw [hpow]
      unfold TimeUnit.ofPrecision
      split
      · simp only [Timestamp.toUnits, Timestamp.epochSecond]
        omega
      · split
        · simp only [Timestamp.toUnits, Timestamp.epochSecond, TimeUnit.perSecond, TimeUnit.nanos]
          omega
        · simp only [Timestamp.toUnits, Timestamp.epochSecond, TimeUnit.perSecond, TimeUnit.nanos]
          omega
    | _ => trivial
  | _ => trivial

/-! ## Timestamps out of columns -/

theorem eq_timestamp_of_decode {type : StorageType} {d : Option type.Datum} {t : Timestamp}
    (h : type.decode d = .ok (some (.timestamp t))) :
    ∃ unit zone, type = .timestamp unit zone ∧ t.IsWhole unit := by
  cases type with
  | timestamp unit zone =>
    refine ⟨unit, zone, rfl, ?_⟩
    cases d with
    | none => cases h
    | some n =>
      cases hu : Timestamp.ofUnits? unit (Signed.toInt n) with
      | none => simp [StorageType.decode, hu] at h
      | some u =>
        simp only [StorageType.decode, hu, Except.ok.injEq, Option.some.injEq,
          Value.timestamp.injEq] at h
        exact (Timestamp.ofUnits?_eq_some_iff.mp (h ▸ hu)).1
  | date32 =>
    cases d with
    | none => cases h
    | some n => cases hday : Date.ofDay? (Signed.toInt n) <;> simp [StorageType.decode, hday] at h
  | _ => cases d <;> cases h

/-- What comes out of a column of an accepted type is exact: its units are no finer than
those in which the declared type is stored. -/
theorem isExact_of_accepts {type : ColumnType} {storage : StorageType}
    {d : Option storage.Datum} {cell c : Cell} (haccepts : type.accepts storage = true)
    (hread : storage.decode d = .ok cell) (hnormal : type.normalizeCell cell = .ok c) :
    c.Satisfies type.IsExact := by
  intro v hv
  subst hv
  cases type with
  | timestamp p =>
    cases cell with
    | none => exact nomatch hnormal
    | some u =>
      cases u with
      | timestamp t =>
        cases hnormal
        obtain ⟨unit, zone, rfl, hwhole⟩ := eq_timestamp_of_decode hread
        have hle : unit.precision ≤ (TimeUnit.ofPrecision p).precision :=
          of_decide_eq_true haccepts
        exact hwhole.mono hle
      | _ => exact nomatch hnormal
  | _ => trivial

end ColumnType

/-! ## Rows out of chunks -/

namespace Plan

variable {p : Plan} {c : Chunk} {i : Nat} {input : List Cell}

theorem isExact_of_decodes {type : ColumnType} {j : Nat} {w : Cell}
    (hfits : ∃ column, c.columns[j]? = some column ∧ type.accepts column.type = true)
    (hd : c.Decodes p i input) (hj : j ∈ p.columnNumbers)
    (hw : ∃ cell, input[j]? = some cell ∧ type.normalizeCell cell = .ok w) :
    w.Satisfies type.IsExact := by
  obtain ⟨column, hcolumn, haccepts⟩ := hfits
  obtain ⟨cell, hcell, hnormal⟩ := hw
  obtain ⟨found, hfound, hinput⟩ := hd j hj
  obtain ⟨column', hcolumn', hread⟩ := Chunk.cell?_eq_some_iff.mp hfound
  obtain ⟨stored, _, hdecode⟩ := Column.read_eq_ok_iff.mp hread
  rw [hcolumn] at hcolumn'
  rw [hcell] at hinput
  cases hcolumn'
  cases hinput
  exact ColumnType.isExact_of_accepts haccepts hdecode hnormal

/-- The rows of a chunk bring exact timestamps. -/
theorem offers_isExact_of_chunkRows {rows : List Row} (h : p.chunkRows c = .ok rows) :
    ∀ r ∈ rows, p.Offers ColumnType.IsExact r := by
  intro r hr
  obtain ⟨hfits, hread⟩ := readable_of_chunkRows h
  obtain ⟨inputs, hd⟩ := Chunk.exists_decodesTo hread
  rw [chunkRows_eq_mapM hfits hd] at h
  obtain ⟨input, hinput, hprepare⟩ := exists_of_mem_mapM h hr
  obtain ⟨i, hi⟩ := List.mem_iff_getElem?.mp hinput
  have hdecodes := hd.decodes i input hi
  obtain ⟨hkey, hvalues⟩ := forall₂_of_prepareInput hprepare
  constructor
  · refine List.forall₂_map_left_iff.mpr ?_
    refine ((List.forall₂_and_left _ _).mpr ⟨fun _ hg => hg, hkey⟩).imp ?_
    intro g w hg
    exact isExact_of_decodes (hfits.keys g hg.1) hdecodes (column_mem_of_groupBy hg.1) hg.2
  · refine List.forall₂_map_left_iff.mpr ?_
    refine ((List.forall₂_and_left _ _).mpr ⟨fun _ hm => hm, hvalues⟩).imp ?_
    intro m w hm
    exact Aggregate.offered_of_satisfies (isExact_of_decodes (hfits.values m hm.1) hdecodes
      (column_mem_of_measures hm.1) hm.2)

end Plan

/-! ## Timestamps out of chunks of results -/

def Feed.isChunk : Feed → Bool
  | .chunk _ => true
  | _ => false

theorem ofSums_inReach : Aggregate.OfSums ColumnType.InReach :=
  ⟨fun _ => trivial, fun _ => trivial, fun _ _ _ _ => trivial⟩

theorem ofSums_isExact : Aggregate.OfSums ColumnType.IsExact :=
  ⟨fun _ => trivial, fun _ => trivial, fun _ _ _ _ => trivial⟩

namespace Life

variable {life : Life}

theorem offers_isExact (h : life.FedBy fun f => f.isChunk = true) :
    ∀ r ∈ life.rows, life.plan.Offers ColumnType.IsExact r := by
  apply offers_rows h
  intro p f rows hf haccepted
  cases f with
  | chunk c => exact Plan.offers_isExact_of_chunkRows haccepted
  | _ => exact nomatch hf

theorem satisfyAll_results {P : ColumnType → Value → Prop} (hP : Aggregate.OfSums P)
    (h : ∀ r ∈ life.rows, life.plan.Offers P r) :
    ∀ row ∈ life.results, SatisfyAll P life.plan.outputTypes row :=
  fun row hrow => (yields_results h row hrow).satisfyAll hP

/-- An open ledger always finishes into rows, no two of which have equal keys.  It finishes
into a chunk if and only if every timestamp of these rows is in reach of its column, and the
chunk gives back the rows if and only if every timestamp is exact in its column.  Timestamps
of few enough digits are in reach, and so are all that come of rows with timestamps in
reach; they are exact if all that was brought was, which is so when only chunks brought
rows. -/
theorem timestamps_restored_iff {n : Node} (hplan : Plan.ofNode n = .ok life.plan)
    (hopen : life.isFinished = false)
    (hsimple : ∀ g ∈ life.plan.groupBy, g.type.isComplex = false) :
    ∃ rows, life.ledger.finish.1 = .ok rows ∧
      ((rows.map (·.take life.plan.groupBy.length)).Pairwise fun key other =>
        keysEqual key other = false) ∧
      ((∃ c, life.ledger.finishChunk.1 = .ok c) ↔
        ∀ row ∈ rows, SatisfyAll ColumnType.InReach life.plan.outputTypes row) ∧
      (∀ c, life.ledger.finishChunk.1 = .ok c →
        (c.Mirrors life.plan rows ↔
          ∀ row ∈ rows, SatisfyAll ColumnType.IsExact life.plan.outputTypes row)) ∧
      ((∀ p, .timestamp p ∈ life.plan.outputTypes → p ≤ 6) ∨
          (∀ r ∈ life.rows, life.plan.Offers ColumnType.InReach r) →
        ∀ row ∈ rows, SatisfyAll ColumnType.InReach life.plan.outputTypes row) ∧
      ((life.FedBy fun f => f.isChunk = true) ∨
          (∀ r ∈ life.rows, life.plan.Offers ColumnType.IsExact r) →
        ∀ row ∈ rows, SatisfyAll ColumnType.IsExact life.plan.outputTypes row) := by
  have htypes := forall_outputTypes (Q := (·.isComplex = false)) hsimple
    (Plan.isComplex_of_ofNode hplan)
  refine ⟨life.results, finish_eq hopen, life.distinct_results,
    exists_finishChunk_iff hopen htypes, fun c hc => mirrors_iff hopen hc, ?_, ?_⟩
  · intro h row hrow
    rcases h with hcoarse | hrows
    · have hlength := (holdsAll_results hopen row hrow).length_eq
      refine satisfyAll_of_forall hlength fun type htype => ?_
      exact ColumnType.inReach_of_precision_le fun p hp => hcoarse p (hp ▸ htype)
    · exact satisfyAll_results ofSums_inReach hrows row hrow
  · intro h
    rcases h with hchunks | hrows
    · exact satisfyAll_results ofSums_isExact (offers_isExact hchunks)
    · exact satisfyAll_results ofSums_isExact hrows

namespace Ticks

def node : Node where
  id := 1
  groupBy := [⟨0, .timestamp 3, none⟩]
  calls := [{ function := "max", argument := .integer .int, column := 1 }]

def plan : Plan where
  name := "AGGREGATE (id=1)"
  groupBy := node.groupBy
  measures := node.calls.map fun c => ⟨c, .extreme .max (.integer .int)⟩

/-- 2021-08-04 16:26:33.4 and the given number of nanoseconds. -/
def instant (nanos : Nat) (h : nanos < 1000) : Timestamp where
  date := ⟨18843, by decide, by decide⟩
  second := 59193
  nanos := 400000000 + nanos
  second_lt := by decide
  nanos_lt := .inl (by omega)

def early : Cell := some (.timestamp (instant 0 (by decide)))

def late : Cell := some (.timestamp (instant 1 (by decide)))

def count (n : Int) : Cell := some (.integer (.wrap n))

/-- Milliseconds in a chunk. -/
def feeds : List Feed :=
  [.chunk ⟨2, [⟨.timestamp .millisecond none, [some (.wrap 1628094393400), none]⟩,
    ⟨.int .int, [some (.wrap 1), some (.wrap 2)]⟩]⟩]

/-- Rows whose instants are a nanosecond apart. -/
def fine : List Feed := [.row ⟨[early], [count 1]⟩, .row ⟨[late], [count 2]⟩]

/-- Instants to the nanosecond. -/
def precise : Plan where
  name := "AGGREGATE (id=2)"
  groupBy := [⟨0, .timestamp 9, none⟩]
  measures := []

/-- The first second of the year 3000. -/
def distant : List Feed :=
  [.chunk ⟨1, [⟨.timestamp .second none, [some (.wrap 32503680000)]⟩]⟩]

end Ticks

theorem timestamps_restored_iff_ticks :
    Plan.ofNode Ticks.node = .ok Ticks.plan ∧
      ∃ rows c, (ofFeeds Ticks.plan Ticks.feeds).ledger.finish.1 = .ok rows ∧
        (ofFeeds Ticks.plan Ticks.feeds).ledger.finishChunk.1 = .ok c ∧
        c.Mirrors Ticks.plan rows := by
  obtain ⟨rows, hrows, _, hreach, hexact, hcoarse, hchunks⟩ :=
    @timestamps_restored_iff (ofFeeds Ticks.plan Ticks.feeds) Ticks.node rfl rfl (by decide)
  have hprecision : ∀ p, .timestamp p ∈ Ticks.plan.outputTypes → p ≤ 6 := by
    intro p hp
    rcases List.mem_cons.mp hp with h | h
    · cases h
      decide
    · exact nomatch List.mem_singleton.mp h
  obtain ⟨c, hc⟩ := hreach.mpr (hcoarse (.inl hprecision))
  have hfed : (ofFeeds Ticks.plan Ticks.feeds).FedBy fun f => f.isChunk = true := ⟨trivial, rfl⟩
  exact ⟨rfl, rows, c, hrows, hc, (hexact c hc).mpr (hchunks (.inl hfed))⟩

/-- Rows and chunks are accepted that the chunk of the results does not give back: instants
that differ by less than a unit come back as one, and one that is out of reach leaves no
chunk at all. -/
theorem accepted_timestamps_lost :
    keysEqual [Ticks.early] [Ticks.late] = false ∧
    (∃ l, (Ledger.ofPlan Ticks.plan).run Ticks.fine = (.ok (), l) ∧
      l.finish.1 = .ok [[Ticks.early, Ticks.count 1], [Ticks.late, Ticks.count 2]] ∧
      ∃ c, l.finishChunk.1 = .ok c ∧
        c.columns.mapM (·.read 0) = .ok [Ticks.early, Ticks.count 1] ∧
        c.columns.mapM (·.read 1) = .ok [Ticks.early, Ticks.count 2]) ∧
    ∃ l t, (Ledger.ofPlan Ticks.precise).run Ticks.distant = (.ok (), l) ∧
      l.finishChunk.1 = .error (.build (.nanoseconds t)) := by
  refine ⟨rfl, ?_, ?_⟩
  · have htable : ∃ u, (Table.ofPlan Ticks.plan).run Ticks.fine = .ok u ∧
        u.finish.1 = .ok [[Ticks.early, Ticks.count 1], [Ticks.late, Ticks.count 2]] ∧
        ∃ c, u.finishChunk.1 = .ok c ∧
          c.columns.mapM (·.read 0) = .ok [Ticks.early, Ticks.count 1] ∧
          c.columns.mapM (·.read 1) = .ok [Ticks.early, Ticks.count 2] :=
      ⟨_, rfl, rfl, _, rfl, rfl, rfl⟩
    obtain ⟨u, hu, hrows, hchunk⟩ := htable
    obtain ⟨hrun, hfinish, hfinishChunk⟩ := ofFeeds_eq_of_table hu
    exact ⟨_, hrun, hfinish.trans hrows, hfinishChunk.symm ▸ hchunk⟩
  · have htable : ∃ u t, (Table.ofPlan Ticks.precise).run Ticks.distant = .ok u ∧
        u.finishChunk.1 = .error (.build (.nanoseconds t)) :=
      ⟨_, _, rfl, rfl⟩
    obtain ⟨u, t, hu, hchunk⟩ := htable
    obtain ⟨hrun, _, hfinishChunk⟩ := ofFeeds_eq_of_table hu
    exact ⟨_, t, hrun, hfinishChunk.trans hchunk⟩

end Life
end Rollup
