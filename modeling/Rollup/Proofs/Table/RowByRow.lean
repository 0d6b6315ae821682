import Rollup.Proofs.Column.Stored
import Rollup.Proofs.Table.Atomic
import Rollup.Proofs.Table.Chunks

/-
A chunk taken in row by row, or slice by slice.

A chunk is checked as a whole before anything is taken in, single rows are checked one
after another.  Both bring the same rows in the same order, so it is enough to know what a
run of feeds does whose history is taken in (`Ledger.exists_run_of_accumulate`).

That a chunk does what its rows and its slices do is about a call that succeeds, and asks
for no room.  Room is asked for in `Life.updateChunk_isOk_iff`, where rows that are each
accepted on their own are to be taken in together.
-/

namespace Rollup

/-! ## Runs -/

namespace Ledger

variable {ι : Type} {step : Step ι} {l l' : Ledger}

theorem takeEntries_append (xs ys : List (Entry ι)) :
    l.takeEntries step (xs ++ ys) =
      match l.takeEntries step xs with
      | (.error fault, l) => (.error fault, l)
      | (.ok (), l) => l.takeEntries step ys := by
  induction xs generalizing l with
  | nil => rfl
  | cons e rest ih =>
    rw [List.cons_append, takeEntries, takeEntries]
    cases l.takeEntry step e with
    | mk outcome next =>
      cases outcome with
      | error fault => rfl
      | ok u => exact ih

theorem accumulate_eq_ok_iff {entries : List (Entry ι)} :
    l.accumulate step entries = (.ok (), l') ↔
      l.accumulating.takeEntries step entries = (.ok (), l') := by
  unfold accumulate
  cases l.accumulating.takeEntries step entries with
  | mk outcome next =>
    cases outcome with
    | error fault => simp [Except.mapError]
    | ok u => simp [Except.mapError]

theorem accumulating_eq_self (h : l.phase = .accumulating) : l.accumulating = l := by
  rw [accumulating, ← h]

/-- Feeds one after another, up to the first that fails. -/
def run (l : Ledger) : List Feed → Except TableFault Unit × Ledger
  | [] => (.ok (), l)
  | f :: fs =>
      match l.feed f with
      | (.error e, l) => (.error e, l)
      | (.ok (), l) => l.run fs

/-- A feed takes in the first of the entries that are taken in. -/
theorem exists_feed_of_accumulate {f : Feed} {first rest : List Row}
    (hopen : l.isFinished = false) (hfirst : l.plan.accepted f = .ok first)
    (h : l.accumulate takeCell ((first ++ rest).map Row.entry) = (.ok (), l')) :
    ∃ m, l.feed f = (.ok (), m) ∧ m.phase = .accumulating ∧ m.plan = l.plan ∧
      m.accumulate takeCell (rest.map Row.entry) = (.ok (), l') := by
  have hfeed : l.feed f = l.accumulate takeCell (first.map Row.entry) := by
    rw [feed_eq, Plan.check_eq_ok_iff.mpr ⟨hopen, hfirst⟩]
  have hphase := l.phase_accumulate takeCell (first.map Row.entry)
  have hplan := l.plan_accumulate takeCell (first.map Row.entry)
  rw [accumulate_eq_ok_iff, List.map_append, takeEntries_append] at h
  split at h
  · exact nomatch h
  · rename_i m hm
    rw [accumulate_eq_ok_iff.mpr hm] at hfeed hphase hplan
    refine ⟨m, hfeed, hphase, hplan, ?_⟩
    rw [accumulate_eq_ok_iff, accumulating_eq_self hphase]
    exact h

/-- A run takes in its history, and all of it at once leaves the same ledger.  A run of no
feeds has no groups yet, but nothing else tells them apart. -/
theorem exists_run_of_accumulate {fs : List Feed} {rows : List Row}
    (hopen : l.isFinished = false) (hfs : l.plan.history fs = .ok rows)
    (h : l.accumulate takeCell (rows.map Row.entry) = (.ok (), l')) :
    ∃ m, l.run fs = (.ok (), m) ∧ m.accumulating = l' ∧ (fs ≠ [] → m = l') := by
  induction fs generalizing l rows with
  | nil =>
    obtain rfl : [] = rows := Except.ok.inj hfs
    exact ⟨l, rfl, congrArg Prod.snd (accumulate_eq_ok_iff.mp h), fun hne => absurd rfl hne⟩
  | cons f fs ih =>
    obtain ⟨first, rest, hfirst, hrest, rfl⟩ := Plan.history_cons_eq_ok_iff.mp hfs
    obtain ⟨next, hfeed, hphase, hplan, hnext⟩ := exists_feed_of_accumulate hopen hfirst h
    obtain ⟨m, hm, hsame, hne⟩ :=
      ih (isFinished_of_accumulating hphase) (hplan.symm ▸ hrest) hnext
    refine ⟨m, by rw [run, hfeed]; exact hm, hsame, fun _ => ?_⟩
    cases fs with
    | nil =>
      obtain rfl : next = m := congrArg Prod.snd hm
      exact (accumulating_eq_self hphase).symm.trans hsame
    | cons => exact hne (List.cons_ne_nil _ _)

end Ledger

/-! ## Slices -/

namespace Column

def slice (c : Column) (start n : Nat) : Column := ⟨c.type, (c.cells.drop start).take n⟩

theorem read_slice_eq_ok_iff {c : Column} {start n i : Nat} {cell : Cell} (hi : i < n) :
    (c.slice start n).read i = .ok cell ↔ c.read (start + i) = .ok cell := by
  have hcell : (c.slice start n).cells[i]? = c.cells[start + i]? := by
    show ((c.cells.drop start).take n)[i]? = _
    rw [List.getElem?_take_of_lt hi, List.getElem?_drop]
  rw [read_eq_ok_iff, read_eq_ok_iff, hcell]
  rfl

end Column

namespace Chunk

/-- At most `n` rows from a row on. -/
def slice (c : Chunk) (start n : Nat) : Chunk :=
  ⟨min n (c.rows - start), c.columns.map (·.slice start n)⟩

/-- A chunk in consecutive slices of the given lengths and one with the rows that are left. -/
def cut (c : Chunk) : List Nat → List Chunk
  | [] => [c]
  | n :: ns => c.slice 0 n :: (c.slice n (c.rows - n)).cut ns

variable {c : Chunk} {p : Plan} {start n i j : Nat} {inputs : List (List Cell)}

theorem cut_ne_nil (c : Chunk) (ns : List Nat) : c.cut ns ≠ [] := by
  cases ns <;> exact List.cons_ne_nil _ _

theorem cell?_slice (hi : i < n) : (c.slice start n).cell? j i = c.cell? j (start + i) := by
  ext cell
  rw [cell?_eq_some_iff, cell?_eq_some_iff, slice, List.getElem?_map]
  cases c.columns[j]? with
  | none => simp
  | some column => simp [Column.read_slice_eq_ok_iff hi]

theorem Fits.slice (h : c.Fits p) (start n : Nat) : (c.slice start n).Fits p := by
  have hcolumn {j : Nat} {column : Column} (hj : c.columns[j]? = some column) :
      (c.slice start n).columns[j]? = some (column.slice start n) := by
    rw [Chunk.slice, List.getElem?_map, hj]
    rfl
  constructor
  · intro g hg
    obtain ⟨column, hj, haccepts⟩ := h.keys g hg
    exact ⟨_, hcolumn hj, haccepts⟩
  · intro m hm
    obtain ⟨column, hj, haccepts⟩ := h.values m hm
    exact ⟨_, hcolumn hj, haccepts⟩

theorem DecodesTo.slice (h : c.DecodesTo p inputs) (start n : Nat) :
    (c.slice start n).DecodesTo p ((inputs.drop start).take n) := by
  constructor
  · rw [List.length_take, List.length_drop, h.length_eq]
    rfl
  · intro i input hinput j hj
    have hi : i < n := by
      have hlt := (List.getElem?_eq_some_iff.mp hinput).1
      rw [List.length_take] at hlt
      omega
    rw [List.getElem?_take_of_lt hi, List.getElem?_drop] at hinput
    rw [cell?_slice hi]
    exact h.decodes (start + i) input hinput j hj

end Chunk

/-! ## Histories -/

namespace Plan

variable {p : Plan} {c : Chunk} {inputs : List (List Cell)} {rows : List Row}

theorem history_inputs (h : inputs.mapM p.prepareInput = .ok rows) :
    p.history (inputs.map .input) = .ok rows := by
  have hall := mapM_eq_ok_iff.mp h
  clear h
  induction hall with
  | nil => rfl
  | @cons input r inputs rows hhead _ ih =>
    have hfirst := accepted_input_eq_ok_iff.mpr ⟨r, hhead, rfl⟩
    exact history_cons_eq_ok_iff.mpr ⟨[r], rows, hfirst, ih, rfl⟩

/-- The slices of a chunk bring what the chunk brings. -/
theorem history_cut (hfits : c.Fits p) (hd : c.DecodesTo p inputs)
    (h : inputs.mapM p.prepareInput = .ok rows) (ns : List Nat) :
    p.history ((c.cut ns).map .chunk) = .ok rows := by
  induction ns generalizing c inputs rows with
  | nil =>
    have hrows : p.accepted (.chunk c) = .ok rows := (chunkRows_eq_mapM hfits hd).trans h
    exact history_cons_eq_ok_iff.mpr ⟨rows, [], hrows, rfl, (List.append_nil rows).symm⟩
  | cons n ns ih =>
    have hall := mapM_eq_ok_iff.mp h
    have hfirst : p.accepted (.chunk (c.slice 0 n)) = .ok (rows.take n) :=
      (chunkRows_eq_mapM (hfits.slice 0 n) (hd.slice 0 n)).trans
        (mapM_eq_ok_iff.mpr (List.forall₂_take n hall))
    have hrest := hd.slice n (c.rows - n)
    rw [List.take_of_length_le (by rw [List.length_drop, hd.length_eq])] at hrest
    refine history_cons_eq_ok_iff.mpr ⟨rows.take n, rows.drop n, hfirst, ?_,
      (List.take_append_drop n rows).symm⟩
    exact ih (hfits.slice n _) hrest (mapM_eq_ok_iff.mpr (List.forall₂_drop n hall))

end Plan

namespace Ledger

variable {l l' : Ledger} {c : Chunk}

/-- A run that brings what a chunk brings ends as the chunk does. -/
theorem exists_run_of_updateChunk (h : l.updateChunk c = (.ok (), l')) :
    ∃ rows, l.plan.chunkRows c = .ok rows ∧ ∀ fs, l.plan.history fs = .ok rows →
      ∃ m, l.run fs = (.ok (), m) ∧ m.accumulating = l' ∧ (fs ≠ [] → m = l') := by
  obtain ⟨rows, hcheck, htake⟩ :=
    feed_eq_ok_iff.mp (show l.feed (.chunk c) = (.ok (), l') from h)
  obtain ⟨hopen, hrows⟩ := Plan.check_eq_ok_iff.mp hcheck
  exact ⟨rows, hrows, fun fs hfs => exists_run_of_accumulate hopen hfs htake⟩

/-- The rows of a chunk, one at a time. -/
theorem exists_run_inputs (h : l.updateChunk c = (.ok (), l')) {inputs : List (List Cell)}
    (hd : c.DecodesTo l.plan inputs) :
    ∃ m, l.run (inputs.map .input) = (.ok (), m) ∧ m.keys = l'.keys ∧ m.states = l'.states ∧
      (0 < c.rows → m = l') := by
  obtain ⟨rows, hrows, hrun⟩ := exists_run_of_updateChunk h
  have hfits := (Plan.readable_of_chunkRows hrows).1
  rw [Plan.chunkRows_eq_mapM hfits hd] at hrows
  obtain ⟨m, hm, rfl, hsame⟩ := hrun _ (Plan.history_inputs hrows)
  refine ⟨m, hm, rfl, rfl, fun hpos => hsame ?_⟩
  rw [← hd.length_eq] at hpos
  exact mt List.map_eq_nil_iff.mp (List.ne_nil_of_length_pos hpos)

/-- The slices of a chunk, one at a time. -/
theorem run_cut (h : l.updateChunk c = (.ok (), l')) (ns : List Nat) :
    l.run ((c.cut ns).map .chunk) = (.ok (), l') := by
  obtain ⟨rows, hrows, hrun⟩ := exists_run_of_updateChunk h
  obtain ⟨hfits, hread⟩ := Plan.readable_of_chunkRows hrows
  obtain ⟨inputs, hd⟩ := Chunk.exists_decodesTo hread
  rw [Plan.chunkRows_eq_mapM hfits hd] at hrows
  obtain ⟨m, hm, _, hsame⟩ := hrun _ (Plan.history_cut hfits hd hrows ns)
  obtain rfl := hsame (mt List.map_eq_nil_iff.mp (c.cut_ne_nil ns))
  exact hm

end Ledger

/-! ## Lives -/

namespace Life

variable {life : Life} {c : Chunk} {input : List Cell}

/-- A chunk that fits is taken in if it can be read and each of its rows is accepted. -/
theorem updateChunk_isOk_iff (hopen : life.isFinished = false) (hfits : c.Fits life.plan)
    (hroom : (life.feed (.chunk c)).load ≤ 2 ^ 128) :
    (life.ledger.updateChunk c).1 = .ok () ↔
      ∀ i < c.rows, c.Readable life.plan i ∧
        ∀ input, c.Decodes life.plan i input → (life.ledger.updateInputRow input).1 = .ok () := by
  rw [show life.ledger.updateChunk c = life.ledger.feed (.chunk c) from rfl,
    feed_isOk_iff hopen hroom]
  constructor
  · rintro ⟨rows, hrows⟩ i hi
    refine ⟨(Plan.readable_of_chunkRows hrows).2 i hi, fun input hd => ?_⟩
    obtain ⟨r, hr, hprepare⟩ := Plan.exists_prepareInput hrows hi hd
    have haccepted : life.plan.accepted (.input input) = .ok [r] :=
      Plan.accepted_input_eq_ok_iff.mpr ⟨r, hprepare, rfl⟩
    -- One row of the chunk needs no more room than the chunk.
    have hle : (life.feed (.input input)).load ≤ (life.feed (.chunk c)).load := by
      rw [load_feed (Plan.check_eq_ok_iff.mpr ⟨hopen, haccepted⟩),
        load_feed (Plan.check_eq_ok_iff.mpr ⟨hopen, hrows⟩)]
      exact Nat.add_le_add_left (weight_le_of_mem hr) _
    exact (feed_isOk_iff hopen (Nat.le_trans hle hroom)).mpr ⟨[r], haccepted⟩
  · intro h
    refine Plan.exists_chunkRows hfits (fun i hi => (h i hi).1) fun i hi input hd => ?_
    have hfeed : life.ledger.feed (.input input) = (.ok (), (life.ledger.feed (.input input)).2) :=
      Prod.ext ((h i hi).2 input hd) rfl
    obtain ⟨rows, hrows, _⟩ := Ledger.feed_eq_ok_iff.mp hfeed
    rw [plan_ledger] at hrows
    obtain ⟨r, hr, _⟩ := Plan.accepted_input_eq_ok_iff.mp (Plan.check_eq_ok_iff.mp hrows).2
    exact ⟨r, hr⟩

/-- A chunk does what its rows do one at a time, and what slices of it do.  It is accepted,
if its columns fit and there is room for it, just when all that the plan reads of it can be
read and each row would be accepted on its own. -/
theorem chunk_refines_rows (hopen : life.isFinished = false) (c : Chunk) :
    (∀ l, life.ledger.updateChunk c = (.ok (), l) →
      (∃ inputs, c.DecodesTo life.plan inputs) ∧
      (∀ inputs, c.DecodesTo life.plan inputs →
        ∃ m, life.ledger.run (inputs.map .input) = (.ok (), m) ∧ m.keys = l.keys ∧
          m.states = l.states ∧ (0 < c.rows → m = l)) ∧
      ∀ ns, life.ledger.run ((c.cut ns).map .chunk) = (.ok (), l)) ∧
    (c.Fits life.plan → (life.feed (.chunk c)).load ≤ 2 ^ 128 →
      ((life.ledger.updateChunk c).1 = .ok () ↔
        ∀ i < c.rows, c.Readable life.plan i ∧
          ∀ input, c.Decodes life.plan i input →
            (life.ledger.updateInputRow input).1 = .ok ())) := by
  rw [← plan_ledger]
  refine ⟨fun l h => ⟨?_, fun inputs hd => Ledger.exists_run_inputs h hd, Ledger.run_cut h⟩, ?_⟩
  · obtain ⟨rows, hrows, _⟩ := Ledger.exists_run_of_updateChunk h
    exact Chunk.exists_decodesTo (Plan.readable_of_chunkRows hrows).2
  · rw [plan_ledger]
    exact fun hfits hroom => updateChunk_isOk_iff hopen hfits hroom

namespace Deposits

def day : Chunk := ⟨2, [⟨.decimal128 38 0, [some (.least 128), none]⟩]⟩

def inputs : List (List Cell) := [[some (.decimal ⟨.least 128, 38, 0⟩)], [none]]

theorem day_decodesTo : day.DecodesTo plan inputs := by
  refine ⟨rfl, fun i input hinput j hj => ?_⟩
  obtain rfl : j = 0 := List.mem_singleton.mp hj
  match i, hinput with
  | 0, rfl => exact ⟨_, rfl, rfl⟩
  | 1, rfl => exact ⟨_, rfl, rfl⟩

theorem day_fits : day.Fits plan where
  keys _ hg := nomatch hg
  values m hm := by
    obtain rfl := List.mem_singleton.mp hm
    exact ⟨_, rfl, rfl⟩

end Deposits

theorem chunk_refines_rows_deposits :
    Deposits.account.isFinished = false ∧
      ∃ l, Deposits.account.ledger.updateChunk Deposits.day = (.ok (), l) ∧
        Deposits.account.ledger.run (Deposits.inputs.map .input) = (.ok (), l) ∧
        Deposits.account.ledger.run ((Deposits.day.cut [1]).map .chunk) = (.ok (), l) ∧
        ∀ i < 2, ∀ input, Deposits.day.Decodes Deposits.plan i input →
          (Deposits.account.ledger.updateInputRow input).1 = .ok () := by
  have hopen : Deposits.account.isFinished = false := rfl
  have hrows : Deposits.account.plan.accepted (.chunk Deposits.day) =
      .ok [⟨[], [some (.decimal ⟨.least 128, 38, 0⟩)]⟩, ⟨[], [none]⟩] := rfl
  have hload : Deposits.account.load ≤ 0 + 1 :=
    load_feed_le_of_isSingle (.ofPlan Deposits.plan) (f := Deposits.deposit) rfl
  have hroom : (Deposits.account.feed (.chunk Deposits.day)).load ≤ 2 ^ 128 := by
    rw [load_feed (Plan.check_eq_ok_iff.mpr ⟨hopen, hrows⟩)]
    exact Nat.le_trans (Nat.add_le_add_right hload _) (by decide)
  obtain ⟨hall, hiff⟩ := chunk_refines_rows hopen Deposits.day
  have hok := (feed_isOk_iff hopen hroom).mpr ⟨_, hrows⟩
  have hchunk : Deposits.account.ledger.updateChunk Deposits.day = (.ok (), _) :=
    Prod.ext hok rfl
  obtain ⟨_, hinputs, hcut⟩ := hall _ hchunk
  obtain ⟨m, hm, _, _, hsame⟩ := hinputs Deposits.inputs Deposits.day_decodesTo
  have hm := hsame (by decide) ▸ hm
  have heach := (hiff Deposits.day_fits hroom).mp hok
  exact ⟨hopen, _, hchunk, hm, hcut [1], fun i hi => (heach i hi).2⟩

end Life
end Rollup
