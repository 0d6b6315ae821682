import Rollup.Proofs.Table.Summary
import Rollup.Table.Basic

/-
Tables fed by any mix of rows, lists of rows, inputs and chunks.

`Plan.history` is the list of admitted rows that a run brings, and a table that has come
through a run summarizes its history (`Table.summarizes_run`).  The proof follows the run:
what one feed does to the invariant, then induction.
-/

namespace Rollup

/-- What a table can be given. -/
inductive Feed where
  | row (r : Row)
  | rows (rs : List Row)
  | input (cells : List Cell)
  | chunk (c : Chunk)

namespace Plan

/-- The rows of a feed as they leave the check. -/
def accepted (p : Plan) : Feed → Except TableFault (List Row)
  | .row r => (p.prepare r).map fun r => [r]
  | .rows rs => rs.mapM p.prepare
  | .input cells =>
      match p.rowOf cells with
      | .error e => .error e
      | .ok r => (p.prepare r).map fun r => [r]
  | .chunk c => p.chunkRows c

def history (p : Plan) : List Feed → Except TableFault (List Row)
  | [] => .ok []
  | f :: fs =>
      match p.accepted f with
      | .error e => .error e
      | .ok rows => (p.history fs).map (rows ++ ·)

theorem history_cons_eq_ok_iff {p : Plan} {f : Feed} {fs : List Feed} {rows : List Row} :
    p.history (f :: fs) = .ok rows ↔
      ∃ first rest, p.accepted f = .ok first ∧ p.history fs = .ok rest ∧ rows = first ++ rest := by
  rw [history]
  cases hf : p.accepted f with
  | error e => exact ⟨(nomatch ·), fun ⟨_, _, h, _⟩ => nomatch h⟩
  | ok first =>
    show (p.history fs).map (first ++ ·) = .ok rows ↔ _
    rw [map_eq_ok_iff]
    constructor
    · rintro ⟨rest, hrest, rfl⟩
      exact ⟨first, rest, rfl, hrest, rfl⟩
    · rintro ⟨_, rest, h, hrest, rfl⟩
      cases h
      exact ⟨rest, hrest, rfl⟩

theorem history_append_eq_ok_iff {p : Plan} {fs gs : List Feed} {rows : List Row} :
    p.history (fs ++ gs) = .ok rows ↔
      ∃ first rest, p.history fs = .ok first ∧ p.history gs = .ok rest ∧
        rows = first ++ rest := by
  induction fs generalizing rows with
  | nil =>
    constructor
    · exact fun h => ⟨[], rows, rfl, h, rfl⟩
    · rintro ⟨_, rest, h, hrest, rfl⟩
      cases h
      exact hrest
  | cons f fs ih =>
    rw [List.cons_append, history_cons_eq_ok_iff]
    constructor
    · rintro ⟨first, rest, hfirst, hrest, rfl⟩
      obtain ⟨middle, last, hmiddle, hlast, rfl⟩ := ih.mp hrest
      refine ⟨first ++ middle, last, ?_, hlast, (List.append_assoc _ _ _).symm⟩
      exact history_cons_eq_ok_iff.mpr ⟨first, middle, hfirst, hmiddle, rfl⟩
    · rintro ⟨_, last, hfirst, hlast, rfl⟩
      obtain ⟨first, middle, hf, hmiddle, rfl⟩ := history_cons_eq_ok_iff.mp hfirst
      exact ⟨first, middle ++ last, hf, ih.mpr ⟨middle, last, hmiddle, hlast, rfl⟩,
        List.append_assoc _ _ _⟩

theorem admits_of_prepare_singleton {p : Plan} {r : Row} {rows : List Row}
    (h : ((p.prepare r).map fun r => [r]) = .ok rows) : ∀ w ∈ rows, p.Admits w := by
  obtain ⟨w, hw, rfl⟩ := map_eq_ok_iff.mp h
  exact List.forall_mem_singleton.mpr (.of_prepare hw)

theorem admits_of_chunkRows {p : Plan} {c : Chunk} {rows : List Row}
    (h : p.chunkRows c = .ok rows) : ∀ r ∈ rows, p.Admits r := by
  intro r hr
  unfold chunkRows at h
  split at h
  · exact nomatch h
  · obtain ⟨index, _, hindex⟩ := exists_of_mem_mapM h hr
    split at hindex
    · exact nomatch hindex
    · exact .of_prepare hindex

theorem admits_of_accepted {p : Plan} {f : Feed} {rows : List Row}
    (h : p.accepted f = .ok rows) : ∀ r ∈ rows, p.Admits r := by
  cases f with
  | row r => exact admits_of_prepare_singleton h
  | rows rs => exact admits_of_mapM_prepare h
  | input cells =>
    rw [accepted] at h
    split at h
    · exact nomatch h
    · exact admits_of_prepare_singleton h
  | chunk c => exact admits_of_chunkRows h

theorem admits_of_history {p : Plan} {fs : List Feed} {rows : List Row}
    (h : p.history fs = .ok rows) : ∀ r ∈ rows, p.Admits r := by
  induction fs generalizing rows with
  | nil =>
    cases h
    exact fun _ hr => nomatch hr
  | cons f fs ih =>
    obtain ⟨first, rest, hfirst, hrest, rfl⟩ := history_cons_eq_ok_iff.mp h
    intro r hr
    rcases List.mem_append.mp hr with hr | hr
    · exact admits_of_accepted hfirst r hr
    · exact ih hrest r hr

end Plan

namespace Table

def feed (t : Table) : Feed → Except TableFault Table
  | .row r => t.updateRow r
  | .rows rs => t.updateRows rs
  | .input cells => t.updateInputRow cells
  | .chunk c => t.updateChunk c

def run (t : Table) : List Feed → Except TableFault Table
  | [] => .ok t
  | f :: fs =>
      match t.feed f with
      | .error e => .error e
      | .ok t => t.run fs

/-- Every feed takes its rows in by one and the same way. -/
theorem feed_eq {t : Table} (h : t.isFinished = false) (f : Feed) :
    t.feed f =
      match t.plan.accepted f with
      | .error e => .error e
      | .ok rows => t.takePrepared rows := by
  have hupdate (r : Row) : t.updateRow r =
      match (t.plan.prepare r).map fun r => [r] with
      | .error e => .error e
      | .ok rows => t.takePrepared rows := by
    rw [updateRow, h]
    cases t.plan.prepare r <;> rfl
  cases f with
  | row r => exact hupdate r
  | rows rs =>
    show t.updateRows rs = _
    rw [updateRows, h]
    rfl
  | input cells =>
    show t.updateInputRow cells = _
    rw [updateInputRow, Plan.accepted]
    cases t.plan.rowOf cells with
    | error e => rfl
    | ok r => exact hupdate r
  | chunk c =>
    show t.updateChunk c = _
    rw [updateChunk, h]
    rfl

/-- The groups of an open table summarize the rows it has taken in. -/
structure Summarizes (t : Table) (rows : List Row) : Prop where
  unfinished : t.isFinished = false
  summary : Rollup.Summarizes t.plan rows t.groups

theorem summarizes_ofPlan (p : Plan) : (ofPlan p).Summarizes [] := ⟨rfl, .nil p⟩

theorem groups_of_takePrepared {t u : Table} {rows : List Row}
    (h : t.takePrepared rows = .ok u) :
    t.plan.takeRows t.groups rows = .ok u.groups ∧ u.plan = t.plan ∧ u.isFinished = false := by
  unfold takePrepared accumulating at h
  cases ht : t.plan.takeRows t.groups rows with
  | error e => rw [ht] at h; exact nomatch h
  | ok groups =>
    rw [ht] at h
    cases h
    exact ⟨rfl, rfl, rfl⟩

theorem accepted_of_feed {t u : Table} {f : Feed} (hopen : t.isFinished = false)
    (h : t.feed f = .ok u) :
    ∃ rows, t.plan.accepted f = .ok rows ∧ t.takePrepared rows = .ok u := by
  rw [feed_eq hopen] at h
  split at h
  · exact nomatch h
  · exact ⟨_, by assumption, h⟩

theorem Summarizes.takePrepared {t u : Table} {rows more : List Row} (h : t.Summarizes rows)
    (hadmits : ∀ r ∈ more, t.plan.Admits r) (ht : t.takePrepared more = .ok u) :
    u.plan = t.plan ∧ u.Summarizes (rows ++ more) := by
  obtain ⟨hgroups, hplan, hopen⟩ := groups_of_takePrepared ht
  exact ⟨hplan, hopen, hplan ▸ h.summary.takeRows hadmits hgroups⟩

theorem Summarizes.run {t u : Table} {rows : List Row} {fs : List Feed} (h : t.Summarizes rows)
    (hrun : t.run fs = .ok u) :
    ∃ more, t.plan.history fs = .ok more ∧ u.plan = t.plan ∧ u.Summarizes (rows ++ more) := by
  induction fs generalizing t rows with
  | nil =>
    cases hrun
    exact ⟨[], rfl, rfl, (List.append_nil rows).symm ▸ h⟩
  | cons f fs ih =>
    rw [Table.run] at hrun
    split at hrun
    · exact nomatch hrun
    · rename_i v hv
      obtain ⟨first, hfirst, htake⟩ := accepted_of_feed h.unfinished hv
      obtain ⟨hplan, hnext⟩ := h.takePrepared (Plan.admits_of_accepted hfirst) htake
      obtain ⟨rest, hrest, huplan, hu⟩ := ih hnext hrun
      rw [hplan] at hrest
      refine ⟨first ++ rest, Plan.history_cons_eq_ok_iff.mpr ⟨first, rest, hfirst, hrest, rfl⟩,
        huplan.trans hplan, ?_⟩
      rw [← List.append_assoc]
      exact hu

/-- A table that has come through a run summarizes the history of the run. -/
theorem summarizes_run {p : Plan} {t : Table} {fs : List Feed}
    (h : (ofPlan p).run fs = .ok t) :
    ∃ rows, p.history fs = .ok rows ∧ t.plan = p ∧ t.Summarizes rows :=
  (summarizes_ofPlan p).run h

/-! ## Runs that succeed -/

theorem Summarizes.exists_takePrepared {t : Table} {rows more : List Row}
    (h : t.Summarizes rows) (hadmits : ∀ r ∈ more, t.plan.Admits r)
    (hroom : t.plan.HasRoom (rows ++ more).length) : ∃ u, t.takePrepared more = .ok u := by
  obtain ⟨groups, hgroups⟩ := h.summary.exists_takeRows hadmits hroom
  exact ⟨_, by rw [Table.takePrepared, hgroups]; rfl⟩

theorem Summarizes.exists_run {t : Table} {rows more : List Row} {fs : List Feed}
    (h : t.Summarizes rows) (hfs : t.plan.history fs = .ok more)
    (hroom : t.plan.HasRoom (rows ++ more).length) : ∃ u, t.run fs = .ok u := by
  induction fs generalizing t rows more with
  | nil => exact ⟨t, rfl⟩
  | cons f fs ih =>
    obtain ⟨first, rest, hfirst, hrest, rfl⟩ := Plan.history_cons_eq_ok_iff.mp hfs
    rw [← List.append_assoc] at hroom
    have hadmits := Plan.admits_of_accepted hfirst
    obtain ⟨v, hv⟩ := h.exists_takePrepared hadmits (hroom.mono (by simp))
    obtain ⟨hplan, hnext⟩ := h.takePrepared hadmits hv
    obtain ⟨u, hu⟩ := ih hnext (hplan.symm ▸ hrest) (hplan.symm ▸ hroom)
    refine ⟨u, ?_⟩
    have hfeed : t.feed f = .ok v := by rw [feed_eq h.unfinished, hfirst]; exact hv
    rw [Table.run, hfeed]
    exact hu

theorem exists_run {p : Plan} {rows : List Row} {fs : List Feed}
    (h : p.history fs = .ok rows) (hroom : p.HasRoom rows.length) :
    ∃ t, (ofPlan p).run fs = .ok t ∧ t.plan = p ∧ t.Summarizes rows := by
  obtain ⟨t, ht⟩ := (summarizes_ofPlan p).exists_run h hroom
  obtain ⟨more, hmore, hplan, hsummarizes⟩ := summarizes_run ht
  rw [h] at hmore
  cases hmore
  exact ⟨t, ht, hplan, hsummarizes⟩

end Table
end Rollup
