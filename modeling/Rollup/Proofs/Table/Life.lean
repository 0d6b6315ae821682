import Rollup.Proofs.Table.Ledger
import Rollup.Proofs.Table.Run

/-
Everything that can become of a ledger.

A `Life` is a ledger's beginning with all the calls since, whether they succeeded or not,
and with the whole life of every ledger that was merged into it.  Every call first checks
what it is given and only then changes anything, so `feed_eq` and `merge_eq` are all that
the proofs about lives need to know of the calls.
-/

namespace Rollup

/-! ## Checks -/

/-- The rows that a feed brings once it has passed its checks.  The columns of an input row
are picked before it matters whether the ledger is finished. -/
def Plan.check (p : Plan) (finished : Bool) : Feed → Except TableFault (List Row)
  | .input cells =>
      match p.rowOf cells with
      | .error e => .error e
      | .ok r => if finished then .error .updateFinished else (p.prepare r).map fun r => [r]
  | f => if finished then .error .updateFinished else p.accepted f

theorem Plan.check_false (p : Plan) (f : Feed) : p.check false f = p.accepted f := by
  cases f <;> rfl

theorem Plan.check_eq_ok_iff {p : Plan} {finished : Bool} {f : Feed} {rows : List Row} :
    p.check finished f = .ok rows ↔ finished = false ∧ p.accepted f = .ok rows := by
  cases finished with
  | false =>
    rw [check_false]
    exact (and_iff_right rfl).symm
  | true =>
    refine iff_of_false (fun h => ?_) (fun h => nomatch h.1)
    cases f with
    | input cells =>
      rw [check] at h
      split at h
      · exact nomatch h
      · exact nomatch h
    | _ => exact nomatch h

namespace Ledger

def isFinished (l : Ledger) : Bool := l.phase = .finished

theorem isFinished_iff {l : Ledger} : l.isFinished = true ↔ l.phase = .finished :=
  decide_eq_true_iff

/-- The groups that another ledger brings once the merge has passed its checks. -/
def checkMerge (l other : Ledger) : Except TableFault (List Group) :=
  if other.isFinished then .error .finishedPartial
  else if !Table.sameAggregation l.plan other.plan then .error (.differentPartial other.plan.name)
  else if l.isFinished then .error .mergeFinished
  else .ok other.groups

theorem checkMerge_eq_ok_iff {l other : Ledger} {groups : List Group} :
    l.checkMerge other = .ok groups ↔ l.isFinished = false ∧ other.isFinished = false ∧
      Table.sameAggregation l.plan other.plan = true ∧ other.groups = groups := by
  unfold checkMerge
  cases l.isFinished <;> cases other.isFinished <;>
    cases Table.sameAggregation l.plan other.plan <;> simp

/-! ## Calls -/

def feed (l : Ledger) : Feed → Except TableFault Unit × Ledger
  | .row r => l.updateRow r
  | .rows rs => l.updateRows rs
  | .input cells => l.updateInputRow cells
  | .chunk c => l.updateChunk c

theorem update_eq (l : Ledger) (checked : Except TableFault (List Row)) :
    l.update checked =
      match if l.isFinished then .error .updateFinished else checked with
      | .error e => (.error e, l)
      | .ok rows => l.accumulate takeCell (rows.map Row.entry) := by
  unfold update isFinished
  cases checked <;> by_cases h : l.phase = .finished <;> simp [h]

/-- A feed takes in the rows that pass its checks, or changes nothing. -/
theorem feed_eq (l : Ledger) (f : Feed) :
    l.feed f =
      match l.plan.check l.isFinished f with
      | .error e => (.error e, l)
      | .ok rows => l.accumulate takeCell (rows.map Row.entry) := by
  cases f with
  | input cells =>
    show l.updateInputRow cells = _
    rw [updateInputRow, Plan.check]
    cases l.plan.rowOf cells with
    | error e => rfl
    | ok r => exact l.update_eq _
  | _ => exact l.update_eq _

theorem feed_eq_ok_iff {l l' : Ledger} {f : Feed} :
    l.feed f = (.ok (), l') ↔ ∃ rows, l.plan.check l.isFinished f = .ok rows ∧
      l.accumulate takeCell (rows.map Row.entry) = (.ok (), l') := by
  rw [feed_eq]
  cases l.plan.check l.isFinished f with
  | error e => simp
  | ok rows => simp

/-- What brings no checked rows is refused and changes nothing. -/
theorem feed_eq_error {l : Ledger} {f : Feed} (h : ∀ rows, l.plan.accepted f ≠ .ok rows) :
    ∃ e, l.feed f = (.error e, l) := by
  rw [feed_eq]
  cases hcheck : l.plan.check l.isFinished f with
  | error e => exact ⟨e, rfl⟩
  | ok rows => exact absurd (Plan.check_eq_ok_iff.mp hcheck).2 (h rows)

theorem merge_eq (l other : Ledger) :
    l.merge other =
      match l.checkMerge other with
      | .error e => (.error e, l)
      | .ok groups => l.accumulate takeState (groups.map Group.entry) := by
  unfold merge checkMerge
  simp only [isFinished_iff]
  split
  · rfl
  · split
    · rfl
    · split <;> rfl

/-! ## Phases -/

theorem isFinished_of_accumulating {l : Ledger} (h : l.phase = .accumulating) :
    l.isFinished = false := by
  rw [isFinished, h]
  rfl

theorem phase_accumulate {ι : Type} (step : Step ι) (l : Ledger) (entries : List (Entry ι)) :
    (l.accumulate step entries).2.phase = .accumulating :=
  takeEntries_phase step l.accumulating entries

theorem isFinished_feed (l : Ledger) (f : Feed) : (l.feed f).2.isFinished = l.isFinished := by
  rw [feed_eq]
  split
  · rfl
  · rename_i h
    rw [(Plan.check_eq_ok_iff.mp h).1]
    exact isFinished_of_accumulating (phase_accumulate takeCell l _)

theorem isFinished_merge (l other : Ledger) :
    (l.merge other).2.isFinished = l.isFinished := by
  rw [merge_eq]
  split
  · rfl
  · rename_i h
    rw [(checkMerge_eq_ok_iff.mp h).1]
    exact isFinished_of_accumulating (phase_accumulate takeState l _)

theorem finish_of_isFinished {l : Ledger} (h : l.isFinished = true) :
    l.finish = (.error .alreadyFinished, l) := by
  rw [finish, if_pos (isFinished_iff.mp h)]

theorem finishChunk_of_isFinished {l : Ledger} (h : l.isFinished = true) :
    l.finishChunk = (.error .alreadyFinished, l) := by
  rw [finishChunk, if_pos (isFinished_iff.mp h)]

theorem isFinished_finish (l : Ledger) : l.finish.2.isFinished = true := by
  unfold finish
  split
  · exact isFinished_iff.mpr (by assumption)
  · rfl

theorem isFinished_finishChunk (l : Ledger) : l.finishChunk.2.isFinished = true := by
  unfold finishChunk
  split
  · exact isFinished_iff.mpr (by assumption)
  · rfl

/-! ## Plans -/

theorem plan_accumulate {ι : Type} (step : Step ι) (l : Ledger) (entries : List (Entry ι)) :
    (l.accumulate step entries).2.plan = l.plan := takeEntries_plan step l.accumulating entries

theorem plan_feed (l : Ledger) (f : Feed) : (l.feed f).2.plan = l.plan := by
  rw [feed_eq]
  split
  · rfl
  · exact plan_accumulate takeCell l _

theorem plan_merge (l other : Ledger) : (l.merge other).2.plan = l.plan := by
  rw [merge_eq]
  split
  · rfl
  · exact plan_accumulate takeState l _

theorem plan_finish (l : Ledger) : l.finish.2.plan = l.plan := by
  unfold finish
  split <;> rfl

theorem plan_finishChunk (l : Ledger) : l.finishChunk.2.plan = l.plan := by
  unfold finishChunk
  split <;> rfl

/-! ## Refusal -/

/-- A ledger that answers every call with a fault and stays as it is, and that no other
ledger takes in. -/
structure Refuses (l : Ledger) : Prop where
  feed : ∀ f, ∃ e, l.feed f = (.error e, l)
  merge : ∀ other, ∃ e, l.merge other = (.error e, l)
  finish : ∃ e, l.finish = (.error e, l)
  finishChunk : ∃ e, l.finishChunk = (.error e, l)
  source : ∀ other : Ledger, ∃ e, other.merge l = (.error e, other)

theorem refuses_of_isFinished {l : Ledger} (h : l.isFinished = true) : l.Refuses where
  feed f := by
    rw [feed_eq]
    split
    · exact ⟨_, rfl⟩
    · rename_i hcheck
      rw [(Plan.check_eq_ok_iff.mp hcheck).1] at h
      exact nomatch h
  merge other := by
    rw [merge_eq]
    split
    · exact ⟨_, rfl⟩
    · rename_i hcheck
      rw [(checkMerge_eq_ok_iff.mp hcheck).1] at h
      exact nomatch h
  finish := ⟨_, finish_of_isFinished h⟩
  finishChunk := ⟨_, finishChunk_of_isFinished h⟩
  source other := by
    rw [merge_eq]
    split
    · exact ⟨_, rfl⟩
    · rename_i hcheck
      rw [(checkMerge_eq_ok_iff.mp hcheck).2.1] at h
      exact nomatch h

/-! ## What calls preserve -/

namespace WellKept

variable {l other : Ledger}

theorem feed (h : l.WellKept) (f : Feed) : (l.feed f).2.WellKept := by
  rw [feed_eq]
  split
  · exact h
  · rename_i rows hrows
    refine h.accumulate fun e he => ?_
    obtain ⟨r, hr, rfl⟩ := List.mem_map.mp he
    have hadmits := Plan.admits_of_accepted (Plan.check_eq_ok_iff.mp hrows).2
    exact Plan.isNormal_iff.mpr (hadmits r hr).key

theorem merge (h : l.WellKept) (ho : other.WellKept) : (l.merge other).2.WellKept := by
  rw [merge_eq]
  split
  · exact h
  · rename_i groups hgroups
    obtain ⟨_, _, hsame, rfl⟩ := checkMerge_eq_ok_iff.mp hgroups
    refine h.accumulate fun e he => ?_
    obtain ⟨g, hg, rfl⟩ := List.mem_map.mp he
    exact (ho.fits hsame hg).1

theorem finish (h : l.WellKept) : l.finish.2.WellKept := by
  unfold Ledger.finish
  split
  · exact h
  · exact wellKept_emptied l

theorem finishChunk (h : l.WellKept) : l.finishChunk.2.WellKept := by
  unfold Ledger.finishChunk
  split
  · exact h
  · exact wellKept_emptied l

end WellKept
end Ledger

/-! ## Lives -/

inductive Life where
  | ofPlan (p : Plan)
  | feed (life : Life) (f : Feed)
  | merge (life other : Life)
  | finish (life : Life)
  | finishChunk (life : Life)

namespace Life

/-- The ledger at the end of a life. -/
def ledger : Life → Ledger
  | .ofPlan p => .ofPlan p
  | .feed life f => (life.ledger.feed f).2
  | .merge life other => (life.ledger.merge other.ledger).2
  | .finish life => life.ledger.finish.2
  | .finishChunk life => life.ledger.finishChunk.2

/-- Whether results have been asked for, as rows or as a chunk. -/
def isFinished : Life → Bool
  | .ofPlan _ => false
  | .feed life _ => life.isFinished
  | .merge life _ => life.isFinished
  | .finish _ => true
  | .finishChunk _ => true

theorem isFinished_ledger (life : Life) : life.ledger.isFinished = life.isFinished := by
  induction life with
  | ofPlan p => rfl
  | feed life f ih => exact (life.ledger.isFinished_feed f).trans ih
  | merge life other ih _ => exact (life.ledger.isFinished_merge other.ledger).trans ih
  | finish life _ => exact life.ledger.isFinished_finish
  | finishChunk life _ => exact life.ledger.isFinished_finishChunk

theorem wellKept_ledger (life : Life) : life.ledger.WellKept := by
  induction life with
  | ofPlan p => exact Ledger.wellKept_ofPlan p
  | feed life f ih => exact ih.feed f
  | merge life other ih iho => exact ih.merge iho
  | finish life ih => exact ih.finish
  | finishChunk life ih => exact ih.finishChunk

/-- Whatever calls it has been through, a ledger is well kept.  It is finished from the
first call for results on, and then nothing changes it any more. -/
theorem ledger_invariant (life : Life) :
    life.ledger.WellKept ∧ (life.ledger.phase = .finished ↔ life.isFinished = true) ∧
      (life.ledger.phase = .finished → life.ledger.Refuses) := by
  refine ⟨life.wellKept_ledger, ?_, fun h => ?_⟩
  · rw [← Ledger.isFinished_iff, isFinished_ledger]
  · exact Ledger.refuses_of_isFinished (Ledger.isFinished_iff.mpr h)

end Life
end Rollup
