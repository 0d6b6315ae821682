import Rollup.Proofs.Table.Admission
import Rollup.Table.Ledger

/-
What every ledger keeps to.

`Kept` ties keys, states and index together.  It survives every entry, also one that fails
with some states changed, so it holds whatever became of the calls before.  `WellKept` adds
what the phase tells about the groups.
-/

namespace Rollup

theorem getElem?_concat_eq_some_iff {α : Type} {xs : List α} {x y : α} {i : Nat} :
    (xs ++ [x])[i]? = some y ↔ xs[i]? = some y ∨ i = xs.length ∧ y = x := by
  rw [List.getElem?_append]
  split
  · rename_i hi
    exact ⟨.inl, fun h => h.elim id fun h => absurd h.1 (Nat.ne_of_lt hi)⟩
  · rename_i hi
    rw [List.getElem?_eq_none (Nat.le_of_not_lt hi), List.getElem?_singleton]
    by_cases hx : i = xs.length
    · simp [hx, eq_comm]
    · have hne : i - xs.length ≠ 0 := by omega
      simp [hx, hne]

/-- A key with one cell for each group column, in the form that the column gives it. -/
def Plan.IsNormal (p : Plan) (key : List Cell) : Prop :=
  List.Forall₂ (fun (g : GroupColumn) c => g.type.normalizeCell c = .ok c) p.groupBy key

theorem Plan.isNormal_iff {p : Plan} {key : List Cell} :
    p.IsNormal key ↔ ColumnType.HoldsAll p.keyTypes key := by
  rw [ColumnType.HoldsAll, keyTypes, List.forall₂_map_left_iff]
  constructor
  · exact fun h => h.imp fun _ _ hc => .of_normalizeCell hc
  · exact fun h => h.imp fun _ _ hc => hc.normalizeCell_eq

/-- What holds of the start of every aggregate holds of the states of a new group. -/
theorem Plan.forall₂_start {Q : Aggregate → State → Prop} (p : Plan)
    (h : ∀ a : Aggregate, Q a a.start) : List.Forall₂ Q p.aggregates p.start := by
  unfold aggregates start
  rw [List.forall₂_map_left_iff, List.forall₂_map_right_iff]
  exact List.forall₂_same.mpr fun m _ => h m.aggregate

namespace Ledger

structure Kept (l : Ledger) : Prop where
  distinct : l.keys.Pairwise fun a b => keysEqual a.cells b.cells = false
  indexed : ∀ (key : GroupKey) (i : Nat), l.index[key]? = some i ↔
    ∃ k, l.keys[i]? = some k ∧ keysEqual k.cells key.cells = true
  aligned : l.states.length = l.keys.length
  full : ∀ states ∈ l.states, states.length = l.plan.measures.length
  normal : ∀ key ∈ l.keys, l.plan.IsNormal key.cells

/-- Groups exist only while rows are taken in. -/
structure WellKept (l : Ledger) : Prop extends Kept l where
  idle : l.phase = .idle → l.keys = []
  finished : l.phase = .finished → l.keys = [] ∧ l.states = [] ∧ l.index.isEmpty = true

variable {ι : Type} {step : Step ι} {l : Ledger} {key : GroupKey} {e : Entry ι}
  {entries : List (Entry ι)}

/-! ## Places -/

theorem Kept.empty {l : Ledger} (hindex : l.index = ∅) (hkeys : l.keys = [])
    (hstates : l.states = []) : l.Kept where
  distinct := hkeys ▸ .nil
  indexed key i := by
    rw [hindex, hkeys]
    simp
  aligned := by rw [hkeys, hstates]; rfl
  full _ h := by rw [hstates] at h; exact nomatch h
  normal _ h := by rw [hkeys] at h; exact nomatch h

theorem wellKept_ofPlan (p : Plan) : (ofPlan p).WellKept where
  toKept := .empty rfl rfl rfl
  idle _ := rfl
  finished h := nomatch h

theorem wellKept_emptied (l : Ledger) : l.emptied.WellKept where
  toKept := .empty rfl rfl rfl
  idle _ := rfl
  finished _ := ⟨rfl, rfl, by simp [emptied]⟩

/-- A key is found where it is, or nowhere if no key is equal to it. -/
theorem Kept.place_cases (h : l.Kept) (key : GroupKey) :
    (∃ i k, l.keys[i]? = some k ∧ keysEqual k.cells key.cells = true ∧ l.place key = (i, l)) ∨
    ((∀ k ∈ l.keys, keysEqual k.cells key.cells = false) ∧
      l.place key = (l.keys.length, l.add key)) := by
  unfold place
  cases hi : l.index[key]? with
  | some i =>
    obtain ⟨k, hk, heq⟩ := (h.indexed key i).mp hi
    exact .inl ⟨i, k, hk, heq, rfl⟩
  | none =>
    refine .inr ⟨fun k hk => Bool.eq_false_iff.mpr fun heq => ?_, rfl⟩
    obtain ⟨j, hj⟩ := List.mem_iff_getElem?.mp hk
    rw [(h.indexed key j).mpr ⟨k, hj, heq⟩] at hi
    exact nomatch hi

theorem Kept.add (h : l.Kept) (hnew : ∀ k ∈ l.keys, keysEqual k.cells key.cells = false)
    (hkey : l.plan.IsNormal key.cells) : (l.add key).Kept where
  distinct := by
    refine List.pairwise_append.mpr ⟨h.distinct, List.pairwise_singleton _ _, ?_⟩
    intro k hk k' hk'
    exact List.mem_singleton.mp hk' ▸ hnew k hk
  indexed other i := by
    show (l.index.insert key l.keys.length)[other]? = some i ↔
      ∃ k, (l.keys ++ [key])[i]? = some k ∧ keysEqual k.cells other.cells = true
    rw [Std.HashMap.getElem?_insert]
    by_cases hother : (key == other) = true
    · rw [if_pos hother, Option.some.injEq]
      constructor
      · rintro rfl
        exact ⟨key, List.getElem?_concat_length .., hother⟩
      · rintro ⟨k, hk, heq⟩
        rcases getElem?_concat_eq_some_iff.mp hk with hk | ⟨rfl, _⟩
        · -- A key that was there before is not equal to the new one.
          have hfalse := hnew k (List.mem_of_getElem? hk)
          rw [keysEqual_congr_right hother, heq] at hfalse
          exact nomatch hfalse
        · rfl
    · rw [if_neg hother, h.indexed]
      constructor
      · rintro ⟨k, hk, heq⟩
        exact ⟨k, getElem?_concat_eq_some_iff.mpr (.inl hk), heq⟩
      · rintro ⟨k, hk, heq⟩
        rcases getElem?_concat_eq_some_iff.mp hk with hk | ⟨_, rfl⟩
        · exact ⟨k, hk, heq⟩
        · exact absurd heq hother
  aligned := by
    show (l.states ++ [l.plan.start]).length = (l.keys ++ [key]).length
    rw [List.length_append, List.length_append, h.aligned]
    rfl
  full states hs := by
    rcases List.mem_append.mp hs with hs | hs
    · exact h.full states hs
    · rw [List.mem_singleton.mp hs, Plan.start, List.length_map]
      rfl
  normal k hk := by
    rcases List.mem_append.mp hk with hk | hk
    · exact h.normal k hk
    · exact List.mem_singleton.mp hk ▸ hkey

@[simp] theorem place_plan (l : Ledger) (key : GroupKey) : (l.place key).2.plan = l.plan := by
  unfold place
  split <;> rfl

@[simp] theorem place_phase (l : Ledger) (key : GroupKey) :
    (l.place key).2.phase = l.phase := by
  unfold place
  split <;> rfl

theorem Kept.place (h : l.Kept) (hkey : l.plan.IsNormal key.cells) :
    (l.place key).2.Kept ∧ (l.place key).1 < (l.place key).2.states.length := by
  rcases h.place_cases key with ⟨i, k, hk, _, hplace⟩ | ⟨hnew, hplace⟩
  · rw [hplace, h.aligned]
    exact ⟨h, (List.getElem?_eq_some_iff.mp hk).1⟩
  · rw [hplace]
    have hadd := h.add hnew hkey
    refine ⟨hadd, ?_⟩
    rw [hadd.aligned]
    show l.keys.length < (l.keys ++ [key]).length
    rw [List.length_append]
    exact Nat.lt_succ_self _

/-! ## Entries -/

theorem length_advance (step : Step ι) (ms : List Measure) (ss : List State) (xs : List ι) :
    (advance step ms ss xs).2.length = ss.length := by
  induction ms generalizing ss xs with
  | nil => rfl
  | cons m ms ih =>
    cases ss with
    | nil => rfl
    | cons s ss =>
      cases xs with
      | nil => rfl
      | cons x xs =>
        rw [advance]
        split
        · rfl
        · exact congrArg (· + 1) (ih ss xs)

theorem Kept.setStates (h : l.Kept) (i : Nat) {states : List State}
    (hfull : states.length = l.plan.measures.length) : (l.setStates i states).Kept where
  distinct := h.distinct
  indexed := h.indexed
  aligned := (List.length_set ..).trans h.aligned
  full ss hs := by
    rcases List.mem_or_eq_of_mem_set hs with hs | rfl
    · exact h.full ss hs
    · exact hfull
  normal := h.normal

@[simp] theorem takeEntry_plan (step : Step ι) (l : Ledger) (e : Entry ι) :
    (l.takeEntry step e).2.plan = l.plan := place_plan l e.key

@[simp] theorem takeEntry_phase (step : Step ι) (l : Ledger) (e : Entry ι) :
    (l.takeEntry step e).2.phase = l.phase := place_phase l e.key

theorem Kept.takeEntry (h : l.Kept) (step : Step ι) (hkey : l.plan.IsNormal e.key.cells) :
    (l.takeEntry step e).2.Kept := by
  obtain ⟨hplace, hi⟩ := h.place hkey
  refine hplace.setStates _ ?_
  rw [length_advance, List.getD_eq_getElem?_getD, List.getElem?_eq_getElem hi]
  exact hplace.full _ (List.getElem_mem hi)

theorem takeEntries_cons {l' : Ledger} (h : l.takeEntry step e = (.ok (), l'))
    (entries : List (Entry ι)) :
    l.takeEntries step (e :: entries) = l'.takeEntries step entries := by
  rw [takeEntries, h]

theorem takeEntries_cons_error {l' : Ledger} {fault : StateFault}
    (h : l.takeEntry step e = (.error fault, l')) (entries : List (Entry ι)) :
    l.takeEntries step (e :: entries) = (.error fault, l') := by
  rw [takeEntries, h]

theorem accumulate_eq {l' : Ledger} {outcome : Except StateFault Unit}
    (h : l.accumulating.takeEntries step entries = (outcome, l')) :
    l.accumulate step entries = (outcome.mapError .state, l') := by
  rw [accumulate, h]

/-- What every entry preserves is preserved by all of them, as far as they are taken in. -/
theorem takeEntries_induction {P : Ledger → Prop} (hl : P l)
    (hstep : ∀ l, ∀ e ∈ entries, P l → P (l.takeEntry step e).2) :
    P (l.takeEntries step entries).2 := by
  induction entries generalizing l with
  | nil => exact hl
  | cons e rest ih =>
    have hnext := hstep l e List.mem_cons_self hl
    rw [takeEntries]
    split
    · rename_i heq
      rw [heq] at hnext
      exact hnext
    · rename_i heq
      rw [heq] at hnext
      exact ih hnext fun l e he => hstep l e (List.mem_cons_of_mem _ he)

@[simp] theorem takeEntries_plan (step : Step ι) (l : Ledger) (entries : List (Entry ι)) :
    (l.takeEntries step entries).2.plan = l.plan :=
  takeEntries_induction (P := fun m => m.plan = l.plan) rfl
    fun m e _ hm => (takeEntry_plan step m e).trans hm

@[simp] theorem takeEntries_phase (step : Step ι) (l : Ledger) (entries : List (Entry ι)) :
    (l.takeEntries step entries).2.phase = l.phase :=
  takeEntries_induction (P := fun m => m.phase = l.phase) rfl
    fun m e _ hm => (takeEntry_phase step m e).trans hm

/-- Entries keep the ledger in order, whether they are all taken in or not. -/
theorem Kept.takeEntries (h : l.Kept) (hkeys : ∀ e ∈ entries, l.plan.IsNormal e.key.cells) :
    (l.takeEntries step entries).2.Kept := by
  refine (takeEntries_induction (P := fun m => m.plan = l.plan ∧ m.Kept) ⟨rfl, h⟩ ?_).2
  rintro m e he ⟨hplan, hm⟩
  exact ⟨(takeEntry_plan step m e).trans hplan, hm.takeEntry step (hplan ▸ hkeys e he)⟩

/-! ## Calls -/

theorem Kept.accumulating (h : l.Kept) : l.accumulating.Kept :=
  ⟨h.distinct, h.indexed, h.aligned, h.full, h.normal⟩

theorem WellKept.accumulate (h : l.WellKept)
    (hkeys : ∀ e ∈ entries, l.plan.IsNormal e.key.cells) :
    (l.accumulate step entries).2.WellKept := by
  have hphase : (l.accumulate step entries).2.phase = .accumulating :=
    takeEntries_phase step l.accumulating entries
  refine ⟨h.toKept.accumulating.takeEntries hkeys, fun hidle => ?_, fun hfinished => ?_⟩
  · rw [hphase] at hidle
    exact nomatch hidle
  · rw [hphase] at hfinished
    exact nomatch hfinished

/-! ## Groups for other ledgers -/

theorem aggregates_eq_of_sameAggregation {p q : Plan} (h : Table.sameAggregation p q = true) :
    p.aggregates = q.aggregates := by
  rw [Table.sameAggregation, Bool.and_eq_true, decide_eq_true_eq] at h
  exact h.1

/-- Plans of one aggregation have group columns of the same types. -/
theorem keyTypes_eq_of_sameAggregation {p q : Plan} (h : Table.sameAggregation p q = true) :
    p.keyTypes = q.keyTypes := by
  have haggregates := aggregates_eq_of_sameAggregation h
  rw [Table.sameAggregation, Bool.and_eq_true, decide_eq_true_eq, decide_eq_true_eq] at h
  have houtputs := h.2
  rw [Plan.outputTypes, Plan.outputTypes, haggregates] at houtputs
  exact List.append_cancel_right houtputs

theorem exists_key_of_mem_groups {g : Group} (hg : g ∈ l.groups) :
    ∃ k ∈ l.keys, g.key = k.cells := by
  obtain ⟨⟨k, states⟩, hpair, rfl⟩ := List.mem_map.mp hg
  exact ⟨k, (List.of_mem_zip hpair).1, rfl⟩

theorem states_of_mem_groups {g : Group} (hg : g ∈ l.groups) : g.states ∈ l.states := by
  obtain ⟨⟨k, states⟩, hpair, rfl⟩ := List.mem_map.mp hg
  exact (List.of_mem_zip hpair).2

/-- A group of one ledger is fit to be a group of any other of the same aggregation. -/
theorem Kept.fits (h : l.Kept) {p : Plan} (hsame : Table.sameAggregation p l.plan = true)
    {g : Group} (hg : g ∈ l.groups) :
    p.IsNormal g.key ∧ g.states.length = p.measures.length := by
  constructor
  · obtain ⟨k, hk, hkey⟩ := exists_key_of_mem_groups hg
    rw [Plan.isNormal_iff, keyTypes_eq_of_sameAggregation hsame, hkey]
    exact Plan.isNormal_iff.mp (h.normal k hk)
  · have hlength := congrArg List.length (aggregates_eq_of_sameAggregation hsame)
    rw [Plan.aggregates, Plan.aggregates, List.length_map, List.length_map] at hlength
    rw [hlength]
    exact h.full g.states (states_of_mem_groups hg)

end Ledger
end Rollup
