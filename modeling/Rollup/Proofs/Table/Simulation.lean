import Rollup.Proofs.Table.Life
import Rollup.Proofs.Table.Summary

/-
A ledger keeps a table.

Looking a key up in the index finds the group that a search through all groups finds, so
every call on a ledger does to the table it keeps what the call on the table does.  Calls
on a table have no effect when they fail; what a ledger is then left with is not compared.
-/

namespace Rollup

/-- What a call leaves behind, if it succeeds. -/
def settled {ε α : Type} (outcome : Except ε Unit × α) : Except ε α :=
  outcome.1.map fun _ => outcome.2

/-! ## Entering at a place -/

theorem enter_at {fresh : List State} {key : List Cell}
    {change : List State → Except StateFault (List State)} {groups : List Group} {i : Nat}
    {g : Group} (hdistinct : groups.Pairwise fun g g' => keysEqual g.key g'.key = false)
    (hg : groups[i]? = some g) (hkey : keysEqual g.key key = true) :
    enter fresh key change groups =
      (change g.states).map fun states => groups.set i ⟨g.key, states⟩ := by
  induction groups generalizing i with
  | nil => exact nomatch hg
  | cons head rest ih =>
    obtain ⟨hhead, hrest⟩ := List.pairwise_cons.mp hdistinct
    rw [enter]
    cases i with
    | zero =>
      obtain rfl : head = g := Option.some.inj hg
      rw [if_pos hkey]
      rfl
    | succ i =>
      rw [List.getElem?_cons_succ] at hg
      have hne : ¬ keysEqual head.key key = true := by
        rw [← keysEqual_congr_right hkey, hhead g (List.mem_of_getElem? hg)]
        exact Bool.false_ne_true
      rw [if_neg hne, ih hrest hg]
      cases change g.states <;> rfl

theorem enter_new {fresh : List State} {key : List Cell}
    {change : List State → Except StateFault (List State)} {groups : List Group}
    (hnew : ∀ g ∈ groups, keysEqual g.key key = false) :
    enter fresh key change groups =
      (change fresh).map fun states => groups ++ [⟨key, states⟩] := by
  induction groups with
  | nil => rfl
  | cons head rest ih =>
    have hne : ¬ keysEqual head.key key = true := by
      rw [hnew head List.mem_cons_self]
      exact Bool.false_ne_true
    rw [enter, if_neg hne, ih fun g hg => hnew g (List.mem_cons_of_mem head hg)]
    cases change fresh <;> rfl

/-- Feeds of a finished table fail as their checks do. -/
theorem Table.feed_eq_check (t : Table) (f : Feed) :
    t.feed f =
      match t.plan.check t.isFinished f with
      | .error e => .error e
      | .ok rows => t.takePrepared rows := by
  cases h : t.isFinished with
  | false =>
    rw [Plan.check_false]
    exact feed_eq h f
  | true =>
    cases f with
    | input cells =>
      show t.updateInputRow cells = _
      rw [updateInputRow, Plan.check]
      cases t.plan.rowOf cells with
      | error e => rfl
      | ok r =>
        show t.updateRow r = _
        rw [updateRow, h]
        rfl
    | row r =>
      show t.updateRow r = _
      rw [updateRow, h]
      rfl
    | rows rs =>
      show t.updateRows rs = _
      rw [updateRows, h]
      rfl
    | chunk c =>
      show t.updateChunk c = _
      rw [updateChunk, h]
      rfl

namespace Ledger

variable {ι ρ : Type} {step : Step ι} {l : Ledger} {e : Entry ι}

/-! ## Groups -/

theorem Kept.groups_distinct (h : l.Kept) :
    l.groups.Pairwise fun g g' => keysEqual g.key g'.key = false := by
  have hkeys : ((l.keys.zip l.states).map Prod.fst).Pairwise fun a b =>
      keysEqual a.cells b.cells = false := by
    rw [List.map_fst_zip (Nat.le_of_eq h.aligned.symm)]
    exact h.distinct
  exact List.pairwise_map.mpr (List.pairwise_map.mp hkeys)

theorem getElem?_groups {i : Nat} {k : GroupKey} {states : List State}
    (hk : l.keys[i]? = some k) (hs : l.states[i]? = some states) :
    l.groups[i]? = some ⟨k.cells, states⟩ := by
  have hpair : (l.keys.zip l.states)[i]? = some (k, states) :=
    List.getElem?_zip_eq_some.mpr ⟨hk, hs⟩
  rw [groups, List.getElem?_map, hpair]
  rfl

theorem zip_set {α β : Type} {xs : List α} {x : α} {i : Nat} (hx : xs[i]? = some x)
    (ys : List β) (y : β) : xs.zip (ys.set i y) = (xs.zip ys).set i (x, y) := by
  induction xs generalizing ys i with
  | nil => exact nomatch hx
  | cons x' xs ih =>
    cases ys with
    | nil => rfl
    | cons y' ys =>
      cases i with
      | zero =>
        obtain rfl : x' = x := Option.some.inj hx
        rfl
      | succ i => exact congrArg ((x', y') :: ·) (ih hx ys)

theorem groups_setStates {i : Nat} {k : GroupKey} (hk : l.keys[i]? = some k)
    (states : List State) :
    (l.setStates i states).groups = l.groups.set i ⟨k.cells, states⟩ := by
  show ((l.keys.zip (l.states.set i states)).map _) = _
  rw [zip_set hk, List.map_set]
  rfl

theorem Kept.groups_add (h : l.Kept) (key : GroupKey) (states : List State) :
    ((l.add key).setStates l.keys.length states).groups = l.groups ++ [⟨key.cells, states⟩] := by
  show ((l.keys ++ [key]).zip ((l.states ++ [l.plan.start]).set l.keys.length states)).map _ = _
  rw [← h.aligned, List.set_append_right _ _ (Nat.le_refl _), Nat.sub_self, List.set_cons_zero,
    List.zip_append h.aligned.symm, List.map_append]
  rfl

/-! ## Steps -/

/-- A traversal that stops at the first failure ends as `advance` does. -/
theorem eq_settled_advance {f : List Measure → List State → List ι → Except StateFault (List State)}
    (hnil : f [] [] [] = .ok [])
    (hcons : ∀ m ms s ss x xs, f (m :: ms) (s :: ss) (x :: xs) =
      match step m s x with
      | .error e => .error e
      | .ok t => (f ms ss xs).map (t :: ·))
    {ms : List Measure} {ss : List State} {xs : List ι} (hss : ss.length = ms.length)
    (hxs : xs.length = ms.length) : f ms ss xs = settled (advance step ms ss xs) := by
  induction ms generalizing ss xs with
  | nil =>
    obtain rfl : ss = [] := List.length_eq_zero_iff.mp hss
    obtain rfl : xs = [] := List.length_eq_zero_iff.mp hxs
    exact hnil
  | cons m ms ih =>
    obtain ⟨s, ss, rfl⟩ := List.exists_cons_of_length_eq_add_one hss
    obtain ⟨x, xs, rfl⟩ := List.exists_cons_of_length_eq_add_one hxs
    rw [hcons, advance, ih (Nat.succ.inj hss) (Nat.succ.inj hxs)]
    cases step m s x with
    | error e => rfl
    | ok t => cases h : (advance step ms ss xs).1 <;> simp [settled, h, Except.map]

theorem takeValues_eq {ms : List Measure} {ss : List State} {cs : List Cell}
    (hss : ss.length = ms.length) (hcs : cs.length = ms.length) :
    Plan.takeValues ms ss cs = settled (advance takeCell ms ss cs) :=
  eq_settled_advance rfl (fun _ _ _ _ _ _ => rfl) hss hcs

theorem takeStates_eq {ms : List Measure} {ss os : List State}
    (hss : ss.length = ms.length) (hos : os.length = ms.length) :
    Plan.takeStates ms ss os = settled (advance takeState ms ss os) :=
  eq_settled_advance rfl (fun _ _ _ _ _ _ => rfl) hss hos

/-! ## Entries -/

theorem Kept.enter_eq (h : l.Kept) {change : List State → Except StateFault (List State)}
    (hchange : ∀ ss, ss.length = l.plan.measures.length →
      change ss = settled (advance step l.plan.measures ss e.items)) :
    enter l.plan.start e.key.cells change l.groups =
      (settled (l.takeEntry step e)).map groups := by
  rcases h.place_cases e.key with ⟨i, k, hk, heq, hplace⟩ | ⟨hnew, hplace⟩
  · obtain ⟨states, hs⟩ : ∃ states, l.states[i]? = some states := by
      have hi := (List.getElem?_eq_some_iff.mp hk).1
      exact ⟨_, List.getElem?_eq_getElem (h.aligned ▸ hi)⟩
    have hfull := h.full states (List.mem_of_getElem? hs)
    rw [enter_at h.groups_distinct (getElem?_groups hk hs) heq, hchange states hfull,
      Ledger.takeEntry, hplace]
    simp only [List.getD_eq_getElem?_getD, hs, Option.getD_some, settled, ← groups_setStates hk]
    cases (advance step l.plan.measures states e.items).1 <;> rfl
  · have hgroups : ∀ g ∈ l.groups, keysEqual g.key e.key.cells = false := by
      intro g hg
      obtain ⟨k, hk, hkey⟩ := exists_key_of_mem_groups hg
      exact hkey ▸ hnew k hk
    have hfresh : l.plan.start.length = l.plan.measures.length := List.length_map ..
    have hstates : (l.add e.key).states[l.keys.length]? = some l.plan.start :=
      h.aligned ▸ List.getElem?_concat_length ..
    rw [enter_new hgroups, hchange _ hfresh, Ledger.takeEntry, hplace]
    simp only [List.getD_eq_getElem?_getD, hstates, Option.getD_some, settled, ← h.groups_add]
    cases (advance step l.plan.measures l.plan.start e.items).1 <;> rfl

/-- Entering all items of a list goes through the same groups in the list and in the index. -/
theorem Kept.enterAll_eq {f : List Group → List ρ → Except StateFault (List Group)}
    {entry : ρ → Entry ι} {change : ρ → List State → Except StateFault (List State)} {p : Plan}
    (hnil : ∀ groups, f groups [] = .ok groups)
    (hcons : ∀ groups x xs, f groups (x :: xs) =
      match enter p.start (entry x).key.cells (change x) groups with
      | .error e => .error e
      | .ok groups => f groups xs)
    {xs : List ρ} (h : l.Kept) (hplan : l.plan = p)
    (hkeys : ∀ x ∈ xs, p.IsNormal (entry x).key.cells)
    (hchange : ∀ x ∈ xs, ∀ ss, ss.length = p.measures.length →
      change x ss = settled (advance step p.measures ss (entry x).items)) :
    f l.groups xs = (settled (l.takeEntries step (xs.map entry))).map groups := by
  induction xs generalizing l with
  | nil => exact hnil l.groups
  | cons x xs ih =>
    subst hplan
    have hkey := hkeys x List.mem_cons_self
    have henter := h.enter_eq (e := entry x) (hchange x List.mem_cons_self)
    rw [hcons, henter, List.map_cons, Ledger.takeEntries]
    have hnext := h.takeEntry step hkey
    have hplan := takeEntry_plan step l (entry x)
    generalize l.takeEntry step (entry x) = outcome at hnext hplan ⊢
    obtain ⟨result, l'⟩ := outcome
    cases result with
    | error fault => rfl
    | ok _ =>
      exact ih hnext hplan (fun y hy => hkeys y (List.mem_cons_of_mem x hy))
        fun y hy => hchange y (List.mem_cons_of_mem x hy)

/-! ## Calls -/

theorem WellKept.groups_table (h : l.WellKept) : l.table.groups = l.groups := by
  unfold Table.groups table
  cases hphase : l.phase with
  | idle => rw [groups, h.idle hphase]; rfl
  | accumulating => rfl
  | finished => rw [groups, (h.finished hphase).1]; rfl

theorem isFinished_table (l : Ledger) : l.table.isFinished = l.isFinished := by
  unfold Table.isFinished table isFinished
  cases l.phase <;> rfl

/-- What the ledger and the table make of entries, once the groups come out the same. -/
theorem accumulating_eq {groups : Except StateFault (List Group)} {entries : List (Entry ι)}
    (h : groups = (settled (l.accumulating.takeEntries step entries)).map Ledger.groups) :
    l.table.accumulating groups = (settled (l.accumulate step entries)).map table := by
  have hplan := takeEntries_plan step l.accumulating entries
  have hphase := takeEntries_phase step l.accumulating entries
  rw [h, accumulate]
  generalize l.accumulating.takeEntries step entries = outcome at hplan hphase ⊢
  obtain ⟨result, l'⟩ := outcome
  cases result with
  | error fault => rfl
  | ok _ =>
    show Except.ok (⟨l.plan, .accumulating l'.groups⟩ : Table) = Except.ok l'.table
    have hplan' : l'.plan = l.plan := hplan
    have hphase' : l'.phase = .accumulating := hphase
    rw [table, hplan', hphase']

/-- Feeding a ledger feeds the table that it keeps. -/
theorem WellKept.feed_table (h : l.WellKept) (f : Feed) :
    l.table.feed f = (settled (l.feed f)).map table := by
  have hplan : l.table.plan = l.plan := rfl
  rw [Table.feed_eq_check, isFinished_table, hplan, feed_eq]
  cases hcheck : l.plan.check l.isFinished f with
  | error e => rfl
  | ok rows =>
    have hadmits := Plan.admits_of_accepted (Plan.check_eq_ok_iff.mp hcheck).2
    refine accumulating_eq ?_
    rw [h.groups_table]
    refine h.toKept.accumulating.enterAll_eq (fun _ => rfl) (fun _ _ _ => rfl) rfl
      (fun r hr => Plan.isNormal_iff.mpr (hadmits r hr).key) fun r hr ss hss => ?_
    exact takeValues_eq hss (hadmits r hr).values.length_eq.symm

/-- Merging tables checks what merging the ledgers checks. -/
theorem WellKept.merge_eq_check (h : l.WellKept) {other : Ledger} (ho : other.WellKept) :
    l.table.merge other.table =
      match l.checkMerge other with
      | .error e => .error e
      | .ok groups => l.table.accumulating (l.plan.takeGroups l.groups groups) := by
  rw [Table.merge, isFinished_table, isFinished_table, h.groups_table, ho.groups_table]
  unfold checkMerge
  show (if other.isFinished then _ else if !Table.sameAggregation l.plan other.plan then _
    else if l.isFinished then _ else _) = _
  cases other.isFinished <;> cases Table.sameAggregation l.plan other.plan <;>
    cases l.isFinished <;> rfl

theorem WellKept.merge_table (h : l.WellKept) {other : Ledger} (ho : other.WellKept) :
    l.table.merge other.table = (settled (l.merge other)).map table := by
  rw [h.merge_eq_check ho, merge_eq]
  cases hgroups : l.checkMerge other with
  | error e => rfl
  | ok groups =>
    obtain ⟨_, _, hsame, rfl⟩ := checkMerge_eq_ok_iff.mp hgroups
    refine accumulating_eq ?_
    refine h.toKept.accumulating.enterAll_eq (fun _ => rfl) (fun _ _ _ => rfl) rfl
      (fun g hg => (ho.fits hsame hg).1) fun g hg ss hss => ?_
    exact takeStates_eq hss (ho.fits hsame hg).2

theorem finish_table (l : Ledger) : l.table.finish = (l.finish.1, l.finish.2.table) := by
  unfold finish Table.finish
  rw [isFinished_table]
  by_cases h : l.phase = .finished
  · rw [if_pos h, if_pos (isFinished_iff.mpr h)]
  · rw [if_neg h, if_neg (mt isFinished_iff.mp h)]
    rfl

theorem finishChunk_table (l : Ledger) :
    l.table.finishChunk = (l.finishChunk.1, l.finishChunk.2.table) := by
  unfold finishChunk Table.finishChunk
  rw [isFinished_table]
  by_cases h : l.phase = .finished
  · rw [if_pos h, if_pos (isFinished_iff.mpr h)]
  · rw [if_neg h, if_neg (mt isFinished_iff.mp h)]
    rfl

end Ledger
end Rollup
