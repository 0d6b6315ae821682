import Mathlib.Algebra.Order.BigOperators.Group.List
import Rollup.Proofs.Aggregate.Load
import Rollup.Proofs.Table.Life

/-
How much a ledger has taken in, and why taking in does not fail.

A ledger is `Loaded` with `n` when its groups together have taken in `n` rows with values,
in whatever way.  With fewer than 2 ^ 128 of them no step of an entry can fail.
-/

namespace Rollup

/-! ## Counts -/

theorem sum_set_add {counts : List Nat} {i c k : Nat} (h : counts[i]? = some c) :
    (counts.set i (c + k)).sum = counts.sum + k := by
  induction counts generalizing i with
  | nil => exact nomatch h
  | cons head rest ih =>
    cases i with
    | zero =>
      obtain rfl : head = c := Option.some.inj h
      rw [List.set_cons_zero, List.sum_cons, List.sum_cons]
      omega
    | succ i =>
      rw [List.set_cons_succ, List.sum_cons, List.sum_cons, ih h]
      omega

theorem forall₂_set {α β : Type} {R : α → β → Prop} {xs : List α} {ys : List β} {x : α} {y : β}
    (h : List.Forall₂ R xs ys) (hxy : R x y) (i : Nat) :
    List.Forall₂ R (xs.set i x) (ys.set i y) := by
  induction h generalizing i with
  | nil => exact .nil
  | cons hhead htail ih =>
    cases i with
    | zero => exact .cons hxy htail
    | succ i => exact .cons hhead (ih i)

theorem exists_getElem?_of_forall₂ {α β : Type} {R : α → β → Prop} {xs : List α} {ys : List β}
    (h : List.Forall₂ R xs ys) {i : Nat} (hi : i < ys.length) :
    ∃ x, xs[i]? = some x ∧ R x ys[i] := by
  have hx : i < xs.length := h.length_eq ▸ hi
  exact ⟨xs[i], List.getElem?_eq_getElem hx, h.get hx hi⟩

/-! ## Groups -/

/-- Every state of a group bears so many values. -/
def Plan.Bears (p : Plan) (n : Nat) (states : List State) : Prop :=
  List.Forall₂ (fun a s => Aggregate.Bears a n s) p.aggregates states

theorem Plan.bears_start (p : Plan) : p.Bears 0 p.start :=
  p.forall₂_start Aggregate.bears_start

namespace Ledger

variable {ι : Type} {step : Step ι} {l : Ledger} {e : Entry ι} {n k : Nat}

/-- An item that every state with room for `k` more values can take in. -/
def CanTake (step : Step ι) (k : Nat) (m : Measure) (x : ι) : Prop :=
  ∀ n s, n + k ≤ 2 ^ 128 → m.aggregate.Bears n s →
    ∃ t, step m s x = .ok t ∧ m.aggregate.Bears (n + k) t

def Brings (p : Plan) (step : Step ι) (k : Nat) (e : Entry ι) : Prop :=
  List.Forall₂ (CanTake step k) p.measures e.items

theorem exists_advance {ms : List Measure} {ss : List State} {xs : List ι}
    (hs : List.Forall₂ (fun a s => Aggregate.Bears a n s) (ms.map (·.aggregate)) ss)
    (hx : List.Forall₂ (CanTake step k) ms xs) (hroom : n + k ≤ 2 ^ 128) :
    ∃ ts, advance step ms ss xs = (.ok (), ts) ∧
      List.Forall₂ (fun a s => Aggregate.Bears a (n + k) s) (ms.map (·.aggregate)) ts := by
  induction hx generalizing ss with
  | nil =>
    cases hs
    exact ⟨[], rfl, .nil⟩
  | cons hx _ ih =>
    cases hs with
    | cons hs hss =>
      obtain ⟨t, ht, hbears⟩ := hx n _ hroom hs
      obtain ⟨ts, hts, hrest⟩ := ih hss
      exact ⟨t :: ts, by rw [advance, ht, hts], .cons hbears hrest⟩

/-! ## Entries -/

/-- The groups have taken in no more than `n` values together. -/
def Loaded (l : Ledger) (n : Nat) : Prop :=
  ∃ counts : List Nat, counts.sum ≤ n ∧
    List.Forall₂ (fun k states => l.plan.Bears k states) counts l.states

theorem Loaded.mono (h : l.Loaded n) (hk : n ≤ k) : l.Loaded k := by
  obtain ⟨counts, hsum, hbears⟩ := h
  exact ⟨counts, Nat.le_trans hsum hk, hbears⟩

theorem loaded_of_states_eq_nil (h : l.states = []) (n : Nat) : l.Loaded n :=
  ⟨[], Nat.zero_le n, h ▸ .nil⟩

theorem Loaded.place (h : l.Loaded n) (key : GroupKey) : (l.place key).2.Loaded n := by
  unfold Ledger.place
  split
  · exact h
  · obtain ⟨counts, hsum, hbears⟩ := h
    refine ⟨counts ++ [0], by simpa using hsum, ?_⟩
    exact List.rel_append hbears (.cons l.plan.bears_start .nil)

/-- An entry is taken in where there is room for what it brings. -/
theorem Loaded.exists_takeEntry (h : l.Loaded n) (hkept : l.Kept)
    (hkey : l.plan.IsNormal e.key.cells) (hb : Brings l.plan step k e)
    (hroom : n + k ≤ 2 ^ 128) :
    ∃ l', l.takeEntry step e = (.ok (), l') ∧ l'.Loaded (n + k) := by
  obtain ⟨counts, hsum, hbears⟩ := h.place e.key
  have hi := (hkept.place hkey).2
  have hplan := l.place_plan e.key
  obtain ⟨c, hc, hstates⟩ := exists_getElem?_of_forall₂ hbears hi
  have hle : c ≤ counts.sum := List.le_sum_of_mem (List.mem_of_getElem? hc)
  rw [hplan] at hbears hstates
  obtain ⟨ts, hts, hnew⟩ := exists_advance hstates hb (n := c) (by omega)
  refine ⟨(l.place e.key).2.setStates (l.place e.key).1 ts, ?_,
    counts.set (l.place e.key).1 (c + k), ?_, ?_⟩
  · rw [takeEntry, List.getD_eq_getElem?_getD, List.getElem?_eq_getElem hi, Option.getD_some, hts]
  · rw [sum_set_add hc]
    omega
  · show List.Forall₂ (fun k states => (l.place e.key).2.plan.Bears k states) _ _
    rw [hplan]
    exact forall₂_set hbears hnew _

/-- Entries are taken in where there is room for what they bring together. -/
theorem Loaded.exists_takeEntries {p : Plan} {entries : List (Entry ι)} {ks : List Nat}
    (h : l.Loaded n) (hkept : l.Kept) (hplan : l.plan = p)
    (hkeys : ∀ e ∈ entries, p.IsNormal e.key.cells)
    (hb : List.Forall₂ (Brings p step) ks entries) (hroom : n + ks.sum ≤ 2 ^ 128) :
    ∃ l', l.takeEntries step entries = (.ok (), l') ∧ l'.Loaded (n + ks.sum) := by
  induction hb generalizing l n with
  | nil => exact ⟨l, rfl, h⟩
  | @cons k e ks rest hhead _ ih =>
    subst hplan
    have hkey := hkeys e List.mem_cons_self
    rw [List.sum_cons, ← Nat.add_assoc] at hroom ⊢
    obtain ⟨l', htake, hloaded⟩ := h.exists_takeEntry hkept hkey hhead (by omega)
    have hkept' := hkept.takeEntry step hkey
    have hplan' := takeEntry_plan step l e
    rw [htake] at hkept' hplan'
    obtain ⟨l'', hrest, hloaded'⟩ := ih hloaded hkept' hplan'
      (fun e' he' => hkeys e' (List.mem_cons_of_mem e he')) hroom
    exact ⟨l'', (takeEntries_cons htake rest).trans hrest, hloaded'⟩

theorem Loaded.exists_accumulate {entries : List (Entry ι)} {ks : List Nat} (h : l.Loaded n)
    (hkept : l.Kept) (hkeys : ∀ e ∈ entries, l.plan.IsNormal e.key.cells)
    (hb : List.Forall₂ (Brings l.plan step) ks entries) (hroom : n + ks.sum ≤ 2 ^ 128) :
    ∃ l', l.accumulate step entries = (.ok (), l') ∧ l'.Loaded (n + ks.sum) := by
  have hloaded : l.accumulating.Loaded n := h
  obtain ⟨l', htake, hloaded'⟩ :=
    hloaded.exists_takeEntries hkept.accumulating rfl hkeys hb hroom
  exact ⟨l', by rw [accumulate, htake]; rfl, hloaded'⟩

end Ledger

/-! ## Rows -/

/-- A row counts if it brings a value. -/
def Row.weight (r : Row) : Nat := if r.values.any (·.isSome) then 1 else 0

def weight (rows : List Row) : Nat := (rows.map Row.weight).sum

theorem weight_le_of_mem {rows : List Row} {r : Row} (h : r ∈ rows) :
    weight [r] ≤ weight rows := by
  have hle : r.weight ≤ weight rows := List.le_sum_of_mem (List.mem_map_of_mem h)
  simpa [weight] using hle

theorem Row.brings {p : Plan} {r : Row} (h : p.Admits r) :
    Ledger.Brings p Ledger.takeCell r.weight r.entry := by
  have hweight : ∀ c ∈ r.values, c.isSome = true → 1 ≤ r.weight := by
    intro c hc hsome
    rw [weight, if_pos (List.any_eq_true.mpr ⟨c, hc, hsome⟩)]
  have hvalues := (List.forall₂_and_left _ _).mpr ⟨hweight, h.values.flip⟩
  exact (hvalues.imp fun c m hc n s hroom hs => hs.take hc.2 hc.1 hroom).flip

namespace Ledger

variable {l other : Ledger} {n k : Nat}

/-- Rows that have been checked are taken in where there is room for them. -/
theorem Loaded.exists_takeRows {rows : List Row} (h : l.Loaded n) (hkept : l.Kept)
    (hadmits : ∀ r ∈ rows, l.plan.Admits r) (hroom : n + weight rows ≤ 2 ^ 128) :
    ∃ l', l.accumulate takeCell (rows.map Row.entry) = (.ok (), l') ∧
      l'.Loaded (n + weight rows) := by
  refine h.exists_accumulate hkept (fun e he => ?_) ?_ hroom
  · obtain ⟨r, hr, rfl⟩ := List.mem_map.mp he
    exact Plan.isNormal_iff.mpr (hadmits r hr).key
  · rw [List.forall₂_map_left_iff, List.forall₂_map_right_iff]
    exact List.forall₂_same.mpr fun r hr => Row.brings (hadmits r hr)

/-! ## Groups of another ledger -/

theorem Loaded.forall₂_groups (h : l.Loaded n) (hkept : l.Kept) :
    ∃ counts : List Nat, counts.sum ≤ n ∧
      List.Forall₂ (fun k (g : Group) => l.plan.Bears k g.states) counts l.groups := by
  obtain ⟨counts, hsum, hbears⟩ := h
  refine ⟨counts, hsum, ?_⟩
  have hstates : l.groups.map (·.states) = l.states := by
    rw [groups, List.map_map]
    exact List.map_snd_zip (Nat.le_of_eq hkept.aligned)
  rw [← hstates, List.forall₂_map_right_iff] at hbears
  exact hbears

/-- The groups of another ledger are taken in where there is room for what it took in. -/
theorem Loaded.exists_takeGroups (h : l.Loaded n) (hkept : l.Kept) (ho : other.Loaded k)
    (hokept : other.Kept) (hsame : Table.sameAggregation l.plan other.plan = true)
    (hroom : n + k ≤ 2 ^ 128) :
    ∃ l', l.accumulate takeState (other.groups.map Group.entry) = (.ok (), l') ∧
      l'.Loaded (n + k) := by
  obtain ⟨counts, hsum, hbears⟩ := ho.forall₂_groups hokept
  have hb : List.Forall₂ (Brings l.plan takeState) counts (other.groups.map Group.entry) := by
    rw [List.forall₂_map_right_iff]
    refine hbears.imp fun c g hg => ?_
    rw [Plan.Bears, ← aggregates_eq_of_sameAggregation hsame, Plan.aggregates,
      List.forall₂_map_left_iff] at hg
    exact hg.imp fun m o hmo n' s hroom' hs => hs.merge hmo hroom'
  have hkeys : ∀ e ∈ other.groups.map Group.entry, l.plan.IsNormal e.key.cells := by
    intro e he
    obtain ⟨g, hg, rfl⟩ := List.mem_map.mp he
    exact (hokept.fits hsame hg).1
  obtain ⟨l', htake, hloaded⟩ := h.exists_accumulate hkept hkeys hb (by omega)
  exact ⟨l', htake, hloaded.mono (by omega)⟩

end Ledger

/-! ## Lives -/

namespace Life

/-- The number of rows with values that a life has brought, those of merged lives included,
whether or not they were taken in when they had passed their checks. -/
def load : Life → Nat
  | .ofPlan _ => 0
  | .feed life f =>
      match life.ledger.plan.check life.ledger.isFinished f with
      | .error _ => life.load
      | .ok rows => life.load + weight rows
  | .merge life other =>
      match life.ledger.checkMerge other.ledger with
      | .error _ => life.load
      | .ok _ => life.load + other.load
  | .finish life => life.load
  | .finishChunk life => life.load

theorem load_le_load_feed (life : Life) (f : Feed) : life.load ≤ (life.feed f).load := by
  rw [load]
  split
  · exact Nat.le_refl _
  · exact Nat.le_add_right ..

theorem load_le_load_merge (life other : Life) : life.load ≤ (life.merge other).load := by
  rw [load]
  split
  · exact Nat.le_refl _
  · exact Nat.le_add_right ..

/-- A feed that leaves room is taken in as soon as it has passed its checks. -/
theorem exists_feed {life : Life} {f : Feed} {rows : List Row}
    (hloaded : life.ledger.Loaded life.load) (hroom : (life.feed f).load ≤ 2 ^ 128)
    (hrows : life.ledger.plan.check life.ledger.isFinished f = .ok rows) :
    ∃ l, life.ledger.feed f = (.ok (), l) ∧ l.Loaded (life.feed f).load := by
  have hadmits := Plan.admits_of_accepted (Plan.check_eq_ok_iff.mp hrows).2
  have hload : (life.feed f).load = life.load + weight rows := by rw [load, hrows]
  rw [hload] at hroom ⊢
  rw [Ledger.feed_eq, hrows]
  exact hloaded.exists_takeRows life.wellKept_ledger.toKept hadmits hroom

theorem exists_merge {life other : Life} {groups : List Group}
    (hloaded : life.ledger.Loaded life.load) (hother : other.ledger.Loaded other.load)
    (hroom : (life.merge other).load ≤ 2 ^ 128)
    (hgroups : life.ledger.checkMerge other.ledger = .ok groups) :
    ∃ l, life.ledger.merge other.ledger = (.ok (), l) ∧ l.Loaded (life.merge other).load := by
  obtain ⟨_, _, hsame, rfl⟩ := Ledger.checkMerge_eq_ok_iff.mp hgroups
  have hload : (life.merge other).load = life.load + other.load := by rw [load, hgroups]
  rw [hload] at hroom ⊢
  rw [Ledger.merge_eq, hgroups]
  exact hloaded.exists_takeGroups life.wellKept_ledger.toKept hother
    other.wellKept_ledger.toKept hsame hroom

/-- With room for all that its life brought, a ledger is loaded with it. -/
theorem loaded_ledger {life : Life} (h : life.load ≤ 2 ^ 128) :
    life.ledger.Loaded life.load := by
  induction life with
  | ofPlan p => exact Ledger.loaded_of_states_eq_nil rfl 0
  | feed life f ih =>
    have hloaded := ih (Nat.le_trans (life.load_le_load_feed f) h)
    cases hcheck : life.ledger.plan.check life.ledger.isFinished f with
    | ok rows =>
      obtain ⟨l, hfeed, hl⟩ := exists_feed hloaded h hcheck
      rw [ledger, hfeed]
      exact hl
    | error e =>
      rw [ledger, Ledger.feed_eq, load, hcheck]
      exact hloaded
  | merge life other ih iho =>
    have hloaded := ih (Nat.le_trans (life.load_le_load_merge other) h)
    cases hcheck : life.ledger.checkMerge other.ledger with
    | ok groups =>
      have hother : other.load ≤ 2 ^ 128 := by
        rw [load, hcheck] at h
        exact Nat.le_trans (Nat.le_add_left ..) h
      obtain ⟨l, hmerge, hl⟩ := exists_merge hloaded (iho hother) h hcheck
      rw [ledger, hmerge]
      exact hl
    | error e =>
      rw [ledger, Ledger.merge_eq, load, hcheck]
      exact hloaded
  | finish life ih =>
    rw [ledger, Ledger.finish, load]
    split
    · exact ih h
    · exact Ledger.loaded_of_states_eq_nil rfl _
  | finishChunk life ih =>
    rw [ledger, Ledger.finishChunk, load]
    split
    · exact ih h
    · exact Ledger.loaded_of_states_eq_nil rfl _

end Life
end Rollup
