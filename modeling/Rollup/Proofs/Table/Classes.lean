import Rollup.Proofs.Table.Key
import Rollup.Table.Row

/-
Rows sorted into classes by their keys.

`Represents` says that a list of keys has one key of every class, and each of them from a
row of its class.  It is what the keys of a table keep to while rows come in, one class at
a time.
-/

namespace Rollup

open ColumnType (HoldsAll)

/-- The rows whose key counts as equal to the given one. -/
def rowsWith (key : List Cell) (rows : List Row) : List Row :=
  rows.filter fun r => keysEqual key r.key

theorem rowsWith_append (key : List Cell) (rows more : List Row) :
    rowsWith key (rows ++ more) = rowsWith key rows ++ rowsWith key more :=
  List.filter_append rows more

theorem mem_rowsWith {key : List Cell} {rows : List Row} {r : Row} :
    r ∈ rowsWith key rows ↔ r ∈ rows ∧ keysEqual key r.key = true :=
  List.mem_filter

theorem rowsWith_congr {k l : List Cell} (h : keysEqual k l = true) (rows : List Row) :
    rowsWith k rows = rowsWith l rows :=
  List.filter_congr fun r _ => keysEqual_congr h r.key

/-! ## Rows of one class -/

structure Batch (types : List ColumnType) (key : List Cell) (batch : List Row) : Prop where
  holds : ∀ r ∈ batch, HoldsAll types r.key
  origin : ∃ r ∈ batch, r.key = key
  same : ∀ r ∈ batch, keysEqual key r.key = true

namespace Batch

variable {types : List ColumnType} {key k : List Cell} {batch rows : List Row}

theorem singleton {r : Row} (h : HoldsAll types r.key) : Batch types r.key [r] where
  holds _ hw := List.mem_singleton.mp hw ▸ h
  origin := ⟨r, List.mem_cons_self, rfl⟩
  same _ hw := List.mem_singleton.mp hw ▸ keysEqual_refl r.key

theorem of_rowsWith (hrows : ∀ r ∈ rows, HoldsAll types r.key)
    (horigin : ∃ r ∈ rows, r.key = key) : Batch types key (rowsWith key rows) where
  holds r hr := hrows r (mem_rowsWith.mp hr).1
  origin := by
    obtain ⟨r, hr, rfl⟩ := horigin
    exact ⟨r, mem_rowsWith.mpr ⟨hr, keysEqual_refl r.key⟩, rfl⟩
  same r hr := (mem_rowsWith.mp hr).2

theorem rowsWith_eq_self (h : Batch types key batch) (heq : keysEqual k key = true) :
    rowsWith k batch = batch := by
  refine List.filter_eq_self.mpr fun r hr => ?_
  rw [keysEqual_congr heq]
  exact h.same r hr

theorem rowsWith_eq_nil (h : Batch types key batch) (hne : keysEqual k key = false) :
    rowsWith k batch = [] := by
  refine List.filter_eq_nil_iff.mpr fun r hr => ?_
  rw [← keysEqual_congr_right (h.same r hr), hne]
  decide

end Batch

/-! ## Representatives -/

/-- One key of every class of rows, taken from a row of the class. -/
structure Represents (types : List ColumnType) (keys : List (List Cell)) (rows : List Row) :
    Prop where
  holds : ∀ r ∈ rows, HoldsAll types r.key
  distinct : keys.Pairwise fun k l => keysEqual k l = false
  origin : ∀ k ∈ keys, ∃ r ∈ rows, r.key = k
  cover : ∀ r ∈ rows, ∃ k ∈ keys, keysEqual k r.key = true

namespace Represents

variable {types : List ColumnType} {keys : List (List Cell)} {rows more : List Row}
  {key k : List Cell}

theorem holds_key (h : Represents types keys rows) (hk : k ∈ keys) : HoldsAll types k := by
  obtain ⟨r, hr, rfl⟩ := h.origin k hk
  exact h.holds r hr

theorem nil (types : List ColumnType) : Represents types [] [] where
  holds _ hr := nomatch hr
  distinct := .nil
  origin _ hk := nomatch hk
  cover _ hr := nomatch hr

theorem rowsWith_eq_nil (h : Represents types keys rows)
    (hnew : ∀ k ∈ keys, keysEqual k key = false) : rowsWith key rows = [] := by
  refine List.filter_eq_nil_iff.mpr fun r hr heq => ?_
  obtain ⟨k, hk, hkr⟩ := h.cover r hr
  rw [← keysEqual_congr_right heq, hnew k hk] at hkr
  exact nomatch hkr

/-- A class that comes in adds its key if no key stands for it yet. -/
theorem enter (h : Represents types keys rows) (hb : Batch types key more) :
    Represents types (keys ++ if keys.any (keysEqual · key) then [] else [key])
      (rows ++ more) := by
  have hholds : ∀ r ∈ rows ++ more, HoldsAll types r.key := by
    intro r hr
    rcases List.mem_append.mp hr with hr | hr
    · exact h.holds r hr
    · exact hb.holds r hr
  have horigin : ∀ k ∈ keys, ∃ r ∈ rows ++ more, r.key = k := by
    intro k hk
    obtain ⟨r, hr, hrk⟩ := h.origin k hk
    exact ⟨r, List.mem_append_left more hr, hrk⟩
  by_cases hany : keys.any (keysEqual · key) = true
  · rw [if_pos hany, List.append_nil]
    refine ⟨hholds, h.distinct, horigin, fun r hr => ?_⟩
    rcases List.mem_append.mp hr with hr | hr
    · exact h.cover r hr
    · obtain ⟨k, hk, hkey⟩ := List.any_eq_true.mp hany
      refine ⟨k, hk, ?_⟩
      rw [keysEqual_congr hkey]
      exact hb.same r hr
  · rw [if_neg hany]
    have hnew : ∀ k ∈ keys, keysEqual k key = false := by
      intro k hk
      exact Bool.eq_false_iff.mpr fun heq => hany (List.any_eq_true.mpr ⟨k, hk, heq⟩)
    refine ⟨hholds, ?_, fun k hk => ?_, fun r hr => ?_⟩
    · refine List.pairwise_append.mpr ⟨h.distinct, List.pairwise_singleton _ _, ?_⟩
      intro k hk l hl
      exact List.mem_singleton.mp hl ▸ hnew k hk
    · rcases List.mem_append.mp hk with hk | hk
      · exact horigin k hk
      · obtain ⟨r, hr, hrk⟩ := hb.origin
        exact ⟨r, List.mem_append_right rows hr, hrk.trans (List.mem_singleton.mp hk).symm⟩
    · rcases List.mem_append.mp hr with hr | hr
      · obtain ⟨k, hk, hkr⟩ := h.cover r hr
        exact ⟨k, List.mem_append_left _ hk, hkr⟩
      · exact ⟨key, List.mem_append_right _ List.mem_cons_self, hb.same r hr⟩

theorem perm (h : Represents types keys rows) (hp : rows.Perm more) :
    Represents types keys more where
  holds r hr := h.holds r (hp.mem_iff.mpr hr)
  distinct := h.distinct
  origin k hk := by
    obtain ⟨r, hr, hrk⟩ := h.origin k hk
    exact ⟨r, hp.mem_iff.mp hr, hrk⟩
  cover r hr := h.cover r (hp.mem_iff.mpr hr)

end Represents

/-- Sorting rows by distinct keys that together match every row only moves the rows. -/
theorem flatMap_rowsWith_perm {keys : List (List Cell)} {rows : List Row}
    (hdistinct : keys.Pairwise fun k l => keysEqual k l = false)
    (hcover : ∀ r ∈ rows, ∃ k ∈ keys, keysEqual k r.key = true) :
    (keys.flatMap fun k => rowsWith k rows).Perm rows := by
  induction keys generalizing rows with
  | nil =>
    have hnil : rows = [] := by
      refine List.eq_nil_iff_forall_not_mem.mpr fun r hr => ?_
      obtain ⟨k, hk, _⟩ := hcover r hr
      exact nomatch hk
    rw [hnil]
    exact .nil
  | cons key keys ih =>
    obtain ⟨hhead, htail⟩ := List.pairwise_cons.mp hdistinct
    have hrest : ∀ k ∈ keys, rowsWith k rows =
        rowsWith k (rows.filter fun r => !keysEqual key r.key) := by
      intro k hk
      rw [rowsWith, rowsWith, List.filter_filter]
      refine List.filter_congr fun r hr => ?_
      cases hkr : keysEqual k r.key with
      | false => rfl
      | true =>
        -- A row of this class is not of the first one, whose key is another.
        rw [← keysEqual_congr_right hkr, hhead k hk]
        rfl
    rw [List.flatMap_cons, List.flatMap_congr hrest]
    refine (List.Perm.append_left _ (ih htail ?_)).trans
      (List.filter_append_perm (fun r : Row => keysEqual key r.key) rows)
    intro r hr
    obtain ⟨hmem, hne⟩ := List.mem_filter.mp hr
    obtain ⟨k, hk, hkr⟩ := hcover r hmem
    rcases List.mem_cons.mp hk with rfl | hk
    · rw [hkr] at hne
      exact nomatch hne
    · exact ⟨k, hk, hkr⟩

end Rollup
