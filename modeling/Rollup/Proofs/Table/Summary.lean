import Rollup.Proofs.Table.Classes
import Rollup.Proofs.Table.Columnwise

/-
Groups as a summary of the rows taken in.

`Summarizes p rows groups` is the invariant of a table: the keys of the groups represent
the rows, and the states of a group digest the rows of its class, column by column.  It is
preserved by `enter` for a whole class of rows at a time, which covers single rows and the
groups of another table alike.
-/

namespace Rollup

open Aggregate (Digests)
open ColumnType (HoldsAll)

/-! ## What entering a key can do -/

theorem enter_cases {fresh : List State} {key : List Cell}
    {change : List State → Except StateFault (List State)} {groups result : List Group}
    (h : enter fresh key change groups = .ok result) :
    (∃ before g after states, groups = before ++ g :: after ∧ keysEqual g.key key = true ∧
      change g.states = .ok states ∧ result = before ++ ⟨g.key, states⟩ :: after) ∨
    (∃ states, (∀ g ∈ groups, keysEqual g.key key = false) ∧ change fresh = .ok states ∧
      result = groups ++ [⟨key, states⟩]) := by
  induction groups generalizing result with
  | nil =>
    obtain ⟨states, hstates, rfl⟩ := map_eq_ok_iff.mp h
    exact .inr ⟨states, fun _ hg => (nomatch hg), hstates, rfl⟩
  | cons g rest ih =>
    rw [enter] at h
    by_cases hk : keysEqual g.key key = true
    · rw [if_pos hk] at h
      obtain ⟨states, hstates, rfl⟩ := map_eq_ok_iff.mp h
      exact .inl ⟨[], g, rest, states, rfl, hk, hstates, rfl⟩
    · rw [if_neg hk] at h
      obtain ⟨tail, htail, rfl⟩ := map_eq_ok_iff.mp h
      rcases ih htail with ⟨before, g', after, states, rfl, hg', hstates, rfl⟩ |
        ⟨states, hnew, hstates, rfl⟩
      · exact .inl ⟨g :: before, g', after, states, rfl, hg', hstates, rfl⟩
      · refine .inr ⟨states, fun g' hg' => ?_, hstates, rfl⟩
        rcases List.mem_cons.mp hg' with rfl | hg'
        · exact Bool.eq_false_iff.mpr hk
        · exact hnew g' hg'

theorem exists_enter {fresh : List State} {key : List Cell}
    {change : List State → Except StateFault (List State)} {groups : List Group}
    (hfresh : ∃ states, change fresh = .ok states)
    (hheld : ∀ g ∈ groups, keysEqual g.key key = true → ∃ states, change g.states = .ok states) :
    ∃ result, enter fresh key change groups = .ok result := by
  induction groups with
  | nil =>
    obtain ⟨states, hstates⟩ := hfresh
    exact ⟨_, map_eq_ok_iff.mpr ⟨states, hstates, rfl⟩⟩
  | cons g rest ih =>
    rw [enter]
    by_cases hk : keysEqual g.key key = true
    · rw [if_pos hk]
      obtain ⟨states, hstates⟩ := hheld g List.mem_cons_self hk
      exact ⟨_, map_eq_ok_iff.mpr ⟨states, hstates, rfl⟩⟩
    · rw [if_neg hk]
      obtain ⟨tail, htail⟩ := ih fun g' hg' => hheld g' (List.mem_cons_of_mem g hg')
      exact ⟨_, map_eq_ok_iff.mpr ⟨tail, htail, rfl⟩⟩

/-! ## Room for totals -/

/-- No decimal total of so many values leaves the bits in which it is added. -/
def Plan.HasRoom (p : Plan) (n : Nat) : Prop :=
  ∀ m ∈ p.measures, ∀ vs : List Value, vs.length ≤ n → m.aggregate.InRange vs

namespace Plan.HasRoom

variable {p : Plan} {k n : Nat}

theorem of_lt (p : Plan) (h : n < 2 ^ 128) : p.HasRoom n :=
  fun m _ _ hvs => m.aggregate.inRange_of_length_lt (Nat.lt_of_le_of_lt hvs h)

theorem of_no_decimal (h : ∀ m ∈ p.measures, ∀ q s, m.aggregate ≠ .sumDecimal q s) :
    p.HasRoom n :=
  fun m hm _ _ q s heq => absurd heq (h m hm q s)

theorem mono (h : p.HasRoom n) (hk : k ≤ n) : p.HasRoom k :=
  fun m hm vs hvs => h m hm vs (Nat.le_trans hvs hk)

theorem allInRange {rows : List Row} (h : p.HasRoom rows.length) :
    AllInRange p.measures (columnOf rows) := by
  intro i m hm
  refine h m (List.mem_of_getElem? hm) _ ?_
  refine Nat.le_trans (m.aggregate.addends_length_le _) (Nat.le_of_eq ?_)
  rw [columnOf, List.length_map]

end Plan.HasRoom

/-! ## The invariant -/

structure Summarizes (p : Plan) (rows : List Row) (groups : List Group) : Prop where
  admits : ∀ r ∈ rows, p.Admits r
  represents : Represents p.keyTypes (groups.map (·.key)) rows
  digests : ∀ g ∈ groups,
    Columnwise Digests p.measures (columnOf (rowsWith g.key rows)) g.states

/-- A change that takes in `batch` whatever the states have taken in before. -/
def TakesIn (p : Plan) (batch : List Row)
    (change : List State → Except StateFault (List State)) : Prop :=
  ∀ rows states result, Columnwise Digests p.measures (columnOf rows) states →
    change states = .ok result →
      Columnwise Digests p.measures (columnOf (rows ++ batch)) result

/-- The change succeeds as long as there is room for what it takes in. -/
def CanTakeIn (p : Plan) (batch : List Row)
    (change : List State → Except StateFault (List State)) : Prop :=
  ∀ rows states, Columnwise Digests p.measures (columnOf rows) states →
    p.HasRoom (rows ++ batch).length → ∃ result, change states = .ok result

namespace Summarizes

variable {p : Plan} {rows more batch : List Row} {groups result : List Group}
  {key : List Cell} {change : List State → Except StateFault (List State)}

theorem nil (p : Plan) : Summarizes p [] [] where
  admits _ hr := nomatch hr
  represents := .nil p.keyTypes
  digests _ hg := nomatch hg

theorem holds_key (h : Summarizes p rows groups) {g : Group} (hg : g ∈ groups) :
    HoldsAll p.keyTypes g.key :=
  h.represents.holds_key (List.mem_map_of_mem hg)

theorem enter (h : Summarizes p rows groups) (hadmits : ∀ r ∈ batch, p.Admits r)
    (hb : Batch p.keyTypes key batch) (hchange : TakesIn p batch change)
    (he : enter p.start key change groups = .ok result) :
    Summarizes p (rows ++ batch) result := by
  have hother : ∀ g ∈ groups, keysEqual g.key key = false →
      Columnwise Digests p.measures (columnOf (rowsWith g.key (rows ++ batch))) g.states := by
    intro g hg hne
    rw [rowsWith_append, hb.rowsWith_eq_nil hne, List.append_nil]
    exact h.digests g hg
  refine ⟨fun r hr => ?_, ?_, ?_⟩
  · rcases List.mem_append.mp hr with hr | hr
    · exact h.admits r hr
    · exact hadmits r hr
  · have hkeys := keys_enter he
    have hany : groups.any (keysEqual ·.key key) = (groups.map (·.key)).any (keysEqual · key) := by
      rw [List.any_map]
      rfl
    rw [hkeys, hany]
    exact h.represents.enter hb
  · rcases enter_cases he with ⟨before, g, after, states, rfl, hgk, hstates, rfl⟩ |
      ⟨states, hnew, hstates, rfl⟩
    · -- The group that was hit is the only one whose class grows.
      have hdistinct := List.pairwise_map.mp h.represents.distinct
      obtain ⟨_, htail, hcross⟩ := List.pairwise_append.mp hdistinct
      intro g' hg'
      rcases List.mem_append.mp hg' with hmem | hmem
      · have hmem' := List.mem_append_left (g :: after) hmem
        refine hother g' hmem' ?_
        rw [← keysEqual_congr_right hgk]
        exact hcross g' hmem g List.mem_cons_self
      · rcases List.mem_cons.mp hmem with rfl | hmem
        · show Columnwise Digests p.measures (columnOf (rowsWith g.key (rows ++ batch))) states
          rw [rowsWith_append, hb.rowsWith_eq_self hgk]
          exact hchange _ _ _
            (h.digests g (List.mem_append_right before List.mem_cons_self)) hstates
        · have hmem' : g' ∈ before ++ g :: after :=
            List.mem_append_right before (List.mem_cons_of_mem g hmem)
          refine hother g' hmem' ?_
          rw [← keysEqual_congr_right hgk, keysEqual_comm]
          exact (List.pairwise_cons.mp htail).1 g' hmem
    · intro g' hg'
      rcases List.mem_append.mp hg' with hmem | hmem
      · exact hother g' hmem (hnew g' hmem)
      · obtain rfl := List.mem_singleton.mp hmem
        have hnone : rowsWith key rows = [] := by
          refine h.represents.rowsWith_eq_nil fun k hk => ?_
          obtain ⟨g, hg, rfl⟩ := List.mem_map.mp hk
          exact hnew g hg
        show Columnwise Digests p.measures (columnOf (rowsWith key (rows ++ batch))) states
        rw [rowsWith_append, hnone, hb.rowsWith_eq_self (keysEqual_refl key)]
        exact hchange [] _ _ (digests_start p) hstates

/-- A batch can enter wherever there is room for it. -/
theorem exists_enter (h : Summarizes p rows groups) (key : List Cell)
    (hchange : CanTakeIn p batch change) (hroom : p.HasRoom (rows ++ batch).length) :
    ∃ result, Rollup.enter p.start key change groups = .ok result := by
  have hclass (k : List Cell) : p.HasRoom (rowsWith k rows ++ batch).length := by
    have hle : (rowsWith k rows).length ≤ rows.length := List.length_filter_le _ _
    refine hroom.mono ?_
    simp only [List.length_append]
    omega
  have hfresh : ∃ states, change p.start = .ok states := by
    have hnone : p.HasRoom ([] ++ batch).length := hroom.mono (by simp)
    exact hchange [] p.start (digests_start p) hnone
  refine Rollup.exists_enter hfresh fun g hg _ => ?_
  exact hchange _ g.states (h.digests g hg) (hclass g.key)

/-- Groups of exact aggregates summarize their rows in any order. -/
theorem perm (hexact : ∀ m ∈ p.measures, m.aggregate.isReal = false) (hp : rows.Perm more)
    (h : Summarizes p rows groups) : Summarizes p more groups where
  admits r hr := h.admits r (hp.mem_iff.mpr hr)
  represents := h.represents.perm hp
  digests g hg := by
    obtain ⟨hlength, hdigests⟩ := h.digests g hg
    refine ⟨hlength, fun i m s hm hs => ?_⟩
    have hcolumn : (columnOf (rowsWith g.key rows) i).Perm (columnOf (rowsWith g.key more) i) :=
      (hp.filter _).map _
    exact (hdigests i m s hm hs).perm (hexact m (List.mem_of_getElem? hm))
      (m.aggregate.addends_perm hcolumn)

end Summarizes

/-! ## Rows -/

section

variable {p : Plan} {rows more : List Row} {groups result : List Group} {r : Row}

theorem admits_rowsWith (h : ∀ r ∈ rows, p.Admits r) (key : List Cell) :
    ∀ r ∈ rowsWith key rows, p.Admits r := by
  intro r hr
  exact h r (mem_rowsWith.mp hr).1

theorem takesIn_row (h : p.Admits r) :
    TakesIn p [r] fun states => Plan.takeValues p.measures states r.values := by
  intro rows states result hs ht
  rw [columnOf_append_funext]
  exact digests_takeValues hs h.values ht

theorem canTakeIn_row (h : p.Admits r) :
    CanTakeIn p [r] fun states => Plan.takeValues p.measures states r.values := by
  intro rows states hs hroom
  have hrange := hroom.allInRange
  rw [columnOf_append_funext] at hrange
  exact exists_takeValues hs h.values hrange

theorem Summarizes.takeRows (h : Summarizes p rows groups) (hadmits : ∀ r ∈ more, p.Admits r)
    (ht : p.takeRows groups more = .ok result) : Summarizes p (rows ++ more) result := by
  induction more generalizing rows groups with
  | nil =>
    cases ht
    exact (List.append_nil rows).symm ▸ h
  | cons r rest ih =>
    rw [Plan.takeRows] at ht
    split at ht
    · exact nomatch ht
    · rename_i groups' he
      have hr := hadmits r List.mem_cons_self
      have hnext := h.enter (List.forall_mem_singleton.mpr hr) (.singleton hr.key)
        (takesIn_row hr) he
      rw [List.append_cons]
      exact ih hnext (fun w hw => hadmits w (List.mem_cons_of_mem r hw)) ht

theorem Summarizes.exists_takeRows (h : Summarizes p rows groups)
    (hadmits : ∀ r ∈ more, p.Admits r) (hroom : p.HasRoom (rows ++ more).length) :
    ∃ result, p.takeRows groups more = .ok result := by
  induction more generalizing rows groups with
  | nil => exact ⟨groups, rfl⟩
  | cons r rest ih =>
    have hr := hadmits r List.mem_cons_self
    rw [List.append_cons] at hroom
    have hstep : p.HasRoom (rows ++ [r]).length := hroom.mono (by simp)
    obtain ⟨groups', he⟩ := h.exists_enter r.key (canTakeIn_row hr) hstep
    have hnext := h.enter (List.forall_mem_singleton.mpr hr) (.singleton hr.key)
      (takesIn_row hr) he
    obtain ⟨result, hresult⟩ := ih hnext (fun w hw => hadmits w (List.mem_cons_of_mem r hw)) hroom
    refine ⟨result, ?_⟩
    rw [Plan.takeRows, he]
    exact hresult

end

end Rollup
