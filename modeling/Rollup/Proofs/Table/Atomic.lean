import Rollup.Proofs.Table.Load

/-
Calls that do all or nothing.

Taking in what has passed the checks cannot fail while a ledger has room, so a call that
fails has failed its checks and changed nothing.  The checks of a feed look at the plan of
the ledger, not at what it has taken in.  A call that brings several rows needs room for all
of them: `Overdraft` is a ledger where one more row can be taken in, but not two.
-/

namespace Rollup

/-- The feeds that bring one row at most. -/
def Feed.isSingle : Feed → Bool
  | .row _ | .input _ => true
  | _ => false

theorem Plan.exists_of_accepted_single {p : Plan} {f : Feed} (hf : f.isSingle = true)
    {rows : List Row} (h : p.accepted f = .ok rows) : ∃ r, rows = [r] := by
  have hprepare {r : Row} (h : ((p.prepare r).map fun r => [r]) = .ok rows) :
      ∃ r, rows = [r] := by
    obtain ⟨w, _, rfl⟩ := map_eq_ok_iff.mp h
    exact ⟨w, rfl⟩
  cases f with
  | row r => exact hprepare h
  | input cells =>
    rw [accepted] at h
    split at h
    · cases h
    · exact hprepare h
  | _ => simp [Feed.isSingle] at hf

/-- A call with the outcome of its checks, that changes nothing if it fails. -/
structure Ledger.AllOrNothing {ρ : Type} (l : Ledger) (checked : Except TableFault ρ)
    (call : Except TableFault Unit × Ledger) : Prop where
  outcome : call.1 = checked.map fun _ => ()
  unchanged : ∀ e, call.1 = .error e → call.2 = l

namespace Ledger

variable {ρ : Type}

theorem allOrNothing_ok (l l' : Ledger) (r : ρ) : l.AllOrNothing (.ok r) (.ok (), l') where
  outcome := rfl
  unchanged e he := by cases he

theorem allOrNothing_error (l : Ledger) (e : TableFault) :
    l.AllOrNothing (.error e : Except TableFault ρ) (.error e, l) where
  outcome := rfl
  unchanged _ _ := rfl

end Ledger

namespace Life

/-- The plan that a ledger began with. -/
def plan : Life → Plan
  | .ofPlan p => p
  | .feed life _ | .merge life _ | .finish life | .finishChunk life => life.plan

theorem plan_ledger (life : Life) : life.ledger.plan = life.plan := by
  induction life with
  | ofPlan p => rfl
  | feed life f ih => exact (life.ledger.plan_feed f).trans ih
  | merge life other ih _ => exact (life.ledger.plan_merge other.ledger).trans ih
  | finish life ih => exact life.ledger.plan_finish.trans ih
  | finishChunk life ih => exact life.ledger.plan_finishChunk.trans ih

theorem load_feed {life : Life} {f : Feed} {rows : List Row}
    (h : life.plan.check life.isFinished f = .ok rows) :
    (life.feed f).load = life.load + weight rows := by
  rw [← plan_ledger, ← isFinished_ledger] at h
  rw [load, h]

theorem load_feed_le_of_isSingle (life : Life) {f : Feed} (hf : f.isSingle = true) :
    (life.feed f).load ≤ life.load + 1 := by
  rw [load]
  split
  · exact Nat.le_succ _
  · rename_i rows hrows
    obtain ⟨r, rfl⟩ := Plan.exists_of_accepted_single hf (Plan.check_eq_ok_iff.mp hrows).2
    have hweight : weight [r] ≤ 1 := by
      show (if _ then 1 else 0) + 0 ≤ 1
      split <;> decide
    exact Nat.add_le_add_left hweight _

theorem load_merge_le (life other : Life) : (life.merge other).load ≤ life.load + other.load := by
  rw [load]
  split
  · exact Nat.le_add_right ..
  · exact Nat.le_refl _

variable {life other : Life}

theorem feed_allOrNothing {f : Feed} (hroom : (life.feed f).load ≤ 2 ^ 128) :
    life.ledger.AllOrNothing (life.plan.check life.isFinished f) (life.ledger.feed f) := by
  rw [← plan_ledger, ← isFinished_ledger]
  have hload : life.load ≤ 2 ^ 128 := Nat.le_trans (life.load_le_load_feed f) hroom
  have hloaded := loaded_ledger hload
  cases hcheck : life.ledger.plan.check life.ledger.isFinished f with
  | ok rows =>
    obtain ⟨l, hfeed, _⟩ := exists_feed hloaded hroom hcheck
    rw [hfeed]
    exact Ledger.allOrNothing_ok _ _ _
  | error e =>
    rw [Ledger.feed_eq, hcheck]
    exact Ledger.allOrNothing_error _ _

theorem feed_isOk_iff {f : Feed} (hopen : life.isFinished = false)
    (hroom : (life.feed f).load ≤ 2 ^ 128) :
    (life.ledger.feed f).1 = .ok () ↔ ∃ rows, life.plan.accepted f = .ok rows := by
  rw [(feed_allOrNothing hroom).outcome, map_eq_ok_iff]
  simp only [Plan.check_eq_ok_iff, hopen, true_and, and_true]

theorem merge_allOrNothing (hroom : (life.merge other).load ≤ 2 ^ 128) :
    life.ledger.AllOrNothing (life.ledger.checkMerge other.ledger)
      (life.ledger.merge other.ledger) := by
  have hload : life.load ≤ 2 ^ 128 := Nat.le_trans (life.load_le_load_merge other) hroom
  have hloaded := loaded_ledger hload
  cases hcheck : life.ledger.checkMerge other.ledger with
  | ok groups =>
    have hother : other.load ≤ 2 ^ 128 := by
      rw [load, hcheck] at hroom
      exact Nat.le_trans (Nat.le_add_left ..) hroom
    obtain ⟨l, hmerge, _⟩ := exists_merge hloaded (loaded_ledger hother) hroom hcheck
    rw [hmerge]
    exact Ledger.allOrNothing_ok _ _ _
  | error e =>
    rw [Ledger.merge_eq, hcheck]
    exact Ledger.allOrNothing_error _ _

/-- A ledger that has taken in fewer than 2 ^ 128 rows with values does all of a call or
nothing: one more row always has room, and a batch, a chunk or another ledger has it if
the rows that it brings do.  So whether an open ledger accepts a row depends on the plan
and the row alone. -/
theorem calls_all_or_nothing (h : life.load < 2 ^ 128) :
    (∀ f, f.isSingle = true ∨ (life.feed f).load ≤ 2 ^ 128 →
      life.ledger.AllOrNothing (life.plan.check life.isFinished f) (life.ledger.feed f)) ∧
    (∀ other : Life, (life.merge other).load ≤ 2 ^ 128 →
      life.ledger.AllOrNothing (life.ledger.checkMerge other.ledger)
        (life.ledger.merge other.ledger)) ∧
    ∀ twin : Life, twin.load < 2 ^ 128 → twin.plan = life.plan →
      life.isFinished = false → twin.isFinished = false → ∀ f, f.isSingle = true →
        (life.ledger.feed f).1 = (twin.ledger.feed f).1 := by
  have hsingle {life : Life} (h : life.load < 2 ^ 128) {f : Feed} (hf : f.isSingle = true) :
      (life.feed f).load ≤ 2 ^ 128 :=
    Nat.le_trans (life.load_feed_le_of_isSingle hf) h
  refine ⟨fun f hf => ?_, fun other ho => merge_allOrNothing ho, ?_⟩
  · exact feed_allOrNothing (hf.elim (hsingle h) id)
  · intro twin htwin hplan hopen htopen f hf
    rw [(feed_allOrNothing (hsingle h hf)).outcome,
      (feed_allOrNothing (hsingle htwin hf)).outcome, hplan, hopen, htopen]

namespace Deposits

def plan : Plan where
  name := "AGGREGATE (id=1)"
  groupBy := []
  measures := [⟨{ function := "sum", argument := .decimal 38 0 }, .sumDecimal 38 0⟩]

def deposit : Feed := .input [some (.decimal ⟨.least 128, 38, 0⟩)]

def misfit : Feed := .row ⟨[], [some (.string "ten")]⟩

def account : Life := .feed (.ofPlan plan) deposit

end Deposits

theorem calls_all_or_nothing_deposits :
    Deposits.account.load < 2 ^ 128 ∧
      Deposits.account.ledger.AllOrNothing (Deposits.plan.check false Deposits.misfit)
        (Deposits.account.ledger.feed Deposits.misfit) ∧
      Deposits.account.ledger.AllOrNothing
        (Deposits.account.ledger.checkMerge (.ofPlan Deposits.plan))
        (Deposits.account.ledger.merge (.ofPlan Deposits.plan)) ∧
      (Deposits.account.ledger.feed Deposits.deposit).1 =
        ((Ledger.ofPlan Deposits.plan).feed Deposits.deposit).1 := by
  have hload : Deposits.account.load ≤ 0 + 1 :=
    load_feed_le_of_isSingle (.ofPlan Deposits.plan) (f := Deposits.deposit) rfl
  have h : Deposits.account.load < 2 ^ 128 := Nat.lt_of_le_of_lt hload (by decide)
  obtain ⟨hfeed, hmerge, htwin⟩ := calls_all_or_nothing h
  have hroom : (Deposits.account.merge (.ofPlan Deposits.plan)).load ≤ 2 ^ 128 :=
    Nat.le_trans (load_merge_le _ _) (Nat.le_trans (Nat.add_le_add_right hload 0) (by decide))
  exact ⟨h, hfeed Deposits.misfit (.inl rfl), hmerge (.ofPlan Deposits.plan) hroom,
    htwin (.ofPlan Deposits.plan) (by decide) rfl rfl rfl Deposits.deposit rfl⟩

/-! ## Without room -/

namespace Overdraft

open Aggregate (addDecimal wide)
open Ledger (Step takeCell takeState advance takeEntries_cons takeEntries_cons_error
  accumulate_eq)

def sum : Measure := ⟨{ function := "sum", argument := .decimal 38 0 }, .sumDecimal 38 0⟩

def plan : Plan where
  name := "AGGREGATE (id=1)"
  groupBy := []
  measures := [sum]

def least : Decimal := ⟨.least 128, 38, 0⟩

/-- The row that takes the most from the sum. -/
def row : Row := ⟨[], [some (.decimal least)]⟩

def drawn : Nat → Life
  | 0 => .ofPlan plan
  | n + 1 => .feed (drawn n) (.row row)

/-- There is room for one more row and no other. -/
def full : Life := drawn (2 ^ 128 - 1)

def rows : Feed := .rows [row, row]

def chunk : Feed := .chunk ⟨2, [⟨.decimal128 38 0, [some least.unscaled, some least.unscaled]⟩]⟩

theorem plan_drawn (n : Nat) : (drawn n).plan = plan := by
  induction n with
  | zero => rfl
  | succ n ih => exact ih

theorem isFinished_drawn (n : Nat) : (drawn n).isFinished = false := by
  induction n with
  | zero => rfl
  | succ n ih => exact ih

theorem load_drawn (n : Nat) : (drawn n).load = n := by
  induction n with
  | zero => rfl
  | succ n ih =>
    have hcheck : (drawn n).plan.check (drawn n).isFinished (.row row) = .ok [row] := by
      rw [plan_drawn, isFinished_drawn]
      rfl
    exact (load_feed hcheck).trans (congrArg (· + 1) ih)

theorem check_rows : plan.check false rows = .ok [row, row] := rfl

theorem check_chunk : plan.check false chunk = .ok [row, row] := rfl

/-! ## The one group -/

/-- The ledger whose only group has this sum. -/
def holding (x : Option (Signed 256)) : Ledger :=
  { (Ledger.ofPlan plan).add ⟨[]⟩ with phase := .accumulating, states := [[.decimal x]] }

theorem holding_ne {x y : Option (Signed 256)} (h : x ≠ y) : holding x ≠ holding y := by
  intro heq
  have hstates : [[State.decimal x]] = [[State.decimal y]] := congrArg Ledger.states heq
  simp only [List.cons.injEq, State.decimal.injEq, and_true] at hstates
  exact h hstates

theorem place_ofPlan : (Ledger.ofPlan plan).accumulating.place ⟨[]⟩ = (0, holding none) := by
  have hindex : (Ledger.ofPlan plan).accumulating.index[(⟨[]⟩ : GroupKey)]? = none :=
    Std.HashMap.getElem?_empty
  rw [Ledger.place, hindex]
  rfl

theorem place_holding (x : Option (Signed 256)) :
    (holding x).place ⟨[]⟩ = (0, holding x) := by
  have hindex : (holding x).index[(⟨[]⟩ : GroupKey)]? = some 0 :=
    Std.HashMap.getElem?_insert_self
  rw [Ledger.place, hindex]

/-- An entry that adds so much to the sum. -/
structure Adds {ι : Type} (step : Step ι) (e : Entry ι) (v : Signed 256) : Prop where
  key : e.key = ⟨[]⟩
  items : ∃ i, e.items = [i] ∧ ∀ x, step sum (.decimal x) i = addDecimal x v

theorem adds_row : Adds takeCell row.entry (wide least.unscaled) where
  key := rfl
  items := ⟨_, rfl, fun _ => rfl⟩

theorem adds_states (a : Signed 256) : Adds takeState ⟨⟨[]⟩, [.decimal (some a)]⟩ a where
  key := rfl
  items := by
    refine ⟨_, rfl, fun x => ?_⟩
    simp only [takeState, sum, Aggregate.merge, Aggregate.mergeSum, addDecimal,
      Option.getD_some, Option.isSome_some, Bool.or_true, if_true]

variable {ι : Type} {step : Step ι} {e : Entry ι} {l : Ledger} {x : Option (Signed 256)}
  {v a b : Signed 256}

theorem takeEntry_eq (he : Adds step e v) (hplan : l.plan = plan)
    (hplace : l.place ⟨[]⟩ = (0, holding x)) :
    l.takeEntry step e =
      match (x.getD .zero).add? v with
      | some total => (.ok (), holding (some total))
      | none => (.error .decimalSum, holding x) := by
  obtain ⟨i, hitems, hstep⟩ := he.items
  rw [Ledger.takeEntry, he.key, hplace, hplan, hitems]
  show ((advance step [sum] [.decimal x] [i]).1,
    (holding x).setStates 0 (advance step [sum] [.decimal x] [i]).2) = _
  simp only [advance, hstep, addDecimal]
  cases (x.getD .zero).add? v with
  | none => rfl
  | some total => rfl

theorem feed_eq {f : Feed} {rs : List Row} (hplan : l.plan = plan) (hopen : l.isFinished = false)
    (h : plan.check false f = .ok rs) :
    l.feed f = l.accumulate takeCell (rs.map Row.entry) := by
  rw [Ledger.feed_eq, hplan, hopen, h]

/-! ## All the room used -/

/-- The sum of so many rows. -/
def Draws (n : Nat) (a : Signed 256) : Prop := a.toInt = -(n * 2 ^ 127)

theorem draws_one : Draws 1 (wide least.unscaled) := rfl

theorem bound_eq : Nat.pow 2 (256 - 1) = 2 ^ 255 := rfl

variable {n k : Nat}

theorem Draws.exists_add (h : Draws n a) (hk : Draws k b) (hroom : n + k ≤ 2 ^ 128) :
    ∃ total, a.add? b = some total ∧ Draws (n + k) total := by
  unfold Draws at h hk
  have hrange : -(Nat.pow 2 (256 - 1) : Nat) ≤ a.toInt + b.toInt ∧
      a.toInt + b.toInt < (Nat.pow 2 (256 - 1) : Nat) := by
    rw [bound_eq]
    constructor <;> push_cast <;> omega
  refine ⟨_, Signed.add?_eq_some hrange, ?_⟩
  show a.toInt + b.toInt = _
  omega

theorem Draws.add_eq_none (h : Draws n a) (hk : Draws k b) (hroom : 2 ^ 128 < n + k) :
    a.add? b = none := by
  unfold Draws at h hk
  rw [Signed.add?, Signed.ofInt?, dif_neg]
  rw [bound_eq]
  intro hrange
  push_cast at hrange
  omega

/-- The sum after `n` rows, as long as there is room for them. -/
theorem ledger_drawn (hn : 1 ≤ n) (hroom : n ≤ 2 ^ 128) :
    ∃ a, (drawn n).ledger = holding (some a) ∧ Draws n a := by
  have hfeed {l : Ledger} {a : Signed 256} (hplan : l.plan = plan) (hopen : l.isFinished = false)
      (h : l.accumulating.takeEntry takeCell row.entry = (.ok (), holding (some a))) :
      (l.feed (.row row)).2 = holding (some a) := by
    rw [feed_eq hplan hopen (show plan.check false (.row row) = .ok [row] from rfl)]
    exact congrArg Prod.snd (accumulate_eq (takeEntries_cons h []))
  induction n, hn using Nat.le_induction with
  | base => exact ⟨_, hfeed rfl rfl (takeEntry_eq adds_row rfl place_ofPlan), draws_one⟩
  | succ n hn ih =>
    obtain ⟨a, hledger, ha⟩ := ih (by omega)
    obtain ⟨total, htotal, hnext⟩ := ha.exists_add draws_one hroom
    have htake := takeEntry_eq adds_row rfl (place_holding (some a))
    rw [Option.getD_some, htotal] at htake
    refine ⟨total, ?_, hnext⟩
    show ((drawn n).ledger.feed (.row row)).2 = _
    rw [hledger]
    exact hfeed rfl rfl htake

/-- Of two more rows the first is added and the second is refused. -/
theorem feed_of_draws (h : Draws (2 ^ 128 - 1) a) {f : Feed}
    (hf : plan.check false f = .ok [row, row]) :
    ((holding (some a)).feed f).1 = .error (.state .decimalSum) ∧
      ((holding (some a)).feed f).2 ≠ holding (some a) := by
  obtain ⟨total, htotal, hlast⟩ := h.exists_add draws_one (by decide)
  have hfirst := takeEntry_eq adds_row rfl (place_holding (some a))
  have hsecond := takeEntry_eq adds_row rfl (place_holding (some total))
  rw [Option.getD_some, htotal] at hfirst
  rw [Option.getD_some, hlast.add_eq_none draws_one (by decide)] at hsecond
  have htake := (takeEntries_cons hfirst [row.entry]).trans (takeEntries_cons_error hsecond [])
  have hne : total ≠ a := by
    rintro rfl
    unfold Draws at h hlast
    omega
  rw [feed_eq (l := holding (some a)) rfl rfl hf]
  rw [show [row, row].map Row.entry = [row.entry, row.entry] from rfl, accumulate_eq htake]
  exact ⟨rfl, holding_ne fun heq => hne (Option.some.inj heq)⟩

theorem merge_of_draws (h : Draws (2 ^ 128 - 1) a) (hb : Draws 2 b) :
    ((holding (some a)).merge (holding (some b))).1 = .error (.state .decimalSum) := by
  have htake := takeEntry_eq (adds_states b) rfl (place_holding (some a))
  rw [Option.getD_some, h.add_eq_none hb (by decide)] at htake
  show ((holding (some a)).accumulate takeState [⟨⟨[]⟩, [.decimal (some b)]⟩]).1 = _
  rw [accumulate_eq (takeEntries_cons_error htake [])]
  rfl

end Overdraft

/-- Where 2 ^ 128 - 1 rows have been taken in, a batch or a chunk of two more passes its checks
and fails at the second row, when the first has changed a state.  A ledger of two rows passes
its checks as well and cannot be merged. -/
theorem calls_all_or_nothing_overdraft :
    Overdraft.full.load < 2 ^ 128 ∧ Overdraft.full.isFinished = false ∧
      (∀ f ∈ [Overdraft.rows, Overdraft.chunk],
        Overdraft.full.plan.check false f = .ok [Overdraft.row, Overdraft.row] ∧
          (Overdraft.full.ledger.feed f).1 = .error (.state .decimalSum) ∧
          (Overdraft.full.ledger.feed f).2 ≠ Overdraft.full.ledger) ∧
      (∃ groups, Overdraft.full.ledger.checkMerge (Overdraft.drawn 2).ledger = .ok groups) ∧
      (Overdraft.full.ledger.merge (Overdraft.drawn 2).ledger).1 =
        .error (.state .decimalSum) := by
  unfold Overdraft.full
  obtain ⟨a, hfull, ha⟩ := Overdraft.ledger_drawn (n := 2 ^ 128 - 1) (by decide) (by decide)
  obtain ⟨b, htwo, hb⟩ := Overdraft.ledger_drawn (n := 2) (by decide) (by decide)
  rw [Overdraft.load_drawn, Overdraft.plan_drawn, hfull, htwo]
  refine ⟨by decide, Overdraft.isFinished_drawn _, ?_, ⟨_, rfl⟩, Overdraft.merge_of_draws ha hb⟩
  simp only [List.forall_mem_cons]
  exact ⟨⟨Overdraft.check_rows, Overdraft.feed_of_draws ha Overdraft.check_rows⟩,
    ⟨Overdraft.check_chunk, Overdraft.feed_of_draws ha Overdraft.check_chunk⟩,
    List.forall_mem_nil _⟩

end Life
end Rollup
