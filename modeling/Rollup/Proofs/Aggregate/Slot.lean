import Rollup.Aggregate.Slot
import Rollup.Proofs.Aggregate.Form

/-
Operations on running states that do all or nothing.

Every operation makes its checks before it writes, so a failure finds the slot as it was
(`IsAtomic`).  That holds of any slot and any aggregate, also where the two were never made
for each other.  On the slot of a state an operation leaves the slot of the state that it
makes (`outcome_program`).
-/

namespace Rollup

/-! ## Slots of states -/

namespace State

def slot : State → Slot
  | .integer sum => .integer ⟨sum.getD .zero, sum.isSome⟩
  | .double sum => .double ⟨sum.getD .zero, sum.isSome⟩
  | .decimal sum => .decimal ⟨sum.getD .zero, sum.isSome⟩
  | .extreme value => .extreme value

theorem state_slot (s : State) : s.slot.state = s := by
  cases s with
  | integer sum | double sum | decimal sum => cases sum <;> rfl
  | extreme value => rfl

end State

def Offer.map {σ τ : Type} (f : σ → τ) : Offer σ → Offer τ
  | .value c => .value c
  | .partialResult c => .partialResult c
  | .state other => .state (f other)

/-- The state that an offer makes of a state. -/
def Aggregate.accept (a : Aggregate) (s : State) : Offer State → Except StateFault State
  | .value c => a.update s c
  | .partialResult c => a.absorb s c
  | .state other => a.merge s other

namespace Slot

variable {s t u : Slot} {x : Program}

/-! ## Programs -/

/-- The layout stays, and so does having a value. -/
structure Keeps (s t : Slot) : Prop where
  layout : t.state.layout = s.state.layout
  hasValue : s.hasValue = true → t.hasValue = true

theorem keeps_refl (s : Slot) : s.Keeps s := ⟨rfl, id⟩

theorem Keeps.trans (h : s.Keeps t) (h' : t.Keeps u) : s.Keeps u :=
  ⟨h'.layout.trans h.layout, fun hs => h'.hasValue (h.hasValue hs)⟩

/-- A program that changes nothing if it fails. -/
structure IsAtomic (x : Program) (s : Slot) : Prop where
  unchanged : ∀ e t, x.outcome s = (.error e, t) → t = s
  keeps : ∀ t, x.outcome s = (.ok (), t) → s.Keeps t

theorem isAtomic_throw (e : StateFault) (s : Slot) : IsAtomic (throw e) s where
  unchanged _ _ h := (Prod.mk.inj h).2.symm
  keeps _ h := nomatch (Prod.mk.inj h).1

theorem isAtomic_of_ok (h : x.outcome s = (.ok (), t)) (hkeeps : s.Keeps t) : IsAtomic x s where
  unchanged _ _ herror := nomatch (Prod.mk.inj (h.symm.trans herror)).1
  keeps _ hok := (Prod.mk.inj (h.symm.trans hok)).2 ▸ hkeeps

theorem isAtomic_pure (s : Slot) : IsAtomic (pure ()) s := isAtomic_of_ok rfl s.keeps_refl

theorem outcome_get (f : Slot → Program) (s : Slot) :
    Program.outcome (get >>= f) s = (f s).outcome s :=
  rfl

/-- What a program looks at in its slot is no part of what it does to it. -/
theorem isAtomic_get {f : Slot → Program} (h : IsAtomic (f s) s) : IsAtomic (get >>= f) s :=
  ⟨h.unchanged, h.keeps⟩

/-- The outcome of making a state of another one, or of failing to. -/
def settled (s : Slot) : Except StateFault State → Except StateFault Unit × Slot
  | .ok t => (.ok (), t.slot)
  | .error e => (.error e, s)

/-! ## Sums -/

theorem isAtomic_writeInteger (r : Running (Signed 64)) (sum : Signed 64) {marked : Bool}
    (h : r.marked = true → marked = true) :
    IsAtomic (write .integer r sum marked) (.integer r) :=
  isAtomic_of_ok rfl ⟨rfl, h⟩

theorem isAtomic_writeDouble (r : Running Double) (sum : Double) {marked : Bool}
    (h : r.marked = true → marked = true) :
    IsAtomic (write .double r sum marked) (.double r) :=
  isAtomic_of_ok rfl ⟨rfl, h⟩

theorem isAtomic_addDecimal (r : Running (Signed 256)) (v : Signed 256) {marked : Bool}
    (h : r.marked = true → marked = true) : IsAtomic (addDecimal r v marked) (.decimal r) := by
  unfold addDecimal
  split
  · exact isAtomic_throw _ _
  · exact isAtomic_of_ok rfl ⟨rfl, h⟩

theorem isAtomic_addText (r : Running Double) (text : String) :
    IsAtomic (addText r text) (.double r) := by
  unfold addText
  split
  · exact isAtomic_pure _
  · exact isAtomic_writeDouble _ _ fun _ => rfl

theorem isAtomic_updateNormal (a : Aggregate) (v : Value) (s : Slot) :
    IsAtomic (updateNormal a v) s := by
  apply isAtomic_get
  split
  · exact isAtomic_writeInteger _ _ fun _ => rfl
  · exact isAtomic_writeDouble _ _ fun _ => rfl
  · exact isAtomic_writeDouble _ _ fun _ => rfl
  · exact isAtomic_addText _ _
  · exact isAtomic_addDecimal _ _ fun _ => rfl
  · exact isAtomic_throw _ _

theorem isAtomic_absorbNormal (a : Aggregate) (v : Value) (s : Slot) :
    IsAtomic (absorbNormal a v) s := by
  apply isAtomic_get
  split
  · exact isAtomic_writeInteger _ _ fun _ => rfl
  · exact isAtomic_writeDouble _ _ fun _ => rfl
  · exact isAtomic_writeDouble _ _ fun _ => rfl
  · exact isAtomic_writeDouble _ _ fun _ => rfl
  · exact isAtomic_addDecimal _ _ fun _ => rfl
  · exact isAtomic_throw _ _

theorem isAtomic_mergeSum (a : Aggregate) (other s : Slot) : IsAtomic (mergeSum a other) s := by
  have hmark {r m : Bool} (h : r = true) : (r || m) = true := by rw [h, Bool.true_or]
  apply isAtomic_get
  split
  · exact isAtomic_writeInteger _ _ hmark
  · exact isAtomic_writeDouble _ _ hmark
  · exact isAtomic_addDecimal _ _ hmark
  · exact isAtomic_throw _ _

theorem isAtomic_takeNormal {type : ColumnType} {v : Value} {take : Value → Program}
    (h : ∀ w, IsAtomic (take w) s) : IsAtomic (takeNormal type v take) s := by
  unfold takeNormal
  split
  · exact isAtomic_throw _ _
  · exact h _

/-! ## Extremes -/

theorem isAtomic_keepExtreme (side : Extreme) (held : Option Value) (v : Value) :
    IsAtomic (keepExtreme side held v) (.extreme held) := by
  unfold keepExtreme
  split
  · exact isAtomic_of_ok rfl ⟨rfl, fun _ => rfl⟩
  · split
    · exact isAtomic_throw _ _
    · split
      · exact isAtomic_of_ok rfl ⟨rfl, fun _ => rfl⟩
      · exact isAtomic_pure _

theorem isAtomic_updateExtreme (side : Extreme) (type : ColumnType) (v : Value) (s : Slot) :
    IsAtomic (updateExtreme side type v) s := by
  apply isAtomic_get
  split
  · exact isAtomic_takeNormal fun w => isAtomic_keepExtreme side _ w
  · exact isAtomic_throw _ _

theorem isAtomic_program (a : Aggregate) (o : Offer Slot) (s : Slot) :
    IsAtomic (a.program o) s := by
  unfold Aggregate.program
  split
  · exact isAtomic_pure s
  · exact isAtomic_pure s
  · split
    · exact isAtomic_updateExtreme _ _ _ s
    · exact isAtomic_takeNormal fun w => isAtomic_updateNormal a w s
  · split
    · exact isAtomic_updateExtreme _ _ _ s
    · exact isAtomic_takeNormal fun w => isAtomic_absorbNormal a w s
  · split
    · split
      · exact isAtomic_pure s
      · exact isAtomic_updateExtreme _ _ _ s
      · exact isAtomic_throw _ s
    · exact isAtomic_mergeSum a _ s

/-! ## On the slots of states -/

theorem outcome_addText (sum : Option Double) (text : String) :
    (addText ⟨sum.getD .zero, sum.isSome⟩ text).outcome (State.double sum).slot =
      settled (State.double sum).slot
        (Aggregate.sumString.updateNormal (.double sum) (.string text)) := by
  simp only [addText, Aggregate.updateNormal]
  cases Binary.ofText? text <;> rfl

theorem outcome_addDecimal (sum : Option (Signed 256)) (v : Signed 256) :
    (addDecimal ⟨sum.getD .zero, sum.isSome⟩ v true).outcome (State.decimal sum).slot =
      settled (State.decimal sum).slot (Aggregate.addDecimal sum v) := by
  unfold addDecimal Aggregate.addDecimal
  cases (sum.getD .zero).add? v <;> rfl

theorem outcome_updateNormal (a : Aggregate) (s : State) (v : Value) :
    (updateNormal a v).outcome s.slot = settled s.slot (a.updateNormal s v) := by
  rw [updateNormal, outcome_get]
  cases a with
  | sumString =>
    cases s with
    | double sum =>
      cases v with
      | string text => exact outcome_addText sum text
      | _ => rfl
    | _ => rfl
  | sumDecimal p sc =>
    cases s with
    | decimal sum =>
      cases v with
      | decimal d => exact outcome_addDecimal sum (Aggregate.wide d.unscaled)
      | _ => rfl
    | _ => rfl
  | _ => cases s <;> cases v <;> rfl

theorem outcome_absorbNormal (a : Aggregate) (s : State) (v : Value) :
    (absorbNormal a v).outcome s.slot = settled s.slot (a.absorbNormal s v) := by
  rw [absorbNormal, outcome_get]
  cases a with
  | sumDecimal p sc =>
    cases s with
    | decimal sum =>
      cases v with
      | decimal d => exact outcome_addDecimal sum (Aggregate.wide d.unscaled)
      | _ => rfl
    | _ => rfl
  | _ => cases s <;> cases v <;> rfl

theorem outcome_takeNormal {type : ColumnType} {s : State} {take : Value → Program}
    {step : Value → Except StateFault State}
    (h : ∀ w, (take w).outcome s.slot = settled s.slot (step w)) (v : Value) :
    (takeNormal type v take).outcome s.slot = settled s.slot
      (match type.normalize v with
        | .error e => .error (.value e)
        | .ok w => step w) := by
  unfold takeNormal
  cases type.normalize v with
  | error e => rfl
  | ok w => exact h w

/-- Two sums of which neither was marked add up to the zero of a sum that is not marked. -/
theorem combine_eq {α : Type} {zero : α} {add : α → α → α} (hzero : add zero zero = zero)
    (x y : Option α) :
    (⟨add (x.getD zero) (y.getD zero), x.isSome || y.isSome⟩ : Running α) =
      ⟨(Aggregate.combine zero add x y).getD zero, (Aggregate.combine zero add x y).isSome⟩ := by
  cases x with
  | none =>
    cases y with
    | none => exact congrArg (Running.mk · false) hzero
    | some => rfl
  | some => cases y <;> rfl

theorem outcome_mergeDecimal (a : Aggregate) (x y : Option (Signed 256)) :
    (addDecimal ⟨x.getD .zero, x.isSome⟩ (y.getD .zero) (x.isSome || y.isSome)).outcome
        (State.decimal x).slot =
      settled (State.decimal x).slot (a.mergeSum (.decimal x) (.decimal y)) := by
  have hzero : (Signed.zero : Signed 256).add? .zero = some .zero := rfl
  unfold addDecimal Aggregate.mergeSum
  cases x with
  | none =>
    cases y with
    | none =>
      simp only [Option.getD_none, hzero]
      rfl
    | some y =>
      simp only [Option.getD_none, Option.getD_some]
      cases Signed.zero.add? y <;> rfl
  | some x =>
    simp only [Option.getD_some]
    cases x.add? (y.getD .zero) <;> rfl

theorem outcome_foreign (a : Aggregate) (s other : State) :
    Program.outcome (throw (.foreign a other.slot.state)) s.slot =
      settled s.slot (.error (.foreign a other)) := by
  rw [State.state_slot]
  rfl

theorem outcome_mergeSum (a : Aggregate) (s other : State) :
    (mergeSum a other.slot).outcome s.slot = settled s.slot (a.mergeSum s other) := by
  have hmerged {r t : Slot} (h : r = t) :
      ((.ok (), r) : Except StateFault Unit × Slot) = (.ok (), t) := congrArg (Prod.mk _) h
  cases s with
  | integer x =>
    cases other with
    | integer y =>
      have hzero : (Signed.zero : Signed 64).addWrap .zero = .zero := Signed.wrap_zero
      exact hmerged (congrArg Slot.integer (combine_eq hzero x y))
    | _ => exact outcome_foreign a _ _
  | double x =>
    cases other with
    | double y =>
      have hzero : (Binary.zero : Double).add .zero = .zero := by decide
      exact hmerged (congrArg Slot.double (combine_eq hzero x y))
    | _ => exact outcome_foreign a _ _
  | decimal x =>
    cases other with
    | decimal y => exact outcome_mergeDecimal a x y
    | _ => exact outcome_foreign a _ _
  | extreme => exact outcome_foreign a _ _

theorem outcome_keepExtreme (side : Extreme) (held : Option Value) (v : Value) :
    (keepExtreme side held v).outcome (State.extreme held).slot =
      settled (State.extreme held).slot (Aggregate.keepExtreme side held v) := by
  unfold keepExtreme Aggregate.keepExtreme
  cases held with
  | none => rfl
  | some current =>
    dsimp only
    cases v.compare? current with
    | none => rfl
    | some o =>
      dsimp only
      split <;> rfl

theorem outcome_updateExtreme (side : Extreme) (type : ColumnType) (s : State) (v : Value) :
    (updateExtreme side type v).outcome s.slot =
      settled s.slot (Aggregate.updateExtreme side type s v) := by
  cases s with
  | extreme held => exact outcome_takeNormal (fun w => outcome_keepExtreme side held w) v
  | _ => rfl

theorem outcome_program (a : Aggregate) (o : Offer State) (s : State) :
    (a.program (o.map State.slot)).outcome s.slot = settled s.slot (a.accept s o) := by
  cases o with
  | value c =>
    cases c with
    | none => rfl
    | some v =>
      cases a with
      | extreme side type => exact outcome_updateExtreme side type s v
      | _ => exact outcome_takeNormal (fun w => outcome_updateNormal _ s w) v
  | partialResult c =>
    cases c with
    | none => rfl
    | some v =>
      cases a with
      | extreme side type => exact outcome_updateExtreme side type s v
      | _ => exact outcome_takeNormal (fun w => outcome_absorbNormal _ s w) v
  | state other =>
    cases a with
    | extreme side type =>
      cases other with
      | extreme value =>
        cases value with
        | none => rfl
        | some v => exact outcome_updateExtreme side type s v
      | _ => exact outcome_foreign _ _ _
    | _ => exact outcome_mergeSum _ s other

/-! ## Any calls -/

/-- The slot after calls of any aggregates, whether or not they failed. -/
def run (s : Slot) : List (Aggregate × Offer Slot) → Slot
  | [] => s
  | call :: rest => ((call.1.program call.2).outcome s).2.run rest

theorem IsAtomic.keeps_outcome (h : IsAtomic x s) : s.Keeps (x.outcome s).2 := by
  cases hx : x.outcome s with
  | mk result t =>
    cases result with
    | error e => exact h.unchanged e t hx ▸ s.keeps_refl
    | ok => exact h.keeps t hx

theorem keeps_run (s : Slot) (calls : List (Aggregate × Offer Slot)) : s.Keeps (s.run calls) := by
  induction calls generalizing s with
  | nil => exact s.keeps_refl
  | cons call rest ih => exact (isAtomic_program call.1 call.2 s).keeps_outcome.trans (ih _)

/-- An operation of any aggregate on any slot changes nothing if it fails, and otherwise
keeps the layout and never loses a value; a missing value changes nothing.  So the layout
and having a value outlast all calls.  The states are kept in this way: the slot of a state
is left as the slot of the state that comes after it. -/
theorem operations_atomic (a : Aggregate) :
    (∀ (o : Offer Slot) (s : Slot), IsAtomic (a.program o) s) ∧
    (∀ s : Slot, (a.program (.value none)).outcome s = (.ok (), s) ∧
      (a.program (.partialResult none)).outcome s = (.ok (), s)) ∧
    (∀ (s : Slot) (calls : List (Aggregate × Offer Slot)), s.Keeps (s.run calls)) ∧
    ∀ (o : Offer State) (s : State),
      (a.program (o.map State.slot)).outcome s.slot = settled s.slot (a.accept s o) :=
  ⟨isAtomic_program a, fun _ => ⟨rfl, rfl⟩, keeps_run, outcome_program a⟩

end Slot
end Rollup
