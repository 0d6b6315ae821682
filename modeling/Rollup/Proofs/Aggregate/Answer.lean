import Mathlib.Algebra.BigOperators.Group.List.Basic
import Mathlib.Algebra.Ring.Int.Defs
import Mathlib.Algebra.Ring.Nat
import Rollup.Aggregate.Accumulator
import Rollup.Proofs.Value.Order

/-
What an aggregate answers, stated without running states.

`Aggregate.addends` are the values that a column of cells contributes, and `Answers` relates
them to the result: the wrapped or exact total, the fold of additions in order of arrival,
or a value that none of the others precedes.
-/

namespace Rollup

namespace Value

/-- What a value counts for in an exact sum: an integer itself, a decimal without its
point. -/
def units : Value → Int
  | .integer i => i.toInt
  | .decimal d => d.unscaled.toInt
  | _ => 0

/-- What a value counts for in a sum of binary numbers. -/
def real : Value → Double
  | .float x => x.toDouble
  | .double x => x
  | _ => .zero

theorem units_natAbs_le (v : Value) : v.units.natAbs ≤ 2 ^ 127 := by
  have h64 : Nat.pow 2 (64 - 1) = 2 ^ 63 := rfl
  have h128 : Nat.pow 2 (128 - 1) = 2 ^ 127 := rfl
  cases v with
  | integer i =>
    have hl := i.lower
    have hu := i.upper
    show i.toInt.natAbs ≤ _
    omega
  | decimal d =>
    have hl := d.unscaled.lower
    have hu := d.unscaled.upper
    show d.unscaled.toInt.natAbs ≤ _
    omega
  | _ => exact Nat.zero_le _

end Value

/-- Whether the first of two values is the one to keep. -/
def Extreme.Before : Extreme → Value → Value → Prop
  | .min, v, w => v.AtMost w
  | .max, v, w => w.AtMost v

namespace Extreme

variable {side : Extreme} {type : ColumnType} {u v w : Value}

theorem before_refl (hv : type.Holds v) : side.Before v v := by
  cases side <;> exact hv.atMost_refl

theorem before_trans (hu : type.Holds u) (hv : type.Holds v) (hw : type.Holds w)
    (huv : side.Before u v) (hvw : side.Before v w) : side.Before u w := by
  cases side with
  | min => exact hu.atMost_trans hv hw huv hvw
  | max => exact hw.atMost_trans hv hu hvw huv

theorem before_antisymm (hv : type.Holds v) (hw : type.Holds w) (hvw : side.Before v w)
    (hwv : side.Before w v) : v = w := by
  cases side with
  | min => exact hv.atMost_antisymm hw hvw hwv
  | max => exact hv.atMost_antisymm hw hwv hvw

end Extreme

namespace Aggregate

def total (vs : List Value) : Int := (vs.map Value.units).sum

def realTotal (vs : List Value) : Double := vs.foldl (fun sum v => sum.add v.real) .zero

theorem total_append (vs ws : List Value) : total (vs ++ ws) = total vs + total ws := by
  rw [total, List.map_append, List.sum_append]
  rfl

theorem total_perm {vs ws : List Value} (h : vs.Perm ws) : total vs = total ws :=
  (h.map Value.units).sum_eq

theorem total_natAbs_le (vs : List Value) : (total vs).natAbs ≤ vs.length * 2 ^ 127 := by
  induction vs with
  | nil => exact Nat.zero_le _
  | cons v rest ih =>
    have hv := v.units_natAbs_le
    rw [show total (v :: rest) = v.units + total rest from List.sum_cons, List.length_cons]
    omega

/-! ## Contributions -/

/-- The value that a cell's value adds.  A string stands for the number it reads as, and for
nothing if it does not read as one. -/
def addend? : Aggregate → Value → Option Value
  | .sumString, .string text => (Binary.ofText? text).map .double
  | _, v => some v

/-- What the cells of a column contribute, in the order of the cells. -/
def addends (a : Aggregate) (cells : List Cell) : List Value :=
  cells.filterMap fun c => c.bind a.addend?

theorem addends_append (a : Aggregate) (cells more : List Cell) :
    a.addends (cells ++ more) = a.addends cells ++ a.addends more :=
  List.filterMap_append

theorem addends_length_le (a : Aggregate) (cells : List Cell) :
    (a.addends cells).length ≤ cells.length :=
  List.length_filterMap_le _ _

theorem addends_perm (a : Aggregate) {cells more : List Cell} (h : cells.Perm more) :
    (a.addends cells).Perm (a.addends more) :=
  h.filterMap _

/-- Sums in a binary format depend on the order of their addends. -/
def isReal : Aggregate → Bool
  | .sumFloat | .sumDouble | .sumString => true
  | _ => false

/-- An extreme is taken of values of its own type. -/
def Admits (a : Aggregate) (vs : List Value) : Prop :=
  ∀ side type, a = .extreme side type → ∀ v ∈ vs, type.Holds v

theorem admits_addends {a : Aggregate} {ofPartials : Bool} {cells : List Cell}
    (h : ∀ c ∈ cells, (a.expects ofPartials).HoldsCell c) : a.Admits (a.addends cells) := by
  rintro side type rfl v hv
  obtain ⟨c, hc, hcv⟩ := List.mem_filterMap.mp hv
  have hexpects : (Aggregate.extreme side type).expects ofPartials = type := by
    cases ofPartials <;> rfl
  rw [hexpects] at h
  cases c with
  | none => exact nomatch hcv
  | some w => exact h _ hc v hcv

/-! ## Answers -/

/-- The result for the values that contributed: nothing when there are none, and nothing
either for a decimal total with more digits than the result type has. -/
inductive Answers : Aggregate → List Value → Cell → Prop where
  | missing (a : Aggregate) : Answers a [] none
  | integer {width : IntWidth} {vs : List Value} (nonempty : vs ≠ []) :
      Answers (.sumInteger width) vs (some (.integer (.wrap (total vs))))
  | real {a : Aggregate} {vs : List Value} (isReal : a.isReal = true) (nonempty : vs ≠ []) :
      Answers a vs (some (.double (realTotal vs)))
  | decimal {p : Nat} {s : Int} {vs : List Value} (v : Signed 128) (nonempty : vs ≠ [])
      (exact : v.toInt = total vs) (fits : (total vs).natAbs < 10 ^ min (p + 10) 38) :
      Answers (.sumDecimal p s) vs (some (.decimal ⟨v, min (p + 10) 38, s⟩))
  | exceeding {p : Nat} {s : Int} {vs : List Value} (nonempty : vs ≠ [])
      (exceeds : 10 ^ min (p + 10) 38 ≤ (total vs).natAbs) :
      Answers (.sumDecimal p s) vs none
  | extreme {side : Extreme} {type : ColumnType} {vs : List Value} {v : Value} (mem : v ∈ vs)
      (before : ∀ w ∈ vs, side.Before v w) : Answers (.extreme side type) vs (some v)

namespace Answers

variable {a : Aggregate} {vs ws : List Value} {c d : Cell}

/-- At most one result is right. -/
theorem unique (hvs : a.Admits vs) (hc : Answers a vs c) (hd : Answers a vs d) : c = d := by
  cases hc with
  | missing =>
    cases hd with
    | missing => rfl
    | extreme mem => exact nomatch mem
    | real _ h | integer h | decimal _ h | exceeding h => exact absurd rfl h
  | integer h =>
    cases hd with
    | missing => exact absurd rfl h
    | integer => rfl
    | real hr => exact nomatch hr
  | real hr h =>
    cases hd with
    | missing => exact absurd rfl h
    | real => rfl
    | _ => exact nomatch hr
  | decimal v h hv hf =>
    cases hd with
    | missing => exact absurd rfl h
    | real hr => exact nomatch hr
    | decimal w _ hw => rw [Signed.ext (hv.trans hw.symm)]
    | exceeding _ he => omega
  | exceeding h he =>
    cases hd with
    | missing | exceeding => rfl
    | real hr => exact nomatch hr
    | decimal _ _ _ hf => omega
  | extreme hv hbefore =>
    cases hd with
    | missing => exact nomatch hv
    | real hr => exact nomatch hr
    | extreme hw hbefore' =>
      have holds := hvs _ _ rfl
      exact congrArg some (Extreme.before_antisymm (holds _ hv) (holds _ hw)
        (hbefore _ hw) (hbefore' _ hv))

/-- Exact sums and extremes do not depend on the order of arrival. -/
theorem perm (ha : a.isReal = false) (h : vs.Perm ws) (hc : Answers a vs c) :
    Answers a ws c := by
  have nonempty (hvs : vs ≠ []) : ws ≠ [] := fun hws => hvs (h.trans (hws ▸ .refl _)).eq_nil
  cases hc with
  | missing => exact h.nil_eq ▸ missing a
  | integer hvs => exact total_perm h ▸ integer (nonempty hvs)
  | real hr => exact absurd (ha.symm.trans hr) (by decide)
  | decimal v hvs hv hf =>
    rw [total_perm h] at hv hf
    exact decimal v (nonempty hvs) hv hf
  | exceeding hvs he => exact exceeding (nonempty hvs) (total_perm h ▸ he)
  | extreme hv hbefore =>
    exact extreme (h.mem_iff.mp hv) fun w hw => hbefore w (h.mem_iff.mpr hw)

theorem holdsCell (hvs : a.Admits vs) (hc : Answers a vs c) : a.output.HoldsCell c := by
  cases hc with
  | missing | exceeding => exact ColumnType.holdsCell_none _
  | integer => exact ColumnType.holdsCell_some (.integer (IntWidth.holds_big _))
  | real hr =>
    cases a with
    | sumFloat | sumDouble | sumString => exact ColumnType.holdsCell_some (.double _)
    | _ => exact nomatch hr
  | decimal v => exact ColumnType.holdsCell_some (.decimal _ _ v)
  | extreme hv => exact ColumnType.holdsCell_some (hvs _ _ rfl _ hv)

end Answers
end Aggregate
end Rollup
