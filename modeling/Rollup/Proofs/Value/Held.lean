import Mathlib.Data.List.Forall2
import Rollup.Value.Normal

/-
The values that columns of a declared type have once they are normal.

`ColumnType.Holds` lists them family by family.  Normalization produces only such values
and leaves them alone, so a value that has been checked once passes every later check.
-/

namespace Rollup

namespace Decimal

theorem rescale_self (v : Signed 128) (s : Int) : rescale v s s = .ok v := by
  rw [rescale, if_neg (Int.lt_irrefl s), Int.sub_self]
  rfl

end Decimal

namespace IntWidth

theorem holds_iff {width : IntWidth} {i : Int} :
    width.holds i = true ↔
      -(Nat.pow 2 (width.bits - 1) : Nat) ≤ i ∧ i < (Nat.pow 2 (width.bits - 1) : Nat) := by
  rw [holds, Bool.and_eq_true, decide_eq_true_eq, decide_eq_true_eq]

theorem holds_big (i : Signed 64) : IntWidth.big.holds i.toInt = true :=
  holds_iff.mpr ⟨i.lower, i.upper⟩

end IntWidth

namespace ColumnType

/-- A decimal carries the precision and the scale of its column.  No value belongs to a
complex type. -/
inductive Holds : ColumnType → Value → Prop where
  | integer {width : IntWidth} {i : Signed 64} (inRange : width.holds i.toInt = true) :
      Holds (.integer width) (.integer i)
  | decimal (p : Nat) (s : Int) (v : Signed 128) : Holds (.decimal p s) (.decimal ⟨v, p, s⟩)
  | float (x : Single) : Holds .float (.float x)
  | double (x : Double) : Holds .double (.double x)
  | string (s : String) : Holds .string (.string s)
  | boolean (b : Bool) : Holds .boolean (.boolean b)
  | timestamp (p : Nat) (t : Timestamp) : Holds (.timestamp p) (.timestamp t)
  | date (d : Date) : Holds .date (.date d)
  | binary (bytes : List UInt8) : Holds .binary (.binary bytes)

theorem Holds.of_normalize {type : ColumnType} {v w : Value} (h : type.normalize v = .ok w) :
    type.Holds w := by
  unfold normalize at h
  split at h
  case h_1 width i =>
    split at h
    · rename_i hi
      cases h
      exact .integer hi
    · exact nomatch h
  case h_2 p s d =>
    split at h
    · cases h
      exact .decimal p s _
    · exact nomatch h
  all_goals cases h
  all_goals constructor

theorem Holds.normalize_eq {type : ColumnType} {v : Value} (h : type.Holds v) :
    type.normalize v = .ok v := by
  cases h with
  | integer inRange => rw [normalize, if_pos inRange]
  | decimal p s v => simp only [normalize, Decimal.rescale_self]
  | _ => rfl

/-! ## Cells -/

def HoldsCell (type : ColumnType) (c : Cell) : Prop := ∀ v, c = some v → type.Holds v

theorem holdsCell_none (type : ColumnType) : type.HoldsCell none :=
  fun _ h => nomatch h

theorem holdsCell_some {type : ColumnType} {v : Value} (h : type.Holds v) :
    type.HoldsCell (some v) := by
  intro w hw
  cases hw
  exact h

theorem HoldsCell.of_normalizeCell {type : ColumnType} {c d : Cell}
    (h : type.normalizeCell c = .ok d) : type.HoldsCell d := by
  cases c with
  | none =>
    cases h
    exact holdsCell_none type
  | some v =>
    cases hv : type.normalize v with
    | error e => simp [normalizeCell, hv, Except.map] at h
    | ok w =>
      have hd : d = some w := by simpa [normalizeCell, hv, Except.map] using h.symm
      exact hd ▸ holdsCell_some (.of_normalize hv)

theorem HoldsCell.normalizeCell_eq {type : ColumnType} {c : Cell} (h : type.HoldsCell c) :
    type.normalizeCell c = .ok c := by
  cases c with
  | none => rfl
  | some v => rw [normalizeCell, (h v rfl).normalize_eq]; rfl

/-- The cells of a row of columns, each in the form its column has. -/
def HoldsAll (types : List ColumnType) (cells : List Cell) : Prop :=
  List.Forall₂ HoldsCell types cells

end ColumnType

/-! ## Properties -/

namespace Cell

/-- A missing value, or one with the property. -/
def Satisfies (P : Value → Prop) (c : Cell) : Prop := ∀ v, c = some v → P v

variable {P : Value → Prop} {v : Value}

theorem satisfies_none (P : Value → Prop) : Satisfies P none :=
  fun _ h => nomatch h

theorem satisfies_some : Satisfies P (some v) ↔ P v :=
  ⟨fun h => h v rfl, fun h _ hv => Option.some.inj hv ▸ h⟩

end Cell

/-- Cells with a property that depends on the column, place by place. -/
def SatisfyAll (P : ColumnType → Value → Prop) (types : List ColumnType) (cells : List Cell) :
    Prop :=
  List.Forall₂ (fun type c => Cell.Satisfies (P type) c) types cells

theorem satisfyAll_of_forall {P : ColumnType → Value → Prop} {types : List ColumnType}
    {cells : List Cell} (hlength : types.length = cells.length)
    (h : ∀ type ∈ types, ∀ v, P type v) : SatisfyAll P types cells := by
  induction types generalizing cells with
  | nil =>
    rw [List.eq_nil_of_length_eq_zero hlength.symm]
    exact .nil
  | cons type types ih =>
    cases cells with
    | nil => exact nomatch hlength
    | cons c cells =>
      obtain ⟨hhead, htail⟩ := List.forall_mem_cons.mp h
      exact .cons (fun v _ => hhead v) (ih (Nat.succ.inj hlength) htail)

end Rollup
