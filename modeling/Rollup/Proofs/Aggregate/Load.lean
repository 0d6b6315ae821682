import Rollup.Proofs.Aggregate.Digest

/-
What states can hold after so many values.

`Bears a n s` asks of a state only what keeps the next step from failing: it has the form of
its aggregate, an extreme is a value of the argument's type, and a sum of decimals is within
what `n` of them add up to.  It holds after any mix of updates, partial results and merges,
real sums included, and 2 ^ 128 decimals still fit the bits in which they are added.
-/

namespace Rollup

/-- What `n` unscaled values can add up to. -/
def Signed.Within (n : Nat) (i : Int) : Prop := -(n * 2 ^ 127 : Int) ≤ i ∧ i ≤ n * (2 ^ 127 - 1)

namespace Signed

theorem within_zero : Within 0 0 := ⟨Int.le_refl 0, Int.le_refl 0⟩

theorem within_one (v : Signed 128) : Within 1 v.toInt := by
  have hl := v.lower
  have hu := v.upper
  rw [show Nat.pow 2 (128 - 1) = 2 ^ 127 from rfl] at hl hu
  constructor <;> omega

theorem Within.mono {n k : Nat} {i : Int} (h : Within n i) (hk : n ≤ k) : Within k i := by
  obtain ⟨hl, hu⟩ := h
  constructor <;> omega

theorem Within.add {n k : Nat} {i j : Int} (hi : Within n i) (hj : Within k j) :
    Within (n + k) (i + j) := by
  obtain ⟨hil, hiu⟩ := hi
  obtain ⟨hjl, hju⟩ := hj
  constructor <;> push_cast <;> omega

theorem add?_eq_some {bits : Nat} {a b : Signed bits}
    (h : -(Nat.pow 2 (bits - 1) : Nat) ≤ a.toInt + b.toInt ∧
      a.toInt + b.toInt < (Nat.pow 2 (bits - 1) : Nat)) :
    a.add? b = some ⟨a.toInt + b.toInt, h.1, h.2⟩ := by
  rw [add?, ofInt?, dif_pos h]

/-- The least of all sums of 2 ^ 128 values is the least that 256 bits hold. -/
theorem Within.exists_add? {n k : Nat} {x y : Signed 256} (hx : Within n x.toInt)
    (hy : Within k y.toInt) (hroom : n + k ≤ 2 ^ 128) :
    ∃ total, x.add? y = some total ∧ Within (n + k) total.toInt := by
  have hsum := hx.add hy
  obtain ⟨hl, hu⟩ := hsum
  have hrange : -(Nat.pow 2 (256 - 1) : Nat) ≤ x.toInt + y.toInt ∧
      x.toInt + y.toInt < (Nat.pow 2 (256 - 1) : Nat) := by
    rw [show Nat.pow 2 (256 - 1) = 2 ^ 255 from rfl]
    constructor <;> push_cast at * <;> omega
  exact ⟨_, add?_eq_some hrange, hx.add hy⟩

end Signed

namespace Aggregate

open Signed (Within)

inductive Bears : Aggregate → Nat → State → Prop where
  | integer (width : IntWidth) (n : Nat) (sum : Option (Signed 64)) :
      Bears (.sumInteger width) n (.integer sum)
  | real {a : Aggregate} (isReal : a.isReal = true) (n : Nat) (sum : Option Double) :
      Bears a n (.double sum)
  | decimal {p n : Nat} {s : Int} {sum : Option (Signed 256)}
      (within : Within n (sum.getD .zero).toInt) : Bears (.sumDecimal p s) n (.decimal sum)
  | extreme {side : Extreme} {type : ColumnType} {n : Nat} {value : Option Value}
      (holds : type.HoldsCell value) : Bears (.extreme side type) n (.extreme value)

theorem bears_start (a : Aggregate) : a.Bears 0 a.start := by
  cases a with
  | sumInteger width => exact .integer width 0 none
  | sumFloat | sumDouble | sumString => exact .real rfl 0 none
  | sumDecimal p s => exact .decimal Signed.within_zero
  | extreme side type => exact .extreme (ColumnType.holdsCell_none type)

namespace Bears

variable {a : Aggregate} {n k : Nat} {s o : State}

theorem mono (h : a.Bears n s) (hk : n ≤ k) : a.Bears k s := by
  cases h with
  | integer width n sum => exact .integer width k sum
  | real isReal n sum => exact .real isReal k sum
  | decimal within => exact .decimal (within.mono hk)
  | extreme holds => exact .extreme holds

/-! ## Taking values in -/

theorem addDecimal {p : Nat} {sc : Int} {sum : Option (Signed 256)} (d : Decimal)
    (h : Within n (sum.getD .zero).toInt) (hk : 1 ≤ k) (hroom : n + k ≤ 2 ^ 128) :
    ∃ t, Aggregate.addDecimal sum (wide d.unscaled) = .ok t ∧
      Bears (.sumDecimal p sc) (n + k) t := by
  have hvalue : Within k (wide d.unscaled).toInt := (Signed.within_one d.unscaled).mono hk
  obtain ⟨total, htotal, hwithin⟩ := h.exists_add? hvalue hroom
  exact ⟨.decimal (some total), by rw [Aggregate.addDecimal, htotal], .decimal hwithin⟩

theorem updateExtreme {side : Extreme} {type : ColumnType} {v : Value} {held : Option Value}
    (h : type.HoldsCell held) (hv : type.Holds v) (n : Nat) :
    ∃ t, Aggregate.updateExtreme side type (.extreme held) v = .ok t ∧
      Bears (.extreme side type) n t := by
  rw [Aggregate.updateExtreme, hv.normalize_eq]
  cases held with
  | none => exact ⟨_, rfl, .extreme (ColumnType.holdsCell_some hv)⟩
  | some u =>
    have hu := h u rfl
    obtain ⟨o, ho, _⟩ := hv.compare_cases hu
    simp only [keepExtreme, ho]
    refine ⟨_, rfl, .extreme (ColumnType.holdsCell_some ?_)⟩
    split
    · exact hv
    · exact hu

/-- A value in the form its aggregate expects is taken in.  It counts for one. -/
theorem take_some {ofPartials : Bool} {v : Value} (h : a.Bears n s)
    (hv : (a.expects ofPartials).Holds v) (hk : 1 ≤ k) (hroom : n + k ≤ 2 ^ 128) :
    ∃ t, a.take ofPartials s (some v) = .ok t ∧ a.Bears (n + k) t := by
  cases h with
  | integer width n sum =>
    obtain ⟨i, rfl, htake⟩ := take_integer hv
    exact ⟨_, htake sum, .integer width _ _⟩
  | real isReal n sum =>
    rcases take_real isReal hv sum with ⟨w, _, ht⟩ | ⟨_, ht⟩
    · exact ⟨_, ht, .real isReal _ _⟩
    · exact ⟨_, ht, .real isReal _ _⟩
  | decimal within =>
    obtain ⟨d, rfl, htake⟩ := take_decimal hv
    rw [htake]
    exact addDecimal d within hk hroom
  | @extreme side type _ held holds =>
    rw [expects_extreme] at hv
    rw [take_extreme]
    exact updateExtreme holds hv _

theorem take {ofPartials : Bool} {c : Cell} (h : a.Bears n s)
    (hc : (a.expects ofPartials).HoldsCell c) (hk : c.isSome = true → 1 ≤ k)
    (hroom : n + k ≤ 2 ^ 128) : ∃ t, a.take ofPartials s c = .ok t ∧ a.Bears (n + k) t := by
  cases c with
  | none => exact ⟨s, take_none a s, h.mono (Nat.le_add_right n k)⟩
  | some v => exact h.take_some (hc v rfl) (hk rfl) hroom

/-! ## Joining states -/

theorem merge (hs : a.Bears n s) (ho : a.Bears k o) (hroom : n + k ≤ 2 ^ 128) :
    ∃ t, a.merge s o = .ok t ∧ a.Bears (n + k) t := by
  cases hs with
  | integer width n x =>
    cases ho with
    | real isReal => exact nomatch isReal
    | integer _ k y => exact ⟨_, rfl, .integer width _ _⟩
  | real isReal n x =>
    cases a with
    | sumFloat | sumDouble | sumString =>
      cases ho with
      | real _ k y => exact ⟨_, rfl, .real isReal _ _⟩
    | _ => exact nomatch isReal
  | @decimal p _ sc x hx =>
    cases ho with
    | real isReal => exact nomatch isReal
    | @decimal _ _ _ y hy =>
      obtain ⟨total, htotal, hwithin⟩ := hx.exists_add? hy hroom
      have hmerge : (Aggregate.sumDecimal p sc).merge (.decimal x) (.decimal y) =
          .ok (.decimal (if x.isSome || y.isSome then some total else none)) := by
        show mergeSum (.sumDecimal p sc) (.decimal x) (.decimal y) = _
        rw [mergeSum, htotal]
      refine ⟨_, hmerge, .decimal ?_⟩
      split
      · exact hwithin
      · exact Signed.within_zero.mono (Nat.zero_le _)
  | @extreme side type _ held holds =>
    cases ho with
    | real isReal => exact nomatch isReal
    | @extreme _ _ _ other hother =>
      cases other with
      | none => exact ⟨_, rfl, .extreme holds⟩
      | some v => exact updateExtreme holds (hother v rfl) _

end Bears
end Aggregate
end Rollup
