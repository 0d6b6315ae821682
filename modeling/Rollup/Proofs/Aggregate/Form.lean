import Rollup.Proofs.Aggregate.Retention

/-
The layout of running states, and how a step on a state of the right form can fail.

A step finds the layout and the family of values that it looks for, so nothing is left that
can fail but the addition of decimals.
-/

namespace Rollup

/-- The ways in which states are laid out.  All sums of binary numbers share one. -/
inductive Layout where
  | integer
  | double
  | decimal
  | extreme
deriving DecidableEq

def State.layout : State → Layout
  | .integer _ => .integer
  | .double _ => .double
  | .decimal _ => .decimal
  | .extreme _ => .extreme

namespace Aggregate

def layout : Aggregate → Layout
  | .sumInteger _ => .integer
  | .sumFloat | .sumDouble | .sumString => .double
  | .sumDecimal _ _ => .decimal
  | .extreme _ _ => .extreme

variable {P : ColumnType → Value → Prop} {a : Aggregate} {s other : State} {e : StateFault}

theorem start_of_isReal (h : a.isReal = true) : a.start = .double none := by
  cases a with
  | sumFloat | sumDouble | sumString => rfl
  | _ => cases h

theorem layout_of_isReal (h : a.isReal = true) : a.layout = .double := by
  cases a with
  | sumFloat | sumDouble | sumString => rfl
  | _ => cases h

namespace Retains

theorem layout_eq (h : Retains P a s) : s.layout = a.layout := by
  cases h with
  | integer | decimal | extreme => rfl
  | real isReal => exact (layout_of_isReal isReal).symm

/-- Only the state that an aggregate starts with has no value. -/
theorem eq_start (h : Retains P a s) (hs : s.hasValue = false) : s = a.start := by
  cases h with
  | integer width sum =>
    obtain rfl : sum = none := by simpa [State.hasValue] using hs
    rfl
  | real isReal sum =>
    obtain rfl : sum = none := by simpa [State.hasValue] using hs
    exact (start_of_isReal isReal).symm
  | decimal p sc sum =>
    obtain rfl : sum = none := by simpa [State.hasValue] using hs
    rfl
  | @extreme side type value =>
    obtain rfl : value = none := by simpa [State.hasValue] using hs
    rfl

theorem normalize_eq {v : Value} (h : Retains P a (.extreme (some v))) :
    a.input.normalize v = .ok v := by
  cases h with
  | extreme holds => exact (holds v rfl).normalize_eq

/-! ## Failing steps -/

/-- Without decimals there is nothing that more values could make too large. -/
theorem bears (h : Retains P a s) (ha : ¬ ∃ p sc, a = .sumDecimal p sc) : a.Bears 0 s := by
  cases h with
  | integer width sum => exact .integer width 0 sum
  | real isReal sum => exact .real isReal 0 sum
  | decimal p sc => exact absurd ⟨p, sc, rfl⟩ ha
  | extreme holds => exact .extreme holds

theorem exists_sum {p : Nat} {sc : Int} (h : Retains P (.sumDecimal p sc) s) :
    ∃ sum, s = .decimal sum := by
  cases h with
  | real isReal => exact nomatch isReal
  | decimal _ _ sum => exact ⟨sum, rfl⟩

theorem fault_of_addDecimal {sum : Option (Signed 256)} {v : Signed 256}
    (h : Aggregate.addDecimal sum v = .error e) : e = .decimalSum := by
  unfold Aggregate.addDecimal at h
  split at h
  · cases h
  · cases h
    rfl

/-- A cell in the form its aggregate expects is refused for no other reason. -/
theorem fault_of_take {ofPartials : Bool} {c : Cell} (hs : Retains P a s)
    (hc : (a.expects ofPartials).HoldsCell c) (h : a.take ofPartials s c = .error e) :
    e = .decimalSum := by
  by_cases ha : ∃ p sc, a = .sumDecimal p sc
  · obtain ⟨p, sc, rfl⟩ := ha
    obtain ⟨sum, rfl⟩ := hs.exists_sum
    cases c with
    | none => exact nomatch (take_none _ _).symm.trans h
    | some v =>
      have hv := hc v rfl
      obtain ⟨d, rfl, htake⟩ := take_decimal hv
      rw [htake] at h
      exact fault_of_addDecimal h
  · obtain ⟨t, ht, _⟩ := (hs.bears ha).take (k := 1) hc (fun _ => Nat.le_refl 1) (by decide)
    rw [ht] at h
    cases h

theorem fault_of_merge (hs : Retains P a s) (ho : Retains P a other)
    (h : a.merge s other = .error e) : e = .decimalSum := by
  by_cases ha : ∃ p sc, a = .sumDecimal p sc
  · obtain ⟨p, sc, rfl⟩ := ha
    obtain ⟨x, rfl⟩ := hs.exists_sum
    obtain ⟨y, rfl⟩ := ho.exists_sum
    have hmerge : (Aggregate.sumDecimal p sc).merge (.decimal x) (.decimal y) =
        mergeSum (.sumDecimal p sc) (.decimal x) (.decimal y) := rfl
    rw [hmerge, mergeSum] at h
    split at h
    · cases h
    · cases h
      rfl
  · obtain ⟨t, ht, _⟩ := (hs.bears ha).merge (ho.bears ha) (by decide)
    rw [ht] at h
    cases h

end Retains
end Aggregate
end Rollup
