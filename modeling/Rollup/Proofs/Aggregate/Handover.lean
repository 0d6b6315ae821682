import Rollup.Proofs.Aggregate.Digest

/-
Decimal sums of partial sums.

A partial total with too many digits is handed on as a missing value, and missing values
change no sum.  So a sum of partial sums is the sum of those totals that have few enough
digits, and it is the sum of everything under the condition `Recovers` and no other.
-/

namespace Rollup
namespace Aggregate

/-- Digits of the results of a decimal sum. -/
def digits : Aggregate → Nat
  | .sumDecimal p _ => min (p + 10) 38
  | _ => 0

/-- The totals of those parts to which there is anything. -/
def partTotals (parts : List (List Value)) : List Int :=
  (parts.filter fun vs => !vs.isEmpty).map total

/-- The totals that are handed on. -/
def keptTotals (digits : Nat) (totals : List Int) : List Int :=
  totals.filter fun t => t.natAbs < 10 ^ digits

/-- Either the totals that are lost cancel out and leave something to sum, or the whole and
what is left of it are both missing. -/
def Recovers (digits : Nat) (totals : List Int) : Prop :=
  ((keptTotals digits totals).sum = totals.sum ∧
    (keptTotals digits totals = [] → totals = [])) ∨
  (10 ^ digits ≤ totals.sum.natAbs ∧
    (keptTotals digits totals = [] ∨ 10 ^ digits ≤ (keptTotals digits totals).sum.natAbs))

instance (digits : Nat) (totals : List Int) : Decidable (Recovers digits totals) :=
  inferInstanceAs (Decidable (_ ∨ _))

/-- What the values of a part become for the stage that takes in its result. -/
inductive HandsOn (digits : Nat) : List Value → List Value → Prop where
  | nothing : HandsOn digits [] []
  | lost {vs : List Value} (nonempty : vs ≠ []) (exceeds : 10 ^ digits ≤ (total vs).natAbs) :
      HandsOn digits vs []
  | kept {vs : List Value} {w : Value} (nonempty : vs ≠ []) (units : w.units = total vs)
      (fits : (total vs).natAbs < 10 ^ digits) : HandsOn digits vs [w]

/-- The answer for a part is what the part hands on. -/
theorem HandsOn.of_answers {p : Nat} {s : Int} {vs : List Value} {c : Cell}
    (h : Answers (.sumDecimal p s) vs c) :
    HandsOn (min (p + 10) 38) vs (addends (.sumDecimal p s) [c]) := by
  cases h with
  | missing => exact .nothing
  | real hr => exact nomatch hr
  | decimal v nonempty exact fits => exact .kept nonempty exact fits
  | exceeding nonempty exceeds => exact .lost nonempty exceeds

variable {n : Nat} {parts left : List (List Value)}

theorem total_flatten (parts : List (List Value)) :
    total parts.flatten = (partTotals parts).sum ∧
      (parts.flatten = [] ↔ partTotals parts = []) := by
  induction parts with
  | nil => exact ⟨rfl, iff_of_true rfl rfl⟩
  | cons vs rest ih =>
    obtain ⟨hsum, hnil⟩ := ih
    cases vs with
    | nil => exact ⟨hsum, hnil⟩
    | cons v vs =>
      constructor
      · show total ((v :: vs) ++ rest.flatten) = total (v :: vs) + (partTotals rest).sum
        rw [total_append, hsum]
      · exact iff_of_false (List.cons_ne_nil _ _) (List.cons_ne_nil _ _)

/-- The next stage sums the totals that are handed on. -/
theorem total_handedOn (h : List.Forall₂ (HandsOn n) parts left) :
    total left.flatten = (keptTotals n (partTotals parts)).sum ∧
      (left.flatten = [] ↔ keptTotals n (partTotals parts) = []) := by
  induction h with
  | nil => exact ⟨rfl, iff_of_true rfl rfl⟩
  | @cons vs ws parts left hhead _ ih =>
    obtain ⟨hsum, hnil⟩ := ih
    have hcons (hvs : vs ≠ []) : partTotals (vs :: parts) = total vs :: partTotals parts := by
      have hpos : (!vs.isEmpty) = true := by simpa using hvs
      rw [partTotals, List.filter_cons, if_pos hpos]
      rfl
    cases hhead with
    | nothing => exact ⟨hsum, hnil⟩
    | lost nonempty exceeds =>
      have hlost : ¬ decide ((total vs).natAbs < 10 ^ n) = true := by
        rw [decide_eq_true_eq]
        omega
      rw [hcons nonempty, keptTotals, List.filter_cons, if_neg hlost]
      exact ⟨hsum, hnil⟩
    | @kept _ w nonempty units fits =>
      rw [hcons nonempty, keptTotals, List.filter_cons, if_pos (decide_eq_true fits)]
      constructor
      · rw [List.flatten_cons, total_append, hsum, List.sum_cons, ← units]
        exact congrArg (· + _) List.sum_singleton
      · exact iff_of_false (List.cons_ne_nil _ _) (List.cons_ne_nil _ _)

/-- The results for two lists of values of which one is empty whenever the other is. -/
theorem Answers.decimal_eq_iff {p : Nat} {s : Int} {vs ws : List Value} {c d : Cell}
    (hempty : vs = [] → ws = []) (hc : Answers (.sumDecimal p s) ws c)
    (hd : Answers (.sumDecimal p s) vs d) :
    c = d ↔ (total ws = total vs ∧ (ws = [] → vs = [])) ∨
      (10 ^ min (p + 10) 38 ≤ (total vs).natAbs ∧
        (ws = [] ∨ 10 ^ min (p + 10) 38 ≤ (total ws).natAbs)) := by
  cases hc with
  | real hr => exact nomatch hr
  | missing =>
    cases hd with
    | real hr => exact nomatch hr
    | missing => exact iff_of_true rfl (.inl ⟨rfl, fun h => h⟩)
    | decimal v nonempty exact fits =>
      refine iff_of_false nofun ?_
      rintro (⟨_, h⟩ | ⟨h, _⟩)
      · exact nonempty (h rfl)
      · omega
    | exceeding nonempty exceeds => exact iff_of_true rfl (.inr ⟨exceeds, .inl rfl⟩)
  | decimal v hws exact fits =>
    cases hd with
    | real hr => exact nomatch hr
    | missing => exact absurd (hempty rfl) hws
    | decimal v' hvs exact' fits' =>
      constructor
      · intro h
        cases h
        exact .inl ⟨exact.symm.trans exact', fun h => absurd h hws⟩
      · rintro (⟨h, _⟩ | ⟨h, _⟩)
        · rw [Signed.ext (exact.trans (h.trans exact'.symm))]
        · omega
    | exceeding hvs exceeds =>
      refine iff_of_false nofun ?_
      rintro (⟨h, _⟩ | ⟨_, h | h⟩)
      · omega
      · exact hws h
      · omega
  | exceeding hws exceeds =>
    cases hd with
    | real hr => exact nomatch hr
    | missing => exact absurd (hempty rfl) hws
    | decimal v hvs exact fits =>
      refine iff_of_false nofun ?_
      rintro (⟨h, _⟩ | ⟨h, _⟩)
      · omega
      · omega
    | exceeding hvs exceeds' => exact iff_of_true rfl (.inr ⟨exceeds', .inr exceeds⟩)

/-- A sum in two stages and one of everything are the same exactly if the partial totals
recover. -/
theorem Answers.eq_iff_recovers {p : Nat} {s : Int} {c d : Cell}
    (h : List.Forall₂ (HandsOn (min (p + 10) 38)) parts left)
    (hc : Answers (.sumDecimal p s) left.flatten c)
    (hd : Answers (.sumDecimal p s) parts.flatten d) :
    c = d ↔ Recovers (min (p + 10) 38) (partTotals parts) := by
  obtain ⟨hsum, hnil⟩ := total_handedOn h
  obtain ⟨hsum', hnil'⟩ := total_flatten parts
  have hempty : parts.flatten = [] → left.flatten = [] := by
    rw [hnil, hnil']
    intro h
    rw [h]
    rfl
  rw [hc.decimal_eq_iff hempty hd, Recovers, hsum, hsum', hnil, hnil']

end Aggregate
end Rollup
