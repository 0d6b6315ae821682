import Mathlib.Tactic.Ring
import Rollup.Text.Digits

/-
What runs of digits denote.

A run is below the power of ten that its length gives, zeros before it add nothing, zeros
behind it multiply, and what is left when its leading zeros are dropped is as long as the
number has digits.
-/

namespace Rollup
namespace Text

variable {c : Char} {cs ds : List Char} {k n : Nat}

/-- The number that a digit stands for. -/
def digitValue (c : Char) : Nat := c.toNat - '0'.toNat

theorem digitValue_lt (h : c.isDigit = true) : digitValue c < 10 := by
  have hc : '0'.toNat ≤ c.toNat ∧ c.toNat ≤ '9'.toNat := Char.isDigit_iff_toNat.mp h
  have hnine : '9'.toNat = '0'.toNat + 9 := rfl
  rw [digitValue]
  omega

theorem five_le_iff : '5' ≤ c ↔ 5 ≤ digitValue c := by
  have hle : '5' ≤ c ↔ '5'.toNat ≤ c.toNat := UInt32.le_iff_toNat_le
  have hfive : '5'.toNat = '0'.toNat + 5 := rfl
  rw [hle, digitValue]
  omega

/-! ## Runs of digits -/

theorem allDigits_iff : allDigits cs = true ↔ ∀ c ∈ cs, c.isDigit = true := List.all_eq_true

theorem allDigits_append :
    allDigits (cs ++ ds) = true ↔ allDigits cs = true ∧ allDigits ds = true := by
  rw [allDigits, List.all_append, Bool.and_eq_true]
  rfl

theorem allDigits_zeros (n : Nat) : allDigits (zeros n) = true :=
  allDigits_iff.mpr fun _ hc => List.eq_of_mem_replicate hc ▸ rfl

theorem allDigits_digits (n : Nat) : allDigits (digits n) = true :=
  allDigits_iff.mpr fun _ hc => Nat.isDigit_of_mem_toDigits (by decide) (by decide) hc

theorem allDigits_padded (k n : Nat) : allDigits (padded k n) = true :=
  allDigits_append.mpr ⟨allDigits_zeros _, allDigits_digits n⟩

theorem not_mem_of_allDigits (h : allDigits cs = true) (hc : c.isDigit = false) : c ∉ cs := by
  intro hmem
  rw [allDigits_iff.mp h c hmem] at hc
  exact nomatch hc

theorem digits_ne_nil (n : Nat) : digits n ≠ [] := Nat.toDigits_ne_nil

theorem padded_ne_nil (k n : Nat) : padded k n ≠ [] :=
  List.append_ne_nil_of_right_ne_nil _ (digits_ne_nil n)

theorem le_length_padded (k n : Nat) : k ≤ (padded k n).length := by
  rw [padded, List.length_append, zeros, List.length_replicate]
  omega

theorem length_padded_le_iff {m : Nat} (hm : 0 < m) :
    (padded k n).length ≤ m ↔ k ≤ m ∧ n < 10 ^ m := by
  have hdigits : (digits n).length ≤ m ↔ n < 10 ^ m :=
    Nat.length_toDigits_le_iff (by decide) hm
  rw [padded, List.length_append, zeros, List.length_replicate, ← hdigits]
  omega

theorem length_padded (hk : 0 < k) (h : n < 10 ^ k) : (padded k n).length = k :=
  Nat.le_antisymm ((length_padded_le_iff hk).mpr ⟨Nat.le_refl k, h⟩) (le_length_padded k n)

/-! ## Their numbers -/

theorem ofDigits_append (cs ds : List Char) :
    ofDigits (cs ++ ds) = ofDigits cs * 10 ^ ds.length + ofDigits ds := by
  rw [ofDigits, Nat.ofDigitChars_append, Nat.ofDigitChars_eq_ofDigitChars_zero, Nat.mul_comm]
  rfl

theorem ofDigits_cons (c : Char) (cs : List Char) :
    ofDigits (c :: cs) = digitValue c * 10 ^ cs.length + ofDigits cs := by
  have h := ofDigits_append [c] cs
  rw [List.singleton_append] at h
  rw [h, ofDigits, Nat.ofDigitChars_cons, Nat.ofDigitChars_nil, Nat.mul_zero, Nat.zero_add]
  rfl

theorem ofDigits_zeros (n : Nat) : ofDigits (zeros n) = 0 := Nat.ofDigitChars_replicate_zero

theorem ofDigits_append_zeros (cs : List Char) (n : Nat) :
    ofDigits (cs ++ zeros n) = ofDigits cs * 10 ^ n := by
  rw [ofDigits_append, ofDigits_zeros, zeros, List.length_replicate, Nat.add_zero]

theorem ofDigits_padded (k n : Nat) : ofDigits (padded k n) = n := by
  rw [padded, ofDigits_append, ofDigits_zeros, Nat.zero_mul, Nat.zero_add, ofDigits_digits]

theorem padded_injective (k : Nat) : Function.Injective (padded k) :=
  Function.LeftInverse.injective (ofDigits_padded k)

theorem ofDigits_lt (h : allDigits cs = true) : ofDigits cs < 10 ^ cs.length := by
  induction cs with
  | nil => exact Nat.one_pos
  | cons c cs ih =>
    obtain ⟨hc, hcs⟩ := Bool.and_eq_true_iff.mp h
    have hdigit := digitValue_lt hc
    calc ofDigits (c :: cs) = digitValue c * 10 ^ cs.length + ofDigits cs := ofDigits_cons c cs
      _ < digitValue c * 10 ^ cs.length + 10 ^ cs.length := Nat.add_lt_add_left (ih hcs) _
      _ = (digitValue c + 1) * 10 ^ cs.length := by ring
      _ ≤ 10 * 10 ^ cs.length := Nat.mul_le_mul_right _ hdigit
      _ = 10 ^ (c :: cs).length := by rw [List.length_cons]; ring

/-! ## Leading zeros -/

theorem ofDigits_dropWhile (cs : List Char) :
    ofDigits (cs.dropWhile (· == '0')) = ofDigits cs := by
  induction cs with
  | nil => rfl
  | cons c cs ih =>
    by_cases hc : (c == '0') = true
    · have hzero : digitValue c = 0 := by
        rw [beq_iff_eq.mp hc]
        rfl
      rw [List.dropWhile_cons_of_pos (p := (· == '0')) hc, ih, ofDigits_cons, hzero, Nat.zero_mul,
        Nat.zero_add]
    · rw [List.dropWhile_cons_of_neg (p := (· == '0')) hc]

theorem allDigits_dropWhile {p : Char → Bool} (h : allDigits cs = true) :
    allDigits (cs.dropWhile p) = true :=
  allDigits_iff.mpr fun c hc => allDigits_iff.mp h c (List.dropWhile_subset p hc)

/-- A run with more than `k` digits after its leading zeros is no number of `k` digits. -/
theorem pow_le_ofDigits (h : allDigits cs = true)
    (hk : k < (cs.dropWhile (· == '0')).length) : 10 ^ k ≤ ofDigits cs := by
  have hdigits := allDigits_dropWhile (p := (· == '0')) h
  have hhead := List.head?_dropWhile_not (p := (· == '0')) cs
  rw [← ofDigits_dropWhile]
  cases hrest : cs.dropWhile (· == '0') with
  | nil =>
    rw [hrest] at hk
    exact absurd hk (Nat.not_lt_zero k)
  | cons c rest =>
    rw [hrest] at hk hdigits hhead
    have hc : '0'.toNat ≤ c.toNat :=
      (Char.isDigit_iff_toNat.mp (Bool.and_eq_true_iff.mp hdigits).1).1
    have hne : c ≠ '0' := by simpa using hhead
    have hpos : 1 ≤ digitValue c := by
      have hcode : c.toNat ≠ '0'.toNat := fun e => hne (Char.toNat_inj.mp e)
      rw [digitValue]
      omega
    calc 10 ^ k ≤ 10 ^ rest.length := Nat.pow_le_pow_right (by decide) (Nat.lt_succ_iff.mp hk)
      _ = 1 * 10 ^ rest.length := (Nat.one_mul _).symm
      _ ≤ digitValue c * 10 ^ rest.length := Nat.mul_le_mul_right _ hpos
      _ ≤ ofDigits (c :: rest) := ofDigits_cons c rest ▸ Nat.le_add_right _ _

end Text
end Rollup
