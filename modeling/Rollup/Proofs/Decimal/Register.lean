import Rollup.Proofs.Decimal.Reading

/-
Reading a decimal in a register of limited size.

`readWithin` reads one digit after the other, with a multiplication and an addition for
each, then rounds, then changes the sign, and gives up as soon as one of these results is
beyond the limit.  Since the digits in front of the point are counted first, a limit of
ten to the greatest precision is enough for a literal of any length.
-/

namespace Rollup
namespace Decimal

open Text (Literal Numeral)

variable {limit i : Nat} {ds : List Char} {literal : String} {precision : Nat} {scale : Int}

/-! ## The register -/

/-- The integer, unless its magnitude is beyond the limit. -/
def within? (limit : Nat) (i : Int) : Option Int := if i.natAbs ≤ limit then some i else none

/-- Both the shifted value and the one with the digit added have to be within the limit. -/
def pushDigit? (limit : Nat) (i : Int) (c : Char) : Option Int :=
  (within? limit (i * 10)).bind fun shifted => within? limit (shifted + Text.digitValue c)

def pushDigits? (limit : Nat) (ds : List Char) : Option Int := ds.foldlM (pushDigit? limit) 0

/-- Gives what a register holds the sign of the literal, and makes it a decimal. -/
def deliver? (limit : Nat) (minus : Bool) (precision : Nat) (scale n : Int) :
    Option (Except ReadFault Decimal) :=
  (if minus = true then within? limit (-n) else some n).bind fun signed =>
    (Signed.ofInt? signed).map fun v => .ok ⟨v, precision, scale⟩

/-- Rounds what a register holds once the digits up to the scale are in it.  The bound needs
a test only if a carry may have reached it. -/
def settle? (limit : Nat) (literal : String) (precision : Nat) (scale : Int) (numeral : Numeral)
    (n : Int) : Option (Except ReadFault Decimal) :=
  if numeral.roundsUp scale.toNat = true then
    (within? limit (n + 1)).bind fun carried =>
      if Text.tenPow precision ≤ carried then some (.error (.exceeds literal precision scale))
      else deliver? limit (signSplit literal).1 precision scale carried
  else deliver? limit (signSplit literal).1 precision scale n

def readWithin (limit : Nat) (literal : String) (precision : Nat) (scale : Int) :
    Option (Except ReadFault Decimal) :=
  if scale < 0 || (precision : Int) < scale || maxPrecision < precision then
    some (.error (.type precision scale))
  else
    match Numeral.ofChars? (signSplit literal).2 with
    | none => some (.error (.literal literal))
    | some numeral =>
        if precision - scale.toNat < (numeral.whole.dropWhile (· == '0')).length then
          some (.error (.exceeds literal precision scale))
        else
          (pushDigits? limit (numeral.unitDigits scale.toNat)).bind
            (settle? limit literal precision scale numeral)

theorem within?_natCast (h : i ≤ limit) : within? limit i = some (i : Int) := if_pos h

theorem within?_neg (h : i ≤ limit) : within? limit (-i) = some (-i : Int) := by
  rw [within?, Int.natAbs_neg]
  exact if_pos h

theorem pushDigit?_eq {c : Char} (hc : c.isDigit = true) (h : 10 * i + 10 ≤ limit) :
    pushDigit? limit i c = some ((10 * i + Text.digitValue c : Nat) : Int) := by
  have hdigit := Text.digitValue_lt hc
  have hshifted : (i : Int) * 10 = (10 * i : Nat) := by omega
  rw [pushDigit?, hshifted, within?_natCast (by omega), Option.bind_some, ← Int.natCast_add,
    within?_natCast (by omega)]

/-- The value and one more, with all digits still to come appended, bound every result. -/
theorem foldlM_pushDigit? (hds : Text.allDigits ds = true)
    (h : (i + 1) * 10 ^ ds.length ≤ limit) :
    ds.foldlM (pushDigit? limit) (i : Int) = some (Nat.ofDigitChars 10 ds i : Int) := by
  induction ds generalizing i with
  | nil => rfl
  | cons c ds ih =>
    obtain ⟨hc, hds⟩ := Bool.and_eq_true_iff.mp hds
    have hdigit := Text.digitValue_lt hc
    have hpow : (i + 1) * 10 ^ (c :: ds).length = (10 * i + 10) * 10 ^ ds.length := by
      rw [List.length_cons, Nat.pow_succ]
      ring
    rw [hpow] at h
    have hnow : 10 * i + 10 ≤ limit :=
      Nat.le_trans (Nat.le_mul_of_pos_right _ (Nat.pow_pos (by decide))) h
    have hlater : (10 * i + Text.digitValue c + 1) * 10 ^ ds.length ≤ limit :=
      Nat.le_trans (Nat.mul_le_mul_right _ (by omega)) h
    rw [List.foldlM_cons, pushDigit?_eq hc hnow]
    exact (ih hds hlater).trans (by rw [Nat.ofDigitChars_cons]; rfl)

theorem pushDigits?_eq (hds : Text.allDigits ds = true) (h : 10 ^ ds.length ≤ limit) :
    pushDigits? limit ds = some (Text.ofDigits ds : Int) :=
  foldlM_pushDigit? hds (by rwa [Nat.zero_add, Nat.one_mul])

theorem deliver?_eq {m : Nat} (hm : m ≤ limit) {minus : Bool} {v : Signed 128}
    (hv : v.toInt = if minus = true then -(m : Int) else m) :
    deliver? limit minus precision scale m = some (.ok ⟨v, precision, scale⟩) := by
  have hsigned : (if minus = true then within? limit (-m) else some (m : Int)) = some v.toInt := by
    rw [hv]
    cases minus with
    | false => rfl
    | true => exact within?_neg hm
  rw [deliver?, hsigned, Option.bind_some, Signed.ofInt?_toInt, Option.map_some]

theorem settle?_eq {n : Numeral} (h : IsType precision scale) (hlimit : 10 ^ precision ≤ limit)
    (hn : Numeral.ofChars? (signSplit literal).2 = some n)
    (hunit : Text.ofDigits (n.unitDigits scale.toNat) < 10 ^ precision) :
    settle? limit literal precision scale n (Text.ofDigits (n.unitDigits scale.toNat)) =
      some (read literal precision scale) := by
  have hread := read_of_some h hn
  have hscaled := n.scaledHalfUp_eq scale.toNat
  unfold settle?
  by_cases hcarry : n.roundsUp scale.toNat = true
  · rw [if_pos hcarry] at hscaled ⊢
    have hbound : (Text.tenPow precision : Int) ≤ n.scaledHalfUp scale.toNat ↔
        10 ^ precision ≤ n.scaledHalfUp scale.toNat := Int.ofNat_le
    rw [← Int.natCast_succ, Nat.succ_eq_add_one, ← hscaled, within?_natCast (by omega),
      Option.bind_some]
    rcases hread with ⟨hge, hread⟩ | ⟨hlt, v, hv, hread⟩
    · rw [hread, if_pos (hbound.mpr hge)]
    · rw [hread, if_neg (mt hbound.mp (Nat.not_le_of_lt hlt)), deliver?_eq (by omega) hv]
  · rw [if_neg hcarry] at hscaled ⊢
    rw [Nat.add_zero] at hscaled
    rw [← hscaled] at hunit ⊢
    rcases hread with ⟨hge, _⟩ | ⟨_, v, hv, hread⟩
    · exact absurd hge (Nat.not_le_of_lt hunit)
    · rw [hread, deliver?_eq (by omega) hv]

/-- A limit of ten to the greatest precision is never met. -/
theorem readWithin_eq (hlimit : 10 ^ 38 ≤ limit) (literal : String) (precision : Nat)
    (scale : Int) :
    readWithin limit literal precision scale = some (read literal precision scale) := by
  by_cases h : IsType precision scale
  · unfold readWithin
    rw [if_neg (isType_iff.mp h)]
    cases hn : Numeral.ofChars? (signSplit literal).2 with
    | none => rw [read_of_none h hn]
    | some n =>
      have hwell := (Numeral.ofChars?_eq_some_iff.mp hn).1
      have hscale : scale.toNat ≤ precision := by
        have hle := h.2.1
        omega
      have hpow : 10 ^ precision ≤ limit := Nat.le_trans (pow_le_of_isType h) hlimit
      dsimp only
      by_cases hmany : precision - scale.toNat < (n.whole.dropWhile (· == '0')).length
      · rw [if_pos hmany]
        rcases read_of_some h hn with ⟨_, hread⟩ | ⟨hlt, _⟩
        · rw [hread]
        · exact absurd (n.pow_le_scaledHalfUp hwell hscale hmany) (Nat.not_le_of_lt hlt)
      · have hlength : 10 ^ (n.unitDigits scale.toNat).length ≤ limit := by
          refine Nat.le_trans (Nat.pow_le_pow_right (by decide) ?_) hpow
          rw [n.length_unitDigits]
          omega
        rw [if_neg hmany, pushDigits?_eq (hwell.unitDigits _) hlength, Option.bind_some]
        exact settle?_eq h hpow hn
          (n.ofDigits_unitDigits_lt hwell hscale (Nat.le_of_not_lt hmany))
  · rw [read_of_not_isType h]
    exact if_pos (not_not.mp (mt isType_iff.mpr h))

/-! ## Exactness -/

/-- A literal is read exactly if its type is one and its number, rounded half up to the
scale, has no more digits than the precision.  The value is the rounded number with its
sign, and no result on the way to it is beyond ten to the greatest precision. -/
theorem read_exact (literal : String) (precision : Nat) (scale : Int) :
    ((∃ d, read literal precision scale = .ok d) ↔ IsType precision scale ∧
      ∃ x, Literal literal x ∧ round (|x| * 10 ^ scale) < 10 ^ precision) ∧
    (∀ d x, read literal precision scale = .ok d → Literal literal x →
      d.precision = precision ∧ d.scale = scale ∧
        d.unscaled.toInt = SignType.sign x * round (|x| * 10 ^ scale)) ∧
    (¬ IsType precision scale →
      read literal precision scale = .error (.type precision scale)) ∧
    readWithin (10 ^ 38) literal precision scale = some (read literal precision scale) := by
  refine ⟨⟨?_, ?_⟩, ?_, read_of_not_isType, readWithin_eq (Nat.le_refl _) literal _ _⟩
  · rintro ⟨d, hd⟩
    obtain ⟨h, _, _, x, hx, hlt, _⟩ := read_eq_ok_iff.mp hd
    exact ⟨h, x, hx, hlt⟩
  · rintro ⟨h, x, hx, hlt⟩
    obtain ⟨n, hn, rfl⟩ := literal_iff_numeral.mp hx
    rw [round_abs_signed (Numeral.ofChars?_eq_some_iff.mp hn).1 h.1] at hlt
    rcases read_of_some h hn with ⟨hge, _⟩ | ⟨_, v, _, hread⟩
    · exact absurd hlt (not_lt.mpr (by exact_mod_cast hge))
    · exact ⟨_, hread⟩
  · intro d x hd hx
    obtain ⟨_, hprecision, hscale, y, hy, _, hvalue⟩ := read_eq_ok_iff.mp hd
    rw [hx.unique hy]
    exact ⟨hprecision, hscale, hvalue⟩

example : (read " -1.234565" 10 5).toOption.map (·.unscaled.toInt) = some (-123457) := by decide

example : (read "99999.999995" 10 5).toOption.map (·.unscaled.toInt) = none := by decide

end Decimal
end Rollup
