import Rollup.Binary.Slices
import Rollup.Proofs.Binary.Decimal
import Rollup.Proofs.Text.Literal

/-
The texts that are doubles, and the doubles that they are.

The grammar stands for itself: an optional sign, then `NaN`, `Infinity` or a magnitude with an
optional exponent and an optional type letter, and any number of spaces and control characters
around it all.  A text is read if and only if it is of this form, and then as the double that
its number is rounded to.
-/

namespace Rollup
namespace Text

variable {c : Char} {cs ds before after : List Char} {q : ℚ} {e : Int}

/-! ## The grammar -/

/-- `[eE][+-]?D+` or nothing, with the exponent that it denotes. -/
inductive Exponent : List Char → Int → Prop
  | absent : Exponent [] 0
  | bare {mark : Char} {ds : List Char} (isMark : mark = 'e' ∨ mark = 'E') (nonempty : ds ≠ [])
      (digits : allDigits ds = true) : Exponent (mark :: ds) (ofDigits ds)
  | plus {mark : Char} {ds : List Char} (isMark : mark = 'e' ∨ mark = 'E') (nonempty : ds ≠ [])
      (digits : allDigits ds = true) : Exponent (mark :: '+' :: ds) (ofDigits ds)
  | minus {mark : Char} {ds : List Char} (isMark : mark = 'e' ∨ mark = 'E') (nonempty : ds ≠ [])
      (digits : allDigits ds = true) : Exponent (mark :: '-' :: ds) (-(ofDigits ds : Int))

/-- `[dDfF]` or nothing. -/
inductive TypeLetter : List Char → Prop
  | absent : TypeLetter []
  | letter {c : Char} (isLetter : c = 'd' ∨ c = 'D' ∨ c = 'f' ∨ c = 'F') : TypeLetter [c]

/-- What a text of a double denotes without its sign. -/
inductive Quantity where
  | nan
  | infinity
  | decimal (q : ℚ)

inductive Unsigned : List Char → Quantity → Prop
  | nan : Unsigned "NaN".toList .nan
  | infinity : Unsigned "Infinity".toList .infinity
  | decimal {magnitude exponent letter : List Char} {x : ℚ} {e : Int} :
      Magnitude magnitude x → Exponent exponent e → TypeLetter letter →
      Unsigned (magnitude ++ exponent ++ letter) (.decimal (x * 10 ^ e))

/-- A quantity, which may have a sign before it; `true` for a minus. -/
inductive WithSign : List Char → Bool → Quantity → Prop
  | bare {cs : List Char} {d : Quantity} : Unsigned cs d → WithSign cs false d
  | plus {cs : List Char} {d : Quantity} : Unsigned cs d → WithSign ('+' :: cs) false d
  | minus {cs : List Char} {d : Quantity} : Unsigned cs d → WithSign ('-' :: cs) true d

/-- A signed quantity with spaces and control characters around it. -/
def DoubleText (s : String) (negative : Bool) (d : Quantity) : Prop :=
  ∃ before cs after, s.toList = before ++ cs ++ after ∧ WithSign cs negative d ∧
    (∀ c ∈ before, c.toNat ≤ 0x20) ∧ ∀ c ∈ after, c.toNat ≤ 0x20

/-- The double that a signed quantity is rounded to.  The sign of `NaN` is not kept. -/
def Quantity.RoundsTo (negative : Bool) (x : Double) : Quantity → Prop
  | .nan => x = Binary.nan false
  | .infinity => x = Binary.infinite negative
  | .decimal q => ∃ y : Double, y.IsNearest q ∧ x = if negative then y.negate else y

/-! ## The exponent -/

theorem takeSign_cases (ds : List Char) : (∃ rest, ds = '-' :: rest) ∨
    (∃ rest, ds = '+' :: rest) ∨ takeSign ds = (false, ds) := by
  unfold takeSign
  split
  · exact .inl ⟨_, rfl⟩
  · exact .inr (.inl ⟨_, rfl⟩)
  · exact .inr (.inr rfl)

theorem takeSign_digits (nonempty : ds ≠ []) (digits : allDigits ds = true) :
    takeSign ds = (false, ds) :=
  (Magnitude.plain nonempty digits).takeSign_eq

theorem readExponent?_eq_some_iff : Binary.readExponent? ds = some e ↔
    (takeSign ds).2 ≠ [] ∧ allDigits (takeSign ds).2 = true ∧
      e = if (takeSign ds).1 = true then -(ofDigits (takeSign ds).2 : Int)
        else ofDigits (takeSign ds).2 := by
  unfold Binary.readExponent?
  dsimp only
  split
  · rename_i h
    refine iff_of_false nofun fun hall => ?_
    simp [hall.1, hall.2.1] at h
  · rename_i h
    simp only [Bool.or_eq_true, not_or, Bool.not_eq_true', Bool.not_eq_false, List.isEmpty_iff] at h
    rw [Option.some.injEq, eq_comm]
    exact ⟨fun he => ⟨h.1, h.2, he⟩, fun he => he.2.2⟩

/-- An exponent is a mark with what is read as a signed run of digits, or is left out. -/
theorem exponent_iff : Exponent cs e ↔ (cs = [] ∧ e = 0) ∨
    ∃ mark ds, cs = mark :: ds ∧ (mark = 'e' ∨ mark = 'E') ∧ Binary.readExponent? ds = some e := by
  simp only [readExponent?_eq_some_iff]
  constructor
  · intro h
    cases h with
    | absent => exact .inl ⟨rfl, rfl⟩
    | @bare mark ds isMark nonempty digits =>
      refine .inr ⟨mark, ds, rfl, isMark, ?_⟩
      rw [takeSign_digits nonempty digits]
      exact ⟨nonempty, digits, rfl⟩
    | plus isMark nonempty digits => exact .inr ⟨_, _, rfl, isMark, nonempty, digits, rfl⟩
    | minus isMark nonempty digits => exact .inr ⟨_, _, rfl, isMark, nonempty, digits, rfl⟩
  · rintro (⟨rfl, rfl⟩ | ⟨mark, ds, rfl, isMark, nonempty, digits, rfl⟩)
    · exact .absent
    · rcases takeSign_cases ds with ⟨rest, rfl⟩ | ⟨rest, rfl⟩ | hbare
      · exact .minus isMark nonempty digits
      · exact .plus isMark nonempty digits
      · rw [hbare] at nonempty digits ⊢
        exact .bare isMark nonempty digits

theorem Exponent.char (h : Exponent cs e) (hc : c ∈ cs) :
    c.isDigit = true ∨ c = 'e' ∨ c = 'E' ∨ c = '+' ∨ c = '-' := by
  cases h with
  | absent => exact nomatch hc
  | bare isMark _ digits =>
    rcases List.mem_cons.mp hc with rfl | hc
    · rcases isMark with rfl | rfl <;> simp
    · exact .inl (allDigits_iff.mp digits c hc)
  | plus isMark _ digits | minus isMark _ digits =>
    rcases List.mem_cons.mp hc with rfl | hc
    · rcases isMark with rfl | rfl <;> simp
    · rcases List.mem_cons.mp hc with rfl | hc
      · simp
      · exact .inl (allDigits_iff.mp digits c hc)

/-! ## The body -/

/-- Digits, a point, signs and exponent marks: none of them is a type letter. -/
def IsBodyChar (c : Char) : Prop :=
  c.isDigit = true ∨ c = '.' ∨ c = 'e' ∨ c = 'E' ∨ c = '+' ∨ c = '-'

theorem IsBodyChar.isTypeLetter_eq_false (h : IsBodyChar c) : Binary.isTypeLetter c = false := by
  rcases h with hdigit | rfl | rfl | rfl | rfl | rfl
  · rw [Bool.eq_false_iff]
    intro hletter
    simp only [Binary.isTypeLetter, Bool.or_eq_true, beq_iff_eq] at hletter
    rcases hletter with ((rfl | rfl) | rfl) | rfl <;> exact nomatch hdigit
  all_goals rfl

theorem IsBodyChar.lt_toNat (h : IsBodyChar c) : 0x20 < c.toNat := by
  rcases h with hdigit | rfl | rfl | rfl | rfl | rfl
  · have hzero : '0'.toNat ≤ c.toNat := (Char.isDigit_iff_toNat.mp hdigit).1
    exact Nat.lt_of_lt_of_le (by decide) hzero
  all_goals decide

/-- A magnitude with an optional exponent. -/
def Body (cs : List Char) (q : ℚ) : Prop :=
  ∃ magnitude exponent x e, cs = magnitude ++ exponent ∧ Magnitude magnitude x ∧
    Exponent exponent e ∧ q = x * 10 ^ e

theorem Body.isBodyChar (h : Body cs q) (hc : c ∈ cs) : IsBodyChar c := by
  obtain ⟨magnitude, exponent, x, e, rfl, hmagnitude, hexponent, rfl⟩ := h
  rcases List.mem_append.mp hc with hc | hc
  · exact (hmagnitude.isDigit_or_eq hc).imp_right .inl
  · exact (hexponent.char hc).imp_right .inr

theorem Magnitude.ne_nil {x : ℚ} (h : Magnitude cs x) : cs ≠ [] := Number.ne_nil (.bare h)

theorem isExponentMark_iff : isExponentMark c = true ↔ c = 'e' ∨ c = 'E' := by
  rw [isExponentMark, Bool.or_eq_true, beq_iff_eq, beq_iff_eq]

end Text

namespace Binary

open Text

variable {c : Char} {cs : List Char} {q : ℚ} {e : Int} {x : Double}

theorem isNearest_numeral (n : Numeral) (e : Int) :
    (ofDecimal .double n.coefficient (e - n.fraction.length)).IsNearest (n.toRat * 10 ^ e) := by
  have hpow : n.toRat * 10 ^ e = n.coefficient * 10 ^ (e - n.fraction.length) := by
    rw [Numeral.toRat, zpow_sub₀ (by norm_num), zpow_natCast]
    ring
  rw [hpow]
  exact isNearest_ofDecimal _ _

theorem not_isExponentMark {magnitude : List Char} {y : ℚ} (h : Magnitude magnitude y)
    (hc : c ∈ magnitude) : isExponentMark c = false := by
  rw [Bool.eq_false_iff]
  intro hmark
  rcases h.isDigit_or_eq hc with hdigit | rfl
  · rcases isExponentMark_iff.mp hmark with rfl | rfl <;> exact nomatch hdigit
  · exact nomatch hmark

/-- A magnitude is cut off where its exponent begins. -/
theorem cutAt_body {magnitude exponent : List Char} {y : ℚ} (hmagnitude : Magnitude magnitude y)
    (hexponent : Exponent exponent e) :
    ∃ rest, cutAt isExponentMark (magnitude ++ exponent) = (magnitude, rest) ∧
      exponentOf? rest = some e := by
  have hmark := fun c => not_isExponentMark (c := c) hmagnitude
  rcases exponent_iff.mp hexponent with ⟨rfl, rfl⟩ | ⟨mark, ds, rfl, isMark, hread⟩
  · rw [List.append_nil]
    exact ⟨none, cutAt_of_forall hmark, rfl⟩
  · exact ⟨some ds, cutAt_append hmark (isExponentMark_iff.mpr isMark), hread⟩

theorem ofBody?_eq_some_iff : ofBody? cs = some x ↔ ∃ q, Body cs q ∧ x.IsNearest q := by
  constructor
  · intro h
    obtain ⟨n, hn, h⟩ := Option.bind_eq_some_iff.mp h
    obtain ⟨e, he, rfl⟩ := Option.map_eq_some_iff.mp h
    have hmagnitude := Numeral.magnitude_iff.mpr ⟨n, hn, rfl⟩
    refine ⟨_, ?_, isNearest_numeral n e⟩
    rcases cutAt_cases isExponentMark cs with hcut | ⟨before, mark, after, hcut, hmark, rfl⟩
    · rw [hcut] at hmagnitude he
      obtain rfl := Option.some.inj he
      exact ⟨cs, [], _, _, (List.append_nil cs).symm, hmagnitude, .absent, rfl⟩
    · rw [hcut] at hmagnitude he
      have hexponent := exponent_iff.mpr (.inr ⟨mark, after, rfl, isExponentMark_iff.mp hmark, he⟩)
      exact ⟨before, mark :: after, _, _, rfl, hmagnitude, hexponent, rfl⟩
  · rintro ⟨_, ⟨magnitude, exponent, _, e, rfl, hmagnitude, hexponent, rfl⟩, hx⟩
    obtain ⟨rest, hcut, hrest⟩ := cutAt_body hmagnitude hexponent
    obtain ⟨n, hn, rfl⟩ := Numeral.magnitude_iff.mp hmagnitude
    unfold ofBody?
    rw [hcut]
    dsimp only
    rw [hn, Option.bind_some, hrest, Option.map_some]
    exact congrArg some ((isNearest_numeral n e).unique (by decide) hx)

/-! ## The type letter -/

theorem exists_dropTypeLetter (cs : List Char) :
    ∃ letter, cs = dropTypeLetter cs ++ letter ∧ TypeLetter letter := by
  unfold dropTypeLetter
  cases hlast : cs.getLast? with
  | none => exact ⟨[], (List.append_nil cs).symm, .absent⟩
  | some c =>
    dsimp only
    split
    · rename_i hletter
      obtain ⟨init, rfl⟩ := List.getLast?_eq_some_iff.mp hlast
      simp only [isTypeLetter, Bool.or_eq_true, beq_iff_eq, or_assoc] at hletter
      exact ⟨[c], by rw [List.dropLast_concat], .letter hletter⟩
    · exact ⟨[], (List.append_nil cs).symm, .absent⟩

theorem dropTypeLetter_append {body letter : List Char} (hbody : Body body q)
    (hletter : TypeLetter letter) : dropTypeLetter (body ++ letter) = body := by
  unfold dropTypeLetter
  cases hletter with
  | absent =>
    rw [List.append_nil]
    cases hlast : body.getLast? with
    | none => rfl
    | some c =>
      have hc := (hbody.isBodyChar (List.mem_of_getLast? hlast)).isTypeLetter_eq_false
      dsimp only
      rw [hc]
      rfl
  | @letter c isLetter =>
    have hc : isTypeLetter c = true := by rcases isLetter with rfl | rfl | rfl | rfl <;> rfl
    rw [List.getLast?_concat]
    dsimp only
    rw [hc, List.dropLast_concat]
    rfl

theorem unsigned_decimal_iff : Unsigned cs (.decimal q) ↔
    ∃ body letter, cs = body ++ letter ∧ Body body q ∧ TypeLetter letter := by
  constructor
  · intro h
    cases h with
    | decimal hmagnitude hexponent hletter =>
      exact ⟨_, _, rfl, ⟨_, _, _, _, rfl, hmagnitude, hexponent, rfl⟩, hletter⟩
  · rintro ⟨_, letter, rfl, ⟨_, _, _, _, rfl, hmagnitude, hexponent, rfl⟩, hletter⟩
    exact .decimal hmagnitude hexponent hletter

theorem ofUnsignedText?_eq_some_iff :
    ofUnsignedText? cs = some x ↔ ∃ q, Unsigned cs (.decimal q) ∧ x.IsNearest q := by
  show ofBody? (dropTypeLetter cs) = some x ↔ _
  simp only [ofBody?_eq_some_iff, unsigned_decimal_iff]
  constructor
  · rintro ⟨q, hbody, hx⟩
    obtain ⟨letter, hcs, hletter⟩ := exists_dropTypeLetter cs
    exact ⟨q, ⟨_, letter, hcs, hbody, hletter⟩, hx⟩
  · rintro ⟨q, ⟨body, letter, rfl, hbody, hletter⟩, hx⟩
    rw [dropTypeLetter_append hbody hletter]
    exact ⟨q, hbody, hx⟩

end Binary

namespace Text

variable {c : Char} {cs : List Char} {d : Quantity} {q : ℚ} {negative : Bool} {s : String}

/-! ## The sign -/

theorem unsigned_nan_iff : Unsigned cs .nan ↔ cs = "NaN".toList := by
  constructor
  · intro h
    cases h
    rfl
  · rintro rfl
    exact .nan

theorem unsigned_infinity_iff : Unsigned cs .infinity ↔ cs = "Infinity".toList := by
  constructor
  · intro h
    cases h
    rfl
  · rintro rfl
    exact .infinity

theorem exists_head_of_decimal (h : Unsigned cs (.decimal q)) :
    ∃ c rest, cs = c :: rest ∧ (c.isDigit = true ∨ c = '.') := by
  cases h with
  | @decimal magnitude exponent letter _ _ hmagnitude _ _ =>
    cases magnitude with
    | nil => exact absurd rfl hmagnitude.ne_nil
    | cons c magnitude => exact ⟨c, _, rfl, hmagnitude.isDigit_or_eq List.mem_cons_self⟩

theorem Unsigned.eq_nan (h : Unsigned "NaN".toList d) : d = .nan := by
  cases d with
  | nan => rfl
  | infinity => exact absurd (unsigned_infinity_iff.mp h) (by decide)
  | decimal q =>
    obtain ⟨c, rest, hcons, hc⟩ := exists_head_of_decimal h
    rw [show "NaN".toList = ['N', 'a', 'N'] from rfl] at hcons
    cases hcons
    exact absurd hc (by decide)

theorem Unsigned.eq_infinity (h : Unsigned "Infinity".toList d) : d = .infinity := by
  cases d with
  | nan => exact absurd (unsigned_nan_iff.mp h) (by decide)
  | infinity => rfl
  | decimal q =>
    obtain ⟨c, rest, hcons, hc⟩ := exists_head_of_decimal h
    rw [show "Infinity".toList = ['I', 'n', 'f', 'i', 'n', 'i', 't', 'y'] from rfl] at hcons
    cases hcons
    exact absurd hc (by decide)

/-- No quantity begins with a sign. -/
theorem Unsigned.takeSign_eq (h : Unsigned cs d) : takeSign cs = (false, cs) := by
  cases d with
  | nan =>
    rw [unsigned_nan_iff.mp h]
    rfl
  | infinity =>
    rw [unsigned_infinity_iff.mp h]
    rfl
  | decimal q =>
    obtain ⟨c, rest, rfl, hc⟩ := exists_head_of_decimal h
    rcases takeSign_cases (c :: rest) with ⟨_, hsign⟩ | ⟨_, hsign⟩ | hbare
    · cases hsign
      exact absurd hc (by decide)
    · cases hsign
      exact absurd hc (by decide)
    · exact hbare

theorem withSign_iff : WithSign cs negative d ↔
    (takeSign cs).1 = negative ∧ Unsigned (takeSign cs).2 d := by
  constructor
  · intro h
    cases h with
    | bare h =>
      rw [h.takeSign_eq]
      exact ⟨rfl, h⟩
    | plus h | minus h => exact ⟨rfl, h⟩
  · rintro ⟨rfl, h⟩
    rcases takeSign_cases cs with ⟨rest, rfl⟩ | ⟨rest, rfl⟩ | hbare
    · exact .minus h
    · exact .plus h
    · rw [hbare] at h ⊢
      exact .bare h

/-! ## The ends -/

theorem Unsigned.lt_toNat (h : Unsigned cs d) (hc : c ∈ cs) : 0x20 < c.toNat := by
  cases h with
  | nan =>
    have hall : "NaN".toList.all (0x20 < ·.toNat) = true := rfl
    exact of_decide_eq_true (List.all_eq_true.mp hall c hc)
  | infinity =>
    have hall : "Infinity".toList.all (0x20 < ·.toNat) = true := rfl
    exact of_decide_eq_true (List.all_eq_true.mp hall c hc)
  | decimal hmagnitude hexponent hletter =>
    have hbody : Body _ _ := ⟨_, _, _, _, rfl, hmagnitude, hexponent, rfl⟩
    rcases List.mem_append.mp hc with hc | hc
    · exact (hbody.isBodyChar hc).lt_toNat
    · cases hletter with
      | absent => exact nomatch hc
      | letter isLetter =>
        rw [List.mem_singleton.mp hc]
        rcases isLetter with rfl | rfl | rfl | rfl <;> decide

theorem WithSign.lt_toNat (h : WithSign cs negative d) (hc : c ∈ cs) : 0x20 < c.toNat := by
  cases h with
  | bare h => exact h.lt_toNat hc
  | plus h | minus h =>
    rcases List.mem_cons.mp hc with rfl | hc
    · decide
    · exact h.lt_toNat hc

theorem WithSign.ne_nil (h : WithSign cs negative d) : cs ≠ [] := by
  rintro rfl
  cases h with
  | bare h =>
    cases d with
    | nan => exact absurd (unsigned_nan_iff.mp h) (by decide)
    | infinity => exact absurd (unsigned_infinity_iff.mp h) (by decide)
    | decimal q =>
      obtain ⟨c, rest, hcons, _⟩ := exists_head_of_decimal h
      exact nomatch hcons

theorem doubleText_iff : DoubleText s negative d ↔
    WithSign (stripEnds (fun c => c.toNat ≤ 0x20) s.toList) negative d := by
  constructor
  · rintro ⟨before, cs, after, htext, h, hbefore, hafter⟩
    have hkept : ∀ c ∈ cs, decide (c.toNat ≤ 0x20) = false :=
      fun c hc => decide_eq_false (Nat.not_le_of_lt (h.lt_toNat hc))
    rw [htext, stripEnds_append (fun c hc => decide_eq_true (hbefore c hc)) hkept h.ne_nil
      fun c hc => decide_eq_true (hafter c hc)]
    exact h
  · intro h
    obtain ⟨before, after, htext, hbefore, hafter⟩ :=
      exists_stripEnds (fun c => decide (c.toNat ≤ 0x20)) s.toList
    exact ⟨before, _, after, htext, h, fun c hc => of_decide_eq_true (hbefore c hc),
      fun c hc => of_decide_eq_true (hafter c hc)⟩

end Text

namespace Binary

open Text

variable {s : String} {x : Double}

/-! ## Texts -/

theorem ofText?_eq_some_iff :
    ofText? s = some x ↔ ∃ negative d, DoubleText s negative d ∧ d.RoundsTo negative x := by
  unfold ofText?
  simp only [doubleText_iff, withSign_iff]
  generalize takeSign (stripEnds (fun c => decide (c.toNat ≤ 0x20)) s.toList) = split
  obtain ⟨negative, cs⟩ := split
  dsimp only
  by_cases hnan : cs = "NaN".toList
  · rw [if_pos (beq_iff_eq.mpr hnan)]
    subst hnan
    constructor
    · intro h
      exact ⟨negative, .nan, ⟨rfl, .nan⟩, (Option.some.inj h).symm⟩
    · rintro ⟨_, d, ⟨rfl, hd⟩, hx⟩
      obtain rfl := hd.eq_nan
      exact congrArg some hx.symm
  · rw [if_neg (mt beq_iff_eq.mp hnan)]
    by_cases hinfinity : cs = "Infinity".toList
    · rw [if_pos (beq_iff_eq.mpr hinfinity)]
      subst hinfinity
      constructor
      · intro h
        exact ⟨negative, .infinity, ⟨rfl, .infinity⟩, (Option.some.inj h).symm⟩
      · rintro ⟨_, d, ⟨rfl, hd⟩, hx⟩
        obtain rfl := hd.eq_infinity
        exact congrArg some hx.symm
    · rw [if_neg (mt beq_iff_eq.mp hinfinity)]
      constructor
      · intro h
        obtain ⟨y, hy, rfl⟩ := Option.map_eq_some_iff.mp h
        obtain ⟨q, hq, hnearest⟩ := ofUnsignedText?_eq_some_iff.mp hy
        exact ⟨negative, .decimal q, ⟨rfl, hq⟩, y, hnearest, rfl⟩
      · rintro ⟨_, d, ⟨rfl, hd⟩, hx⟩
        cases d with
        | nan => exact absurd (unsigned_nan_iff.mp hd) hnan
        | infinity => exact absurd (unsigned_infinity_iff.mp hd) hinfinity
        | decimal q =>
          obtain ⟨y, hnearest, rfl⟩ := hx
          rw [ofUnsignedText?_eq_some_iff.mpr ⟨q, hd, hnearest⟩]
          rfl

/-- Whatever a text denotes is rounded to a double. -/
theorem exists_roundsTo {negative : Bool} {d : Quantity} (h : DoubleText s negative d) :
    ∃ x, d.RoundsTo negative x := by
  obtain ⟨_, hd⟩ := withSign_iff.mp (doubleText_iff.mp h)
  generalize (takeSign _).2 = cs at hd
  cases hd with
  | nan => exact ⟨_, rfl⟩
  | infinity => exact ⟨_, rfl⟩
  | decimal hmagnitude =>
    obtain ⟨n, _, rfl⟩ := Numeral.magnitude_iff.mp hmagnitude
    exact ⟨_, _, isNearest_numeral n _, rfl⟩

end Binary
end Rollup
