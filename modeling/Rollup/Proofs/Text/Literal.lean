import Mathlib.Algebra.Order.Field.Rat
import Mathlib.Data.List.TakeWhile
import Mathlib.Tactic.FieldSimp
import Mathlib.Tactic.Positivity
import Rollup.Proofs.Text.Digits
import Rollup.Text.Blank
import Rollup.Text.Numeral

/-
The texts that are numbers, and the numbers that they are.

The grammar stands for itself: an optional sign, then digits with at most one point before,
among or behind them, and blanks around it all.  The functions that take a text apart at its
ends, at its sign and at its point accept exactly these texts, each with the number that the
grammar gives it.
-/

namespace Rollup
namespace Text

variable {c : Char} {cs before after whole fraction : List Char} {x : ℚ} {n : Numeral}

/-! ## The grammar -/

/-- `D+` or `D+.D*` or `.D+`, with the number that it denotes. -/
inductive Magnitude : List Char → ℚ → Prop
  | plain {whole : List Char} (nonempty : whole ≠ []) (digits : allDigits whole = true) :
      Magnitude whole (ofDigits whole)
  | pointed {whole fraction : List Char} (nonempty : whole ≠ [] ∨ fraction ≠ [])
      (wholeDigits : allDigits whole = true) (fractionDigits : allDigits fraction = true) :
      Magnitude (whole ++ '.' :: fraction)
        (ofDigits whole + ofDigits fraction / 10 ^ fraction.length)

/-- A magnitude, which may have a sign before it. -/
inductive Number : List Char → ℚ → Prop
  | bare {cs : List Char} {x : ℚ} : Magnitude cs x → Number cs x
  | plus {cs : List Char} {x : ℚ} : Magnitude cs x → Number ('+' :: cs) x
  | minus {cs : List Char} {x : ℚ} : Magnitude cs x → Number ('-' :: cs) (-x)

/-- A number with blanks around it. -/
def Literal (literal : String) (x : ℚ) : Prop :=
  ∃ before cs after, literal.toList = before ++ cs ++ after ∧ Number cs x ∧
    (∀ c ∈ before, isBlank c = true) ∧ ∀ c ∈ after, isBlank c = true

/-! ## The point -/

theorem cutAt_of_forall {mark : Char → Bool} (h : ∀ c ∈ cs, mark c = false) :
    cutAt mark cs = (cs, none) := by
  induction cs with
  | nil => rfl
  | cons c cs ih =>
    obtain ⟨hc, hcs⟩ := List.forall_mem_cons.mp h
    rw [cutAt, hc, ih hcs]
    rfl

theorem cutAt_append {mark : Char → Bool} (h : ∀ c ∈ before, mark c = false)
    (hc : mark c = true) : cutAt mark (before ++ c :: after) = (before, some after) := by
  induction before with
  | nil =>
    rw [List.nil_append, cutAt, hc]
    rfl
  | cons b before ih =>
    obtain ⟨hb, hbefore⟩ := List.forall_mem_cons.mp h
    rw [List.cons_append, cutAt, hb, ih hbefore]
    rfl

/-- Texts that end at their first mark are told apart from what follows. -/
theorem append_cons_inj {mark : Char} {first second rest more : List Char}
    (hfirst : mark ∉ first) (hsecond : mark ∉ second)
    (h : first ++ mark :: rest = second ++ mark :: more) : first = second ∧ rest = more := by
  have hunmarked {cs : List Char} (hcs : mark ∉ cs) : ∀ c ∈ cs, (c == mark) = false :=
    fun c hc => beq_eq_false_iff_ne.mpr (ne_of_mem_of_not_mem hc hcs)
  have hcut := congrArg (cutAt (· == mark)) h
  rw [cutAt_append (hunmarked hfirst) (beq_self_eq_true mark),
    cutAt_append (hunmarked hsecond) (beq_self_eq_true mark), Prod.mk.injEq,
    Option.some.injEq] at hcut
  exact hcut

/-- A text is what was cut from it, with the mark between the parts. -/
theorem cutAt_cases (mark : Char → Bool) (cs : List Char) :
    cutAt mark cs = (cs, none) ∨
      ∃ before c after, cutAt mark cs = (before, some after) ∧ mark c = true ∧
        cs = before ++ c :: after := by
  induction cs with
  | nil => exact .inl rfl
  | cons b cs ih =>
    by_cases hb : mark b = true
    · refine .inr ⟨[], b, cs, ?_, hb, rfl⟩
      rw [cutAt, if_pos hb]
    · rw [cutAt, if_neg hb]
      rcases ih with hcut | ⟨before, c, after, hcut, hc, rfl⟩
      · refine .inl ?_
        rw [hcut]
      · refine .inr ⟨b :: before, c, after, ?_, hc, rfl⟩
        rw [hcut]

theorem ne_point (h : c.isDigit = true) : (c == '.') = false := by
  rw [beq_eq_false_iff_ne]
  rintro rfl
  exact nomatch h

namespace Numeral

def toRat (n : Numeral) : ℚ := n.coefficient / 10 ^ n.fraction.length

theorem toRat_nonneg (n : Numeral) : 0 ≤ n.toRat := by
  unfold toRat
  positivity

theorem toRat_eq (whole fraction : List Char) :
    toRat ⟨whole, fraction⟩ = ofDigits whole + ofDigits fraction / 10 ^ fraction.length := by
  rw [toRat, coefficient, ofDigits_append]
  push_cast
  field_simp

theorem toRat_whole (whole : List Char) : toRat ⟨whole, []⟩ = ofDigits whole := by
  rw [toRat, coefficient, List.append_nil, List.length_nil, pow_zero, div_one]

/-- Digits on at least one side of the point, and nothing else on either. -/
structure WellFormed (n : Numeral) : Prop where
  nonempty : n.whole ≠ [] ∨ n.fraction ≠ []
  whole : allDigits n.whole = true
  fraction : allDigits n.fraction = true

theorem wellFormed_iff : n.WellFormed ↔
    ((n.whole.isEmpty && n.fraction.isEmpty) || !allDigits n.whole ||
      !allDigits n.fraction) = false := by
  simp only [Bool.or_eq_false_iff, Bool.and_eq_false_iff, List.isEmpty_eq_false_iff,
    Bool.not_eq_false']
  exact ⟨fun h => ⟨⟨h.nonempty, h.whole⟩, h.fraction⟩, fun h => ⟨h.1.1, h.1.2, h.2⟩⟩

/-- A text without a point is all in front of where the point would be. -/
theorem ofChars?_eq_some_iff : ofChars? cs = some n ↔
    n.WellFormed ∧ (cs = n.whole ∧ n.fraction = [] ∨ cs = n.whole ++ '.' :: n.fraction) := by
  obtain ⟨whole, fraction⟩ := n
  unfold ofChars?
  constructor
  · intro h
    have hcut := cutAt_cases (· == '.') cs
    generalize cutAt (· == '.') cs = cut at h hcut
    dsimp only at h
    split at h
    · exact nomatch h
    · rename_i hcheck
      cases h
      refine ⟨wellFormed_iff.mpr (Bool.eq_false_iff.mpr hcheck), ?_⟩
      rcases hcut with rfl | ⟨before, c, after, rfl, hc, rfl⟩
      · exact .inl ⟨rfl, rfl⟩
      · rw [beq_iff_eq.mp hc]
        exact .inr rfl
  · rintro ⟨hn, hcs⟩
    have hwhole : ∀ c ∈ whole, (c == '.') = false :=
      fun c hc => ne_point (allDigits_iff.mp hn.whole c hc)
    have hcut : (cutAt (· == '.') cs).1 = whole ∧
        (cutAt (· == '.') cs).2.getD [] = fraction := by
      rcases hcs with ⟨rfl, rfl⟩ | rfl
      · rw [cutAt_of_forall hwhole]
        exact ⟨rfl, rfl⟩
      · rw [cutAt_append hwhole (beq_self_eq_true '.')]
        exact ⟨rfl, rfl⟩
    simp only [hcut.1, hcut.2]
    rw [wellFormed_iff.mp hn, if_neg Bool.false_ne_true]

/-- The magnitudes are the texts that are read as numerals. -/
theorem magnitude_iff : Magnitude cs x ↔ ∃ n, ofChars? cs = some n ∧ n.toRat = x := by
  constructor
  · intro h
    cases h with
    | plain nonempty digits =>
      have hwell : WellFormed ⟨cs, []⟩ := ⟨.inl nonempty, digits, rfl⟩
      exact ⟨_, ofChars?_eq_some_iff.mpr ⟨hwell, .inl ⟨rfl, rfl⟩⟩, toRat_whole cs⟩
    | pointed nonempty wholeDigits fractionDigits =>
      exact ⟨_, ofChars?_eq_some_iff.mpr ⟨⟨nonempty, wholeDigits, fractionDigits⟩, .inr rfl⟩,
        toRat_eq _ _⟩
  · rintro ⟨⟨whole, fraction⟩, hn, rfl⟩
    obtain ⟨hwell, ⟨rfl, hempty⟩ | rfl⟩ := ofChars?_eq_some_iff.mp hn
    · obtain rfl : fraction = [] := hempty
      rw [toRat_whole]
      exact .plain (hwell.nonempty.resolve_right fun h => h rfl) hwell.whole
    · rw [toRat_eq]
      exact .pointed hwell.nonempty hwell.whole hwell.fraction

end Numeral

/-- A point put into a run of digits divides its number by a power of ten. -/
theorem Magnitude.split {ds : List Char} (nonempty : ds ≠ []) (digits : allDigits ds = true)
    (k : Nat) :
    Magnitude (ds.take k ++ '.' :: ds.drop k) (ofDigits ds / 10 ^ (ds.length - k)) := by
  have hparts : ds.take k ++ ds.drop k = ds := List.take_append_drop k ds
  have hdigits := allDigits_append.mp (hparts.symm ▸ digits)
  have hnonempty : ds.take k ≠ [] ∨ ds.drop k ≠ [] := by
    rw [← not_and_or, ← List.append_eq_nil_iff, hparts]
    exact nonempty
  have h := Magnitude.pointed hnonempty hdigits.1 hdigits.2
  rw [← Numeral.toRat_eq, Numeral.toRat, Numeral.coefficient, hparts, List.length_drop] at h
  exact h

/-! ## The sign -/

theorem Magnitude.isDigit_or_eq (h : Magnitude cs x) (hc : c ∈ cs) :
    c.isDigit = true ∨ c = '.' := by
  cases h with
  | plain _ digits => exact .inl (allDigits_iff.mp digits c hc)
  | pointed _ wholeDigits fractionDigits =>
    rcases List.mem_append.mp hc with hc | hc
    · exact .inl (allDigits_iff.mp wholeDigits c hc)
    · rcases List.mem_cons.mp hc with rfl | hc
      · exact .inr rfl
      · exact .inl (allDigits_iff.mp fractionDigits c hc)

/-- No magnitude begins with a sign. -/
theorem Magnitude.takeSign_eq (h : Magnitude cs x) : takeSign cs = (false, cs) := by
  unfold takeSign
  split
  · exact absurd (h.isDigit_or_eq List.mem_cons_self) (by decide)
  · exact absurd (h.isDigit_or_eq List.mem_cons_self) (by decide)
  · rfl

/-- An integer over a magnitude of its own size has its sign before the digits. -/
theorem Number.signed {ds : List Char} {i : Int} {q : ℚ} (h : Magnitude ds (i.natAbs / q)) :
    Number (if i < 0 then '-' :: ds else ds) (i / q) := by
  rw [Nat.cast_natAbs] at h
  split
  · rename_i hneg
    rw [abs_of_neg hneg, Int.cast_neg, neg_div] at h
    have hminus := Number.minus h
    rwa [neg_neg] at hminus
  · rename_i hpos
    rw [abs_of_nonneg (not_lt.mp hpos)] at h
    exact .bare h

/-- The sign is that of the text and the magnitude is what follows it. -/
theorem number_iff : Number cs x ↔ ∃ y, Magnitude (takeSign cs).2 y ∧
    x = if (takeSign cs).1 = true then -y else y := by
  constructor
  · intro h
    cases h with
    | bare h =>
      rw [h.takeSign_eq]
      exact ⟨x, h, rfl⟩
    | plus h => exact ⟨x, h, rfl⟩
    | minus h => exact ⟨_, h, rfl⟩
  · rintro ⟨y, hy, rfl⟩
    unfold takeSign at hy ⊢
    split at hy
    · exact .minus hy
    · exact .plus hy
    · exact .bare hy

/-! ## The blanks -/

theorem dropWhile_append {drop : Char → Bool} (hbefore : ∀ c ∈ before, drop c = true)
    (hcs : ∀ c ∈ cs, drop c = false) (hne : cs ≠ []) :
    (before ++ (cs ++ after)).dropWhile drop = cs ++ after := by
  rw [List.dropWhile_append_of_pos hbefore]
  cases cs with
  | nil => exact absurd rfl hne
  | cons c cs =>
    have hc : ¬ drop c = true := Bool.eq_false_iff.mp (hcs c List.mem_cons_self)
    exact List.dropWhile_cons_of_neg hc

theorem stripEnds_append {drop : Char → Bool} (hbefore : ∀ c ∈ before, drop c = true)
    (hcs : ∀ c ∈ cs, drop c = false) (hne : cs ≠ []) (hafter : ∀ c ∈ after, drop c = true) :
    stripEnds drop (before ++ cs ++ after) = cs := by
  have hback : (after.reverse ++ (cs.reverse ++ [])).dropWhile drop = cs.reverse ++ [] :=
    dropWhile_append (fun c hc => hafter c (List.mem_reverse.mp hc))
      (fun c hc => hcs c (List.mem_reverse.mp hc)) (List.reverse_ne_nil_iff.mpr hne)
  rw [List.append_nil] at hback
  rw [stripEnds, List.append_assoc, dropWhile_append hbefore hcs hne, List.reverse_append, hback,
    List.reverse_reverse]

theorem exists_stripEnds (drop : Char → Bool) (cs : List Char) :
    ∃ before after, cs = before ++ stripEnds drop cs ++ after ∧
      (∀ c ∈ before, drop c = true) ∧ ∀ c ∈ after, drop c = true := by
  refine ⟨cs.takeWhile drop, ((cs.dropWhile drop).reverse.takeWhile drop).reverse, ?_, ?_, ?_⟩
  · rw [stripEnds, List.append_assoc, ← List.reverse_append, List.takeWhile_append_dropWhile,
      List.reverse_reverse, List.takeWhile_append_dropWhile]
  · exact fun c hc => List.mem_takeWhile_imp hc
  · exact fun c hc => List.mem_takeWhile_imp (List.mem_reverse.mp hc)

theorem isBlank_of_isDigit (h : c.isDigit = true) : isBlank c = false := by
  have hc : '0'.toNat ≤ c.toNat ∧ c.toNat ≤ '9'.toNat := Char.isDigit_iff_toNat.mp h
  have hzero : '0'.toNat = 48 := rfl
  have hnine : '9'.toNat = 57 := rfl
  rw [Bool.eq_false_iff]
  intro hblank
  simp only [isBlank, Bool.or_eq_true, Bool.and_eq_true, decide_eq_true_eq, beq_iff_eq] at hblank
  omega

theorem Number.ne_nil (h : Number cs x) : cs ≠ [] := by
  cases h with
  | bare h =>
    cases h with
    | plain nonempty _ => exact nonempty
    | pointed => exact List.append_ne_nil_of_right_ne_nil _ (List.cons_ne_nil _ _)
  | plus _ | minus _ => exact List.cons_ne_nil _ _

/-- No character of a number is blank. -/
theorem Number.isBlank_eq_false (h : Number cs x) (hc : c ∈ cs) : isBlank c = false := by
  have hmagnitude {ds : List Char} {y : ℚ} (hds : Magnitude ds y) (hc : c ∈ ds) :
      isBlank c = false := by
    rcases hds.isDigit_or_eq hc with hdigit | rfl
    · exact isBlank_of_isDigit hdigit
    · rfl
  cases h with
  | bare h => exact hmagnitude h hc
  | plus h | minus h =>
    rcases List.mem_cons.mp hc with rfl | hc
    · rfl
    · exact hmagnitude h hc

theorem literal_iff {literal : String} :
    Literal literal x ↔ Number (stripEnds isBlank literal.toList) x := by
  constructor
  · rintro ⟨before, cs, after, htext, hnumber, hbefore, hafter⟩
    rw [htext, stripEnds_append hbefore (fun c => hnumber.isBlank_eq_false) hnumber.ne_nil hafter]
    exact hnumber
  · intro h
    obtain ⟨before, after, htext, hbefore, hafter⟩ := exists_stripEnds isBlank literal.toList
    exact ⟨before, _, after, htext, h, hbefore, hafter⟩

theorem Number.literal (h : Number cs x) : Literal (String.ofList cs) x := by
  refine ⟨[], cs, [], ?_, h, List.forall_mem_nil _, List.forall_mem_nil _⟩
  rw [String.toList_ofList, List.nil_append, List.append_nil]

/-- A text is a literal of one number at most. -/
theorem Literal.unique {literal : String} {y : ℚ} (hx : Literal literal x)
    (hy : Literal literal y) : x = y := by
  obtain ⟨_, hnx, rfl⟩ := number_iff.mp (literal_iff.mp hx)
  obtain ⟨_, hny, rfl⟩ := number_iff.mp (literal_iff.mp hy)
  obtain ⟨n, hn, rfl⟩ := Numeral.magnitude_iff.mp hnx
  obtain ⟨m, hm, rfl⟩ := Numeral.magnitude_iff.mp hny
  rw [Option.some.inj (hn.symm.trans hm)]

theorem Number.unique {y : ℚ} (hx : Number cs x) (hy : Number cs y) : x = y :=
  hx.literal.unique hy.literal

/-! ## Integers -/

theorem number_ofInt (i : Int) : Number (ofInt i) i := by
  have hdigits := Magnitude.plain (digits_ne_nil i.natAbs) (allDigits_digits i.natAbs)
  rw [ofDigits_digits, ← div_one (i.natAbs : ℚ)] at hdigits
  have hnumber := Number.signed hdigits
  rwa [div_one] at hnumber

theorem ofInt_injective : Function.Injective ofInt := by
  intro i j h
  have hi := number_ofInt i
  rw [h] at hi
  exact Int.cast_injective (hi.unique (number_ofInt j))

end Text
end Rollup
