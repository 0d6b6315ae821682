import Rollup.Proofs.Binary.Grammar

/-
Doubles read over bytes.

An offset has parts before and after it exactly if it lies between two characters
(`Text.sliceTo?_eq_some_iff`, `Text.sliceFrom?_eq_some_iff`).  Those at which the reading cuts
a text lie behind a sign, and before and behind an exponent mark, which are characters of one
byte; so it always has an answer, and the answer is that of `Binary.ofText?`
(`Binary.ofSlices?_eq`).
-/

namespace Rollup
namespace Text

variable {c : Char} {cs before after : List Char} {n : Nat}

/-! ## Bytes -/

theorem bytes_cons (c : Char) (cs : List Char) :
    bytes (c :: cs) = String.utf8EncodeChar c ++ bytes cs := rfl

theorem length_bytes_cons (c : Char) (cs : List Char) :
    (bytes (c :: cs)).length = c.utf8Size + (bytes cs).length := by
  rw [bytes_cons, List.length_append, String.length_utf8EncodeChar]

theorem utf8EncodeChar_of_lt (h : c.toNat < 128) :
    String.utf8EncodeChar c = [UInt8.ofNat c.toNat] := by
  unfold String.utf8EncodeChar
  exact if_pos (Nat.le_of_lt_succ h)

/-- No byte of a character beyond the ASCII range is one of that range. -/
theorem le_toNat_of_mem_utf8EncodeChar (h : 128 ≤ c.toNat) {b : UInt8}
    (hb : b ∈ String.utf8EncodeChar c) : 128 ≤ b.toNat := by
  have hcode : ¬ c.val.toNat ≤ 127 := Nat.not_le_of_lt h
  unfold String.utf8EncodeChar at hb
  dsimp only at hb
  rw [if_neg hcode] at hb
  split at hb
  · simp only [List.mem_cons, List.not_mem_nil, or_false] at hb
    rcases hb with rfl | rfl <;> rw [UInt8.toNat_ofNat'] <;> omega
  · split at hb
    · simp only [List.mem_cons, List.not_mem_nil, or_false] at hb
      rcases hb with rfl | rfl | rfl <;> rw [UInt8.toNat_ofNat'] <;> omega
    · simp only [List.mem_cons, List.not_mem_nil, or_false] at hb
      rcases hb with rfl | rfl | rfl | rfl <;> rw [UInt8.toNat_ofNat'] <;> omega

/-- A byte of the ASCII range is the code of its character. -/
theorem toNat_eq_of_mem_utf8EncodeChar {b : UInt8} (hb : b.toNat < 128)
    (h : b ∈ String.utf8EncodeChar c) : c.toNat = b.toNat := by
  rcases Nat.lt_or_ge c.toNat 128 with hc | hc
  · rw [utf8EncodeChar_of_lt hc, List.mem_singleton] at h
    rw [h, UInt8.toNat_ofNat']
    omega
  · have hle := le_toNat_of_mem_utf8EncodeChar hc h
    omega

theorem all_utf8EncodeChar (c : Char) :
    ((String.utf8EncodeChar c).all fun b => 0x30 ≤ b && b ≤ 0x39) = c.isDigit := by
  rw [Bool.eq_iff_iff, Char.isDigit_iff_toNat]
  rcases Nat.lt_or_ge c.toNat 128 with hc | hc
  · have hbyte : (UInt8.ofNat c.toNat).toNat = c.toNat := by
      rw [UInt8.toNat_ofNat']
      omega
    rw [utf8EncodeChar_of_lt hc, List.all_cons, List.all_nil, Bool.and_true, Bool.and_eq_true,
      decide_eq_true_iff, decide_eq_true_iff, UInt8.le_iff_toNat_le, UInt8.le_iff_toNat_le, hbyte]
    rfl
  · have hnine : '9'.toNat = 57 := rfl
    refine iff_of_false (fun hall => ?_) (by omega)
    obtain ⟨b, hb⟩ := List.exists_mem_of_ne_nil _ (String.utf8EncodeChar_ne_nil (c := c))
    have hle := le_toNat_of_mem_utf8EncodeChar hc hb
    have hdigit := List.all_eq_true.mp hall b hb
    rw [Bool.and_eq_true, decide_eq_true_iff, decide_eq_true_iff, UInt8.le_iff_toNat_le,
      UInt8.le_iff_toNat_le] at hdigit
    have hbound : b.toNat ≤ 57 := hdigit.2
    omega

theorem allDigitBytes_eq (cs : List Char) : allDigitBytes cs = allDigits cs := by
  rw [allDigitBytes, bytes, List.all_flatMap]
  simp only [all_utf8EncodeChar]
  rfl

/-! ## Parts -/

theorem bytes_append (before after : List Char) :
    bytes (before ++ after) = bytes before ++ bytes after := List.flatMap_append

/-- A part that reaches past the first character takes it whole. -/
theorem sliceTo?_cons (h : c.utf8Size ≤ n) :
    sliceTo? n (c :: cs) = (sliceTo? (n - c.utf8Size) cs).map (c :: ·) := by
  have hpos := c.utf8Size_pos
  cases n with
  | zero => omega
  | succ n => rw [sliceTo?, if_pos h]

theorem sliceTo?_eq_some_iff : sliceTo? n cs = some before ↔
    ∃ after, cs = before ++ after ∧ (bytes before).length = n := by
  induction cs generalizing n before with
  | nil =>
    constructor
    · intro h
      cases n with
      | zero =>
        cases h
        exact ⟨[], rfl, rfl⟩
      | succ n => exact nomatch h
    · rintro ⟨after, hcs, rfl⟩
      rw [(List.append_eq_nil_iff.mp hcs.symm).1]
      rfl
  | cons c cs ih =>
    constructor
    · intro h
      cases n with
      | zero =>
        cases h
        exact ⟨_, rfl, rfl⟩
      | succ n =>
        rw [sliceTo?] at h
        split at h
        · obtain ⟨rest, hrest, rfl⟩ := Option.map_eq_some_iff.mp h
          obtain ⟨after, rfl, hlength⟩ := ih.mp hrest
          exact ⟨after, rfl, by rw [length_bytes_cons]; omega⟩
        · exact nomatch h
    · rintro ⟨after, hcs, rfl⟩
      cases before with
      | nil => rfl
      | cons b before =>
        obtain ⟨rfl, rfl⟩ := List.cons.inj hcs
        rw [length_bytes_cons, sliceTo?_cons (Nat.le_add_right _ _), Nat.add_sub_cancel_left,
          ih.mpr ⟨after, rfl, rfl⟩]
        rfl

theorem sliceFrom?_eq (n : Nat) (cs : List Char) :
    sliceFrom? n cs = (sliceTo? n cs).map fun before => cs.drop before.length := by
  induction cs generalizing n with
  | nil => cases n <;> rfl
  | cons c cs ih =>
    cases n with
    | zero => rfl
    | succ n =>
      rw [sliceFrom?, sliceTo?]
      split
      · rw [ih, Option.map_map]
        rfl
      · rfl

theorem sliceFrom?_eq_some_iff : sliceFrom? n cs = some after ↔
    ∃ before, cs = before ++ after ∧ (bytes before).length = n := by
  simp only [sliceFrom?_eq, Option.map_eq_some_iff, sliceTo?_eq_some_iff]
  constructor
  · rintro ⟨before, ⟨rest, rfl, hlength⟩, rfl⟩
    exact ⟨before, by rw [List.drop_left], hlength⟩
  · rintro ⟨before, rfl, hlength⟩
    exact ⟨before, ⟨after, rfl, hlength⟩, List.drop_left⟩

theorem offsetOf?_eq (mark : Char → Bool) (cs : List Char) :
    offsetOf? mark cs =
      (cutAt mark cs).2.map fun _ => (bytes (cutAt mark cs).1).length := by
  induction cs with
  | nil => rfl
  | cons c cs ih =>
    rw [offsetOf?, cutAt]
    split
    · rfl
    · rw [ih, Option.map_map]
      refine congrArg (Option.map · _) (funext fun _ => ?_)
      exact (length_bytes_cons c _).symm

end Text

namespace Binary

open Text

variable {cs : List Char} {s : String} {x : Double}

/-! ## Cuts -/

/-- The part behind the first character of a text exists if that has one byte. -/
theorem sliceFrom?_one (c : Char) (cs : List Char) (hc : c.utf8Size = 1) :
    sliceFrom? 1 (c :: cs) = some cs :=
  sliceFrom?_eq_some_iff.mpr ⟨[c], rfl, by rw [length_bytes_cons, hc]; rfl⟩

/-- The first byte tells a sign from every other character. -/
theorem takeSignByte?_eq (c : Char) (cs : List Char) :
    takeSignByte? (c :: cs) = some (takeSign (c :: cs)) := by
  obtain ⟨b, rest, hb⟩ :=
    List.exists_cons_of_ne_nil (String.utf8EncodeChar_ne_nil (c := c))
  have hchar {d : Char} (hd : b.toNat = d.toNat) (hlt : d.toNat < 128) : c = d :=
    Char.toNat_inj.mp
      ((toNat_eq_of_mem_utf8EncodeChar (hd ▸ hlt) (hb ▸ List.mem_cons_self)).trans hd)
  rw [takeSignByte?, bytes_cons, hb]
  dsimp only [List.cons_append]
  by_cases hminus : b = 0x2D
  · obtain rfl : c = '-' := hchar (congrArg UInt8.toNat hminus) (by decide)
    rw [if_pos (beq_iff_eq.mpr hminus), sliceFrom?_one _ _ rfl]
    rfl
  · rw [if_neg (mt beq_iff_eq.mp hminus)]
    by_cases hplus : b = 0x2B
    · obtain rfl : c = '+' := hchar (congrArg UInt8.toNat hplus) (by decide)
      rw [if_pos (beq_iff_eq.mpr hplus), sliceFrom?_one _ _ rfl]
      rfl
    · rw [if_neg (mt beq_iff_eq.mp hplus)]
      rcases takeSign_cases (c :: cs) with ⟨_, h⟩ | ⟨_, h⟩ | hbare
      · cases h
        exact absurd (List.cons.inj hb).1.symm hminus
      · cases h
        exact absurd (List.cons.inj hb).1.symm hplus
      · rw [hbare]

theorem cutExponent?_eq (cs : List Char) :
    cutExponent? cs = some (cutAt isExponentMark cs) := by
  rw [cutExponent?, offsetOf?_eq]
  rcases cutAt_cases isExponentMark cs with hcut | ⟨before, mark, after, hcut, hmark, rfl⟩
  · rw [hcut]
    rfl
  · have hsize : mark.utf8Size = 1 := by
      rcases isExponentMark_iff.mp hmark with rfl | rfl <;> rfl
    have hto : sliceTo? (bytes before).length (before ++ mark :: after) = some before :=
      sliceTo?_eq_some_iff.mpr ⟨mark :: after, rfl, rfl⟩
    have hfrom : sliceFrom? ((bytes before).length + 1) (before ++ mark :: after) = some after := by
      refine sliceFrom?_eq_some_iff.mpr ⟨before ++ [mark], ?_, ?_⟩
      · rw [List.append_assoc]
        rfl
      · rw [bytes_append, List.length_append, length_bytes_cons, hsize]
        rfl
    rw [hcut, Option.map_some]
    dsimp only
    rw [hto, Option.bind_some, hfrom]
    rfl

/-! ## Checks -/

theorem isMantissa_eq (cs : List Char) : isMantissa cs = (Numeral.ofChars? cs).isSome := by
  unfold isMantissa Numeral.ofChars?
  simp only [allDigitBytes_eq]
  split
  · rename_i h
    rw [h]
    rfl
  · rename_i h
    rw [Bool.eq_false_iff.mpr h]
    rfl

theorem isExponent_eq (cs : Option (List Char)) : isExponent cs = (exponentOf? cs).isSome := by
  cases cs with
  | none => rfl
  | some cs =>
    unfold isExponent exponentOf? readExponent?
    simp only [allDigitBytes_eq]
    split
    · rename_i h
      rw [h]
      rfl
    · rename_i h
      rw [Bool.eq_false_iff.mpr h]
      rfl

/-- What fails the checks is no number, so the checks take nothing away. -/
theorem ofBodySlices?_eq (cs : List Char) : ofBodySlices? cs = some (ofBody? cs) := by
  rw [ofBodySlices?, cutExponent?_eq, Option.map_some, isMantissa_eq, isExponent_eq]
  unfold ofBody?
  dsimp only
  cases Numeral.ofChars? (cutAt isExponentMark cs).1 with
  | none => rfl
  | some n => cases exponentOf? (cutAt isExponentMark cs).2 <;> rfl

/-- Every text is taken apart between its characters only. -/
theorem ofSlices?_eq (s : String) : ofSlices? s = some (ofText? s) := by
  unfold ofSlices? ofText?
  generalize stripEnds (fun c => decide (c.toNat ≤ 0x20)) s.toList = cs
  dsimp only
  cases cs with
  | nil => rfl
  | cons c cs =>
    show (takeSignByte? (c :: cs)).bind _ = _
    rw [takeSignByte?_eq, Option.bind_some]
    split
    · rfl
    · split
      · rfl
      · rw [ofBodySlices?_eq]
        rfl

/-- A text is read if and only if it has the form of a double, as `NaN`, as an infinity of its
sign or as the double nearest to its number, a tie going to the even one, with its sign.
Every number has just one nearest double, and no text is cut inside a character. -/
theorem text_read_iff :
    (∀ s, (∃ x, ofText? s = some x) ↔ ∃ negative d, DoubleText s negative d) ∧
    (∀ s x, ofText? s = some x ↔
      ∃ negative d, DoubleText s negative d ∧ d.RoundsTo negative x) ∧
    (∀ q : ℚ, 0 ≤ q → ∃! x : Double, x.IsNearest q) ∧
    ∀ s, ofSlices? s = some (ofText? s) := by
  refine ⟨fun s => ?_, fun s x => ofText?_eq_some_iff, fun q hq => ?_, ofSlices?_eq⟩
  · simp only [ofText?_eq_some_iff]
    constructor
    · rintro ⟨x, negative, d, htext, _⟩
      exact ⟨negative, d, htext⟩
    · rintro ⟨negative, d, htext⟩
      obtain ⟨x, hx⟩ := exists_roundsTo htext
      exact ⟨x, negative, d, htext, hx⟩
  · exact existsUnique_isNearest (by decide) hq

/-- Letters, marks and points that stand where none may. -/
example : ["1ef", "1e+-5", "Infinityd", ".e5", "1dd", "1.2.3"].map ofText? =
    List.replicate 6 none := by decide

end Binary
end Rollup
