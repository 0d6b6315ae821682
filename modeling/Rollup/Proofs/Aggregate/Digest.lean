import Rollup.Proofs.Aggregate.Answer
import Rollup.Proofs.Outcome

/-
Running states as digests of the values taken in.

`Digests a vs s` says that `s` is what aggregate `a` keeps of the contributions `vs`.
Updates and partial results extend the digested list (`Digests.take`), states of exact
aggregates join theirs (`Digests.merge`), and a finished digest is an answer
(`Digests.finish`).  The one step that can fail is the addition of decimals, and it fails
only when the exact total leaves 256 bits.
-/

namespace Rollup

namespace Signed

theorem wrap_zero {bits : Nat} : (wrap 0 : Signed bits) = zero := ext Int.zero_bmod

theorem addWrap_wrap_wrap {bits : Nat} (i j : Int) :
    (wrap i : Signed bits).addWrap (wrap j) = wrap (i + j) := by
  apply ext
  show Int.bmod (Int.bmod i _ + Int.bmod j _) _ = Int.bmod (i + j) _
  rw [Int.bmod_add_bmod, Int.add_bmod_bmod]

theorem wrap_toInt {bits : Nat} (a : Signed bits) : wrap a.toInt = a := by
  apply ext
  have hl := a.lower
  have hu := a.upper
  exact Int.bmod_eq_of_le_mul_two (by omega) (by omega)

end Signed

namespace Aggregate

/-- The exact total is within the 256 bits in which decimals are added. -/
def InRange (a : Aggregate) (vs : List Value) : Prop :=
  ∀ p s, a = .sumDecimal p s → -(2 ^ 255) ≤ total vs ∧ total vs < 2 ^ 255

theorem inRange_of_length_lt (a : Aggregate) {vs : List Value} (h : vs.length < 2 ^ 128) :
    a.InRange vs := by
  intro p s _
  have htotal := total_natAbs_le vs
  have hbound : vs.length * 2 ^ 127 < 2 ^ 128 * 2 ^ 127 :=
    Nat.mul_lt_mul_of_pos_right h (by decide)
  constructor <;> omega

theorem not_inRange_of_ofInt?_eq_none {p : Nat} {s : Int} {vs : List Value}
    (h : (Signed.ofInt? (total vs) : Option (Signed 256)) = none) :
    ¬ InRange (.sumDecimal p s) vs := by
  intro hr
  have h255 : Nat.pow 2 (256 - 1) = 2 ^ 255 := rfl
  have hrange := hr p s rfl
  rw [Signed.ofInt?, dif_pos (by rw [h255]; exact_mod_cast hrange)] at h
  cases h

/-- What a state keeps of the values taken in.  A sum that is there equals the total, and
one that is not stands for the empty total. -/
inductive Digests : Aggregate → List Value → State → Prop where
  | integer {width : IntWidth} {vs : List Value} {sum : Option (Signed 64)}
      (isSome : sum.isSome = true ↔ vs ≠ []) (value : sum.getD .zero = .wrap (total vs)) :
      Digests (.sumInteger width) vs (.integer sum)
  | real {a : Aggregate} {vs : List Value} {sum : Option Double} (isReal : a.isReal = true)
      (isSome : sum.isSome = true ↔ vs ≠ []) (value : sum.getD .zero = realTotal vs) :
      Digests a vs (.double sum)
  | decimal {p : Nat} {s : Int} {vs : List Value} {sum : Option (Signed 256)}
      (isSome : sum.isSome = true ↔ vs ≠ []) (value : (sum.getD .zero).toInt = total vs) :
      Digests (.sumDecimal p s) vs (.decimal sum)
  | unset (side : Extreme) (type : ColumnType) : Digests (.extreme side type) [] (.extreme none)
  | extreme {side : Extreme} {type : ColumnType} {vs : List Value} {v : Value}
      (holds : ∀ w ∈ vs, type.Holds w) (mem : v ∈ vs) (before : ∀ w ∈ vs, side.Before v w) :
      Digests (.extreme side type) vs (.extreme (some v))

/-- The state after a step, or the failure of a decimal total that is out of range. -/
def Extends (a : Aggregate) (vs : List Value) (result : Except StateFault State) : Prop :=
  (∃ s, result = .ok s ∧ Digests a vs s) ∨ (result = .error .decimalSum ∧ ¬ a.InRange vs)

theorem Extends.exists_ok {a : Aggregate} {vs : List Value} {result : Except StateFault State}
    (h : Extends a vs result) (hr : a.InRange vs) : ∃ s, result = .ok s ∧ Digests a vs s :=
  h.resolve_right fun hf => hf.2 hr

theorem Extends.of_ok {a : Aggregate} {vs : List Value} {result : Except StateFault State}
    {s : State} (h : Extends a vs result) (hs : result = .ok s) : Digests a vs s := by
  rcases h with ⟨t, ht, hd⟩ | ⟨hf, _⟩
  · rw [hs] at ht
    cases ht
    exact hd
  · rw [hs] at hf
    exact nomatch hf

namespace Digests

variable {a : Aggregate} {vs ws : List Value} {s o : State}

theorem start (a : Aggregate) : Digests a [] a.start := by
  cases a with
  | sumInteger width => exact .integer (by simp) Signed.wrap_zero.symm
  | sumFloat | sumDouble | sumString => exact .real rfl (by simp) rfl
  | sumDecimal p s => exact .decimal (by simp) rfl
  | extreme side type => exact .unset side type

theorem admits (h : Digests a vs s) : a.Admits vs := by
  rintro side type rfl
  cases h with
  | real hr => exact nomatch hr
  | unset => exact fun _ h => nomatch h
  | extreme holds => exact holds

/-- An exact state does not tell in which order the values came. -/
theorem perm (ha : a.isReal = false) (hp : vs.Perm ws) (h : Digests a vs s) :
    Digests a ws s := by
  have hne : vs ≠ [] ↔ ws ≠ [] := by
    rw [← List.length_pos_iff, ← List.length_pos_iff, hp.length_eq]
  cases h with
  | integer isSome value => exact .integer (isSome.trans hne) (total_perm hp ▸ value)
  | real hr => exact absurd (ha.symm.trans hr) (by decide)
  | decimal isSome value => exact .decimal (isSome.trans hne) (total_perm hp ▸ value)
  | unset side type => exact hp.nil_eq ▸ .unset side type
  | extreme holds mem before =>
    refine .extreme (fun w hw => holds w (hp.mem_iff.mpr hw)) (hp.mem_iff.mp mem) ?_
    exact fun w hw => before w (hp.mem_iff.mpr hw)

/-! ## Taking values in -/

theorem addDecimal {p : Nat} {sc : Int} {sum : Option (Signed 256)} {v : Signed 256}
    {w : Value} (h : Digests (.sumDecimal p sc) vs (.decimal sum)) (hw : w.units = v.toInt) :
    Extends (.sumDecimal p sc) (vs ++ [w]) (Aggregate.addDecimal sum v) := by
  have hnew : total (vs ++ [w]) = total vs + v.toInt := by
    rw [total_append, ← hw]
    exact congrArg _ (List.sum_singleton)
  cases h with
  | decimal _ value =>
    unfold Aggregate.addDecimal Signed.add?
    rw [value, ← hnew]
    cases hsum : (Signed.ofInt? (total (vs ++ [w])) : Option (Signed 256)) with
    | some t =>
      refine .inl ⟨_, rfl, .decimal (by simp) (Signed.ofInt?_eq_some_iff.mp hsum)⟩
    | none => exact .inr ⟨rfl, not_inRange_of_ofInt?_eq_none hsum⟩

theorem keepExtreme {side : Extreme} {type : ColumnType} {held : Option Value} {v : Value}
    (h : Digests (.extreme side type) vs (.extreme held)) (hv : type.Holds v) :
    ∃ t, Aggregate.keepExtreme side held v = .ok t ∧
      Digests (.extreme side type) (vs ++ [v]) t := by
  cases h with
  | unset =>
    refine ⟨_, rfl, .extreme ?_ List.mem_cons_self ?_⟩
    · exact fun w hw => (List.mem_singleton.mp hw) ▸ hv
    · exact fun w hw => (List.mem_singleton.mp hw).symm ▸ Extreme.before_refl hv
  | @extreme _ _ _ u holds mem before =>
    have hu := holds u mem
    have hnew : ∀ w ∈ vs ++ [v], type.Holds w := by
      intro w hw
      rcases List.mem_append.mp hw with hw | hw
      · exact holds w hw
      · exact (List.mem_singleton.mp hw) ▸ hv
    obtain ⟨o, ho, hle, hge⟩ := hv.compare_cases hu
    simp only [Aggregate.keepExtreme, ho]
    by_cases hreplaces : (o == Extreme.replaces side) = true
    · rw [if_pos hreplaces]
      have hvu : side.Before v u := by
        cases side with
        | min => exact hle (by rw [beq_iff_eq.mp hreplaces]; decide)
        | max => exact hge (by rw [beq_iff_eq.mp hreplaces]; decide)
      refine ⟨_, rfl, .extreme hnew (List.mem_append_right _ List.mem_cons_self) ?_⟩
      intro w hw
      rcases List.mem_append.mp hw with hw | hw
      · exact Extreme.before_trans hv hu (holds w hw) hvu (before w hw)
      · exact (List.mem_singleton.mp hw).symm ▸ Extreme.before_refl hv
    · rw [if_neg hreplaces]
      have huv : side.Before u v := by
        cases side with
        | min => exact hge fun h => hreplaces (beq_iff_eq.mpr h)
        | max => exact hle fun h => hreplaces (beq_iff_eq.mpr h)
      refine ⟨_, rfl, .extreme hnew (List.mem_append_left _ mem) ?_⟩
      intro w hw
      rcases List.mem_append.mp hw with hw | hw
      · exact before w hw
      · exact (List.mem_singleton.mp hw) ▸ huv

theorem updateExtreme {side : Extreme} {type : ColumnType} {v : Value}
    (h : Digests (.extreme side type) vs s) (hv : type.Holds v) :
    ∃ t, Aggregate.updateExtreme side type s v = .ok t ∧
      Digests (.extreme side type) (vs ++ [v]) t := by
  have hs : ∃ held, s = .extreme held := by
    cases h with
    | real hr => exact nomatch hr
    | unset => exact ⟨_, rfl⟩
    | extreme => exact ⟨_, rfl⟩
  obtain ⟨held, rfl⟩ := hs
  rw [Aggregate.updateExtreme, hv.normalize_eq]
  exact h.keepExtreme hv

theorem addInteger {width : IntWidth} {sum : Option (Signed 64)} {i : Signed 64}
    (h : Digests (.sumInteger width) vs (.integer sum)) :
    Digests (.sumInteger width) (vs ++ [.integer i]) (Aggregate.addInteger sum i) := by
  cases h with
  | integer _ value =>
    refine .integer (by simp) ?_
    show (sum.getD .zero).addWrap i = _
    rw [value, total_append, ← Signed.wrap_toInt i, Signed.addWrap_wrap_wrap]
    exact congrArg Signed.wrap (congrArg _ (by simp [total, Value.units, Signed.wrap_toInt]))

theorem addDouble {sum : Option Double} (ha : a.isReal = true)
    (h : Digests a vs (.double sum)) (w : Value) :
    Digests a (vs ++ [w]) (Aggregate.addDouble sum w.real) := by
  cases h with
  | real _ _ value =>
    refine .real ha (by simp) ?_
    show (sum.getD .zero).add w.real = _
    rw [value, realTotal, realTotal, List.foldl_append, List.foldl_cons, List.foldl_nil]

end Digests

/-- Takes in a cell: an argument value, or the result of an earlier stage. -/
def take (a : Aggregate) (ofPartials : Bool) (s : State) (c : Cell) : Except StateFault State :=
  if ofPartials then a.absorb s c else a.update s c

theorem addends_some (a : Aggregate) (v : Value) :
    a.addends [some v] = (a.addend? v).toList := by
  cases h : a.addend? v <;> simp [addends, h]

theorem expects_extreme {ofPartials : Bool} (side : Extreme) (type : ColumnType) :
    (Aggregate.extreme side type).expects ofPartials = type := by
  cases ofPartials <;> rfl

theorem take_none {ofPartials : Bool} (a : Aggregate) (s : State) :
    a.take ofPartials s none = .ok s := by
  cases ofPartials <;> rfl

theorem take_extreme {ofPartials : Bool} (side : Extreme) (type : ColumnType) (s : State)
    (v : Value) :
    (Aggregate.extreme side type).take ofPartials s (some v) = updateExtreme side type s v := by
  cases ofPartials <;> rfl

theorem take_sum {a : Aggregate} {ofPartials : Bool} {s : State}
    (ha : ∀ side type, a ≠ .extreme side type) (v : Value) :
    a.take ofPartials s (some v) =
      match (a.expects ofPartials).normalize v with
      | .error e => .error (.value e)
      | .ok w => if ofPartials then a.absorbNormal s w else a.updateNormal s w := by
  cases a with
  | extreme side type => exact absurd rfl (ha side type)
  | _ => cases ofPartials <;> rfl

/-- A value that has the expected form stays as it is when it is taken in. -/
theorem take_some {a : Aggregate} {ofPartials : Bool} {s : State} {v : Value}
    (ha : ∀ side type, a ≠ .extreme side type) (hv : (a.expects ofPartials).Holds v) :
    a.take ofPartials s (some v) =
      if ofPartials then a.absorbNormal s v else a.updateNormal s v := by
  rw [take_sum ha, hv.normalize_eq]

/-- A cell is taken in by way of its normal form. -/
theorem take_eq_take_of_normalizeCell {a : Aggregate} {ofPartials : Bool} {s : State} {c w : Cell}
    (h : (a.expects ofPartials).normalizeCell c = .ok w) :
    a.take ofPartials s c = a.take ofPartials s w := by
  cases c with
  | none =>
    cases h
    rfl
  | some v =>
    obtain ⟨x, hx, rfl⟩ := map_eq_ok_iff.mp h
    have hagain := (ColumnType.Holds.of_normalize hx).normalize_eq
    by_cases ha : ∃ side type, a = .extreme side type
    · obtain ⟨side, type, rfl⟩ := ha
      rw [expects_extreme] at hx hagain
      rw [take_extreme, take_extreme]
      unfold updateExtreme
      rw [hx, hagain]
    · have hsum : ∀ side type, a ≠ .extreme side type := fun side type h => ha ⟨side, type, h⟩
      rw [take_sum hsum, take_sum hsum, hx, hagain]

/-- A cell without a normal form is refused by every state that its aggregate looks at. -/
theorem take_of_not_normal {a : Aggregate} {ofPartials : Bool} {s : State} {c : Cell}
    {e : ValueFault} (hs : ∀ side type, a = .extreme side type → ∃ held, s = .extreme held)
    (he : (a.expects ofPartials).normalizeCell c = .error e) :
    a.take ofPartials s c = .error (.value e) := by
  cases c with
  | none => exact nomatch he
  | some v =>
    have hv := map_eq_error_iff.mp he
    by_cases ha : ∃ side type, a = .extreme side type
    · obtain ⟨side, type, rfl⟩ := ha
      obtain ⟨held, rfl⟩ := hs side type rfl
      rw [expects_extreme] at hv
      rw [take_extreme, updateExtreme, hv]
    · have hsum : ∀ side type, a ≠ .extreme side type := fun side type h => ha ⟨side, type, h⟩
      rw [take_sum hsum, hv]

theorem take_integer {width : IntWidth} {ofPartials : Bool} {v : Value}
    (hv : ((Aggregate.sumInteger width).expects ofPartials).Holds v) :
    ∃ i, v = .integer i ∧ ∀ sum, (Aggregate.sumInteger width).take ofPartials (.integer sum)
      (some v) = .ok (addInteger sum i) := by
  obtain ⟨i, rfl⟩ : ∃ i, v = .integer i := by
    cases ofPartials <;> cases hv <;> exact ⟨_, rfl⟩
  refine ⟨i, rfl, fun sum => ?_⟩
  rw [take_some (by simp) hv]
  cases ofPartials <;> rfl

/-- Any decimal can come, and only its unscaled value is added. -/
theorem take_decimal {p : Nat} {sc : Int} {ofPartials : Bool} {v : Value}
    (hv : ((Aggregate.sumDecimal p sc).expects ofPartials).Holds v) :
    ∃ d, v = .decimal d ∧ ∀ sum, (Aggregate.sumDecimal p sc).take ofPartials (.decimal sum)
      (some v) = addDecimal sum (wide d.unscaled) := by
  obtain ⟨d, rfl⟩ : ∃ d, v = .decimal d := by
    cases ofPartials <;> cases hv <;> exact ⟨_, rfl⟩
  refine ⟨d, rfl, fun sum => ?_⟩
  rw [take_some (by simp) hv]
  cases ofPartials <;> rfl

/-- A real sum takes a value in by one addition, or passes it over if it adds nothing. -/
theorem take_real {a : Aggregate} {ofPartials : Bool} {v : Value} (ha : a.isReal = true)
    (hv : (a.expects ofPartials).Holds v) (sum : Option Double) :
    (∃ w, a.addend? v = some w ∧
      a.take ofPartials (.double sum) (some v) = .ok (addDouble sum w.real)) ∨
    (a.addend? v = none ∧ a.take ofPartials (.double sum) (some v) = .ok (.double sum)) := by
  rw [take_some (by rintro side type rfl; exact nomatch ha) hv]
  cases ofPartials with
  | true =>
    cases a with
    | sumFloat | sumDouble | sumString =>
      cases hv with
      | double x => exact .inl ⟨_, rfl, rfl⟩
    | _ => exact nomatch ha
  | false =>
    cases a with
    | sumFloat =>
      cases hv with
      | float x => exact .inl ⟨_, rfl, rfl⟩
    | sumDouble =>
      cases hv with
      | double x => exact .inl ⟨_, rfl, rfl⟩
    | sumString =>
      cases hv with
      | string text =>
        cases hx : Binary.ofText? text with
        | some x =>
          exact .inl ⟨.double x, by simp [addend?, hx], by simp [updateNormal, hx, Value.real]⟩
        | none => exact .inr ⟨by simp [addend?, hx], by simp [updateNormal, hx]⟩
    | _ => exact nomatch ha

theorem Digests.take_real {a : Aggregate} {vs : List Value} {sum : Option Double}
    {ofPartials : Bool} {v : Value} (ha : a.isReal = true) (h : Digests a vs (.double sum))
    (hv : (a.expects ofPartials).Holds v) :
    ∃ t, a.take ofPartials (.double sum) (some v) = .ok t ∧
      Digests a (vs ++ a.addends [some v]) t := by
  rw [addends_some]
  rcases Aggregate.take_real ha hv sum with ⟨w, hw, ht⟩ | ⟨hnone, ht⟩
  · rw [hw]
    exact ⟨_, ht, h.addDouble ha w⟩
  · rw [hnone]
    exact ⟨_, ht, (List.append_nil vs).symm ▸ h⟩

/-- A cell in the form its aggregate expects is taken in for what it adds. -/
theorem Digests.take {a : Aggregate} {vs : List Value} {s : State} {ofPartials : Bool}
    {c : Cell} (h : Digests a vs s) (hc : (a.expects ofPartials).HoldsCell c) :
    Extends a (vs ++ a.addends [c]) (a.take ofPartials s c) := by
  cases c with
  | none => exact .inl ⟨s, take_none a s, (List.append_nil vs).symm ▸ h⟩
  | some v =>
    have hv := hc v rfl
    cases a with
    | sumInteger width =>
      obtain ⟨i, rfl, htake⟩ := take_integer hv
      cases h with
      | real hr => exact nomatch hr
      | integer isSome value =>
        exact .inl ⟨_, htake _, (Digests.integer isSome value).addInteger⟩
    | sumFloat | sumDouble | sumString =>
      cases h with
      | real hr isSome value => exact .inl ((Digests.real hr isSome value).take_real hr hv)
    | sumDecimal p sc =>
      obtain ⟨d, rfl, htake⟩ := take_decimal hv
      cases h with
      | real hr => exact nomatch hr
      | decimal isSome value =>
        rw [htake]
        exact (Digests.decimal isSome value).addDecimal rfl
    | extreme side type =>
      rw [expects_extreme] at hv
      rw [take_extreme]
      exact .inl (h.updateExtreme hv)

/-! ## Joining states -/

theorem isSome_combine {α : Type} (zero : α) (add : α → α → α) (x y : Option α) :
    (combine zero add x y).isSome = (x.isSome || y.isSome) := by
  cases x <;> cases y <;> rfl

theorem or_isSome_iff {α : Type} {x y : Option α} {vs ws : List Value}
    (hx : x.isSome = true ↔ vs ≠ []) (hy : y.isSome = true ↔ ws ≠ []) :
    (x.isSome || y.isSome) = true ↔ vs ++ ws ≠ [] := by
  rw [Bool.or_eq_true, hx, hy, ne_eq, ne_eq, ne_eq, List.append_eq_nil_iff, not_and_or]

theorem Digests.mergeInteger {width : IntWidth} {vs ws : List Value} {x y : Option (Signed 64)}
    (hs : Digests (.sumInteger width) vs (.integer x))
    (ho : Digests (.sumInteger width) ws (.integer y)) :
    Digests (.sumInteger width) (vs ++ ws) (.integer (combine .zero .addWrap x y)) := by
  cases hs with
  | integer hx hxv =>
    cases ho with
    | integer hy hyv =>
      have hvalue : (combine .zero .addWrap x y).getD .zero =
          (x.getD .zero).addWrap (y.getD .zero) := by
        cases x <;> cases y <;> rfl
      refine .integer ?_ ?_
      · rw [isSome_combine]
        exact or_isSome_iff hx hy
      · rw [hvalue, hxv, hyv, Signed.addWrap_wrap_wrap, total_append]

theorem Digests.mergeDecimal {p : Nat} {sc : Int} {vs ws : List Value}
    {x y : Option (Signed 256)} (hs : Digests (.sumDecimal p sc) vs (.decimal x))
    (ho : Digests (.sumDecimal p sc) ws (.decimal y)) :
    Extends (.sumDecimal p sc) (vs ++ ws)
      ((Aggregate.sumDecimal p sc).merge (.decimal x) (.decimal y)) := by
  cases hs with
  | decimal hx hxv =>
    cases ho with
    | decimal hy hyv =>
      have hadd : (x.getD .zero).add? (y.getD .zero) = Signed.ofInt? (total (vs ++ ws)) := by
        rw [Signed.add?, hxv, hyv, total_append]
      show Extends _ _ (mergeSum (.sumDecimal p sc) (.decimal x) (.decimal y))
      rw [mergeSum, hadd]
      cases hsum : (Signed.ofInt? (total (vs ++ ws)) : Option (Signed 256)) with
      | none => exact .inr ⟨rfl, not_inRange_of_ofInt?_eq_none hsum⟩
      | some t =>
        have ht := Signed.ofInt?_eq_some_iff.mp hsum
        refine .inl ⟨_, rfl, ?_⟩
        cases hany : (x.isSome || y.isSome) with
        | true => exact .decimal (iff_of_true rfl ((or_isSome_iff hx hy).mp hany)) ht
        | false =>
          have hnil : vs ++ ws = [] := by
            by_contra h
            have htrue := (or_isSome_iff hx hy).mpr h
            rw [hany] at htrue
            exact nomatch htrue
          rw [hnil]
          exact .start (.sumDecimal p sc)

/-- An extreme that precedes the values of another run stands for all of them. -/
theorem Digests.mergeExtreme {side : Extreme} {type : ColumnType} {vs ws : List Value}
    {s o : State} (hs : Digests (.extreme side type) vs s)
    (ho : Digests (.extreme side type) ws o) :
    ∃ t, (Aggregate.extreme side type).merge s o = .ok t ∧
      Digests (.extreme side type) (vs ++ ws) t := by
  cases ho with
  | real hr => exact nomatch hr
  | unset => exact ⟨s, rfl, (List.append_nil vs).symm ▸ hs⟩
  | @extreme _ _ _ w holds mem before =>
    obtain ⟨t, ht, hd⟩ := hs.updateExtreme (holds w mem)
    refine ⟨t, ht, ?_⟩
    generalize hus : vs ++ [w] = us at hd
    cases hd with
    | real hr => exact nomatch hr
    | unset => exact absurd hus (by simp)
    | @extreme _ _ _ u holds' mem' before' =>
      subst hus
      have hall : ∀ x ∈ vs ++ ws, type.Holds x := by
        intro x hx
        rcases List.mem_append.mp hx with hx | hx
        · exact holds' x (List.mem_append_left _ hx)
        · exact holds x hx
      refine .extreme hall ?_ ?_
      · rcases List.mem_append.mp mem' with hu | hu
        · exact List.mem_append_left _ hu
        · exact List.mem_append_right _ (List.mem_singleton.mp hu ▸ mem)
      · intro x hx
        rcases List.mem_append.mp hx with hx | hx
        · exact before' x (List.mem_append_left _ hx)
        · exact Extreme.before_trans (holds' u mem') (holds w mem) (holds x hx)
            (before' w (List.mem_append_right _ List.mem_cons_self)) (before x hx)

/-- The state of another run of an exact aggregate is taken in for all that it digests. -/
theorem Digests.merge {a : Aggregate} {vs ws : List Value} {s o : State}
    (ha : a.isReal = false) (hs : Digests a vs s) (ho : Digests a ws o) :
    Extends a (vs ++ ws) (a.merge s o) := by
  cases hs with
  | real hr => exact absurd (ha.symm.trans hr) (by decide)
  | integer hx hxv =>
    cases ho with
    | real hr => exact nomatch hr
    | integer hy hyv =>
      exact .inl ⟨_, rfl, (Digests.integer hx hxv).mergeInteger (.integer hy hyv)⟩
  | decimal hx hxv =>
    cases ho with
    | real hr => exact nomatch hr
    | decimal hy hyv => exact (Digests.decimal hx hxv).mergeDecimal (.decimal hy hyv)
  | unset side type => exact .inl ((Digests.unset side type).mergeExtreme ho)
  | extreme holds mem before =>
    exact .inl ((Digests.extreme holds mem before).mergeExtreme ho)

/-! ## Results -/

theorem tenPow_eq (n : Nat) : Text.tenPow n = 10 ^ n := rfl

/-- A total of few enough digits is within the 128 bits of a decimal. -/
theorem fitDecimal?_eq_some {p : Nat} {s : Int} {sum : Signed 256} (hp : p ≤ 38)
    (h : sum.toInt.natAbs < 10 ^ p) :
    ∃ v : Signed 128, fitDecimal? p s sum = some ⟨v, p, s⟩ ∧ v.toInt = sum.toInt := by
  have hpow : 10 ^ p ≤ 10 ^ 38 := Nat.pow_le_pow_right (by decide) hp
  have h128 : Nat.pow 2 (128 - 1) = 2 ^ 127 := rfl
  have hrange : -(Nat.pow 2 (128 - 1) : Nat) ≤ sum.toInt ∧
      sum.toInt < (Nat.pow 2 (128 - 1) : Nat) := by
    rw [h128]
    omega
  refine ⟨⟨sum.toInt, hrange.1, hrange.2⟩, ?_, rfl⟩
  rw [fitDecimal?, tenPow_eq, if_pos h, Signed.ofInt?, dif_pos hrange]
  rfl

/-- Every digest can be finished, and the result answers for all that was taken in. -/
theorem Digests.finish {a : Aggregate} {vs : List Value} {s : State} (h : Digests a vs s) :
    ∃ c, a.finish s = .ok c ∧ Answers a vs c := by
  cases h with
  | @integer width _ sum isSome value =>
    refine ⟨sum.map .integer, rfl, ?_⟩
    cases sum with
    | none =>
      obtain rfl : vs = [] := by simpa using isSome
      exact .missing _
    | some x =>
      rw [show x = .wrap (total vs) from value]
      exact .integer (isSome.mp rfl)
  | @real _ _ sum hr isSome value =>
    refine ⟨sum.map .double, ?_, ?_⟩
    · cases a with
      | sumFloat | sumDouble | sumString => rfl
      | _ => exact nomatch hr
    · cases sum with
      | none =>
        obtain rfl : vs = [] := by simpa using isSome
        exact .missing _
      | some x =>
        rw [show x = realTotal vs from value]
        exact .real hr (isSome.mp rfl)
  | @decimal p sc _ sum isSome value =>
    cases sum with
    | none =>
      obtain rfl : vs = [] := by simpa using isSome
      exact ⟨none, rfl, .missing _⟩
    | some x =>
      have hx : x.toInt = total vs := value
      refine ⟨_, rfl, ?_⟩
      by_cases hfits : x.toInt.natAbs < 10 ^ min (p + 10) 38
      · obtain ⟨v, hv, hvx⟩ := fitDecimal?_eq_some (s := sc) (Nat.min_le_right _ _) hfits
        rw [hv]
        exact .decimal v (isSome.mp rfl) (hvx.trans hx) (hx ▸ hfits)
      · rw [fitDecimal?, tenPow_eq, if_neg hfits]
        exact .exceeding (isSome.mp rfl) (hx ▸ Nat.le_of_not_lt hfits)
  | unset side type => exact ⟨_, rfl, .missing _⟩
  | extreme holds mem before => exact ⟨_, rfl, .extreme mem before⟩

end Aggregate
end Rollup
