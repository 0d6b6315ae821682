import Mathlib.Logic.Function.Basic
import Mathlib.Tactic.Linarith
import Mathlib.Tactic.Ring
import Rollup.Proofs.Aggregate.Digest

/-
Families of accumulators that take values in and are merged with each other.

`holdings` says what each accumulator of a family has been given, without looking at any
state: values in the form of the expected type, and with a merge all that the other one
holds, be it the same accumulator.  A move that does not fit, or that would take a decimal
total out of its word, adds nothing.  The accumulators follow their holdings move by move
(`Follows.after`), so they accept the same moves and finish into the answers for what is
held.
-/

namespace Rollup

/-- A step of one accumulator of a family: a cell comes in, from the argument or from the
results of an earlier stage, or what another accumulator holds. -/
inductive Move (ι : Type) where
  | give (i : ι) (ofPartials : Bool) (c : Cell)
  | merge (i j : ι)

/-- The accumulator that a move changes. -/
def Move.target {ι : Type} : Move ι → ι
  | .give i _ _ => i
  | .merge i _ => i

abbrev Family (ι : Type) := ι → Accumulator

namespace Family

variable {ι : Type}

def start (a : ι → Aggregate) : Family ι := fun i => .start (a i)

/-- What a move makes of its accumulator. -/
def act (f : Family ι) : Move ι → Except AccumulatorFault Accumulator
  | .give i ofPartials c => if ofPartials then (f i).absorb c else (f i).update c
  | .merge i j => (f i).merge (f j)

variable [DecidableEq ι]

/-- A move that fails leaves every accumulator as it was. -/
def after (f : Family ι) (m : Move ι) : Family ι :=
  match f.act m with
  | .ok acc => Function.update f m.target acc
  | .error _ => f

def run (f : Family ι) (moves : List (Move ι)) : Family ι := moves.foldl after f

end Family

/-! ## What is held -/

namespace Aggregate

instance (a : Aggregate) (vs : List Value) : Decidable (a.InRange vs) :=
  match a with
  | .sumDecimal p s =>
      decidable_of_iff (-(2 ^ 255) ≤ total vs ∧ total vs < 2 ^ 255)
        ⟨fun h _ _ _ => h, fun h => h p s rfl⟩
  | .sumInteger _ | .sumFloat | .sumDouble | .sumString | .extreme _ _ =>
      isTrue fun _ _ h => nomatch h

end Aggregate

variable {ι : Type}

/-- The values that a move brings: that of a cell in the form of the expected type, or all
that an accumulator of the same aggregate holds.  A move that does not fit brings none. -/
def Move.brings? (a : ι → Aggregate) (held : ι → List Value) : Move ι → Option (List Value)
  | .give i ofPartials c => (((a i).expects ofPartials).normalizeCell c).toOption.map Option.toList
  | .merge i j => if a i = a j then some (held j) else none

/-- The values that a move adds, which the exact total must stay in range with. -/
def Move.adds? (a : ι → Aggregate) (held : ι → List Value) (m : Move ι) : Option (List Value) :=
  (m.brings? a held).filter fun vs => (a m.target).InRange (held m.target ++ vs)

def holdingsAfter [DecidableEq ι] (a : ι → Aggregate) (held : ι → List Value) (m : Move ι) :
    ι → List Value :=
  match m.adds? a held with
  | some vs => Function.update held m.target (held m.target ++ vs)
  | none => held

/-- What each accumulator of a family holds after the given moves, in order of arrival. -/
def holdings [DecidableEq ι] (a : ι → Aggregate) (moves : List (Move ι)) : ι → List Value :=
  moves.foldl (holdingsAfter a) fun _ => []

/-! ## One accumulator -/

namespace Aggregate

variable {a : Aggregate} {vs : List Value} {s : State} {ofPartials : Bool} {c w : Cell}

theorem addends_singleton (ha : a.isReal = false) (c : Cell) : a.addends [c] = c.toList := by
  cases c with
  | none => rfl
  | some v =>
    rw [addends_some]
    cases a with
    | sumString => exact nomatch ha
    | _ => rfl

theorem Digests.take_of_normalizeCell (ha : a.isReal = false) (h : Digests a vs s)
    (hw : (a.expects ofPartials).normalizeCell c = .ok w) :
    Extends a (vs ++ w.toList) (a.take ofPartials s c) := by
  rw [take_eq_take_of_normalizeCell hw, ← addends_singleton ha]
  exact h.take (.of_normalizeCell hw)

theorem Digests.take_of_not_normal (h : Digests a vs s) {e : ValueFault}
    (he : (a.expects ofPartials).normalizeCell c = .error e) :
    a.take ofPartials s c = .error (.value e) := by
  refine Aggregate.take_of_not_normal (fun side type ha => ?_) he
  subst ha
  cases h with
  | real hr => exact nomatch hr
  | unset => exact ⟨_, rfl⟩
  | extreme => exact ⟨_, rfl⟩

theorem Digests.inRange (h : Digests a vs s) : a.InRange vs := by
  rintro p sc rfl
  cases h with
  | real hr => exact nomatch hr
  | @decimal _ _ _ sum _ value =>
    rw [← value]
    have hl := (sum.getD .zero).lower
    have hu := (sum.getD .zero).upper
    rw [show Nat.pow 2 (256 - 1) = 2 ^ 255 from rfl] at hl hu
    constructor <;> push_cast at * <;> omega

end Aggregate

/-! ## Families -/

namespace Family

variable {a : ι → Aggregate} {held : ι → List Value} {f : Family ι} {m : Move ι}

/-- Every accumulator digests what it holds. -/
structure Follows (a : ι → Aggregate) (held : ι → List Value) (f : Family ι) : Prop where
  aggregate : ∀ i, (f i).aggregate = a i
  digests : ∀ i, Aggregate.Digests (a i) (held i) (f i).state

theorem follows_start (a : ι → Aggregate) : Follows a (fun _ => []) (start a) where
  aggregate _ := rfl
  digests i := .start (a i)

/-- What a move adds it makes of its accumulator, and a move that adds nothing it refuses. -/
def Agrees (a : ι → Aggregate) (held : ι → List Value) (f : Family ι) (m : Move ι) : Prop :=
  (∃ vs s, m.adds? a held = some vs ∧ f.act m = .ok ⟨a m.target, s⟩ ∧
    Aggregate.Digests (a m.target) (held m.target ++ vs) s) ∨
  (m.adds? a held = none ∧ ∃ e, f.act m = .error e)

theorem Follows.agrees_of_extends (h : Follows a held f) {vs : List Value}
    {result : Except StateFault State} (hbrings : m.brings? a held = some vs)
    (hact : f.act m = (f m.target).holding result)
    (hresult : Aggregate.Extends (a m.target) (held m.target ++ vs) result) :
    Agrees a held f m := by
  rcases hresult with ⟨s, rfl, hs⟩ | ⟨rfl, hrange⟩
  · refine .inl ⟨vs, s, ?_, ?_, hs⟩
    · rw [Move.adds?, hbrings, Option.filter_some, if_pos (decide_eq_true hs.inRange)]
    · rw [hact, Accumulator.holding, h.aggregate]
  · refine .inr ⟨?_, _, hact⟩
    rw [Move.adds?, hbrings, Option.filter_some, if_neg (by simpa using hrange)]

theorem Follows.agrees (h : Follows a held f) (ha : ∀ i, (a i).isReal = false) (m : Move ι) :
    Agrees a held f m := by
  cases m with
  | give i ofPartials c =>
    have hact : f.act (.give i ofPartials c) =
        (f i).holding ((a i).take ofPartials (f i).state c) := by
      rw [← h.aggregate i]
      cases ofPartials <;> rfl
    cases hw : ((a i).expects ofPartials).normalizeCell c with
    | ok w =>
      have hbrings : (Move.give i ofPartials c).brings? a held = some w.toList := by
        rw [Move.brings?, hw]
        rfl
      exact h.agrees_of_extends hbrings hact ((h.digests i).take_of_normalizeCell (ha i) hw)
    | error e =>
      refine .inr ⟨?_, .state (.value e), ?_⟩
      · rw [Move.adds?, Move.brings?, hw]
        rfl
      · rw [hact, (h.digests i).take_of_not_normal hw]
        rfl
  | merge i j =>
    have hact : f.act (.merge i j) =
        if a i = a j then (f i).holding ((a i).merge (f i).state (f j).state)
        else .error (.different (a i) (a j)) := by
      rw [act, Accumulator.merge, h.aggregate, h.aggregate]
    by_cases hsame : a i = a j
    · rw [if_pos hsame] at hact
      have hbrings : (Move.merge i j).brings? a held = some (held j) := if_pos hsame
      exact h.agrees_of_extends hbrings hact ((h.digests i).merge (ha i) (hsame ▸ h.digests j))
    · rw [if_neg hsame] at hact
      refine .inr ⟨?_, _, hact⟩
      rw [Move.adds?, Move.brings?, if_neg hsame]
      rfl

variable [DecidableEq ι]

theorem Follows.after (h : Follows a held f) (ha : ∀ i, (a i).isReal = false) (m : Move ι) :
    Follows a (holdingsAfter a held m) (f.after m) := by
  rcases h.agrees ha m with ⟨vs, s, hadds, hact, hs⟩ | ⟨hadds, e, hact⟩
  · have hf : f.after m = Function.update f m.target ⟨a m.target, s⟩ := by
      rw [Family.after, hact]
    have hheld : holdingsAfter a held m =
        Function.update held m.target (held m.target ++ vs) := by
      rw [holdingsAfter, hadds]
    rw [hf, hheld]
    constructor
    · intro i
      by_cases hi : i = m.target
      · rw [hi, Function.update_self]
      · rw [Function.update_of_ne hi, h.aggregate]
    · intro i
      by_cases hi : i = m.target
      · rw [hi, Function.update_self, Function.update_self]
        exact hs
      · rw [Function.update_of_ne hi, Function.update_of_ne hi]
        exact h.digests i
  · rw [holdingsAfter, hadds, Family.after, hact]
    exact h

theorem Follows.run (h : Follows a held f) (ha : ∀ i, (a i).isReal = false)
    (moves : List (Move ι)) :
    Follows a (moves.foldl (holdingsAfter a) held) (f.run moves) := by
  induction moves generalizing held f with
  | nil => exact h
  | cons m moves ih => exact ih (h.after ha m)

/-- After any moves every accumulator of a family without sums of binary numbers can be
finished, and the result answers for what it holds, in whatever order.  A move is accepted
exactly if it fits and the exact total of what is held and what it brings is in range. -/
theorem run_answers (ha : ∀ i, (a i).isReal = false) (moves : List (Move ι)) :
    (∀ i, ∃ c, ((start a).run moves i).finish = .ok c ∧
      ∀ vs, (holdings a moves i).Perm vs → Aggregate.Answers (a i) vs c) ∧
    ∀ m, (∃ acc, ((start a).run moves).act m = .ok acc) ↔
      ∃ vs, m.brings? a (holdings a moves) = some vs ∧
        (a m.target).InRange (holdings a moves m.target ++ vs) := by
  have h : Follows a (holdings a moves) ((start a).run moves) := (follows_start a).run ha moves
  constructor
  · intro i
    obtain ⟨c, hc, hanswers⟩ := (h.digests i).finish
    refine ⟨c, ?_, fun vs hvs => hanswers.perm (ha i) hvs⟩
    rw [Accumulator.finish, h.aggregate]
    exact hc
  · intro m
    have hadds : (∃ vs, m.brings? a (holdings a moves) = some vs ∧
        (a m.target).InRange (holdings a moves m.target ++ vs)) ↔
        ∃ vs, m.adds? a (holdings a moves) = some vs := by
      simp only [Move.adds?, Option.filter_eq_some_iff, decide_eq_true_eq]
    rw [hadds]
    rcases h.agrees ha m with ⟨vs, s, hsome, hact, _⟩ | ⟨hnone, e, hact⟩
    · exact iff_of_true ⟨_, hact⟩ ⟨vs, hsome⟩
    · rw [hnone, hact]
      exact iff_of_false (by simp) (by simp)

/-! ## Doubling -/

/-- Each merge of an accumulator with itself doubles its total, as long as that fits. -/
theorem total_merge_self {i : ι} {n : Nat} (hl : -(2 ^ 255) ≤ 2 ^ n * Aggregate.total (held i))
    (hu : 2 ^ n * Aggregate.total (held i) < 2 ^ 255) :
    Aggregate.total ((List.replicate n (Move.merge i i)).foldl (holdingsAfter a) held i) =
      2 ^ n * Aggregate.total (held i) := by
  induction n generalizing held with
  | zero => simp
  | succ n ih =>
    have htwice : Aggregate.total (held i ++ held i) = 2 * Aggregate.total (held i) := by
      rw [Aggregate.total_append]
      omega
    have hpow : (1 : Int) ≤ 2 ^ n := one_le_pow₀ (by decide)
    have hstep : (2 : Int) ^ (n + 1) * Aggregate.total (held i) =
        2 ^ n * Aggregate.total (held i ++ held i) := by
      rw [htwice]
      ring
    rw [hstep] at hl hu ⊢
    have hin : (a i).InRange (held i ++ held i) := by
      intro _ _ _
      generalize Aggregate.total (held i ++ held i) = t at hl hu
      constructor <;> nlinarith
    have hadds : (Move.merge i i).adds? a held = some (held i) := by
      rw [Move.adds?, Move.brings?, if_pos rfl, Option.filter_some]
      exact if_pos (decide_eq_true hin)
    have hafter : holdingsAfter a held (.merge i i) =
        Function.update held i (held i ++ held i) := by
      rw [holdingsAfter, hadds]
      rfl
    have hself : holdingsAfter a held (.merge i i) i = held i ++ held i := by
      rw [hafter, Function.update_self]
    rw [← hself] at hl hu ⊢
    exact ih hl hu

namespace Doubling

def aggregates (i : Bool) : Aggregate := if i then .sumDecimal 38 0 else .extreme .max .string

/-- The least value that a decimal can have. -/
def least : Move Bool := .give true false (some (.decimal ⟨.least 128, 38, 0⟩))

def moves (n : Nat) : List (Move Bool) := least :: List.replicate n (.merge true true)

theorem total_moves {n : Nat} (hn : n ≤ 128) :
    Aggregate.total (holdings aggregates (moves n) true) = -(2 ^ (n + 127)) := by
  have hleast : Aggregate.total (holdingsAfter aggregates (fun _ => []) least true) =
      -(2 ^ 127) := rfl
  have hpow : (2 : Int) ^ n * -(2 ^ 127) = -(2 ^ (n + 127)) := by ring
  have hle : (2 : Int) ^ (n + 127) ≤ 2 ^ 255 := pow_le_pow_right₀ (by decide) (by omega)
  have hpos : (0 : Int) < 2 ^ (n + 127) := by positivity
  show Aggregate.total ((List.replicate n (Move.merge true true)).foldl (holdingsAfter aggregates)
    (holdingsAfter aggregates (fun _ => []) least) true) = _
  rw [total_merge_self, hleast, hpow]
  · rw [hleast, hpow]
    omega
  · rw [hleast, hpow]
    omega

/-- A merge of the sum with itself brings what the sum holds. -/
theorem total_twice {n : Nat} (hn : n ≤ 128) :
    Aggregate.total (holdings aggregates (moves n) true ++ holdings aggregates (moves n) true) =
      -(2 ^ (n + 128)) := by
  rw [Aggregate.total_append, total_moves hn]
  ring

end Doubling

/-- The least value can be doubled 128 times in the word that sums have, and has become too
long for a result then. -/
theorem run_answers_doubling :
    (∀ i, (Doubling.aggregates i).isReal = false) ∧
      ((start Doubling.aggregates).run (Doubling.moves 128) true).finish = .ok none ∧
      (∃ acc, ((start Doubling.aggregates).run (Doubling.moves 127)).act (.merge true true) =
        .ok acc) ∧
      (¬ ∃ acc, ((start Doubling.aggregates).run (Doubling.moves 128)).act (.merge true true) =
        .ok acc) ∧
      ¬ ∃ acc, ((start Doubling.aggregates).run (Doubling.moves 0)).act (.merge false true) =
        .ok acc := by
  have hexact : ∀ i, (Doubling.aggregates i).isReal = false := by decide
  refine ⟨hexact, ?_, ?_, ?_, ?_⟩
  · obtain ⟨c, hc, hanswers⟩ := (run_answers hexact (Doubling.moves 128)).1 true
    have htotal := Doubling.total_moves (n := 128) (by decide)
    have hanswer := hanswers _ (.refl _)
    generalize holdings Doubling.aggregates (Doubling.moves 128) true = vs at htotal hanswer
    rw [hc]
    cases hanswer with
    | missing | exceeding => rfl
    | real hr => exact nomatch hr
    | decimal v _ _ fits =>
      rw [htotal] at fits
      exact absurd fits (by decide)
  · refine ((run_answers hexact (Doubling.moves 127)).2 (.merge true true)).mpr ⟨_, rfl, ?_⟩
    intro _ _ _
    rw [Move.target, Doubling.total_twice (n := 127) (by decide)]
    norm_num
  · rw [(run_answers hexact (Doubling.moves 128)).2 (.merge true true)]
    rintro ⟨vs, hbrings, hrange⟩
    obtain rfl : holdings Doubling.aggregates (Doubling.moves 128) true = vs := by
      simpa [Move.brings?] using hbrings
    have hlower := (hrange 38 0 rfl).1
    rw [Move.target, Doubling.total_twice (n := 128) (by decide)] at hlower
    exact absurd hlower (by decide)
  · rw [(run_answers hexact (Doubling.moves 0)).2 (.merge false true)]
    rintro ⟨vs, hbrings, _⟩
    exact nomatch hbrings

end Family
end Rollup
