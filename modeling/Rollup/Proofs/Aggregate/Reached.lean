import Rollup.Proofs.Aggregate.Slot

/-
Slots that the programs of one aggregate reach.

Whatever is offered, in whatever form, the slot stays the one of a state (`exists_state`):
a sum without its mark is still zero, and an extreme is a value that the type of the argument
leaves as it is.
-/

namespace Rollup

namespace Aggregate

theorem start_slot (a : Aggregate) : a.start.slot = a.startSlot := by cases a <;> rfl

variable {P : ColumnType → Value → Prop} {a : Aggregate} {s t : State}

/-- Any cell will do for a sum, since it is normalized on its way. -/
theorem Retains.take_any (ofPartials : Bool) {c : Cell} (hs : Retains ColumnType.Holds a s)
    (h : a.take ofPartials s c = .ok t) : Retains ColumnType.Holds a t := by
  cases hnormal : (a.expects ofPartials).normalizeCell c with
  | ok w =>
    have hw := ColumnType.HoldsCell.of_normalizeCell hnormal
    rw [take_eq_take_of_normalizeCell hnormal] at h
    exact hs.take hw (offered_of_satisfies hw) h
  | error e =>
    have hrefused := take_of_not_normal (s := s) (fun side type ha => ?_) hnormal
    · rw [hrefused] at h
      cases h
    · subst ha
      cases hs with
      | real isReal => exact nomatch isReal
      | extreme => exact ⟨_, rfl⟩

end Aggregate

namespace Slot

/-- The layout is that of the aggregate.  Without a value the slot is as it was at the start,
with a zero for a sum.  The value of an extreme is one that the type of the argument leaves
as it is. -/
structure LaidOut (a : Aggregate) (s : Slot) : Prop where
  layout : s.state.layout = a.layout
  fresh : s.hasValue = false → s = a.startSlot
  normal : ∀ v, s = .extreme (some v) → a.input.normalize v = .ok v

/-- The slots that come from the start by offers of any kind, whether or not they failed.  The
slots that are offered have come about in the same way. -/
inductive Reached (a : Aggregate) : Slot → Prop where
  | start : Reached a a.startSlot
  | value {s : Slot} (h : Reached a s) (c : Cell) :
      Reached a ((a.program (.value c)).outcome s).2
  | partialResult {s : Slot} (h : Reached a s) (c : Cell) :
      Reached a ((a.program (.partialResult c)).outcome s).2
  | state {s other : Slot} (h : Reached a s) (hother : Reached a other) :
      Reached a ((a.program (.state other)).outcome s).2

variable {a : Aggregate} {s : Slot}

theorem outcome_of_accept {o : Offer State} {t u : State} (h : a.accept t o = .ok u) :
    ((a.program (o.map State.slot)).outcome t.slot).2 = u.slot := by
  rw [outcome_program, h]
  rfl

/-- What an operation makes of the slot of a state is the slot of a state. -/
theorem exists_state_of_accept {o : Offer State} {t : State}
    (ht : Aggregate.Retains ColumnType.Holds a t)
    (hnext : ∀ u, a.accept t o = .ok u → Aggregate.Retains ColumnType.Holds a u) :
    ∃ u : State, ((a.program (o.map State.slot)).outcome t.slot).2 = u.slot ∧
      Aggregate.Retains ColumnType.Holds a u := by
  cases h : a.accept t o with
  | ok u => exact ⟨u, outcome_of_accept h, hnext u h⟩
  | error e => exact ⟨t, by rw [outcome_program, h]; rfl, ht⟩

/-- A slot that is reached is the slot of a state. -/
theorem Reached.exists_state (h : Reached a s) :
    ∃ t : State, s = t.slot ∧ Aggregate.Retains ColumnType.Holds a t := by
  induction h with
  | start => exact ⟨a.start, a.start_slot.symm, Aggregate.retains_start _ a⟩
  | value _ c ih =>
    obtain ⟨t, rfl, ht⟩ := ih
    exact exists_state_of_accept (o := .value c) ht fun u hu => ht.take_any false hu
  | partialResult _ c ih =>
    obtain ⟨t, rfl, ht⟩ := ih
    exact exists_state_of_accept (o := .partialResult c) ht fun u hu =>
      ht.take_any true hu
  | state _ _ ih ihother =>
    obtain ⟨t, rfl, ht⟩ := ih
    obtain ⟨other, rfl, hother⟩ := ihother
    exact exists_state_of_accept (o := .state other) ht fun u hu => ht.merge hother hu

theorem laidOut_slot {t : State} (h : Aggregate.Retains ColumnType.Holds a t) :
    LaidOut a t.slot where
  layout := by
    rw [State.state_slot]
    exact h.layout_eq
  fresh hfresh := by
    have hstart : t = a.start := h.eq_start (by cases t <;> exact hfresh)
    rw [hstart, a.start_slot]
  normal v hv := by
    have hstate : t = .extreme (some v) := by rw [← t.state_slot, hv]; rfl
    exact Aggregate.Retains.normalize_eq (hstate ▸ h)

theorem Reached.laidOut (h : Reached a s) : LaidOut a s := by
  obtain ⟨t, rfl, ht⟩ := h.exists_state
  exact laidOut_slot ht

end Slot
end Rollup
