import Rollup.Column.Storage
import Rollup.Proofs.Value.Order

/-
Timestamps as counts of units since the epoch, and back.

Counting units forgets what is finer than a unit and turns a leap second into the second
after it.  The instants that come back from their count are those that are whole in the
unit (`Timestamp.ofUnits?_eq_some_iff`), whatever their sign and on both sides of the epoch.
-/

namespace Rollup

theorem Date.ofDay?_day (d : Date) : ofDay? d.day = some d := by
  rw [ofDay?, dif_pos ⟨d.lower, d.upper⟩]

theorem Date.day_of_ofDay? {n : Int} {d : Date} (h : ofDay? n = some d) : d.day = n := by
  unfold ofDay? at h
  split at h
  · exact congrArg Date.day (Option.some.inj h).symm
  · exact nomatch h

namespace Timestamp

/-- No leap second, and nothing finer than a unit. -/
def IsWhole (unit : TimeUnit) (t : Timestamp) : Prop :=
  t.nanos < 1000000000 ∧ t.nanos % unit.nanos = 0

instance (unit : TimeUnit) (t : Timestamp) : Decidable (t.IsWhole unit) :=
  inferInstanceAs (Decidable (_ ∧ _))

/-- What is whole in a unit is whole in every finer one. -/
theorem IsWhole.mono {unit fine : TimeUnit} {t : Timestamp} (h : t.IsWhole unit)
    (hle : unit.precision ≤ fine.precision) : t.IsWhole fine := by
  obtain ⟨hlt, hmod⟩ := h
  refine ⟨hlt, ?_⟩
  cases unit <;> cases fine <;> simp only [TimeUnit.nanos, TimeUnit.precision] at * <;> omega

/-- Outside leap seconds every unit is counted alike. -/
theorem toUnits_of_lt {t : Timestamp} (h : t.nanos < 1000000000) (unit : TimeUnit) :
    t.toUnits unit = t.epochSecond * unit.perSecond + (t.nanos / unit.nanos : Nat) := by
  cases unit with
  | second =>
    show t.epochSecond = t.epochSecond * (1 : Nat) + (t.nanos / 1000000000 : Nat)
    rw [Nat.div_eq_of_lt h]
    omega
  | _ => rfl

/-- The parts of the instant that a count stands for. -/
theorem ofUnits?_eq_some_iff_parts {unit : TimeUnit} {n : Int} {t : Timestamp} :
    ofUnits? unit n = some t ↔ t.date.day = n / unit.perSecond / 86400 ∧
      t.second = (n / unit.perSecond % 86400).toNat ∧
      t.nanos = (n % unit.perSecond).toNat * unit.nanos := by
  unfold ofUnits?
  simp only
  split
  · rename_i hnone
    refine iff_of_false nofun fun h => ?_
    rw [← h.1, Date.ofDay?_day] at hnone
    exact nomatch hnone
  · rename_i date hdate
    have hday := Date.day_of_ofDay? hdate
    rw [← hday, Option.some.injEq]
    constructor
    · rintro rfl
      exact ⟨rfl, rfl, rfl⟩
    · intro h
      obtain ⟨hdays, hsecond, hnanos⟩ := h
      cases t
      simp only [Timestamp.mk.injEq]
      exact ⟨Date.day_injective hdays.symm, hsecond.symm, hnanos.symm⟩

/-- A count is that of an instant exactly if the instant is whole. -/
theorem ofUnits?_eq_some_iff {unit : TimeUnit} {n : Int} {t : Timestamp} :
    ofUnits? unit n = some t ↔ t.IsWhole unit ∧ t.toUnits unit = n := by
  have hsecond := t.second_lt
  rw [ofUnits?_eq_some_iff_parts]
  constructor
  · intro h
    obtain ⟨hday, hsec, hnanos⟩ := h
    have hlt : t.nanos < 1000000000 := by
      cases unit <;> simp only [TimeUnit.perSecond, TimeUnit.nanos] at hnanos <;> omega
    refine ⟨⟨hlt, by rw [hnanos, Nat.mul_mod_left]⟩, ?_⟩
    rw [toUnits_of_lt hlt, epochSecond]
    cases unit <;> simp only [TimeUnit.perSecond, TimeUnit.nanos] at * <;> omega
  · intro h
    obtain ⟨⟨hlt, hmod⟩, hunits⟩ := h
    rw [toUnits_of_lt hlt, epochSecond] at hunits
    cases unit <;> simp only [TimeUnit.perSecond, TimeUnit.nanos] at * <;> omega

end Timestamp
end Rollup
