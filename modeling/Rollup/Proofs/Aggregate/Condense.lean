import Rollup.Proofs.Aggregate.Digest
import Rollup.Proofs.Column.Stored

/-
Values that stand for others.

A finished integer sum stands for its addends, up to a multiple of the word size, and an
extreme stands for the values it was taken of.  So where only such aggregates are computed,
results can be aggregated again, in as many stages as one likes.
-/

namespace Rollup
namespace Aggregate

/-- Aggregates whose results can be handed on: integer sums, and extremes of types that
columns store as they are. -/
def isStageable : Aggregate → Bool
  | .sumInteger _ => true
  | .extreme _ type => type.isPlain
  | _ => false

theorem isReal_of_isStageable {a : Aggregate} (h : a.isStageable = true) : a.isReal = false := by
  cases a with
  | sumFloat | sumDouble | sumString => exact nomatch h
  | _ => rfl

theorem isPlain_output {a : Aggregate} (h : a.isStageable = true) : a.output.isPlain = true := by
  cases a with
  | sumInteger => rfl
  | extreme => exact h
  | _ => exact nomatch h

/-- The values `ws` stand for the values `vs`. -/
inductive Condenses : Aggregate → List Value → List Value → Prop where
  | integer {width : IntWidth} {vs ws : List Value} (nonempty : vs ≠ [] ↔ ws ≠ [])
      (value : (.wrap (total vs) : Signed 64) = .wrap (total ws)) :
      Condenses (.sumInteger width) vs ws
  | extreme {side : Extreme} {type : ColumnType} {vs ws : List Value}
      (holds : ∀ v ∈ vs, type.Holds v) (mem : ∀ w ∈ ws, w ∈ vs)
      (before : ∀ v ∈ vs, ∃ w ∈ ws, side.Before w v) : Condenses (.extreme side type) vs ws

namespace Condenses

variable {a : Aggregate} {vs ws us xs : List Value} {c : Cell}

theorem refl (ha : a.isStageable = true) (hvs : a.Admits vs) : Condenses a vs vs := by
  cases a with
  | sumInteger => exact .integer .rfl rfl
  | extreme side type =>
    have holds := hvs side type rfl
    exact .extreme holds (fun _ hw => hw) fun v hv => ⟨v, hv, Extreme.before_refl (holds v hv)⟩
  | _ => exact nomatch ha

theorem append (h : Condenses a vs ws) (h' : Condenses a us xs) :
    Condenses a (vs ++ us) (ws ++ xs) := by
  cases h with
  | integer hne value =>
    cases h' with
    | integer hne' value' =>
      refine .integer ?_ ?_
      · rw [ne_eq, ne_eq, List.append_eq_nil_iff, List.append_eq_nil_iff, not_and_or, not_and_or]
        exact or_congr hne hne'
      · rw [total_append, total_append, ← Signed.addWrap_wrap_wrap, value, value',
          Signed.addWrap_wrap_wrap]
  | extreme holds mem before =>
    cases h' with
    | extreme holds' mem' before' =>
      refine .extreme (fun v hv => ?_) (fun w hw => ?_) fun v hv => ?_
      · rcases List.mem_append.mp hv with hv | hv
        · exact holds v hv
        · exact holds' v hv
      · rcases List.mem_append.mp hw with hw | hw
        · exact List.mem_append_left us (mem w hw)
        · exact List.mem_append_right vs (mem' w hw)
      · rcases List.mem_append.mp hv with hv | hv
        · obtain ⟨w, hw, hwv⟩ := before v hv
          exact ⟨w, List.mem_append_left xs hw, hwv⟩
        · obtain ⟨w, hw, hwv⟩ := before' v hv
          exact ⟨w, List.mem_append_right ws hw, hwv⟩

/-- An answer for the values that stand for others is an answer for those. -/
theorem answers (h : Condenses a vs ws) (hc : Answers a ws c) : Answers a vs c := by
  cases h with
  | integer hne value =>
    cases hc with
    | missing =>
      obtain rfl : vs = [] := not_not.mp fun hvs => hne.mp hvs rfl
      exact .missing _
    | integer hws =>
      rw [← value]
      exact .integer (hne.mpr hws)
    | real hr => exact nomatch hr
  | extreme holds mem before =>
    cases hc with
    | missing =>
      have hnil : vs = [] := by
        refine List.eq_nil_iff_forall_not_mem.mpr fun v hv => ?_
        obtain ⟨w, hw, _⟩ := before v hv
        exact nomatch hw
      rw [hnil]
      exact .missing _
    | real hr => exact nomatch hr
    | extreme hu hbefore =>
      refine .extreme (mem _ hu) fun v hv => ?_
      obtain ⟨w, hw, hwv⟩ := before v hv
      exact Extreme.before_trans (holds _ (mem _ hu)) (holds w (mem w hw)) (holds v hv)
        (hbefore w hw) hwv

/-- An answer stands for the values that it answers for. -/
theorem of_answers (ha : a.isStageable = true) (hvs : a.Admits vs) (h : Answers a vs c) :
    Condenses a vs (a.addends [c]) := by
  cases h with
  | missing => exact .refl ha (fun _ _ _ _ hv => nomatch hv)
  | integer hne =>
    refine .integer (iff_of_true hne (List.cons_ne_nil _ _)) ?_
    have hone : total [.integer (.wrap (total vs))] = (Signed.wrap (total vs) : Signed 64).toInt :=
      List.sum_singleton
    show Signed.wrap (total vs) = Signed.wrap (total [.integer (.wrap (total vs))])
    rw [hone, Signed.wrap_toInt]
  | extreme hv hbefore =>
    refine .extreme (hvs _ _ rfl) (fun w hw => ?_) fun w hw => ?_
    · exact List.mem_singleton.mp hw ▸ hv
    · exact ⟨_, List.mem_cons_self, hbefore w hw⟩
  | real hr => exact absurd ((isReal_of_isStageable ha).symm.trans hr) (by decide)
  | decimal | exceeding => exact nomatch ha

end Condenses
end Aggregate
end Rollup
