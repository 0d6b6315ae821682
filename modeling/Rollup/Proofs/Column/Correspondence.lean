import Rollup.Column.Storage
import Rollup.Proofs.Column.Nesting

/-
From declared to physical types and back.

The way back loses nothing but the precisions of timestamps, since only their units are
stored: each one comes back as that of its unit, at whatever depth it stands
(`ColumnType.restored_from_storage`).
-/

namespace Rollup

/-! ## Timestamps inside a type -/

mutual

/-- The type with every precision of a timestamp changed. -/
def ColumnType.mapPrecision (c : Nat → Nat) : ColumnType → ColumnType
  | .timestamp p => .timestamp (c p)
  | .array element => .array (element.mapPrecision c)
  | .map key value => .map (key.mapPrecision c) (value.mapPrecision c)
  | .row fields => .row (fields.mapPrecision c)
  | type => type

def RowFields.mapPrecision (c : Nat → Nat) : RowFields → RowFields
  | .nil => .nil
  | .cons name type rest => .cons name (type.mapPrecision c) (rest.mapPrecision c)

end

variable {c : Nat → Nat}

theorem RowFields.mapPrecision_eq_self_iff : (fields : RowFields) →
    (fields.mapPrecision c = fields ↔ ∀ type ∈ fields.types, type.mapPrecision c = type)
  | .nil => iff_of_true rfl (List.forall_mem_nil _)
  | .cons name type rest => by
    rw [mapPrecision, types, List.forall_mem_cons, ← mapPrecision_eq_self_iff rest, cons.injEq,
      and_iff_right rfl]

namespace ColumnType

theorem mapPrecision_of_simple {type : ColumnType} (h : type.isComplex = false)
    (htime : ∀ p, type ≠ .timestamp p) : type.mapPrecision c = type := by
  cases type with
  | timestamp p => exact absurd rfl (htime p)
  | array | map | row => exact nomatch h
  | _ => rfl

theorem forall_timestamp_iff {Q : Nat → Prop} {type : ColumnType} :
    (∀ p, Part (.timestamp p) type → Q p) ↔
      ∀ part, Part part type → ∀ p, part = .timestamp p → Q p :=
  ⟨fun h _ hpart p heq => h p (heq ▸ hpart), fun h p hpart => h _ hpart p rfl⟩

/-- A type stays as it is if all precisions in it do. -/
theorem mapPrecision_eq_self_iff (type : ColumnType) :
    type.mapPrecision c = type ↔ ∀ p, Part (.timestamp p) type → c p = p := by
  rw [forall_timestamp_iff]
  induction type using nested_induction with
  | simple type h =>
    rw [forall_part_iff_of_simple h]
    by_cases htime : ∃ p, type = .timestamp p
    · obtain ⟨p, rfl⟩ := htime
      simp [mapPrecision]
    · rw [not_exists] at htime
      exact iff_of_true (mapPrecision_of_simple h htime) fun p heq => absurd heq (htime p)
  | array element ih =>
    rw [forall_part_array_iff, mapPrecision, array.injEq, ih, and_iff_right nofun]
  | map key value ihkey ihvalue =>
    rw [forall_part_map_iff, mapPrecision, map.injEq, ihkey, ihvalue]
    exact (and_iff_right nofun).symm
  | row fields ih =>
    rw [forall_part_row_iff, mapPrecision, row.injEq, RowFields.mapPrecision_eq_self_iff,
      and_iff_right nofun]
    exact forall₂_congr ih

end ColumnType

/-! ## There and back -/

/-- The precision with which a timestamp comes back. -/
def TimeUnit.roundUp (p : Nat) : Nat :=
  if p = 0 then 0 else if p ≤ 3 then 3 else if p ≤ 6 then 6 else 9

namespace TimeUnit

theorem precision_ofPrecision (p : Nat) : (ofPrecision p).precision = roundUp p := by
  unfold ofPrecision roundUp
  split
  · rename_i h
    rw [if_pos (beq_iff_eq.mp h)]
    rfl
  · rename_i h
    rw [if_neg fun heq => h (beq_iff_eq.mpr heq)]
    split
    · rfl
    · split <;> rfl

theorem ofPrecision_roundUp (p : Nat) : ofPrecision (roundUp p) = ofPrecision p := by
  rw [← precision_ofPrecision, ofPrecision_precision]

theorem roundUp_eq_self_iff {p : Nat} : roundUp p = p ↔ p = 0 ∨ p = 3 ∨ p = 6 ∨ p = 9 := by
  unfold roundUp
  split
  · omega
  · split
    · omega
    · split <;> omega

end TimeUnit

theorem RowFields.columns_storage : (fields : RowFields) →
    (∀ type ∈ fields.types, type.storage.column = .ok (type.mapPrecision c)) →
      fields.storage.columns = .ok (fields.mapPrecision c)
  | .nil, _ => rfl
  | .cons _ type rest, h => by
    obtain ⟨htype, hrest⟩ := List.forall_mem_cons.mp h
    rw [storage, StorageFields.columns, htype, columns_storage rest hrest]
    rfl

theorem RowFields.storage_mapPrecision : (fields : RowFields) →
    (∀ type ∈ fields.types, (type.mapPrecision c).storage = type.storage) →
      (fields.mapPrecision c).storage = fields.storage
  | .nil, _ => rfl
  | .cons _ type rest, h => by
    obtain ⟨htype, hrest⟩ := List.forall_mem_cons.mp h
    rw [mapPrecision, storage, storage, htype, storage_mapPrecision rest hrest]

namespace ColumnType

theorem column_storage (type : ColumnType) :
    type.storage.column = .ok (type.mapPrecision TimeUnit.roundUp) := by
  induction type using nested_induction with
  | simple type h =>
    cases type with
    | timestamp p =>
      rw [mapPrecision, ← TimeUnit.precision_ofPrecision]
      rfl
    | array | map | row => exact nomatch h
    | _ => rfl
  | array element ih =>
    rw [storage, StorageType.column, ih]
    rfl
  | map key value ihkey ihvalue =>
    rw [storage, StorageType.column, ihkey, ihvalue]
    rfl
  | row fields ih =>
    rw [storage, StorageType.column, RowFields.columns_storage fields ih]
    rfl

/-- Only the units are stored. -/
theorem storage_mapPrecision (type : ColumnType) :
    (type.mapPrecision TimeUnit.roundUp).storage = type.storage := by
  induction type using nested_induction with
  | simple type h =>
    cases type with
    | timestamp p => rw [mapPrecision, storage, storage, TimeUnit.ofPrecision_roundUp]
    | array | map | row => exact nomatch h
    | _ => rfl
  | array element ih => rw [mapPrecision, storage, storage, ih]
  | map key value ihkey ihvalue => rw [mapPrecision, storage, storage, ihkey, ihvalue]
  | row fields ih => rw [mapPrecision, storage, storage, RowFields.storage_mapPrecision fields ih]

/-- Every declared type comes back from its physical type with the precisions of its
timestamps rounded up to those of units, and as it was exactly if there was nothing to
round.  Its physical type is that of what comes back. -/
theorem restored_from_storage (type : ColumnType) :
    type.storage.column = .ok (type.mapPrecision TimeUnit.roundUp) ∧
      (type.storage.column = .ok type ↔
        ∀ p, Part (.timestamp p) type → p = 0 ∨ p = 3 ∨ p = 6 ∨ p = 9) ∧
      ∃ back, type.storage.column = .ok back ∧ back.storage = type.storage := by
  refine ⟨type.column_storage, ?_, _, type.column_storage, type.storage_mapPrecision⟩
  rw [column_storage, Except.ok.injEq, mapPrecision_eq_self_iff]
  simp only [TimeUnit.roundUp_eq_self_iff]

end ColumnType
end Rollup
