import Rollup.Column.Type

/-
Types inside types.

A part of a type is the type itself or a part of what it is made of.  What holds of a type
at every depth is said of its parts, and proved by induction over how types are nested: the
fields of a row come all at once, whatever their number (`ColumnType.nested_induction`).
-/

namespace Rollup

def RowFields.types : RowFields → List ColumnType
  | .nil => []
  | .cons _ type rest => type :: rest.types

namespace ColumnType

theorem nested_induction {motive : ColumnType → Prop}
    (simple : ∀ type, type.isComplex = false → motive type)
    (array : ∀ element, motive element → motive (.array element))
    (map : ∀ key value, motive key → motive value → motive (.map key value))
    (row : ∀ fields, (∀ type ∈ fields.types, motive type) → motive (.row fields)) :
    ∀ type, motive type :=
  @ColumnType.rec motive (fun fields => ∀ type ∈ fields.types, motive type)
    (fun _ => simple _ rfl) (fun _ _ => simple _ rfl) (simple _ rfl) (simple _ rfl)
    (simple _ rfl) (simple _ rfl) (fun _ => simple _ rfl) (simple _ rfl) (simple _ rfl)
    array map row (List.forall_mem_nil _)
    (fun _ _ _ htype hrest => List.forall_mem_cons.mpr ⟨htype, hrest⟩)

inductive Part : ColumnType → ColumnType → Prop where
  | self (type : ColumnType) : Part type type
  | element {part element : ColumnType} (of : Part part element) : Part part (.array element)
  | key {part key value : ColumnType} (of : Part part key) : Part part (.map key value)
  | value {part key value : ColumnType} (of : Part part value) : Part part (.map key value)
  | field {part type : ColumnType} {fields : RowFields} (mem : type ∈ fields.types)
      (of : Part part type) : Part part (.row fields)

/-! ## Parts by constructor -/

section

variable {P : ColumnType → Prop} {type : ColumnType}

/-- Whatever is said of all parts, for a type that is not complex it is said of the type
alone. -/
theorem forall_part_iff_of_simple (h : type.isComplex = false) :
    (∀ part, Part part type → P part) ↔ P type := by
  refine ⟨fun hall => hall type (.self type), fun htype part hpart => ?_⟩
  cases hpart with
  | self => exact htype
  | element | key | value | field => exact nomatch h

theorem forall_part_array_iff {element : ColumnType} :
    (∀ part, Part part (.array element) → P part) ↔
      P (.array element) ∧ ∀ part, Part part element → P part := by
  constructor
  · exact fun hall => ⟨hall _ (.self _), fun part hpart => hall part (.element hpart)⟩
  · rintro ⟨hself, helement⟩ part hpart
    cases hpart with
    | self => exact hself
    | element of => exact helement part of

theorem forall_part_map_iff {key value : ColumnType} :
    (∀ part, Part part (.map key value) → P part) ↔
      P (.map key value) ∧ (∀ part, Part part key → P part) ∧
        ∀ part, Part part value → P part := by
  constructor
  · exact fun hall => ⟨hall _ (.self _), fun part hpart => hall part (.key hpart),
      fun part hpart => hall part (.value hpart)⟩
  · rintro ⟨hself, hkey, hvalue⟩ part hpart
    cases hpart with
    | self => exact hself
    | key of => exact hkey part of
    | value of => exact hvalue part of

theorem forall_part_row_iff {fields : RowFields} :
    (∀ part, Part part (.row fields) → P part) ↔
      P (.row fields) ∧ ∀ type ∈ fields.types, ∀ part, Part part type → P part := by
  constructor
  · exact fun hall => ⟨hall _ (.self _), fun type htype part hpart =>
      hall part (.field htype hpart)⟩
  · rintro ⟨hself, hfields⟩ part hpart
    cases hpart with
    | self => exact hself
    | field mem of => exact hfields _ mem part of

end

/-! ## Maps -/

/-- A map is among the parts. -/
def HasMap (type : ColumnType) : Prop := ∃ key value, Part (.map key value) type

theorem not_hasMap_iff {type : ColumnType} :
    ¬ type.HasMap ↔ ∀ part, Part part type → ∀ key value, part ≠ .map key value := by
  constructor
  · rintro h part hpart key value rfl
    exact h ⟨key, value, hpart⟩
  · rintro h ⟨key, value, hpart⟩
    exact h _ hpart key value rfl

end ColumnType

theorem RowFields.containsMap_eq_false_iff : (fields : RowFields) →
    (fields.containsMap = false ↔ ∀ type ∈ fields.types, type.containsMap = false)
  | .nil => iff_of_true rfl (List.forall_mem_nil _)
  | .cons _ type rest => by
    rw [containsMap, types, Bool.or_eq_false_iff, List.forall_mem_cons,
      containsMap_eq_false_iff rest]

namespace ColumnType

theorem containsMap_eq_false_iff (type : ColumnType) :
    type.containsMap = false ↔ ¬ type.HasMap := by
  rw [not_hasMap_iff]
  induction type using nested_induction with
  | simple type h =>
    rw [forall_part_iff_of_simple h]
    cases type with
    | array | map | row => exact nomatch h
    | _ => exact iff_of_true rfl nofun
  | array element ih =>
    rw [forall_part_array_iff, containsMap, ih, and_iff_right nofun]
  | map key value _ _ =>
    rw [forall_part_map_iff]
    exact iff_of_false nofun fun h => h.1 key value rfl
  | row fields ih =>
    rw [forall_part_row_iff, containsMap, RowFields.containsMap_eq_false_iff,
      and_iff_right nofun]
    exact forall₂_congr ih

/-- The test for maps finds them at every depth. -/
theorem containsMap_iff (type : ColumnType) : type.containsMap = true ↔ type.HasMap := by
  rw [← Bool.not_eq_false, containsMap_eq_false_iff, Classical.not_not]

/-! ## Parameters -/

/-- The parameters that a type has itself are in range. -/
def InRange : ColumnType → Prop
  | .decimal p s => 1 ≤ p ∧ p ≤ 38 ∧ 0 ≤ s ∧ s ≤ p
  | .timestamp p => p ≤ 9
  | _ => True

theorem inRange_of_isComplex {type : ColumnType} (h : type.isComplex = true) : type.InRange := by
  cases type with
  | decimal | timestamp => exact nomatch h
  | _ => trivial

/-- All parameters are in range, at every depth. -/
def IsValid (type : ColumnType) : Prop := ∀ part, Part part type → part.InRange

end ColumnType

theorem RowFields.check_eq_ok_iff : (fields : RowFields) →
    (fields.check = .ok () ↔ ∀ type ∈ fields.types, type.check = .ok ())
  | .nil => iff_of_true rfl (List.forall_mem_nil _)
  | .cons _ type rest => by
    rw [check, types, List.forall_mem_cons, ← check_eq_ok_iff rest]
    cases type.check with
    | error e => exact iff_of_false nofun fun h => nomatch h.1
    | ok u => exact (and_iff_right rfl).symm

namespace ColumnType

theorem check_eq_ok_iff_of_simple {type : ColumnType} (h : type.isComplex = false) :
    type.check = .ok () ↔ type.InRange := by
  cases type with
  | decimal p s =>
    rw [check, InRange]
    split
    · rename_i hp
      rw [Bool.or_eq_true, beq_iff_eq, decide_eq_true_eq] at hp
      exact iff_of_false nofun (by omega)
    · rename_i hp
      rw [Bool.or_eq_true, beq_iff_eq, decide_eq_true_eq] at hp
      split
      · rename_i hs
        rw [Bool.or_eq_true, decide_eq_true_eq, decide_eq_true_eq] at hs
        exact iff_of_false nofun (by omega)
      · rename_i hs
        rw [Bool.or_eq_true, decide_eq_true_eq, decide_eq_true_eq] at hs
        exact iff_of_true rfl (by omega)
  | timestamp p =>
    rw [check, InRange]
    split
    · exact iff_of_false nofun (by omega)
    · exact iff_of_true rfl (by omega)
  | array | map | row => exact nomatch h
  | _ => exact iff_of_true rfl trivial

/-- The check looks at the parameters of all parts. -/
theorem check_eq_ok_iff (type : ColumnType) : type.check = .ok () ↔ type.IsValid := by
  unfold IsValid
  induction type using nested_induction with
  | simple type h => rw [forall_part_iff_of_simple h, check_eq_ok_iff_of_simple h]
  | array element ih =>
    rw [forall_part_array_iff, check, ih, and_iff_right (inRange_of_isComplex rfl)]
  | map key value ihkey ihvalue =>
    rw [forall_part_map_iff, and_iff_right (inRange_of_isComplex rfl), ← ihkey, ← ihvalue, check]
    cases key.check with
    | error e => exact iff_of_false nofun fun h => nomatch h.1
    | ok u => exact (and_iff_right rfl).symm
  | row fields ih =>
    rw [forall_part_row_iff, check, RowFields.check_eq_ok_iff,
      and_iff_right (inRange_of_isComplex rfl)]
    exact forall₂_congr ih

end ColumnType
end Rollup
