import Rollup.Aggregate.View
import Rollup.Proofs.Calendar.Units
import Rollup.Proofs.Outcome
import Rollup.Proofs.Value.Held

/-
Columns that give back the cells they were built from.

Only timestamps can fail to be stored or to come back.  A column counts their units in 64
bits, which are too few for some instants in nanoseconds (`InReach`), and it forgets what is
finer than a unit (`IsExact`).  A column of any other type that is not complex gives back
every cell, and its physical type is one that the declared type accepts.
-/

namespace Rollup

namespace ColumnType

/-- Types whose values are stored as they are. -/
def isPlain : ColumnType → Bool
  | .timestamp _ => false
  | type => !type.isComplex

theorem not_isComplex_of_isPlain {type : ColumnType} (h : type.isPlain = true) :
    type.isComplex = false := by
  cases type with
  | array | map | row => exact nomatch h
  | _ => rfl

/-- A plain type is what its physical type stands for. -/
theorem accepts_storage {type : ColumnType} (h : type.isPlain = true) :
    type.accepts type.storage = true := by
  cases type with
  | timestamp | array | map | row => exact nomatch h
  | integer width => cases width <;> rfl
  | decimal p s =>
    show decide (s ≤ s) = true
    exact decide_eq_true (Int.le_refl s)
  | _ => rfl

/-! ## Values -/

/-- An instant whose units the column can count.  Every other value is in reach. -/
def InReach : ColumnType → Value → Prop
  | .timestamp p, .timestamp t =>
      -(Nat.pow 2 63 : Nat) ≤ t.toUnits (.ofPrecision p) ∧
        t.toUnits (.ofPrecision p) < (Nat.pow 2 63 : Nat)
  | _, _ => True

/-- An instant without anything finer than the units of the column.  Every other value is
exact. -/
def IsExact : ColumnType → Value → Prop
  | .timestamp p, .timestamp t => t.IsWhole (.ofPrecision p)
  | _, _ => True

variable {type : ColumnType} {v : Value} {c : Cell}

theorem inReach_of_isPlain (h : type.isPlain = true) (v : Value) : type.InReach v := by
  cases type with
  | timestamp => exact nomatch h
  | _ => trivial

theorem isExact_of_isPlain (h : type.isPlain = true) (v : Value) : type.IsExact v := by
  cases type with
  | timestamp => exact nomatch h
  | _ => trivial

theorem encode_timestamp_eq_ok_iff {p : Nat} {t : Timestamp} {n : Signed 64} :
    encode (.timestamp p) (.timestamp t) = .ok n ↔ n.toInt = t.toUnits (.ofPrecision p) := by
  rw [encode, ← Signed.ofInt?_eq_some_iff]
  cases (Signed.ofInt? (t.toUnits (.ofPrecision p)) : Option (Signed 64)) with
  | none => exact iff_of_false nofun nofun
  | some m => exact Except.ok.injEq m n ▸ Option.some.injEq m n ▸ Iff.rfl

theorem exists_encode_iff (h : type.Holds v) : (∃ d, type.encode v = .ok d) ↔ type.InReach v := by
  cases h with
  | @integer width i inRange =>
    refine iff_of_true ?_ trivial
    obtain ⟨lower, upper⟩ := IntWidth.holds_iff.mp inRange
    have hword : (Signed.ofInt? i.toInt : Option (Signed width.bits)) =
        some ⟨i.toInt, lower, upper⟩ :=
      Signed.ofInt?_eq_some_iff.mpr rfl
    exact ⟨⟨i.toInt, lower, upper⟩, by rw [encode, hword]⟩
  | decimal p s v =>
    refine iff_of_true ⟨v, ?_⟩ trivial
    rw [encode, Decimal.rescale_self]
  | timestamp p t =>
    constructor
    · intro h
      obtain ⟨n, hn⟩ := h
      show _ ≤ t.toUnits _ ∧ t.toUnits _ < _
      rw [← encode_timestamp_eq_ok_iff.mp hn]
      exact ⟨Signed.lower n, Signed.upper n⟩
    · intro h
      have hword : (⟨t.toUnits (.ofPrecision p), h.1, h.2⟩ : Signed 64).toInt = _ := rfl
      exact ⟨_, encode_timestamp_eq_ok_iff.mpr hword⟩
  | _ => exact iff_of_true ⟨_, rfl⟩ trivial

theorem decode_eq_iff (h : type.Holds v) {d : type.storage.Datum} (hd : type.encode v = .ok d) :
    type.storage.decode (some d) = .ok (some v) ↔ type.IsExact v := by
  cases h with
  | @integer width i inRange =>
    refine iff_of_true ?_ trivial
    rw [encode] at hd
    split at hd
    · rename_i word hword
      have htoInt := Signed.ofInt?_eq_some_iff.mp hword
      have hi : Signed.widen 64 width.bits_le word = i := Signed.ext htoInt
      cases hd
      show Except.ok (some (Value.integer (Signed.widen 64 width.bits_le d))) = _
      rw [hi]
    · exact nomatch hd
  | decimal p s v =>
    rw [encode, Decimal.rescale_self] at hd
    cases hd
    exact iff_of_true rfl trivial
  | timestamp p t =>
    have hn := encode_timestamp_eq_ok_iff.mp hd
    show StorageType.decode (.timestamp (.ofPrecision p) none) (some d) = _ ↔ _
    simp only [StorageType.decode, hn]
    rw [IsExact, ← and_iff_left (a := t.IsWhole _) rfl, ← Timestamp.ofUnits?_eq_some_iff]
    cases Timestamp.ofUnits? (.ofPrecision p) (t.toUnits (.ofPrecision p)) <;> simp
  | date d =>
    cases hd
    refine iff_of_true ?_ trivial
    have hday : Date.ofDay? d.word.toInt = some d := Date.ofDay?_day d
    show StorageType.decode .date32 (some d.word) = _
    rw [StorageType.decode, hday]
  | _ =>
    cases hd
    exact iff_of_true rfl trivial

theorem encode_ne_complex (h : type.isComplex = false) (v : Value) (other : ColumnType) :
    type.encode v ≠ .error (.complex other) := by
  unfold encode
  split
  case h_2 | h_7 | h_9 => split <;> exact nofun
  case h_10 | h_11 | h_12 => exact nomatch h
  all_goals exact nofun

/-! ## Cells -/

theorem encodeCell_some_eq_ok_iff {d : Option type.storage.Datum} :
    type.encodeCell (some v) = .ok d ↔ ∃ e, type.encode v = .ok e ∧ some e = d :=
  map_eq_ok_iff

theorem exists_encodeCell_iff (h : type.HoldsCell c) :
    (∃ d, type.encodeCell c = .ok d) ↔ c.Satisfies type.InReach := by
  cases c with
  | none => exact iff_of_true ⟨none, rfl⟩ (Cell.satisfies_none _)
  | some v =>
    rw [Cell.satisfies_some, ← exists_encode_iff (h v rfl)]
    simp only [encodeCell_some_eq_ok_iff]
    constructor
    · intro h
      obtain ⟨_, e, he, _⟩ := h
      exact ⟨e, he⟩
    · intro h
      obtain ⟨e, he⟩ := h
      exact ⟨some e, e, he, rfl⟩

theorem decodeCell_eq_iff (hsimple : type.isComplex = false) (h : type.HoldsCell c)
    {d : Option type.storage.Datum} (hd : type.encodeCell c = .ok d) :
    type.storage.decode d = .ok c ↔ c.Satisfies type.IsExact := by
  cases c with
  | none =>
    cases hd
    refine iff_of_true ?_ (Cell.satisfies_none _)
    cases type with
    | array | map | row => exact nomatch hsimple
    | _ => rfl
  | some v =>
    obtain ⟨e, he, rfl⟩ := encodeCell_some_eq_ok_iff.mp hd
    rw [Cell.satisfies_some]
    exact decode_eq_iff (h v rfl) he

end ColumnType

namespace Column

variable {type : ColumnType} {cells : List Cell} {column : Column}

/-! ## Columns -/

theorem read_eq_ok_iff {c : Column} {i : Nat} {cell : Cell} :
    c.read i = .ok cell ↔
      ∃ stored, c.cells[i]? = some stored ∧ c.type.decode stored = .ok cell := by
  unfold read
  cases c.cells[i]? <;> simp

theorem ofCells_eq_ok_iff : ofCells type cells = .ok column ↔ type.isComplex = false ∧
    ∃ stored, cells.mapM type.encodeCell = .ok stored ∧ column = ⟨type.storage, stored⟩ := by
  unfold ofCells
  cases type.isComplex with
  | true => exact iff_of_false nofun nofun
  | false =>
    rw [if_neg (by decide)]
    cases cells.mapM type.encodeCell <;> simp [eq_comm]

theorem ofCells_eq_complex_iff {other : ColumnType} :
    ofCells type cells = .error (.complex other) ↔ type.isComplex = true ∧ other = type := by
  unfold ofCells
  cases hcomplex : type.isComplex with
  | true => simp [eq_comm]
  | false =>
    refine iff_of_false ?_ fun h => nomatch h.1
    rw [if_neg (by decide)]
    split
    · exact nofun
    · rename_i e hfault
      rintro ⟨⟩
      obtain ⟨c, _, hc⟩ := exists_of_mapM_eq_error hfault
      cases c with
      | none => exact nomatch hc
      | some v => exact ColumnType.encode_ne_complex hcomplex v other (map_eq_error_iff.mp hc)

/-- What a column that was built has in each place. -/
theorem read_ofCells (h : ofCells type cells = .ok column) {i : Nat} {c : Cell}
    (hi : cells[i]? = some c) :
    ∃ d, type.encodeCell c = .ok d ∧ column.read i = type.storage.decode d := by
  obtain ⟨_, stored, hstored, rfl⟩ := ofCells_eq_ok_iff.mp h
  have hall := mapM_eq_ok_iff.mp hstored
  obtain ⟨hlt, hget⟩ := List.getElem?_eq_some_iff.mp hi
  have hlt' : i < stored.length := hall.length_eq ▸ hlt
  refine ⟨stored[i], hget ▸ getElem_of_forall₂ hall hlt hlt', ?_⟩
  rw [read, List.getElem?_eq_getElem hlt']

theorem length_ofCells (h : ofCells type cells = .ok column) : column.length = cells.length := by
  obtain ⟨_, stored, hstored, rfl⟩ := ofCells_eq_ok_iff.mp h
  exact (mapM_eq_ok_iff.mp hstored).length_eq.symm

theorem type_ofCells (h : ofCells type cells = .ok column) : column.type = type.storage := by
  obtain ⟨_, stored, _, rfl⟩ := ofCells_eq_ok_iff.mp h
  rfl

/-- Cells can be stored if they are all in reach. -/
theorem exists_ofCells_iff (hsimple : type.isComplex = false)
    (h : ∀ c ∈ cells, type.HoldsCell c) :
    (∃ column, ofCells type cells = .ok column) ↔ ∀ c ∈ cells, c.Satisfies type.InReach := by
  have hencode : (∃ column, ofCells type cells = .ok column) ↔
      ∃ stored, cells.mapM type.encodeCell = .ok stored := by
    simp only [ofCells_eq_ok_iff, hsimple, true_and]
    rw [exists_comm]
    simp
  rw [hencode, exists_mapM_eq_ok_iff]
  exact forall₂_congr fun c hc => ColumnType.exists_encodeCell_iff (h c hc)

/-- A cell comes back from its place if it is exact. -/
theorem read_eq_iff (hcolumn : ofCells type cells = .ok column) {i : Nat} {c : Cell}
    (hi : cells[i]? = some c) (h : type.HoldsCell c) :
    column.read i = .ok c ↔ c.Satisfies type.IsExact := by
  obtain ⟨d, hd, hread⟩ := read_ofCells hcolumn hi
  rw [hread]
  exact ColumnType.decodeCell_eq_iff (ofCells_eq_ok_iff.mp hcolumn).1 h hd

/-- A column of a declared type that reads as the given cells. -/
structure Stores (c : Column) (type : ColumnType) (cells : List Cell) : Prop where
  type_eq : c.type = type.storage
  read_eq : ∀ (i : Nat) (cell : Cell), cells[i]? = some cell → c.read i = .ok cell

theorem exists_stores (hplain : type.isPlain = true) (h : ∀ c ∈ cells, type.HoldsCell c) :
    ∃ column, ofCells type cells = .ok column ∧ column.Stores type cells := by
  have hsimple := ColumnType.not_isComplex_of_isPlain hplain
  obtain ⟨column, hcolumn⟩ := (exists_ofCells_iff hsimple h).mpr
    fun c _ v _ => ColumnType.inReach_of_isPlain hplain v
  refine ⟨column, hcolumn, type_ofCells hcolumn, fun i c hi => ?_⟩
  have hc := h c (List.mem_of_getElem? hi)
  exact (read_eq_iff hcolumn hi hc).mpr fun v _ => ColumnType.isExact_of_isPlain hplain v

end Column
end Rollup
