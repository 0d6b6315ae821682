import Rollup.Proofs.Calendar.Elapsed
import Rollup.Proofs.Column.Stored

/-
Columns that are built again from the cells read out of them.

What a cell is decoded to is encoded as what was stored, so a column of the physical type of
a declared one is rebuilt just as it was.  A day or a count of units is decoded exactly if
its date is in range, and is ordered as the date or the instant that it is decoded to
(`Column.rebuilt_from_cells`).
-/

namespace Rollup

namespace StorageType

variable {type : StorageType} {cell : Cell}

theorem decode_date_eq_ok_iff {day : Signed 32} : decode .date32 (some day) = .ok cell ↔
    ∃ d, Date.ofDay? day.toInt = some d ∧ some (.date d) = cell := by
  cases hday : Date.ofDay? day.toInt <;> simp [decode, hday]

theorem decode_timestamp_eq_ok_iff {unit : TimeUnit} {zone : Option String} {n : Signed 64} :
    decode (.timestamp unit zone) (some n) = .ok cell ↔
      ∃ t, Timestamp.ofUnits? unit n.toInt = some t ∧ some (.timestamp t) = cell := by
  cases hunits : Timestamp.ofUnits? unit n.toInt <;> simp [decode, hunits]

theorem eq_none_of_decode_none (h : type.decode none = .ok cell) : cell = none := by
  cases type <;> cases h <;> rfl

theorem exists_of_decode_some {d : type.Datum} (h : type.decode (some d) = .ok cell) :
    ∃ v, cell = some v := by
  cases cell with
  | some v => exact ⟨v, rfl⟩
  | none =>
    cases type with
    | date32 =>
      obtain ⟨_, _, hcell⟩ := decode_date_eq_ok_iff.mp h
      exact nomatch hcell
    | timestamp =>
      obtain ⟨_, _, hcell⟩ := decode_timestamp_eq_ok_iff.mp h
      exact nomatch hcell
    | _ => exact nomatch h

/-! ## Dates and instants in range -/

theorem exists_decode_date_iff {day : Signed 32} :
    (∃ cell, decode .date32 (some day) = .ok cell) ↔
      ∃ c : Civil, c.InRange ∧ c.dayNumber = day.toInt := by
  simp only [decode_date_eq_ok_iff]
  rw [← Date.exists_ofDay?_iff, exists_comm]
  simp

theorem exists_decode_timestamp_iff {unit : TimeUnit} {zone : Option String} {n : Signed 64} :
    (∃ cell, decode (.timestamp unit zone) (some n) = .ok cell) ↔
      ∃ c : Civil, c.InRange ∧ c.dayNumber * 86400 * unit.perSecond ≤ n.toInt ∧
        n.toInt < (c.dayNumber + 1) * 86400 * unit.perSecond := by
  simp only [decode_timestamp_eq_ok_iff]
  rw [← Timestamp.exists_ofUnits?_iff, exists_comm]
  simp

/-! ## Order -/

theorem compare?_of_decode_date {m n : Signed 32} {v w : Value}
    (hv : decode .date32 (some m) = .ok (some v)) (hw : decode .date32 (some n) = .ok (some w)) :
    v.compare? w = some (Ord.compare m.toInt n.toInt) := by
  obtain ⟨a, ha, hav⟩ := decode_date_eq_ok_iff.mp hv
  obtain ⟨b, hb, hbw⟩ := decode_date_eq_ok_iff.mp hw
  cases hav
  cases hbw
  show some (Ord.compare a.day b.day) = _
  rw [Date.day_of_ofDay? ha, Date.day_of_ofDay? hb]

theorem compare?_of_decode_timestamp {unit : TimeUnit} {zone : Option String} {m n : Signed 64}
    {v w : Value} (hv : decode (.timestamp unit zone) (some m) = .ok (some v))
    (hw : decode (.timestamp unit zone) (some n) = .ok (some w)) :
    v.compare? w = some (Ord.compare m.toInt n.toInt) := by
  obtain ⟨a, ha, hav⟩ := decode_timestamp_eq_ok_iff.mp hv
  obtain ⟨b, hb, hbw⟩ := decode_timestamp_eq_ok_iff.mp hw
  cases hav
  cases hbw
  exact congrArg some (Timestamp.compare_of_ofUnits? ha hb)

end StorageType

namespace ColumnType

variable {type : ColumnType}

/-! ## Cells -/

theorem encode_of_decode (hsimple : type.isComplex = false) {d : type.storage.Datum} {v : Value}
    (h : type.storage.decode (some d) = .ok (some v)) : type.encode v = .ok d := by
  cases type with
  | array | map | row => exact nomatch hsimple
  | integer width =>
    cases h
    have hword : (Signed.ofInt? (Signed.widen 64 width.bits_le d).toInt :
        Option (Signed width.bits)) = some d := Signed.ofInt?_eq_some_iff.mpr rfl
    rw [encode, hword]
  | decimal p s =>
    cases h
    rw [encode, Decimal.rescale_self]
  | date =>
    obtain ⟨a, ha, hav⟩ := StorageType.decode_date_eq_ok_iff.mp h
    cases hav
    exact congrArg Except.ok (Signed.ext (Date.day_of_ofDay? ha))
  | timestamp p =>
    obtain ⟨t, ht, htv⟩ := StorageType.decode_timestamp_eq_ok_iff.mp h
    cases htv
    exact encode_timestamp_eq_ok_iff.mpr (Timestamp.ofUnits?_eq_some_iff.mp ht).2.symm
  | _ =>
    cases h
    rfl

theorem encodeCell_of_decode (hsimple : type.isComplex = false)
    {stored : Option type.storage.Datum} {cell : Cell}
    (h : type.storage.decode stored = .ok cell) : type.encodeCell cell = .ok stored := by
  cases stored with
  | none =>
    rw [StorageType.eq_none_of_decode_none h]
    rfl
  | some d =>
    obtain ⟨v, rfl⟩ := StorageType.exists_of_decode_some h
    exact encodeCell_some_eq_ok_iff.mpr ⟨d, encode_of_decode hsimple h, rfl⟩

end ColumnType

namespace Column

/-! ## Columns -/

theorem ofCells_of_read {type : ColumnType} {c : Column} {cells : List Cell}
    (hsimple : type.isComplex = false) (htype : c.type = type.storage)
    (h : (List.range c.length).mapM c.read = .ok cells) : ofCells type cells = .ok c := by
  obtain ⟨storage, all⟩ := c
  simp only at htype
  subst htype
  have hread := mapM_eq_ok_iff.mp h
  have hlength : cells.length = all.length := by
    rw [← hread.length_eq, List.length_range]
    rfl
  refine ofCells_eq_ok_iff.mpr ⟨hsimple, all, mapM_eq_ok_of_getElem hlength ?_, rfl⟩
  intro i hcell hi
  have hat := getElem_of_forall₂ hread (by rwa [List.length_range]) hcell
  rw [List.getElem_range] at hat
  obtain ⟨stored, hstored, hdecode⟩ := read_eq_ok_iff.mp hat
  obtain rfl := Option.some.inj ((List.getElem?_eq_getElem hi).symm.trans hstored)
  exact ColumnType.encodeCell_of_decode hsimple hdecode

/-- A column whose cells can all be read is what is built from the cells read.  Days and
counts of units are read exactly if their dates are in range, on both sides of the epoch,
and two that are read are compared as they are stored. -/
theorem rebuilt_from_cells :
    (∀ (type : ColumnType) (c : Column) (cells : List Cell), type.isComplex = false →
      type.check = .ok () → c.type = type.storage →
      (List.range c.length).mapM c.read = .ok cells → ofCells type cells = .ok c) ∧
    (∀ day : Signed 32, (∃ cell, StorageType.decode .date32 (some day) = .ok cell) ↔
      ∃ c : Civil, c.InRange ∧ c.dayNumber = day.toInt) ∧
    (∀ (unit : TimeUnit) (zone : Option String) (n : Signed 64),
      (∃ cell, StorageType.decode (.timestamp unit zone) (some n) = .ok cell) ↔
        ∃ c : Civil, c.InRange ∧ c.dayNumber * 86400 * unit.perSecond ≤ n.toInt ∧
          n.toInt < (c.dayNumber + 1) * 86400 * unit.perSecond) ∧
    (∀ (m n : Signed 32) (v w : Value), StorageType.decode .date32 (some m) = .ok (some v) →
      StorageType.decode .date32 (some n) = .ok (some w) →
      v.compare? w = some (Ord.compare m.toInt n.toInt)) ∧
    ∀ (unit : TimeUnit) (zone : Option String) (m n : Signed 64) (v w : Value),
      StorageType.decode (.timestamp unit zone) (some m) = .ok (some v) →
      StorageType.decode (.timestamp unit zone) (some n) = .ok (some w) →
      v.compare? w = some (Ord.compare m.toInt n.toInt) := by
  refine ⟨fun type c cells hsimple _ htype h => ofCells_of_read hsimple htype h, ?_, ?_, ?_, ?_⟩
  · intro day
    exact StorageType.exists_decode_date_iff
  · intro unit zone n
    exact StorageType.exists_decode_timestamp_iff
  · intro m n v w
    exact StorageType.compare?_of_decode_date
  · intro unit zone m n v w
    exact StorageType.compare?_of_decode_timestamp

namespace AroundEpoch

/-- A millisecond before 1970, a missing value, and an instant of the year 2021. -/
def milliseconds : Column :=
  ⟨.timestamp .millisecond none, [some (.wrap (-1)), none, some (.wrap 1628094393400)]⟩

end AroundEpoch

theorem rebuilt_from_cells_around_epoch :
    ∃ cells, (List.range AroundEpoch.milliseconds.length).mapM AroundEpoch.milliseconds.read =
        .ok cells ∧
      ofCells (.timestamp 3) cells = .ok AroundEpoch.milliseconds :=
  ⟨_, rfl, rebuilt_from_cells.1 (.timestamp 3) AroundEpoch.milliseconds _ rfl rfl rfl rfl⟩

end Column
end Rollup
