import Rollup.Proofs.Column.Codec
import Rollup.Proofs.Value.Rational

/-
Physical types that can feed a declared one.

`ColumnType.Fed` lists them case by case, and `accepts_iff_fed` says that the check lets
through just these.  What a cell of such a type stands for is said apart from how it is read
(`StorageType.meaning?`), and neither reading nor normalizing changes it; the first fails for
days and instants out of range, the second for decimals that have no room for the zeros that
their scale asks for.
-/

namespace Rollup

/-! ## Meanings -/

/-- What a value stands for, however it is kept.  Floats are their patterns. -/
inductive Meaning where
  | boolean (b : Bool)
  | integer (i : Int)
  | float (x : Single)
  | double (x : Double)
  | string (s : String)
  | binary (bytes : List UInt8)
  | rational (q : ℚ)
  | day (number : Int)
  | instant (nanos : Int) (leap : Bool)

/-- An instant is the nanoseconds since the start of 1970, those of a leap second being
marked. -/
def Value.meaning : Value → Meaning
  | .boolean b => .boolean b
  | .integer i => .integer i.toInt
  | .float x => .float x
  | .double x => .double x
  | .string s => .string s
  | .binary bytes => .binary bytes
  | .decimal d => .rational d.toRat
  | .date d => .day d.day
  | .timestamp t => .instant t.elapsed (1000000000 ≤ t.nanos)

namespace StorageType

/-- What is stored in a column of a physical type; nothing where the type cannot be read. -/
def meaning? : (type : StorageType) → type.Datum → Option Meaning
  | .boolean, (b : Bool) => some (.boolean b)
  | .int _, (i : Signed _) => some (.integer i.toInt)
  | .float32, (x : Single) => some (.float x)
  | .float64, (x : Double) => some (.double x)
  | .utf8, (s : String) | .largeUtf8, (s : String) => some (.string s)
  | .binary, (bytes : List UInt8) | .largeBinary, (bytes : List UInt8) => some (.binary bytes)
  | .decimal128 _ s, (v : Signed 128) => some (.rational (v.toInt / (10 : ℚ) ^ s))
  | .date32, (day : Signed 32) => some (.day day.toInt)
  | .timestamp unit _, (n : Signed 64) => some (.instant (n.toInt * unit.nanos) false)
  | _, _ => none

/-- A day, or an instant, whose date is in range.  Everything else is in the calendar. -/
def InCalendar : (type : StorageType) → type.Datum → Prop
  | .date32, (day : Signed 32) => ∃ c : Civil, c.InRange ∧ c.dayNumber = day.toInt
  | .timestamp unit _, (n : Signed 64) => ∃ c : Civil, c.InRange ∧
      c.dayNumber * 86400 * unit.perSecond ≤ n.toInt ∧
      n.toInt < (c.dayNumber + 1) * 86400 * unit.perSecond
  | _, _ => True

end StorageType

namespace ColumnType

/-- The zeros that bring a decimal to the scale of the column leave it in 128 bits.  There is
room for every other value. -/
def HasRoom : ColumnType → Value → Prop
  | .decimal _ s, .decimal d => Decimal.Fits (d.aligned s)
  | _, _ => True

/-! ## Accepted types -/

inductive Fed : ColumnType → StorageType → Prop where
  | boolean : Fed .boolean .boolean
  | integer {wide narrow : IntWidth} (le : narrow.bits ≤ wide.bits) :
      Fed (.integer wide) (.int narrow)
  | float : Fed .float .float32
  | double : Fed .double .float64
  | string : Fed .string .utf8
  | largeString : Fed .string .largeUtf8
  | binary : Fed .binary .binary
  | largeBinary : Fed .binary .largeBinary
  | decimal {p q : Nat} {s r : Int} (le : r ≤ s) : Fed (.decimal p s) (.decimal128 q r)
  | date : Fed .date .date32
  | timestamp {p : Nat} {unit : TimeUnit} (zone : Option String)
      (le : unit.precision ≤ (TimeUnit.ofPrecision p).precision) :
      Fed (.timestamp p) (.timestamp unit zone)

variable {type : ColumnType} {storage : StorageType}

theorem accepts_of_fed (h : type.Fed storage) : type.accepts storage = true := by
  cases h with
  | integer le | decimal le | timestamp _ le => exact decide_eq_true le
  | _ => rfl

/-- Names of items and entries do not matter here: a type that is not complex accepts no
nested column whatever it holds. -/
theorem fed_of_accepts (hsimple : type.isComplex = false) (h : type.accepts storage = true) :
    type.Fed storage := by
  unfold accepts at h
  split at h
  · exact nomatch h
  · rename_i found hcolumn
    have hnested (hfound : found.isComplex = true) : type.Fed storage := by
      cases found with
      | array | map | row =>
        cases type with
        | array | map | row => exact nomatch hsimple
        | _ => exact nomatch of_decide_eq_true h
      | _ => exact nomatch hfound
    unfold StorageType.column at hcolumn
    split at hcolumn
    case h_2 =>
      cases hcolumn
      cases type with
      | integer => exact .integer (of_decide_eq_true h)
      | _ => exact nomatch of_decide_eq_true h
    case h_10 =>
      cases hcolumn
      cases type with
      | decimal => exact .decimal (of_decide_eq_true h)
      | _ => exact nomatch of_decide_eq_true h
    case h_11 zone =>
      cases hcolumn
      cases type with
      | timestamp => exact .timestamp zone (of_decide_eq_true h)
      | _ => exact nomatch of_decide_eq_true h
    case h_12 | h_13 | h_16 =>
      obtain ⟨_, _, rfl⟩ := map_eq_ok_iff.mp hcolumn
      exact hnested rfl
    case h_14 =>
      split at hcolumn
      · exact nomatch hcolumn
      · obtain ⟨_, _, rfl⟩ := map_eq_ok_iff.mp hcolumn
        exact hnested rfl
    case h_15 | h_17 => exact nomatch hcolumn
    all_goals
      cases hcolumn
      cases type <;> first | constructor | exact nomatch of_decide_eq_true h

/-- The check lets through the listed types and no others. -/
theorem accepts_iff_fed (hsimple : type.isComplex = false) :
    type.accepts storage = true ↔ type.Fed storage :=
  ⟨fed_of_accepts hsimple, accepts_of_fed⟩

theorem fed_storage (hsimple : type.isComplex = false) : type.Fed type.storage := by
  cases type with
  | array | map | row => exact nomatch hsimple
  | integer => exact .integer (Nat.le_refl _)
  | decimal => exact .decimal (Int.le_refl _)
  | timestamp => exact .timestamp none (Nat.le_refl _)
  | _ => constructor

/-! ## Reading -/

variable {d : storage.Datum} {v : Value}

theorem Fed.decode_none (h : type.Fed storage) : storage.decode none = .ok none := by
  cases h <;> rfl

/-- A cell in the calendar is read as what it stands for, and any other is not read. -/
theorem Fed.decode_cases (h : type.Fed storage) (d : storage.Datum) :
    (storage.InCalendar d ∧
      ∃ v, storage.decode (some d) = .ok (some v) ∧ storage.meaning? d = some v.meaning) ∨
    (¬ storage.InCalendar d ∧ ∃ e, storage.decode (some d) = .error e) := by
  cases h with
  | date =>
    by_cases hrange : StorageType.InCalendar .date32 d
    · refine .inl ⟨hrange, ?_⟩
      obtain ⟨cell, hcell⟩ := StorageType.exists_decode_date_iff.mpr hrange
      obtain ⟨day, hday, rfl⟩ := StorageType.decode_date_eq_ok_iff.mp hcell
      refine ⟨_, hcell, ?_⟩
      show some (Meaning.day _) = some (Meaning.day _)
      rw [Date.day_of_ofDay? hday]
    · refine .inr ⟨hrange, ?_⟩
      cases hcell : StorageType.decode .date32 (some d) with
      | error e => exact ⟨e, rfl⟩
      | ok cell => exact absurd (StorageType.exists_decode_date_iff.mp ⟨cell, hcell⟩) hrange
  | @timestamp p unit zone le =>
    by_cases hrange : StorageType.InCalendar (.timestamp unit zone) d
    · refine .inl ⟨hrange, ?_⟩
      obtain ⟨cell, hcell⟩ :
          ∃ cell, StorageType.decode (.timestamp unit zone) (some d) = .ok cell :=
        StorageType.exists_decode_timestamp_iff.mpr hrange
      obtain ⟨t, ht, rfl⟩ := StorageType.decode_timestamp_eq_ok_iff.mp hcell
      refine ⟨_, hcell, ?_⟩
      obtain ⟨hlt, helapsed⟩ := Timestamp.elapsed_of_ofUnits? ht
      show some (Meaning.instant _ false) = some (Meaning.instant t.elapsed (decide _))
      rw [helapsed, decide_eq_false (Nat.not_le_of_lt hlt)]
    · refine .inr ⟨hrange, ?_⟩
      cases hcell : StorageType.decode (.timestamp unit zone) (some d) with
      | error e => exact ⟨e, rfl⟩
      | ok cell => exact absurd (StorageType.exists_decode_timestamp_iff.mp ⟨cell, hcell⟩) hrange
  | _ => exact .inl ⟨trivial, _, rfl, rfl⟩

theorem Fed.exists_decode_iff (h : type.Fed storage) :
    (∃ cell, storage.decode (some d) = .ok cell) ↔ storage.InCalendar d := by
  rcases h.decode_cases d with ⟨hrange, v, hv, _⟩ | ⟨hrange, e, he⟩
  · exact iff_of_true ⟨_, hv⟩ hrange
  · exact iff_of_false (fun ⟨cell, hcell⟩ => nomatch he.symm.trans hcell) hrange

theorem Fed.meaning_of_decode (h : type.Fed storage) {cell : Cell}
    (hread : storage.decode (some d) = .ok cell) :
    ∃ v, cell = some v ∧ storage.meaning? d = some v.meaning := by
  rcases h.decode_cases d with ⟨_, v, hv, hmeaning⟩ | ⟨_, e, he⟩
  · exact ⟨v, Except.ok.inj (hread.symm.trans hv), hmeaning⟩
  · exact nomatch he.symm.trans hread

theorem Fed.decode_ne_unsupported (h : type.Fed storage) (cell : Option storage.Datum)
    (other : StorageType) : storage.decode cell ≠ .error (.unsupported other) := by
  cases cell with
  | none =>
    rw [h.decode_none]
    rintro ⟨⟩
  | some d =>
    cases h with
    | date =>
      show StorageType.decode .date32 (some d) ≠ _
      simp only [StorageType.decode]
      split <;> rintro ⟨⟩
    | @timestamp p unit zone =>
      show StorageType.decode (.timestamp unit zone) (some d) ≠ _
      simp only [StorageType.decode]
      split <;> rintro ⟨⟩
    | _ => rintro ⟨⟩

/-- What a complex type accepts cannot be read, be the cell missing or not. -/
theorem decode_of_isComplex (hcomplex : type.isComplex = true)
    (haccepts : type.accepts storage = true) (cell : Option storage.Datum) :
    storage.decode cell = .error (.unsupported storage) := by
  have hsimple {found : ColumnType} (hfound : found.isComplex = false)
      (hcolumn : storage.column = .ok found) : False := by
    rw [accepts, hcolumn] at haccepts
    cases type with
    | array | map | row =>
      obtain rfl := of_decide_eq_true haccepts
      exact nomatch hfound
    | _ => exact nomatch hcomplex
  cases storage with
  | boolean | int | float32 | float64 | date32 | binary | largeBinary | utf8 | largeUtf8
  | decimal128 | timestamp => exact (hsimple rfl rfl).elim
  | _ => rfl

theorem decode_eq_unsupported_iff (haccepts : type.accepts storage = true)
    {cell : Option storage.Datum} {other : StorageType} :
    storage.decode cell = .error (.unsupported other) ↔
      type.isComplex = true ∧ other = storage := by
  cases hcomplex : type.isComplex with
  | false =>
    exact iff_of_false
      (((accepts_iff_fed hcomplex).mp haccepts).decode_ne_unsupported cell other)
      fun h => nomatch h.1
  | true =>
    rw [decode_of_isComplex hcomplex haccepts, and_iff_right rfl]
    constructor
    · intro h
      cases h
      rfl
    · rintro rfl
      rfl

/-! ## Normalizing -/

/-- What was read is normalized without a change of what it stands for, if there is room. -/
theorem Fed.normalize_cases (h : type.Fed storage)
    (hread : storage.decode (some d) = .ok (some v)) :
    (type.HasRoom v ∧ ∃ w, type.normalize v = .ok w ∧ w.meaning = v.meaning) ∨
    (¬ type.HasRoom v ∧ type.normalize v = .error (.scale .overflow) ∧
      ∃ p s, type = .decimal p s) := by
  cases h with
  | @integer wide narrow le =>
    cases hread
    have hword := IntWidth.holds_iff.mpr
      ⟨(Signed.widen wide.bits le d).lower, (Signed.widen wide.bits le d).upper⟩
    exact .inl ⟨trivial, _, if_pos hword, rfl⟩
  | @decimal p q s r le =>
    cases hread
    rcases Decimal.rescale_cases ⟨d, q, r⟩ le with ⟨w, hw, haligned⟩ | ⟨hfault, hout⟩
    · refine .inl ⟨?_, .decimal ⟨w, p, s⟩, ?_, ?_⟩
      · show Decimal.Fits (Decimal.aligned _ _)
        rw [← haligned]
        exact Decimal.fits_toInt w
      · simp only [normalize, hw]
      · exact congrArg Meaning.rational (Decimal.toRat_of_rescale hw)
    · refine .inr ⟨hout, ?_, p, s, rfl⟩
      simp only [normalize, hfault]
  | date =>
    obtain ⟨_, _, hv⟩ := StorageType.decode_date_eq_ok_iff.mp hread
    cases hv
    exact .inl ⟨trivial, _, rfl, rfl⟩
  | timestamp =>
    obtain ⟨_, _, hv⟩ := StorageType.decode_timestamp_eq_ok_iff.mp hread
    cases hv
    exact .inl ⟨trivial, _, rfl, rfl⟩
  | _ =>
    cases hread
    exact .inl ⟨trivial, _, rfl, rfl⟩

theorem Fed.exists_normalize_iff (h : type.Fed storage)
    (hread : storage.decode (some d) = .ok (some v)) :
    (∃ w, type.normalize v = .ok w) ↔ type.HasRoom v := by
  rcases h.normalize_cases hread with ⟨hroom, w, hw, _⟩ | ⟨hroom, hfault, _⟩
  · exact iff_of_true ⟨w, hw⟩ hroom
  · exact iff_of_false (fun ⟨w, hw⟩ => nomatch hfault.symm.trans hw) hroom

theorem Fed.meaning_of_normalize (h : type.Fed storage)
    (hread : storage.decode (some d) = .ok (some v)) {w : Value}
    (hw : type.normalize v = .ok w) : w.meaning = v.meaning := by
  rcases h.normalize_cases hread with ⟨_, found, hfound, hsame⟩ | ⟨_, hfault, _⟩
  · obtain rfl := Except.ok.inj (hw.symm.trans hfound)
    exact hsame
  · exact nomatch hfault.symm.trans hw

theorem Fed.overflow_of_normalize (h : type.Fed storage)
    (hread : storage.decode (some d) = .ok (some v)) {e : ValueFault}
    (he : type.normalize v = .error e) : e = .scale .overflow ∧ ∃ p s, type = .decimal p s := by
  rcases h.normalize_cases hread with ⟨_, w, hw, _⟩ | ⟨_, hfault, hdecimal⟩
  · exact nomatch hw.symm.trans he
  · exact ⟨Except.error.inj (he.symm.trans hfault), hdecimal⟩

end ColumnType
end Rollup
