import Rollup.Proofs.Aggregate.Classification
import Rollup.Proofs.Column.Nesting
import Rollup.Proofs.Text.Literal

/-
Types told apart by their texts.

The text of a type is read from the front, whatever comes after it.  Its first word tells how
the type is made (`ColumnType.shape_eq_of_text`), parameters end at a mark that they do not
contain, and types inside are read in the same way (`ColumnType.readable`).  The name of a
field ends at the next backquote, so equal texts belong to equal types as long as no name has
a backquote in it (`ColumnType.render_eq_iff`).
-/

namespace Rollup

open Text (digits ofInt)

/-! ## Names -/

def RowFields.names : RowFields → List String
  | .nil => []
  | .cons name _ rest => name :: rest.names

namespace ColumnType

/-- No name of its own fields has a backquote. -/
def HasPlainNames : ColumnType → Prop
  | .row fields => ∀ name ∈ fields.names, '\x60' ∉ name.toList
  | _ => True

/-- No field name has a backquote, at every depth. -/
def PlainNames (type : ColumnType) : Prop := ∀ part, Part part type → part.HasPlainNames

theorem plainNames_of_simple {type : ColumnType} (h : type.isComplex = false) :
    type.PlainNames := by
  refine (forall_part_iff_of_simple h).mpr ?_
  cases type with
  | row => exact nomatch h
  | _ => trivial

theorem plainNames_array_iff {element : ColumnType} :
    (array element).PlainNames ↔ element.PlainNames :=
  forall_part_array_iff.trans (and_iff_right trivial)

theorem plainNames_map_iff {key value : ColumnType} :
    (map key value).PlainNames ↔ key.PlainNames ∧ value.PlainNames :=
  forall_part_map_iff.trans (and_iff_right trivial)

end ColumnType

namespace RowFields

def PlainNames (fields : RowFields) : Prop :=
  (∀ name ∈ fields.names, '\x60' ∉ name.toList) ∧ ∀ type ∈ fields.types, type.PlainNames

theorem plainNames_nil : nil.PlainNames := ⟨List.forall_mem_nil _, List.forall_mem_nil _⟩

theorem plainNames_cons_iff {name : String} {type : ColumnType} {rest : RowFields} :
    (cons name type rest).PlainNames ↔
      '\x60' ∉ name.toList ∧ type.PlainNames ∧ rest.PlainNames := by
  rw [PlainNames, PlainNames, names, types, List.forall_mem_cons, List.forall_mem_cons]
  tauto

end RowFields

theorem ColumnType.plainNames_row_iff {fields : RowFields} :
    (row fields).PlainNames ↔ fields.PlainNames := forall_part_row_iff

/-! ## Words -/

def ColumnType.text (type : ColumnType) : List Char := type.render.toList

def RowFields.text (fields : RowFields) : List Char := fields.render.toList

namespace ColumnType

variable {type other : ColumnType} {rest more : List Char}

def word : ColumnType → List Char
  | .integer width => width.name.toList
  | .decimal _ _ => "DECIMAL".toList
  | .float => "FLOAT".toList
  | .double => "DOUBLE".toList
  | .string => "STRING".toList
  | .boolean => "BOOLEAN".toList
  | .timestamp _ => "TIMESTAMP".toList
  | .date => "DATE".toList
  | .binary => "BYTES".toList
  | .array _ => "ARRAY".toList
  | .map _ _ => "MAP".toList
  | .row _ => "ROW".toList

/-- What comes after the word when `rest` comes after the text. -/
def remainder : ColumnType → List Char → List Char
  | .decimal p s, rest => '(' :: (digits p ++ ',' :: ' ' :: (ofInt s ++ ')' :: rest))
  | .timestamp p, rest => '(' :: (digits p ++ ')' :: rest)
  | .array element, rest => '<' :: (element.text ++ '>' :: rest)
  | .map key value, rest => '<' :: (key.text ++ ',' :: ' ' :: (value.text ++ '>' :: rest))
  | .row fields, rest => '<' :: (fields.text ++ '>' :: rest)
  | _, rest => rest

theorem toList_toString_nat (n : Nat) : (toString n).toList = digits n := by
  rw [Nat.toString_eq_ofList_toDigits, String.toList_ofList, digits]

theorem toList_toString_int (i : Int) : (toString i).toList = ofInt i := by
  cases i with
  | ofNat n => exact toList_toString_nat n
  | negSucc n =>
    have hsign : toString (Int.negSucc n) = "-" ++ toString (n + 1) := rfl
    rw [hsign, String.toList_append, toList_toString_nat]
    exact (if_pos (Int.negSucc_lt_zero n)).symm

theorem text_append (type : ColumnType) (rest : List Char) :
    type.text ++ rest = type.word ++ type.remainder rest := by
  cases type with
  | integer | float | double | string | boolean | date | binary => rfl
  | decimal p s =>
    have hrender : (decimal p s).render =
      "DECIMAL(" ++ toString p ++ ", " ++ toString s ++ ")" := rfl
    rw [text, hrender]
    simp only [String.toList_append, toList_toString_nat, toList_toString_int, List.append_assoc]
    rfl
  | timestamp p =>
    have hrender : (timestamp p).render = "TIMESTAMP(" ++ toString p ++ ")" := rfl
    rw [text, hrender]
    simp only [String.toList_append, toList_toString_nat, List.append_assoc]
    rfl
  | array | map | row =>
    rw [text, render]
    simp only [String.toList_append, List.append_assoc]
    rfl

/-- The type with its parameters left out. -/
def shape : ColumnType → ColumnType
  | .decimal _ _ => .decimal 0 0
  | .timestamp _ => .timestamp 0
  | .array _ => .array .boolean
  | .map _ _ => .map .boolean .boolean
  | .row _ => .row .nil
  | type => type

def shapes : List ColumnType :=
  IntWidth.all.map .integer ++
    [.decimal 0 0, .float, .double, .string, .boolean, .timestamp 0, .date, .binary,
      .array .boolean, .map .boolean .boolean, .row .nil]

theorem shape_mem_shapes (type : ColumnType) : type.shape ∈ shapes := by
  cases type with
  | integer width => cases width <;> decide
  | _ => simp [shape, shapes]

theorem word_shape (type : ColumnType) : type.shape.word = type.word := by
  cases type <;> rfl

/-- No word is the beginning of another one. -/
theorem eq_of_word_begins : ∀ a ∈ shapes, ∀ b ∈ shapes, a.word <+: b.word → a = b := by
  decide

theorem shape_eq_of_text (h : type.text ++ rest = other.text ++ more) :
    type.shape = other.shape ∧ type.remainder rest = other.remainder more := by
  rw [text_append, text_append] at h
  have hshape : type.shape = other.shape := by
    have hprefix : other.word <+: type.word ++ type.remainder rest := h ▸ List.prefix_append _ _
    rcases List.prefix_or_prefix_of_prefix (List.prefix_append _ _) hprefix with hle | hle
    · rw [← word_shape, ← word_shape other] at hle
      exact eq_of_word_begins _ type.shape_mem_shapes _ other.shape_mem_shapes hle
    · rw [← word_shape, ← word_shape type] at hle
      exact (eq_of_word_begins _ other.shape_mem_shapes _ type.shape_mem_shapes hle).symm
  refine ⟨hshape, (List.append_right_inj type.word).mp ?_⟩
  rw [h, ← word_shape other, ← hshape, word_shape]

/-! ## Reading -/

/-- The text of a type tells the type and where the text ends. -/
def Readable (type : ColumnType) : Prop :=
  ∀ (other : ColumnType) (rest more : List Char), type.PlainNames → other.PlainNames →
    type.text ++ rest = other.text ++ more → type = other ∧ rest = more

theorem digits_append_cons_inj {mark : Char} {m n : Nat} (hmark : mark.isDigit = false)
    (h : digits m ++ mark :: rest = digits n ++ mark :: more) : m = n ∧ rest = more := by
  have hdigits (k : Nat) : mark ∉ digits k :=
    Text.not_mem_of_allDigits (Text.allDigits_digits k) hmark
  exact (Text.append_cons_inj (hdigits m) (hdigits n) h).imp_left
    fun heq => Function.LeftInverse.injective Text.ofDigits_digits heq

theorem ofInt_append_cons_inj {mark : Char} {i j : Int} (hmark : mark.isDigit = false)
    (hminus : mark ≠ '-') (h : ofInt i ++ mark :: rest = ofInt j ++ mark :: more) :
    i = j ∧ rest = more := by
  have hsigned (k : Int) : mark ∉ ofInt k := by
    have hdigits : mark ∉ digits k.natAbs :=
      Text.not_mem_of_allDigits (Text.allDigits_digits _) hmark
    unfold ofInt
    split
    · exact List.not_mem_cons_of_ne_of_not_mem hminus hdigits
    · exact hdigits
  exact (Text.append_cons_inj (hsigned i) (hsigned j) h).imp_left
    fun heq => Text.ofInt_injective heq

theorem readable_of_simple (hcomplex : type.isComplex = false) : type.Readable := by
  intro other rest more _ _ h
  obtain ⟨hshape, hrest⟩ := shape_eq_of_text h
  cases type with
  | decimal p s =>
    cases other with
    | decimal q r =>
      obtain ⟨rfl, hscale⟩ := digits_append_cons_inj rfl (List.tail_eq_of_cons_eq hrest)
      obtain ⟨rfl, hend⟩ := ofInt_append_cons_inj rfl (by decide)
        (List.tail_eq_of_cons_eq hscale)
      exact ⟨rfl, hend⟩
    | _ => exact nomatch hshape
  | timestamp p =>
    cases other with
    | timestamp q =>
      obtain ⟨rfl, hend⟩ := digits_append_cons_inj rfl (List.tail_eq_of_cons_eq hrest)
      exact ⟨rfl, hend⟩
    | _ => exact nomatch hshape
  | array | map | row => exact nomatch hcomplex
  | _ =>
    cases other with
    | decimal | timestamp | array | map | row => exact nomatch hshape
    | _ => exact ⟨hshape, hrest⟩

theorem Readable.array {element : ColumnType} (helement : element.Readable) :
    (ColumnType.array element).Readable := by
  intro other rest more htype hother h
  obtain ⟨hshape, hrest⟩ := shape_eq_of_text h
  cases other with
  | array inner =>
    obtain ⟨rfl, hend⟩ := helement inner _ _ (plainNames_array_iff.mp htype)
      (plainNames_array_iff.mp hother) (List.tail_eq_of_cons_eq hrest)
    exact ⟨rfl, List.tail_eq_of_cons_eq hend⟩
  | _ => exact nomatch hshape

theorem Readable.map {key value : ColumnType} (hkey : key.Readable) (hvalue : value.Readable) :
    (ColumnType.map key value).Readable := by
  intro other rest more htype hother h
  obtain ⟨hshape, hrest⟩ := shape_eq_of_text h
  obtain ⟨hplainKey, hplainValue⟩ := plainNames_map_iff.mp htype
  cases other with
  | map otherKey otherValue =>
    obtain ⟨hotherKey, hotherValue⟩ := plainNames_map_iff.mp hother
    obtain ⟨rfl, hafter⟩ := hkey otherKey _ _ hplainKey hotherKey (List.tail_eq_of_cons_eq hrest)
    obtain ⟨rfl, hend⟩ := hvalue otherValue _ _ hplainValue hotherValue
      (List.tail_eq_of_cons_eq (List.tail_eq_of_cons_eq hafter))
    exact ⟨rfl, List.tail_eq_of_cons_eq hend⟩
  | _ => exact nomatch hshape

end ColumnType

/-! ## Rows -/

namespace RowFields

/-- What comes after a field, up to the end of the row and `more` after it. -/
def remainder : RowFields → List Char → List Char
  | .nil, more => '>' :: more
  | fields, more => ',' :: ' ' :: (fields.text ++ '>' :: more)

theorem text_cons (name : String) (type : ColumnType) (rest : RowFields) (more : List Char) :
    (cons name type rest).text ++ '>' :: more =
      '\x60' :: (name.toList ++ '\x60' :: ' ' :: (type.text ++ rest.remainder more)) := by
  cases rest with
  | nil =>
    rw [text, render, renderField]
    simp only [String.toList_append, List.append_assoc]
    rfl
  | cons next nextType others =>
    have hrender : (cons name type (cons next nextType others)).render =
      renderField name type.render ++ ", " ++ (cons next nextType others).render := rfl
    rw [text, hrender, renderField]
    simp only [String.toList_append, List.append_assoc]
    rfl

theorem remainder_inj {fields others : RowFields} {rest more : List Char}
    (h : fields.remainder rest = others.remainder more) :
    fields.text ++ '>' :: rest = others.text ++ '>' :: more := by
  cases fields with
  | nil =>
    cases others with
    | nil => exact h
    | cons => exact nomatch h
  | cons =>
    cases others with
    | nil => exact nomatch h
    | cons => exact List.tail_eq_of_cons_eq (List.tail_eq_of_cons_eq h)

/-- Names end at their second backquote, and the types of the fields are read one after the
other. -/
theorem readable : (fields others : RowFields) → (∀ type ∈ fields.types, type.Readable) →
    fields.PlainNames → others.PlainNames → ∀ rest more : List Char,
    fields.text ++ '>' :: rest = others.text ++ '>' :: more → fields = others ∧ rest = more
  | .nil, .nil, _, _, _, _, _, h => ⟨rfl, List.tail_eq_of_cons_eq h⟩
  | .nil, .cons name type others, _, _, _, rest, more, h => by
    rw [text_cons] at h
    exact nomatch h
  | .cons name type fields, .nil, _, _, _, rest, more, h => by
    rw [text_cons] at h
    exact nomatch h
  | .cons name type fields, .cons name' type' others, hreadable, hplain, hplain', rest, more,
      h => by
    obtain ⟨htype, hfields⟩ := List.forall_mem_cons.mp hreadable
    obtain ⟨hname, hplainType, hplainFields⟩ := plainNames_cons_iff.mp hplain
    obtain ⟨hname', hplainType', hplainOthers⟩ := plainNames_cons_iff.mp hplain'
    rw [text_cons, text_cons] at h
    obtain ⟨hnames, hafter⟩ := Text.append_cons_inj hname hname' (List.tail_eq_of_cons_eq h)
    obtain ⟨rfl, hremainder⟩ := htype type' _ _ hplainType hplainType'
      (List.tail_eq_of_cons_eq hafter)
    obtain ⟨rfl, hend⟩ := readable fields others hfields hplainFields hplainOthers rest more
      (remainder_inj hremainder)
    rw [String.toList_inj.mp hnames]
    exact ⟨rfl, hend⟩

end RowFields

namespace ColumnType

variable {type other : ColumnType}

theorem Readable.row {fields : RowFields} (hfields : ∀ type ∈ fields.types, type.Readable) :
    (ColumnType.row fields).Readable := by
  intro other rest more htype hother h
  obtain ⟨hshape, hrest⟩ := shape_eq_of_text h
  cases other with
  | row others =>
    obtain ⟨rfl, hend⟩ := fields.readable others hfields (plainNames_row_iff.mp htype)
      (plainNames_row_iff.mp hother) _ _ (List.tail_eq_of_cons_eq hrest)
    exact ⟨rfl, hend⟩
  | _ => exact nomatch hshape

theorem readable (type : ColumnType) : type.Readable := by
  induction type using nested_induction with
  | simple type h => exact readable_of_simple h
  | array element ih => exact ih.array
  | map key value ihkey ihvalue => exact ihkey.map ihvalue
  | row fields ih => exact .row ih

/-! ## Texts -/

theorem eq_of_render_eq (htype : type.PlainNames) (hother : other.PlainNames)
    (h : type.render = other.render) : type = other := by
  have htext : type.text ++ [] = other.text ++ [] := by rw [text, text, h]
  exact (type.readable other [] [] htype hother htext).1

theorem message_sum_inj :
    (PlanFault.sum type).message = (PlanFault.sum other).message ↔ type.render = other.render := by
  have hmessage (refused : ColumnType) : (PlanFault.sum refused).message =
    "Native hive sum aggregate function does not support type: " ++ refused.render ++
      ". Please set option 'table.exec.hive.native-agg-function.enabled' to false." := rfl
  rw [hmessage, hmessage, String.append_left_inj, String.append_right_inj]

/-- Types whose field names have no backquotes are equal if their texts are, and so are the
types of two arguments that are refused as sums with the same message. -/
theorem render_eq_iff (htype : type.PlainNames) (hother : other.PlainNames) :
    (type.render = other.render ↔ type = other) ∧
    ∀ fault otherFault : PlanFault, Aggregate.classifySum type = .error fault →
      Aggregate.classifySum other = .error otherFault →
      fault.message = otherFault.message → type = other := by
  have hfault {type : ColumnType} {fault : PlanFault}
      (h : Aggregate.classifySum type = .error fault) : fault = .sum type := by
    unfold Aggregate.classifySum at h
    split at h
    · exact nomatch h
    · exact (Except.error.inj h).symm
  refine ⟨⟨eq_of_render_eq htype hother, fun h => h ▸ rfl⟩, ?_⟩
  intro fault otherFault h hother' hmessage
  rw [hfault h, hfault hother'] at hmessage
  exact eq_of_render_eq htype hother (message_sum_inj.mp hmessage)

namespace Lookalikes

def prices : ColumnType := .map .string (.array (.decimal 10 2))

/-- One field, with the name of two. -/
def joined : ColumnType := .row (.cons "a FLOAT, b> " prices .nil)

def parted : ColumnType := .row (.cons "a" .float (.cons "b> " prices .nil))

theorem plainNames_prices : prices.PlainNames :=
  plainNames_map_iff.mpr ⟨plainNames_of_simple rfl,
    plainNames_array_iff.mpr (plainNames_of_simple rfl)⟩

theorem plainNames_joined : joined.PlainNames :=
  plainNames_row_iff.mpr (RowFields.plainNames_cons_iff.mpr
    ⟨by decide, plainNames_prices, RowFields.plainNames_nil⟩)

theorem plainNames_parted : parted.PlainNames :=
  plainNames_row_iff.mpr (RowFields.plainNames_cons_iff.mpr
    ⟨by decide, plainNames_of_simple rfl, RowFields.plainNames_cons_iff.mpr
      ⟨by decide, plainNames_prices, RowFields.plainNames_nil⟩⟩)

end Lookalikes

theorem render_eq_iff_lookalikes :
    Lookalikes.joined.PlainNames ∧ Lookalikes.parted.PlainNames ∧
    Lookalikes.joined.render ≠ Lookalikes.parted.render ∧
    Aggregate.classifySum Lookalikes.joined = .error (.sum Lookalikes.joined) ∧
    Aggregate.classifySum Lookalikes.parted = .error (.sum Lookalikes.parted) ∧
    (PlanFault.sum Lookalikes.joined).message ≠ (PlanFault.sum Lookalikes.parted).message := by
  have hne : Lookalikes.joined ≠ Lookalikes.parted := by decide
  have h := render_eq_iff Lookalikes.plainNames_joined Lookalikes.plainNames_parted
  exact ⟨Lookalikes.plainNames_joined, Lookalikes.plainNames_parted,
    fun hrender => hne (h.1.mp hrender), rfl, rfl,
    fun hmessage => hne (h.2 _ _ rfl rfl hmessage)⟩

/-- With a backquote in its name one field can have the text of two. -/
example : render (.row (.cons "a` FLOAT, `b" .date .nil)) =
    render (.row (.cons "a" .float (.cons "b" .date .nil))) := by decide

end ColumnType
end Rollup
