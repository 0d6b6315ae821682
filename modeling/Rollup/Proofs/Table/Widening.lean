import Rollup.Proofs.Column.Accepted
import Rollup.Proofs.Table.Instants
import Rollup.Proofs.Table.Life

/-
Cells of accepted columns on their way into a table.

A column of an accepted type is read and normalized without a change of what its cells stand
for.  A cell can be refused on the way only where its date is out of range, or where it is a
decimal without room for the scale of its type, and then its row is refused with it, together
with everything that the same call brings (`Column.accepted_cells_sound`).
-/

namespace Rollup

namespace Plan

variable {p : Plan} {type : ColumnType} {j : Nat}

/-- A row that passes the check has a cell in every column that the plan reads, and all of
them are normalized. -/
theorem ReadsAs.exists_normalizeCell (h : p.ReadsAs j type) {input : List Cell} {r : Row}
    (hr : p.prepareInput input = .ok r) :
    ∃ cell w, input[j]? = some cell ∧ type.normalizeCell cell = .ok w := by
  obtain ⟨hkey, hvalues⟩ := forall₂_of_prepareInput hr
  rcases h with ⟨g, hg, rfl, rfl⟩ | ⟨m, hm, rfl, rfl⟩
  · obtain ⟨w, _, cell, hcell, hw⟩ := exists_of_mem_forall₂ hkey hg
    exact ⟨cell, w, hcell, hw⟩
  · obtain ⟨w, _, cell, hcell, hw⟩ := exists_of_mem_forall₂ hvalues hm
    exact ⟨cell, w, hcell, hw⟩

end Plan

namespace Ledger

variable {l : Ledger} {type : ColumnType} {j : Nat} {cell : Cell} {e : ValueFault}

theorem updateInputRow_eq_error (hreads : l.plan.ReadsAs j type)
    (hcell : type.normalizeCell cell = .error e) {input : List Cell}
    (hinput : input[j]? = some cell) : ∃ f, l.updateInputRow input = (.error f, l) := by
  refine feed_eq_error (f := .input input) fun rows hrows => ?_
  obtain ⟨r, hr, _⟩ := Plan.accepted_input_eq_ok_iff.mp hrows
  obtain ⟨found, w, hfound, hw⟩ := hreads.exists_normalizeCell hr
  obtain rfl := Option.some.inj (hinput.symm.trans hfound)
  rw [hcell] at hw
  exact nomatch hw

theorem updateChunk_eq_error (hreads : l.plan.ReadsAs j type)
    (hcell : type.normalizeCell cell = .error e) {c : Chunk} {column : Column} {i : Nat}
    (hcolumn : c.columns[j]? = some column) (hi : i < c.rows)
    (hread : column.read i = .ok cell) : ∃ f, l.updateChunk c = (.error f, l) := by
  refine feed_eq_error (f := .chunk c) fun rows hrows => ?_
  have hdecodes := ((Plan.readable_of_chunkRows hrows).2 i hi).decodes
  obtain ⟨r, _, hr⟩ := Plan.exists_prepareInput hrows hi hdecodes
  obtain ⟨found, w, hfound, hw⟩ := hreads.exists_normalizeCell hr
  obtain ⟨same, hsame, hinput⟩ := hdecodes j hreads.mem_columnNumbers
  rw [Chunk.cell?_eq_some_iff.mpr ⟨column, hcolumn, hread⟩] at hsame
  obtain rfl := Option.some.inj hsame
  obtain rfl := Option.some.inj (hinput.symm.trans hfound)
  rw [hcell] at hw
  exact nomatch hw

end Ledger

namespace Column

/-- Every cell of a column of an accepted type is read if and only if its date is in range,
as what it stands for.  It is then normalized, still as what it stands for, if and only if
there is room for it, which only decimals can lack.  Without room it is refused, and so is
every row and every chunk that has the cell where the plan reads it as the declared type.
A declared type accepts its own physical type. -/
theorem accepted_cells_sound :
    (∀ (type : ColumnType) (column : Column) (i : Nat), type.isComplex = false →
      type.check = .ok () → type.accepts column.type = true →
      (column.cells[i]? = some none → column.read i = .ok none) ∧
      ∀ d, column.cells[i]? = some (some d) →
        ((∃ cell, column.read i = .ok cell) ↔ column.type.InCalendar d) ∧
        ∀ cell, column.read i = .ok cell → ∃ v, cell = some v ∧
          ((∃ w, type.normalize v = .ok w) ↔ type.HasRoom v) ∧
          (∀ w, type.normalize v = .ok w → column.type.meaning? d = some w.meaning) ∧
          ∀ e, type.normalize v = .error e → e = .scale .overflow ∧
            (∃ p s, type = .decimal p s) ∧
            ∀ (l : Ledger) (j : Nat), l.plan.ReadsAs j type →
              (∀ input, input[j]? = some cell → ∃ f, l.updateInputRow input = (.error f, l)) ∧
              ∀ c, c.columns[j]? = some column → i < c.rows →
                ∃ f, l.updateChunk c = (.error f, l)) ∧
    ∀ type : ColumnType, type.isComplex = false → type.check = .ok () →
      type.accepts type.storage = true := by
  constructor
  · intro type column i hsimple _ haccepts
    have hfed := (ColumnType.accepts_iff_fed hsimple).mp haccepts
    constructor
    · intro hnone
      rw [read, hnone]
      exact hfed.decode_none
    · intro d hd
      rw [read, hd]
      refine ⟨hfed.exists_decode_iff, fun cell hcell => ?_⟩
      obtain ⟨v, rfl, hmeaning⟩ := hfed.meaning_of_decode hcell
      refine ⟨v, rfl, hfed.exists_normalize_iff hcell, fun w hw => ?_, fun e he => ?_⟩
      · rw [hmeaning, hfed.meaning_of_normalize hcell hw]
      · obtain ⟨hoverflow, hdecimal⟩ := hfed.overflow_of_normalize hcell he
        refine ⟨hoverflow, hdecimal, fun l j hreads => ?_⟩
        have hcellFault : type.normalizeCell (some v) = .error e := map_eq_error_iff.mpr he
        have hread : column.read i = .ok (some v) := by rw [read, hd, hcell]
        constructor
        · intro input hinput
          exact Ledger.updateInputRow_eq_error hreads hcellFault hinput
        · intro c hcolumn hi
          exact Ledger.updateChunk_eq_error hreads hcellFault hcolumn hi hread
  · intro type hsimple _
    exact (ColumnType.accepts_iff_fed hsimple).mpr (ColumnType.fed_storage hsimple)

namespace Fractions

/-- Integers for a column of 38 places: the first has room for the zeros, the second not. -/
def column : Column := ⟨.decimal128 38 0, [some (.wrap 1), some (.wrap 2)]⟩

def plan : Plan where
  name := "AGGREGATE (id=1)"
  groupBy := [⟨0, .decimal 38 38, none⟩]
  measures := []

end Fractions

theorem accepted_cells_sound_fractions :
    (ColumnType.decimal 38 38).HasRoom (.decimal ⟨.wrap 1, 38, 0⟩) ∧
      ∃ f, (Ledger.ofPlan Fractions.plan).updateChunk ⟨2, [Fractions.column]⟩ =
        (.error f, Ledger.ofPlan Fractions.plan) := by
  have hsound := accepted_cells_sound.1 (.decimal 38 38) Fractions.column
  constructor
  · obtain ⟨v, hv, hroom, _⟩ := ((hsound 0 rfl rfl rfl).2 (.wrap 1) rfl).2 _ rfl
    cases hv
    exact hroom.mp ⟨_, rfl⟩
  · obtain ⟨v, hv, hroom, _, hfault⟩ := ((hsound 1 rfl rfl rfl).2 (.wrap 2) rfl).2 _ rfl
    cases hv
    have hreads : Fractions.plan.ReadsAs 0 (.decimal 38 38) := .inl ⟨_, .head _, rfl, rfl⟩
    exact ((hfault (.scale .overflow) rfl).2.2 _ 0 hreads).2 _ rfl (by decide)

end Column
end Rollup
