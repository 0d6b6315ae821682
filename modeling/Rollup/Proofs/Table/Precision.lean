import Rollup.Proofs.Table.Results

/-
Digits of decimals in results.

A decimal that comes in is brought to the scale of its column, but its digits are not
counted, so group keys and extremes have as many digits as the rows gave them.  Sums are
held to the precision of their type when they are finished.
-/

namespace Rollup

/-- A decimal with no more digits than the column has.  Every other value is in precision. -/
def ColumnType.InPrecision : ColumnType → Value → Prop
  | .decimal p _, .decimal d => d.unscaled.toInt.natAbs < 10 ^ p
  | _, _ => True

theorem ofSums_inPrecision : Aggregate.OfSums ColumnType.InPrecision :=
  ⟨fun _ => trivial, fun _ => trivial, fun _ _ _ h => h⟩

theorem Aggregate.Yields.natAbs_lt {P : ColumnType → Value → Prop} {p : Nat} {s : Int}
    {d : Decimal} (h : Yields P (.sumDecimal p s) (some (.decimal d))) :
    d.unscaled.toInt.natAbs < 10 ^ min (p + 10) 38 := by
  cases h with
  | decimal fits => exact fits

/-- The result of a call comes after the key and the results of the calls before. -/
theorem Plan.Yields.yields_getElem? {P : ColumnType → Value → Prop} {p : Plan}
    {row : List Cell} (h : p.Yields P row) {i : Nat} {a : Aggregate} {c : Cell}
    (ha : p.aggregates[i]? = some a) (hc : row[p.groupBy.length + i]? = some c) :
    Aggregate.Yields P a c := by
  obtain ⟨key, cells, rfl, hkey, hcells⟩ := h
  have hlength : key.length = p.groupBy.length := by
    rw [← hkey.length_eq, keyTypes, List.length_map]
  rw [← hlength, List.getElem?_append_right (Nat.le_add_right ..), Nat.add_sub_cancel_left] at hc
  exact getElem?_of_forall₂ hcells ha hc

namespace Life

variable {life : Life}

/-- In the rows that an open ledger finishes into, every value of a decimal column is a
decimal of its precision and scale.  The digits of a sum are within the precision.  Those of
group keys and extremes are if all decimals were that came for group keys and extremes. -/
theorem decimals_in_precision (hopen : life.isFinished = false) :
    ∃ rows, life.ledger.finish.1 = .ok rows ∧
      (∀ row ∈ rows, ∀ (j p : Nat) (s : Int) (v : Value),
        life.plan.outputTypes[j]? = some (.decimal p s) → row[j]? = some (some v) →
          ∃ unscaled, v = .decimal ⟨unscaled, p, s⟩) ∧
      (∀ row ∈ rows, ∀ (i p : Nat) (s : Int) (d : Decimal),
        life.plan.aggregates[i]? = some (.sumDecimal p s) →
          row[life.plan.groupBy.length + i]? = some (some (.decimal d)) →
            d.unscaled.toInt.natAbs < 10 ^ min (p + 10) 38) ∧
      ((∀ r ∈ life.rows, life.plan.Offers ColumnType.InPrecision r) →
        ∀ row ∈ rows, SatisfyAll ColumnType.InPrecision life.plan.outputTypes row) := by
  refine ⟨life.results, finish_eq hopen, ?_, ?_, ?_⟩
  · intro row hrow j p s v htype hv
    have hcell := getElem?_of_forall₂ (holdsAll_results hopen row hrow) htype hv
    cases hcell v rfl with
    | decimal p s unscaled => exact ⟨unscaled, rfl⟩
  · intro row hrow i p s d ha hd
    have hyields := yields_results (life.offers_of_holds fun _ _ h => h) row hrow
    exact (hyields.yields_getElem? ha hd).natAbs_lt
  · intro h row hrow
    exact (yields_results h row hrow).satisfyAll ofSums_inPrecision

namespace Prices

def plan : Plan where
  name := "AGGREGATE (id=1)"
  groupBy := [⟨0, .decimal 3 2, none⟩]
  measures := [⟨{ function := "min", argument := .decimal 3 2, column := 1 },
    .extreme .min (.decimal 3 2)⟩]

def price (cents : Int) : Cell := some (.decimal ⟨.wrap cents, 3, 2⟩)

/-- A row, and a chunk whose columns have fewer places than the declared types. -/
def feeds : List Feed :=
  [.row ⟨[price 150], [price (-250)]⟩,
    .chunk ⟨1, [⟨.decimal128 3 1, [some (.wrap 15)]⟩, ⟨.decimal128 3 1, [none]⟩]⟩]

/-- A row and a chunk with six digits where there is room for three. -/
def excessive : List Feed :=
  [.row ⟨[price 123456], [price 250]⟩,
    .chunk ⟨1, [⟨.decimal128 10 2, [some (.wrap 150)]⟩,
      ⟨.decimal128 10 2, [some (.wrap (-123456))]⟩]⟩]

end Prices

theorem decimals_in_precision_prices :
    ∃ rows, (ofFeeds Prices.plan Prices.feeds).ledger.finish.1 = .ok rows ∧
      ∀ row ∈ rows, SatisfyAll ColumnType.InPrecision Prices.plan.outputTypes row := by
  have hopen : (ofFeeds Prices.plan Prices.feeds).isFinished = false := rfl
  obtain ⟨rows, hrows, _, _, hprecision⟩ := decimals_in_precision hopen
  refine ⟨rows, hrows, hprecision ?_⟩
  have hhistory : Prices.plan.history Prices.feeds =
      .ok [⟨[Prices.price 150], [Prices.price (-250)]⟩, ⟨[Prices.price 150], [none]⟩] := rfl
  rw [rows_ofFeeds hhistory]
  have hprice {cents : Int} (h : (Signed.wrap cents : Signed 128).toInt.natAbs < 10 ^ 3) :
      (Prices.price cents).Satisfies (ColumnType.InPrecision (.decimal 3 2)) :=
    Cell.satisfies_some.mpr h
  intro r hr
  rcases List.mem_cons.mp hr with rfl | hr
  · exact ⟨.cons (hprice (by decide)) .nil, .cons (hprice (by decide)) .nil⟩
  · rw [List.mem_singleton.mp hr]
    exact ⟨.cons (hprice (by decide)) .nil, .cons (Cell.satisfies_none _) .nil⟩

/-- Decimals with more digits than their columns are accepted, in a row and in a chunk, and
come back as they are. -/
theorem excess_digits_kept :
    ∃ l, (Ledger.ofPlan Prices.plan).run Prices.excessive = (.ok (), l) ∧
      l.finish.1 = .ok [[Prices.price 123456, Prices.price 250],
        [Prices.price 150, Prices.price (-123456)]] ∧
      ¬ SatisfyAll ColumnType.InPrecision Prices.plan.outputTypes
        [Prices.price 123456, Prices.price 250] := by
  have htable : ∃ u, (Table.ofPlan Prices.plan).run Prices.excessive = .ok u ∧
      u.finish.1 = .ok [[Prices.price 123456, Prices.price 250],
        [Prices.price 150, Prices.price (-123456)]] :=
    ⟨_, rfl, rfl⟩
  obtain ⟨u, hu, hrows⟩ := htable
  obtain ⟨hrun, hfinish, _⟩ := ofFeeds_eq_of_table hu
  refine ⟨_, hrun, hfinish.trans hrows, fun h => ?_⟩
  cases h with
  | cons hkey _ =>
    have hlt : (Signed.wrap 123456 : Signed 128).toInt.natAbs < 10 ^ 3 := hkey _ rfl
    exact absurd hlt (by decide)

end Life
end Rollup
