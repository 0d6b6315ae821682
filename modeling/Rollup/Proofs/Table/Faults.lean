import Rollup.Proofs.Aggregate.Reached
import Rollup.Proofs.Table.Refusals

/-
Faults of states.

Checks never have one.  What has passed them finds every state laid out as it has to be, so
the one fault behind the checks is a decimal total that leaves its word.  The states of a
ledger are kept in slots that the programs of their own aggregates have reached
(`Life.reached_slots`).
-/

namespace Rollup

/-- An outcome other than a fault of a state. -/
def StateFree {ρ : Type} (x : Except TableFault ρ) : Prop := ∀ fault, x ≠ .error (.state fault)

/-! ## Entries -/

variable {ι : Type} {P : ColumnType → Value → Prop}

/-- An item that states of the right form refuse only for a total out of range. -/
def Ledger.OnlyExceeds (P : ColumnType → Value → Prop) (step : Ledger.Step ι) (m : Measure)
    (x : ι) : Prop :=
  ∀ s fault, m.aggregate.Retains P s → step m s x = .error fault → fault = .decimalSum

/-- An entry that a ledger of the plan can refuse only for a total out of range. -/
structure Entry.OnlyExceeds (P : ColumnType → Value → Prop) (step : Ledger.Step ι) (p : Plan)
    (e : Entry ι) : Prop where
  normal : p.IsNormal e.key.cells
  sound : e.IsSound P step p
  items : List.Forall₂ (Ledger.OnlyExceeds P step) p.measures e.items

namespace Ledger

variable {step : Step ι} {l other : Ledger} {e : Entry ι} {entries : List (Entry ι)}
  {fault : StateFault}

theorem fault_of_advance {ms : List Measure} {ss : List State} {xs : List ι}
    (hs : List.Forall₂ (Aggregate.Retains P) (ms.map (·.aggregate)) ss)
    (hx : List.Forall₂ (OnlyExceeds P step) ms xs)
    (h : (advance step ms ss xs).1 = .error fault) : fault = .decimalSum := by
  induction hx generalizing ss with
  | nil => cases h
  | cons hx _ ih =>
    cases hs with
    | cons hs hss =>
      rw [advance] at h
      split at h
      · rename_i hstep
        cases h
        exact hx _ _ hs hstep
      · exact ih hss h

theorem fault_of_takeEntry (hkept : l.Kept) (hl : l.Retains P)
    (he : e.OnlyExceeds P step l.plan) (h : (l.takeEntry step e).1 = .error fault) :
    fault = .decimalSum := by
  have hi := (hkept.place he.normal).2
  have hstates := (hl.place he.sound.key).states _ (List.getElem_mem hi)
  rw [l.place_plan e.key] at hstates
  rw [takeEntry, List.getD_eq_getElem?_getD, List.getElem?_eq_getElem hi, Option.getD_some] at h
  exact fault_of_advance hstates he.items h

theorem fault_of_takeEntries (hkept : l.Kept) (hl : l.Retains P)
    (hentries : ∀ e ∈ entries, e.OnlyExceeds P step l.plan)
    (h : (l.takeEntries step entries).1 = .error fault) : fault = .decimalSum := by
  induction entries generalizing l with
  | nil => cases h
  | cons e rest ih =>
    have he := hentries e List.mem_cons_self
    have hkept' := hkept.takeEntry step he.normal
    have hl' := hl.takeEntry he.sound
    have hplan := takeEntry_plan step l e
    rw [takeEntries] at h
    split at h
    · rename_i fault' l' hfirst
      cases h
      exact fault_of_takeEntry hkept hl he (congrArg Prod.fst hfirst)
    · rename_i l' hfirst
      rw [hfirst] at hkept' hl' hplan
      refine ih hkept' hl' (fun e' he' => ?_) h
      rw [hplan]
      exact hentries e' (List.mem_cons_of_mem e he')

theorem fault_of_accumulate (hkept : l.Kept) (hl : l.Retains P)
    (hentries : ∀ e ∈ entries, e.OnlyExceeds P step l.plan)
    (h : (l.accumulate step entries).1 = .error (.state fault)) : fault = .decimalSum := by
  have hl' : l.accumulating.Retains P := ⟨hl.keys, hl.states⟩
  rw [accumulate] at h
  cases hfirst : (l.accumulating.takeEntries step entries).1 with
  | ok u =>
    rw [hfirst] at h
    cases h
  | error e =>
    rw [hfirst] at h
    cases h
    exact fault_of_takeEntries hkept.accumulating hl' hentries hfirst

/-! ## Calls -/

theorem onlyExceeds_row {p : Plan} {r : Row} (hadmits : p.Admits r) (hoffers : p.Offers P r) :
    r.entry.OnlyExceeds P takeCell p where
  normal := Plan.isNormal_iff.mpr hadmits.key
  sound := isSound_row hadmits hoffers
  items := hadmits.values.imp fun _ _ hc _ _ hs h => hs.fault_of_take hc h

theorem Retains.onlyExceeds_group (ho : other.Retains P) (hkept : other.Kept) {p : Plan}
    (hsame : Table.sameAggregation p other.plan = true) {g : Group} (hg : g ∈ other.groups) :
    g.entry.OnlyExceeds P takeState p where
  normal := (hkept.fits hsame hg).1
  sound := ho.isSound_group hsame hg
  items := by
    have hstates := ho.states g.states (states_of_mem_groups hg)
    rw [← aggregates_eq_of_sameAggregation hsame] at hstates
    exact (List.forall₂_map_left_iff.mp hstates).imp fun _ _ ho _ _ hs h => hs.fault_of_merge ho h

end Ledger

namespace Life

variable {life other : Life} {fault : StateFault}

theorem fault_of_feed {f : Feed} (h : (life.ledger.feed f).1 = .error (.state fault)) :
    fault = .decimalSum := by
  rw [Ledger.feed_eq] at h
  cases hcheck : life.ledger.plan.check life.ledger.isFinished f with
  | error e =>
    rw [hcheck] at h
    cases h
    exact nomatch Plan.faultsIn_check _ _ f _ hcheck
  | ok rows =>
    rw [hcheck] at h
    refine Ledger.fault_of_accumulate life.wellKept_ledger.toKept life.retains_holds ?_ h
    intro e he
    obtain ⟨r, hr, rfl⟩ := List.mem_map.mp he
    have hadmits := Plan.admits_of_accepted (Plan.check_eq_ok_iff.mp hcheck).2 r hr
    exact Ledger.onlyExceeds_row hadmits (hadmits.offers fun _ _ hv => hv)

theorem fault_of_merge (h : (life.ledger.merge other.ledger).1 = .error (.state fault)) :
    fault = .decimalSum := by
  rw [Ledger.merge_eq] at h
  cases hcheck : life.ledger.checkMerge other.ledger with
  | error e =>
    rw [hcheck] at h
    cases h
    exact (Ledger.faultsIn_checkMerge _ _ _ hcheck).elim
  | ok groups =>
    rw [hcheck] at h
    obtain ⟨_, _, hsame, rfl⟩ := Ledger.checkMerge_eq_ok_iff.mp hcheck
    refine Ledger.fault_of_accumulate life.wellKept_ledger.toKept life.retains_holds ?_ h
    intro e he
    obtain ⟨g, hg, rfl⟩ := List.mem_map.mp he
    exact other.retains_holds.onlyExceeds_group other.wellKept_ledger.toKept hsame hg

theorem stateFree_finish (life : Life) : StateFree life.ledger.finish.1 := by
  intro fault h
  exact nomatch life.faultsIn_finish _ h

theorem stateFree_finishChunk (life : Life) : StateFree life.ledger.finishChunk.1 := by
  intro fault h
  rcases life.faultsIn_finishChunk _ h with hfinished | ⟨_, _, hbuild⟩
  · exact nomatch hfinished
  · exact nomatch hbuild

/-! ## States that are reached -/

/-- What holds of the states that aggregates start with, and of every state that one of their
operations makes, holds of all states of a ledger. -/
theorem states_induction {Q : Aggregate → State → Prop} (hstart : ∀ a, Q a a.start)
    (htake : ∀ a ofPartials s c t, Q a s → a.take ofPartials s c = .ok t → Q a t)
    (hmerge : ∀ a s o t, Q a s → Q a o → a.merge s o = .ok t → Q a t) (life : Life) :
    life.ledger.StatesAre Q := by
  induction life with
  | ofPlan p => exact Ledger.statesAre_of_nil rfl
  | feed life f ih =>
    rw [ledger, Ledger.feed_eq]
    cases hcheck : life.ledger.plan.check life.ledger.isFinished f with
    | error e => exact ih
    | ok rows =>
      refine ih.accumulate (Plan.forall₂_start _ hstart) fun e he => ?_
      obtain ⟨r, hr, rfl⟩ := List.mem_map.mp he
      have hadmits := Plan.admits_of_accepted (Plan.check_eq_ok_iff.mp hcheck).2 r hr
      exact hadmits.values.imp fun m c _ s t hs ht => htake _ m.call.ofPartials s c t hs ht
  | merge life other ih iho =>
    rw [ledger, Ledger.merge_eq]
    cases hcheck : life.ledger.checkMerge other.ledger with
    | error e => exact ih
    | ok groups =>
      obtain ⟨_, _, hsame, rfl⟩ := Ledger.checkMerge_eq_ok_iff.mp hcheck
      refine ih.accumulate (Plan.forall₂_start _ hstart) fun e he => ?_
      obtain ⟨g, hg, rfl⟩ := List.mem_map.mp he
      have hstates := iho g.states (Ledger.states_of_mem_groups hg)
      rw [← Ledger.aggregates_eq_of_sameAggregation hsame] at hstates
      exact (List.forall₂_map_left_iff.mp hstates).imp fun m o ho s t hs ht =>
        hmerge _ s o t hs ho ht
  | finish life ih =>
    rw [ledger, Ledger.finish]
    split
    · exact ih
    · exact Ledger.statesAre_of_nil rfl
  | finishChunk life ih =>
    rw [ledger, Ledger.finishChunk]
    split
    · exact ih
    · exact Ledger.statesAre_of_nil rfl

/-- The states are kept in slots that the programs of their aggregates have reached. -/
theorem reached_slots (life : Life) :
    life.ledger.StatesAre fun a s => Slot.Reached a s.slot := by
  refine life.states_induction (fun a => ?_) (fun a ofPartials s c t hs ht => ?_)
    fun a s o t hs ho ht => ?_
  · exact a.start_slot ▸ .start
  · cases ofPartials with
    | false => exact Slot.outcome_of_accept (o := .value c) ht ▸ hs.value c
    | true => exact Slot.outcome_of_accept (o := .partialResult c) ht ▸ hs.partialResult c
  · exact Slot.outcome_of_accept (o := .state o) ht ▸ hs.state ho

/-- Whatever the programs of an aggregate have done to a slot, it is laid out for it: a sum
without its mark is zero.  Whatever calls a ledger has been through, each of its states is
kept in such a slot of the call it belongs to, and can be finished.  So no call ever meets a
state or a value that does not fit: the only fault behind the checks is a decimal total that
leaves its word, and neither form of the results has any.  The rows that an open ledger
finishes into hold cells that their columns leave as they are. -/
theorem states_laid_out (life : Life) :
    (∀ (a : Aggregate) (t : Slot), Slot.Reached a t → Slot.LaidOut a t) ∧
    (∀ states ∈ life.ledger.states,
      List.Forall₂ (fun a s => (∃ t : Slot, Slot.Reached a t ∧ Slot.LaidOut a t ∧ t.state = s) ∧
        ∃ c, a.finish s = .ok c) life.plan.aggregates states) ∧
    (∀ f fault, (life.ledger.feed f).1 = .error (.state fault) → fault = .decimalSum) ∧
    (∀ (other : Life) fault, (life.ledger.merge other.ledger).1 = .error (.state fault) →
      fault = .decimalSum) ∧
    StateFree life.ledger.finish.1 ∧ StateFree life.ledger.finishChunk.1 ∧
    (life.isFinished = false → ∃ rows, life.ledger.finish.1 = .ok rows ∧
      ∀ row ∈ rows, List.Forall₂ (fun (type : ColumnType) c => type.normalizeCell c = .ok c)
        life.plan.outputTypes row) := by
  refine ⟨fun _ _ ht => ht.laidOut, fun states hstates => ?_, fun _ _ => fault_of_feed,
    fun _ _ => fault_of_merge, life.stateFree_finish, life.stateFree_finishChunk,
    fun hopen => ?_⟩
  · have hretains := life.retains_holds.states states hstates
    rw [plan_ledger] at hretains
    have hreached := life.reached_slots states hstates
    rw [plan_ledger] at hreached
    refine hretains.mp (fun a s hs hslot => ?_) hreached
    obtain ⟨c, hc, _⟩ := hs.finish
    exact ⟨⟨s.slot, hslot, hslot.laidOut, s.state_slot⟩, c, hc⟩
  · refine ⟨life.results, finish_eq hopen, fun row hrow => ?_⟩
    exact (holdsAll_results hopen row hrow).imp fun _ _ hc => hc.normalizeCell_eq

end Life
end Rollup
