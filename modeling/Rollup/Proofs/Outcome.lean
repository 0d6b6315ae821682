import Mathlib.Data.List.Forall2

/-
Successes of steps that may fail.

What a traversal of a list returns is settled element by element, so every lemma about a
traversal goes through `mapM_eq_ok_iff`.
-/

namespace Rollup

variable {ε ι ο ρ : Type}

theorem map_eq_ok_iff {f : ι → ο} {x : Except ε ι} {y : ο} :
    x.map f = .ok y ↔ ∃ a, x = .ok a ∧ f a = y := by
  cases x with
  | error e => exact ⟨(nomatch ·), fun ⟨_, h, _⟩ => nomatch h⟩
  | ok a =>
    constructor
    · intro h
      exact ⟨a, rfl, Except.ok.inj h⟩
    · rintro ⟨_, h, rfl⟩
      cases h
      rfl

theorem map_eq_error_iff {f : ι → ο} {x : Except ε ι} {e : ε} :
    x.map f = .error e ↔ x = .error e := by
  cases x with
  | error e' =>
    exact ⟨fun h => congrArg _ (Except.error.inj h), fun h => congrArg _ (Except.error.inj h)⟩
  | ok a => exact ⟨(nomatch ·), (nomatch ·)⟩

theorem mapError_eq_ok_iff {φ : Type} {f : ε → φ} {x : Except ε ι} {y : ι} :
    x.mapError f = .ok y ↔ x = .ok y := by
  cases x with
  | error e => exact iff_of_false nofun nofun
  | ok a => exact ⟨fun h => congrArg _ (Except.ok.inj h), fun h => congrArg _ (Except.ok.inj h)⟩

theorem mapM_cons_eq_ok_iff {f : ι → Except ε ο} {x : ι} {xs : List ι} {ys : List ο} :
    (x :: xs).mapM f = .ok ys ↔ ∃ y rest, f x = .ok y ∧ xs.mapM f = .ok rest ∧ ys = y :: rest := by
  rw [List.mapM_cons]
  constructor
  · intro h
    cases hx : f x with
    | error e => rw [hx] at h; exact nomatch h
    | ok y =>
      cases hxs : xs.mapM f with
      | error e => rw [hx, hxs] at h; exact nomatch h
      | ok rest =>
        rw [hx, hxs] at h
        exact ⟨y, rest, rfl, rfl, (Except.ok.inj h).symm⟩
  · rintro ⟨y, rest, hx, hxs, rfl⟩
    rw [hx, hxs]
    rfl

theorem mapM_eq_ok_iff {f : ι → Except ε ο} {xs : List ι} {ys : List ο} :
    xs.mapM f = .ok ys ↔ List.Forall₂ (fun x y => f x = .ok y) xs ys := by
  induction xs generalizing ys with
  | nil =>
    rw [List.forall₂_nil_left_iff]
    exact ⟨fun h => (Except.ok.inj h).symm, fun h => h ▸ rfl⟩
  | cons x xs ih =>
    rw [mapM_cons_eq_ok_iff, List.forall₂_cons_left_iff]
    constructor
    · rintro ⟨y, rest, hx, hrest, rfl⟩
      exact ⟨y, rest, hx, ih.mp hrest, rfl⟩
    · rintro ⟨y, rest, hx, hrest, rfl⟩
      exact ⟨y, rest, hx, ih.mpr hrest, rfl⟩

theorem exists_of_mem_forall₂ {R : ι → ο → Prop} {xs : List ι} {ys : List ο} {x : ι}
    (h : List.Forall₂ R xs ys) (hx : x ∈ xs) : ∃ y ∈ ys, R x y := by
  induction h with
  | nil => exact nomatch hx
  | cons hhead _ ih =>
    rcases List.mem_cons.mp hx with rfl | hmem
    · exact ⟨_, List.mem_cons_self, hhead⟩
    · obtain ⟨y, hmem', hy⟩ := ih hmem
      exact ⟨y, List.mem_cons_of_mem _ hmem', hy⟩

theorem exists_of_mem_mapM {f : ι → Except ε ο} {xs : List ι} {ys : List ο} {y : ο}
    (h : xs.mapM f = .ok ys) (hy : y ∈ ys) : ∃ x ∈ xs, f x = .ok y :=
  exists_of_mem_forall₂ (mapM_eq_ok_iff.mp h).flip hy

theorem exists_forall₂_iff {R : ι → ο → Prop} {xs : List ι} :
    (∃ ys, List.Forall₂ R xs ys) ↔ ∀ x ∈ xs, ∃ y, R x y := by
  induction xs with
  | nil => exact ⟨fun _ _ h => (nomatch h), fun _ => ⟨[], .nil⟩⟩
  | cons x xs ih =>
    rw [List.forall_mem_cons, ← ih]
    constructor
    · rintro ⟨_, h⟩
      cases h with
      | cons hx hxs => exact ⟨⟨_, hx⟩, _, hxs⟩
    · rintro ⟨⟨y, hy⟩, ys, hys⟩
      exact ⟨y :: ys, .cons hy hys⟩

theorem exists_mapM_eq_ok_iff {f : ι → Except ε ο} {xs : List ι} :
    (∃ ys, xs.mapM f = .ok ys) ↔ ∀ x ∈ xs, ∃ y, f x = .ok y := by
  simp only [mapM_eq_ok_iff]
  exact exists_forall₂_iff

theorem mapM_cons_eq_error_iff {f : ι → Except ε ο} {x : ι} {xs : List ι} {e : ε} :
    (x :: xs).mapM f = .error e ↔
      f x = .error e ∨ (∃ y, f x = .ok y) ∧ xs.mapM f = .error e := by
  rw [List.mapM_cons]
  cases f x with
  | error e' =>
    exact ⟨fun h => .inl (congrArg _ (Except.error.inj h)),
      fun h => h.elim (fun hx => congrArg _ (Except.error.inj hx)) fun h => nomatch h.1⟩
  | ok y =>
    rw [or_iff_right nofun, and_iff_right ⟨y, rfl⟩]
    exact map_eq_error_iff (f := (y :: ·))

/-- A traversal fails as the first of its steps that does. -/
theorem mapM_eq_error_iff {f : ι → Except ε ο} {xs : List ι} {e : ε} :
    xs.mapM f = .error e ↔
      ∃ before x after, xs = before ++ x :: after ∧ (∀ w ∈ before, ∃ y, f w = .ok y) ∧
        f x = .error e := by
  induction xs with
  | nil => exact iff_of_false nofun fun ⟨_, _, _, h, _⟩ => nomatch List.nil_eq_append_iff.mp h
  | cons x xs ih =>
    rw [mapM_cons_eq_error_iff, ih]
    constructor
    · rintro (hx | ⟨hx, before, w, after, rfl, hbefore, hw⟩)
      · exact ⟨[], x, xs, rfl, List.forall_mem_nil _, hx⟩
      · exact ⟨x :: before, w, after, rfl, List.forall_mem_cons.mpr ⟨hx, hbefore⟩, hw⟩
    · rintro ⟨before, w, after, hxs, hbefore, hw⟩
      cases before with
      | nil =>
        obtain ⟨rfl, rfl⟩ := List.cons.inj hxs
        exact .inl hw
      | cons b before =>
        obtain ⟨rfl, rfl⟩ := List.cons.inj hxs
        obtain ⟨hb, hrest⟩ := List.forall_mem_cons.mp hbefore
        exact .inr ⟨hb, before, w, after, rfl, hrest, hw⟩

theorem exists_of_mapM_eq_error {f : ι → Except ε ο} {xs : List ι} {e : ε}
    (h : xs.mapM f = .error e) : ∃ x ∈ xs, f x = .error e := by
  obtain ⟨before, x, after, rfl, _, hx⟩ := mapM_eq_error_iff.mp h
  exact ⟨x, List.mem_append_right before List.mem_cons_self, hx⟩

/-- Two traversals are one if their steps are, place by place. -/
theorem mapM_eq_mapM {κ : Type} {f : ι → Except ε ο} {g : κ → Except ε ο} {xs : List ι}
    {ys : List κ} (h : List.Forall₂ (fun x y => f x = g y) xs ys) : xs.mapM f = ys.mapM g := by
  induction h with
  | nil => rfl
  | cons hhead _ ih => rw [List.mapM_cons, List.mapM_cons, hhead, ih]

theorem mapM_eq_ok_map {f : ι → Except ε ο} {g : ι → ο} {xs : List ι}
    (h : ∀ x ∈ xs, f x = .ok (g x)) : xs.mapM f = .ok (xs.map g) := by
  induction xs with
  | nil => rfl
  | cons x xs ih =>
    have hxs := ih fun w hw => h w (List.mem_cons_of_mem x hw)
    exact mapM_cons_eq_ok_iff.mpr ⟨_, _, h x List.mem_cons_self, hxs, rfl⟩

/-! ## Place by place -/

/-- Two lists are joined through the one that lies between them. -/
theorem exists_of_forall₂_zip {κ : Type} {R : ι → κ → Prop} {S : ι → κ → ο → Prop} {xs : List ι}
    {ys : List κ} {zs : List ο} (hR : List.Forall₂ R xs ys)
    (hS : List.Forall₂ (fun x z => S x.1 x.2 z) (xs.zip ys) zs) :
    List.Forall₂ (fun x z => ∃ y, R x y ∧ S x y z) xs zs := by
  induction hR generalizing zs with
  | nil =>
    cases hS
    exact .nil
  | cons hx _ ih =>
    cases hS with
    | cons hz hzs => exact .cons ⟨_, hx, hz⟩ (ih hzs)

theorem getElem_of_forall₂ {R : ι → ο → Prop} {xs : List ι} {ys : List ο}
    (h : List.Forall₂ R xs ys) {i : Nat} (hx : i < xs.length) (hy : i < ys.length) :
    R xs[i] ys[i] :=
  h.get hx hy

theorem getElem?_of_forall₂ {R : ι → ο → Prop} {xs : List ι} {ys : List ο} {x : ι} {y : ο}
    {i : Nat} (h : List.Forall₂ R xs ys) (hx : xs[i]? = some x) (hy : ys[i]? = some y) :
    R x y := by
  obtain ⟨hi, rfl⟩ := List.getElem?_eq_some_iff.mp hx
  obtain ⟨hi', rfl⟩ := List.getElem?_eq_some_iff.mp hy
  exact getElem_of_forall₂ h hi hi'

theorem mapM_eq_ok_of_getElem {f : ι → Except ε ο} {xs : List ι} {ys : List ο}
    (hlength : xs.length = ys.length)
    (h : ∀ (i : Nat) (hx : i < xs.length) (hy : i < ys.length), f xs[i] = .ok ys[i]) :
    xs.mapM f = .ok ys :=
  mapM_eq_ok_iff.mpr (List.forall₂_iff_get.mpr ⟨hlength, fun i hx hy => h i hx hy⟩)

end Rollup
