import Mathlib.Data.List.Forall2

/-!
# Computations that may fail

* `bind_eq_ok`, `map_eq_ok` : a step after a step succeeds if both do;
* `mapError_eq_ok` : naming an error does not change a success;
* `mapM_eq_ok`, `exists_mapM_eq_ok`, `mapM_eq_some` : a list of steps succeeds if each of them does;
* `mapM_congr` : lists of steps with the same outcomes, one by one, have the same outcome;
* `map_eq_map_of_forall₂` : lists whose members have the same images have the same image;
* `exists_of_forall₂`, `exists_zip_of_forall₂` : a member of a list of results has a step it comes
  from, also in lists that are paired with a third;
* `exists_getElem?_of_forall₂` : a step has a result at the same place;
* `exists_zip_of_mem` : a step has a result next to it;
* `exists_middle_of_forall₂` : lists whose members are related through others are related through a
  list of these;
* `forall₂_filterMap_right`, `forall₂_zip_right` : relations to images of a list, and to its pairs.
-/

namespace KeyedRows

universe u v

variable {ε : Type u} {α β : Type v}

theorem bind_eq_ok {x : Except ε α} {f : α → Except ε β} {b : β} :
    (x >>= f) = .ok b ↔ ∃ a, x = .ok a ∧ f a = .ok b := by
  cases x with
  | error e => exact ⟨fun h => (by cases h), fun ⟨a, h, _⟩ => (by cases h)⟩
  | ok a => exact ⟨fun h => ⟨a, rfl, h⟩, fun ⟨_, h, hf⟩ => by cases h; exact hf⟩

theorem map_eq_ok {x : Except ε α} {f : α → β} {b : β} :
    f <$> x = .ok b ↔ ∃ a, x = .ok a ∧ f a = b := by
  cases x with
  | error e => exact ⟨fun h => (by cases h), fun ⟨a, h, _⟩ => (by cases h)⟩
  | ok a =>
    exact ⟨fun h => ⟨a, rfl, by cases h; rfl⟩, fun ⟨_, h, hf⟩ => by cases h; exact congrArg _ hf⟩

theorem mapError_eq_ok {ε' : Type*} {x : Except ε α} {f : ε → ε'} {a : α} :
    x.mapError f = .ok a ↔ x = .ok a := by
  cases x <;> simp [Except.mapError]

theorem mapM_eq_ok {f : α → Except ε β} {xs : List α} {ys : List β} :
    xs.mapM f = .ok ys ↔ List.Forall₂ (fun x y => f x = .ok y) xs ys := by
  induction xs generalizing ys with
  | nil =>
    rw [List.mapM_nil, List.forall₂_nil_left_iff]
    exact ⟨fun h => by cases h; rfl, fun h => by rw [h]; rfl⟩
  | cons x xs ih =>
    rw [List.mapM_cons, bind_eq_ok]
    constructor
    · rintro ⟨y, hy, h⟩
      obtain ⟨ys', hys, h⟩ := bind_eq_ok.1 h
      cases h
      exact .cons hy (ih.1 hys)
    · rintro (_ | ⟨hy, hys⟩)
      exact ⟨_, hy, bind_eq_ok.2 ⟨_, ih.2 hys, rfl⟩⟩

theorem exists_mapM_eq_ok {f : α → Except ε β} : ∀ {xs : List α}, (∀ x ∈ xs, ∃ y, f x = .ok y) →
    ∃ ys, xs.mapM f = .ok ys
  | [], _ => ⟨[], rfl⟩
  | x :: xs, h => by
    obtain ⟨y, hy⟩ := h x (by simp)
    obtain ⟨ys, hys⟩ := exists_mapM_eq_ok fun z hz => h z (List.mem_cons_of_mem _ hz)
    exact ⟨y :: ys, mapM_eq_ok.2 (.cons hy (mapM_eq_ok.1 hys))⟩

theorem mapM_eq_some {f : α → Option β} {xs : List α} {ys : List β} :
    xs.mapM f = some ys ↔ List.Forall₂ (fun x y => f x = some y) xs ys := by
  induction xs generalizing ys with
  | nil =>
    rw [List.mapM_nil, List.forall₂_nil_left_iff]
    exact ⟨fun h => by cases h; rfl, fun h => by rw [h]; rfl⟩
  | cons x xs ih =>
    rw [List.mapM_cons]
    constructor
    · intro h
      obtain ⟨y, hy, h⟩ := Option.bind_eq_some_iff.1 h
      obtain ⟨ys', hys, h⟩ := Option.bind_eq_some_iff.1 h
      cases h
      exact .cons hy (ih.1 hys)
    · rintro (_ | ⟨hy, hys⟩)
      exact Option.bind_eq_some_iff.2 ⟨_, hy, Option.bind_eq_some_iff.2 ⟨_, ih.2 hys, rfl⟩⟩

theorem mapM_congr {γ : Type*} {f : α → Except ε β} {g : γ → Except ε β} {xs : List α} {ys : List γ}
    (h : List.Forall₂ (fun x y => f x = g y) xs ys) : xs.mapM f = ys.mapM g := by
  induction h with
  | nil => rfl
  | cons hxy _ ih => rw [List.mapM_cons, List.mapM_cons, hxy, ih]

/-! ## Lists related member by member -/

section
variable {γ : Type*} {δ : Type*} {R : γ → δ → Prop} {xs : List γ} {ys : List δ}

theorem map_eq_map_of_forall₂ {α : Type*} {f : γ → α} {g : δ → α}
    (h : List.Forall₂ (fun x y => f x = g y) xs ys) : xs.map f = ys.map g := by
  induction h with
  | nil => rfl
  | cons hxy _ ih => rw [List.map_cons, List.map_cons, hxy, ih]

theorem exists_of_forall₂ (h : List.Forall₂ R xs ys) {y : δ} (hy : y ∈ ys) : ∃ x ∈ xs, R x y := by
  induction h with
  | nil => cases hy
  | @cons a b xs ys hab _ ih =>
    rcases List.mem_cons.1 hy with rfl | hy
    · exact ⟨a, by simp, hab⟩
    · obtain ⟨x, hx, hxy⟩ := ih hy
      exact ⟨x, List.mem_cons_of_mem _ hx, hxy⟩

theorem exists_getElem?_of_forall₂ (h : List.Forall₂ R xs ys) {i : Nat} {x : γ}
    (hx : xs[i]? = some x) : ∃ y, ys[i]? = some y ∧ R x y := by
  induction h generalizing i with
  | nil => simp at hx
  | @cons a b xs ys hab _ ih =>
    cases i with
    | zero =>
      cases hx
      exact ⟨b, rfl, hab⟩
    | succ i => simpa using ih (by simpa using hx)

theorem exists_zip_of_forall₂ {ι : Type*} (h : List.Forall₂ R xs ys) {is : List ι} {i : ι} {y : δ}
    (hy : (i, y) ∈ is.zip ys) : ∃ x, (i, x) ∈ is.zip xs ∧ R x y := by
  induction h generalizing is with
  | nil => simp at hy
  | @cons a b xs ys hab _ ih =>
    cases is with
    | nil => simp at hy
    | cons j is =>
      rw [List.zip_cons_cons, List.mem_cons] at hy
      rcases hy with hy | hy
      · cases hy
        exact ⟨a, by simp, hab⟩
      · obtain ⟨x, hx, hxy⟩ := ih hy
        exact ⟨x, by simp [hx], hxy⟩

theorem exists_zip_of_mem (h : List.Forall₂ R xs ys) {x : γ} (hx : x ∈ xs) :
    ∃ y, (x, y) ∈ xs.zip ys ∧ R x y := by
  induction h with
  | nil => cases hx
  | @cons a b xs ys hab _ ih =>
    rcases List.mem_cons.1 hx with rfl | hx
    · exact ⟨b, by simp, hab⟩
    · obtain ⟨y, hy, hxy⟩ := ih hx
      exact ⟨y, by simp [hy], hxy⟩

theorem exists_middle_of_forall₂ {ι : Type*} {S : δ → ι → Prop} {zs : List ι}
    (h : List.Forall₂ (fun x z => ∃ y, R x y ∧ S y z) xs zs) :
    ∃ ys, List.Forall₂ R xs ys ∧ List.Forall₂ S ys zs := by
  induction h with
  | nil => exact ⟨[], .nil, .nil⟩
  | cons hxz _ ih =>
    obtain ⟨y, hxy, hyz⟩ := hxz
    obtain ⟨ys, hxs, hzs⟩ := ih
    exact ⟨y :: ys, .cons hxy hxs, .cons hyz hzs⟩

theorem forall₂_filterMap_right {ι : Type*} {g : δ → Option ι} {S : γ → ι → Prop}
    (h : List.Forall₂ (fun x y => ∃ z, g y = some z ∧ S x z) xs ys) :
    List.Forall₂ S xs (ys.filterMap g) := by
  induction h with
  | nil => exact .nil
  | cons hxy _ ih =>
    obtain ⟨z, hz, hxz⟩ := hxy
    rw [List.filterMap_cons_some hz]
    exact .cons hxz ih

theorem forall₂_zip_right {ι : Type*} {R : γ × δ → ι → Prop} {zs : List ι}
    (h : List.Forall₂ R (xs.zip ys) zs) :
    List.Forall₂ (fun p q => p.1 = q.1 ∧ R p q.2) (xs.zip ys) (xs.zip zs) := by
  induction xs generalizing ys zs with
  | nil => exact .nil
  | cons x xs ih =>
    cases ys with
    | nil =>
      cases h
      exact .nil
    | cons y ys =>
      rw [List.zip_cons_cons] at h ⊢
      cases h with
      | cons hxy h => exact .cons ⟨rfl, hxy⟩ (ih h)

end

end KeyedRows
