import Mathlib.Data.List.Basic
import KeyedRows.Predicate

/-!
# The two connectives

What holds of conjunctions and of disjunctions alike is said once, of a `Junction`.

* `group`, `parts`, `merge` : the predicate that a junction makes of some parts, the parts it finds in
  a predicate, and its merged group;
* `wrap` : a single part for itself, and a group otherwise;
* `merge_eq_wrap` : a merged group wraps the parts of its parts;
* `parts_merge`, `merge_eq_group` : parts that are no groups of the junction stay as they are;
* `merge_of_parts` : a property of groups and their parts, which merged groups have as well.
-/

namespace KeyedRows

inductive Junction where
  | and | or
deriving DecidableEq

namespace Junction

def group : Junction → List Predicate → Predicate
  | and => .and
  | or => .or

/-- The parts of a group of the junction, or the predicate as the only part. -/
def parts : Junction → Predicate → List Predicate
  | and => Predicate.conjuncts
  | or => Predicate.disjuncts

def merge : Junction → List Predicate → Predicate
  | and => .all
  | or => .any

def wrap (j : Junction) : List Predicate → Predicate
  | [p] => p
  | ps => j.group ps

variable {j : Junction} {ps qs : List Predicate}

/-! ## Parts -/

theorem parts_group (j : Junction) (ps : List Predicate) : j.parts (j.group ps) = ps := by
  cases j <;> rfl

theorem group_or_parts_eq (j : Junction) (p : Predicate) :
    (∃ ps, p = j.group ps) ∨ (∀ ps, p ≠ j.group ps) ∧ j.parts p = [p] := by
  cases j <;> cases p <;> simp [group, parts, Predicate.conjuncts, Predicate.disjuncts]

theorem flatMap_parts_eq_self (h : ∀ p ∈ ps, j.parts p = [p]) : ps.flatMap j.parts = ps := by
  rw [List.flatMap_congr h, List.flatMap_singleton']

/-! ## Merged groups -/

theorem wrap_of_length_ne_one (h : ps.length ≠ 1) : j.wrap ps = j.group ps := by
  unfold wrap
  split
  · exact absurd rfl h
  · rfl

theorem merge_eq_wrap (j : Junction) (ps : List Predicate) :
    j.merge ps = j.wrap (ps.flatMap j.parts) := by
  cases j <;> rfl

/-- What a single part has, and the group of any other number of parts, the wrapped parts have. -/
theorem wrap_of_cases {P : Predicate → Prop} (hsingle : ∀ p, ps = [p] → P p)
    (hgroup : ps.length ≠ 1 → P (j.group ps)) : P (j.wrap ps) := by
  by_cases hlength : ps.length = 1
  · obtain ⟨p, hp⟩ := List.length_eq_one_iff.1 hlength
    rw [hp]
    exact hsingle p hp
  · rw [wrap_of_length_ne_one hlength]
    exact hgroup hlength

theorem parts_merge (h : ps.flatMap j.parts = qs) (hself : ∀ q ∈ qs, j.parts q = [q]) :
    j.parts (j.merge ps) = qs := by
  rw [merge_eq_wrap, h]
  by_cases hlength : qs.length = 1
  · obtain ⟨q, rfl⟩ := List.length_eq_one_iff.1 hlength
    exact hself q (List.mem_singleton_self q)
  · rw [wrap_of_length_ne_one hlength, parts_group]

theorem merge_singleton {p : Predicate} (h : j.parts p = [p]) : j.merge [p] = p := by
  rw [merge_eq_wrap, List.flatMap_singleton, h]
  rfl

/-- Without groups of the junction among them, the parts stay as they are. -/
theorem merge_eq_group (hlength : ps.length ≠ 1) (h : ∀ p ∈ ps, j.parts p = [p]) :
    j.merge ps = j.group ps := by
  rw [merge_eq_wrap, flatMap_parts_eq_self h, wrap_of_length_ne_one hlength]

/-- What a group has exactly if its parts have it, merged groups of such parts have as well. -/
theorem merge_of_parts {P : Predicate → Prop} (hgroup : ∀ ps, P (j.group ps) ↔ ∀ p ∈ ps, P p)
    (h : ∀ p ∈ ps, P p) : P (j.merge ps) := by
  have hparts : ∀ q ∈ ps.flatMap j.parts, P q := by
    intro q hq
    obtain ⟨p, hp, hq⟩ := List.mem_flatMap.1 hq
    rcases j.group_or_parts_eq p with ⟨qs, rfl⟩ | ⟨_, hself⟩
    · rw [parts_group] at hq
      exact (hgroup qs).1 (h _ hp) q hq
    · rw [hself, List.mem_singleton] at hq
      exact hq ▸ h p hp
  rw [merge_eq_wrap]
  exact wrap_of_cases (fun p hp => hparts p (by simp [hp])) fun _ => (hgroup _).2 hparts

end Junction
end KeyedRows
