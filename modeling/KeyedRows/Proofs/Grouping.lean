import KeyedRows.Proofs.KeyOrder

/-!
# Groups without needless nesting

* `Predicate.IsFlat` : no group has exactly one part, and none is a part of a group of its own kind;
* `Predicate.IsMerged` : what is put together of leaves by merged conjunctions and disjunctions;
* `isFlat_merge` : merging flat parts makes a flat predicate;
* `isMerged_iff_isFlat` : the merged predicates are the flat ones;
* `KeyRange.isMerged_of_predicate?` : the condition of every range is one of them;
* `groups_merged` : merging keeps the truth of a group and leaves no needless nesting.
-/

namespace KeyedRows

namespace Predicate

/-- No group has exactly one part, and no part of a group is a group of the same kind. -/
inductive IsFlat : Predicate → Prop
  | leaf {p : Predicate} (hleaf : p.isCompound = false) : IsFlat p
  | and {parts : List Predicate} (hlength : parts.length ≠ 1) (hkind : ∀ inner, .and inner ∉ parts)
    (hparts : ∀ p ∈ parts, IsFlat p) : IsFlat (.and parts)
  | or {parts : List Predicate} (hlength : parts.length ≠ 1) (hkind : ∀ inner, .or inner ∉ parts)
    (hparts : ∀ p ∈ parts, IsFlat p) : IsFlat (.or parts)

/-- Put together of leaves by merged conjunctions and disjunctions alone. -/
inductive IsMerged : Predicate → Prop
  | leaf {p : Predicate} (hleaf : p.isCompound = false) : IsMerged p
  | all {parts : List Predicate} (hparts : ∀ p ∈ parts, IsMerged p) : IsMerged (.all parts)
  | any {parts : List Predicate} (hparts : ∀ p ∈ parts, IsMerged p) : IsMerged (.any parts)

section
variable {j : Junction} {p q : Predicate} {parts : List Predicate}

/-! ## Flat groups -/

theorem isFlat_group (hlength : parts.length ≠ 1) (hkind : ∀ inner, j.group inner ∉ parts)
    (hparts : ∀ p ∈ parts, p.IsFlat) : (j.group parts).IsFlat := by
  cases j with
  | and => exact .and hlength hkind hparts
  | or => exact .or hlength hkind hparts

theorem IsFlat.of_group (h : (j.group parts).IsFlat) :
    (∀ inner, j.group inner ∉ parts) ∧ ∀ p ∈ parts, p.IsFlat := by
  cases j with
  | and =>
    cases h with
    | leaf hleaf => cases hleaf
    | and _ hkind hparts => exact ⟨hkind, hparts⟩
  | or =>
    cases h with
    | leaf hleaf => cases hleaf
    | or _ hkind hparts => exact ⟨hkind, hparts⟩

theorem IsFlat.of_mem_parts (h : p.IsFlat) (hq : q ∈ j.parts p) :
    q.IsFlat ∧ ∀ inner, q ≠ j.group inner := by
  rcases j.group_or_parts_eq p with ⟨parts, rfl⟩ | ⟨hkind, hself⟩
  · rw [j.parts_group] at hq
    obtain ⟨hkind, hparts⟩ := h.of_group
    exact ⟨hparts q hq, fun inner heq => hkind inner (heq ▸ hq)⟩
  · rw [hself, List.mem_singleton] at hq
    exact hq ▸ ⟨h, hkind⟩

theorem isFlat_merge (h : ∀ p ∈ parts, p.IsFlat) : (j.merge parts).IsFlat := by
  have hflat : ∀ q ∈ parts.flatMap j.parts, q.IsFlat ∧ ∀ inner, q ≠ j.group inner := by
    intro q hq
    obtain ⟨p, hp, hq⟩ := List.mem_flatMap.1 hq
    exact (h p hp).of_mem_parts hq
  rw [j.merge_eq_wrap]
  refine Junction.wrap_of_cases (fun p hp => ?_) fun hlength => ?_
  · exact (hflat p (hp ▸ List.mem_singleton_self p)).1
  · exact isFlat_group hlength (fun inner hmem => (hflat _ hmem).2 inner rfl) fun q hq => (hflat q hq).1

theorem parts_eq_singleton (hkind : ∀ inner, j.group inner ∉ parts) (hp : p ∈ parts) :
    j.parts p = [p] := by
  rcases j.group_or_parts_eq p with ⟨inner, rfl⟩ | ⟨_, hself⟩
  · exact absurd hp (hkind inner)
  · exact hself

theorem isMerged_merge (j : Junction) (parts : List Predicate) (h : ∀ p ∈ parts, p.IsMerged) :
    (j.merge parts).IsMerged := by
  cases j with
  | and => exact .all h
  | or => exact .any h

theorem isMerged_group (hlength : parts.length ≠ 1) (hkind : ∀ inner, j.group inner ∉ parts)
    (h : ∀ p ∈ parts, p.IsMerged) : (j.group parts).IsMerged := by
  rw [← Junction.merge_eq_group hlength fun p => parts_eq_singleton hkind]
  exact isMerged_merge j parts h

/-- What merged groups are put together to is flat, and a flat predicate is put together so. -/
theorem isMerged_iff_isFlat : p.IsMerged ↔ p.IsFlat := by
  constructor
  · intro h
    induction h with
    | leaf hleaf => exact .leaf hleaf
    | all _ ih => exact isFlat_merge (j := .and) ih
    | any _ ih => exact isFlat_merge (j := .or) ih
  · intro h
    induction h with
    | leaf hleaf => exact .leaf hleaf
    | and hlength hkind _ ih => exact isMerged_group (j := .and) hlength hkind ih
    | or hlength hkind _ ih => exact isMerged_group (j := .or) hlength hkind ih

end

theorem isMerged_eq (column : String) (v : Value) : (eq column v).IsMerged := by
  unfold eq
  split
  · exact .leaf rfl
  · exact .leaf rfl

end Predicate

theorem KeyRange.isMerged_of_predicate? {key : Key} {range : KeyRange} {p : Predicate}
    (h : range.predicate? key = some p) : p.IsMerged :=
  predicate?_of_parts Predicate.isMerged_merge h
    (fun _ _ q _ => ⟨Predicate.isMerged_eq q.1.column q.2, fun _ => .leaf rfl⟩)
    (fun _ _ _ _ _ _ => .leaf rfl) (fun _ _ _ _ _ => .leaf rfl) fun _ _ _ _ => .leaf rfl

namespace Predicate

/-- **Merged groups mean what their parts mean and are flat.** On any row, null or not, the merged
conjunction of some predicates is as true as all of them together, and their merged disjunction as one
of them; without parts the one is true and the other false. The predicates that are put together of leaves
in this way are those in which no conjunction is a part of a conjunction, no disjunction of a disjunction
and no group has exactly one part; the condition of every range is one of them. -/
theorem groups_merged :
    (∀ (view : View) (parts : List Predicate),
      (all parts).eval view = .all (parts.map (eval view)) ∧
        (any parts).eval view = .any (parts.map (eval view))) ∧
    (∀ view : View, (all []).eval view = .yes ∧ (any []).eval view = .no) ∧
    (∀ p : Predicate, p.IsMerged ↔ p.IsFlat) ∧
    ∀ (key : Key) (range : KeyRange) (p : Predicate), range.predicate? key = some p →
      p.IsMerged ∧ p.IsFlat := by
  refine ⟨fun view parts => ⟨eval_all view parts, eval_any view parts⟩, fun view => ⟨?_, ?_⟩,
    fun p => isMerged_iff_isFlat, fun key range p h => ?_⟩
  · rw [eval_all, List.map_nil, Truth.all_nil]
  · rw [eval_any, List.map_nil, Truth.any_nil]
  · have hmerged := KeyRange.isMerged_of_predicate? h
    exact ⟨hmerged, isMerged_iff_isFlat.1 hmerged⟩

/-- Bounds of two lengths: the condition of the first is a group, and that of the second a leaf. -/
theorem groups_merged_between :
    let key : Key := [⟨"region", .ascending⟩, ⟨"id", .descending⟩]
    let range : KeyRange := .between [.integer 3, .integer 9] [.integer 5]
    let p : Predicate := .and [
      .or [.compare "region" .gt (.integer 3),
        .and [.compare "region" .eq (.integer 3), .compare "id" .le (.integer 9)]],
      .compare "region" .le (.integer 5)]
    range.predicate? key = some p ∧ p.IsMerged ∧ p.IsFlat := by
  intro key range p
  have hrange : range.predicate? key = some p := rfl
  obtain ⟨_, _, _, hmerged⟩ := groups_merged
  exact ⟨hrange, hmerged key range p hrange⟩

end Predicate
end KeyedRows
