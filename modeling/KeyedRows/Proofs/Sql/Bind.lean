import KeyedRows.Proofs.Sql.Condition

/-!
# Conditions that have pieces

* `Predicate.Bindable` : every value of a predicate has a storage form in its column;
* `Predicate.pieces_of_bindable` : such a predicate can be written;
* `bindable_merge`, `bindable_eq` : what is put together from such predicates can be written;
* `filledLists_merge` : and has no empty list, if none of them has one;
* `exists_of_mem_zipWith_eq` : the equalities of some columns with values.
-/

namespace KeyedRows

open Sql

/-- The value has a storage form in the column. -/
def Table.Binds (t : Table) (column : String) (v : Value) : Prop :=
  ∃ cell, t.stored? column v = some cell

namespace Predicate

mutual

/-- Every value has a storage form in its column, and every column of a pattern is declared. -/
def Bindable (t : Table) : Predicate → Prop
  | compare column _ v => t.Binds column v
  | isIn column values => ∀ v ∈ values, t.Binds column v
  | between column low high => t.Binds column low ∧ t.Binds column high
  | like column _ => ∃ c, t.column? column = some c
  | and parts | or parts => BindableParts t parts
  | isNull _ | isNotNull _ => True

def BindableParts (t : Table) : List Predicate → Prop
  | [] => True
  | p :: parts => p.Bindable t ∧ BindableParts t parts

end

variable {t : Table} {style : Style}

theorem bindableParts_iff : ∀ {parts : List Predicate},
    BindableParts t parts ↔ ∀ p ∈ parts, p.Bindable t
  | [] => by simp [BindableParts]
  | p :: parts => by rw [BindableParts, bindableParts_iff, List.forall_mem_cons]

theorem bind_of_binds {column : String} {v : Value} (h : t.Binds column v) :
    ∃ cell, t.bind column v = .ok (.binding cell) := by
  obtain ⟨cell, hcell⟩ := h
  exact ⟨cell, Table.bind_eq_ok.2 ⟨cell, hcell, rfl⟩⟩

mutual

/-- A predicate can be written if all its values have storage forms. -/
theorem pieces_of_bindable : ∀ {p : Predicate}, p.Bindable t → ∃ ps, p.pieces t style = .ok ps
  | compare column op v, h => by
    obtain ⟨cell, hcell⟩ := bind_of_binds h
    rw [pieces, hcell]
    exact ⟨_, rfl⟩
  | isNull column, _ => by
    rw [pieces]
    exact ⟨_, rfl⟩
  | isNotNull column, _ => by
    rw [pieces]
    exact ⟨_, rfl⟩
  | isIn column values, h => by
    have hbind : ∀ v ∈ values, ∃ piece, t.bind column v = .ok piece := by
      intro v hv
      obtain ⟨cell, hcell⟩ := bind_of_binds (h v hv)
      exact ⟨_, hcell⟩
    obtain ⟨bindings, hbindings⟩ := exists_mapM_eq_ok hbind
    rw [pieces, hbindings]
    exact ⟨_, rfl⟩
  | between column low high, h => by
    obtain ⟨low', hlow⟩ := bind_of_binds h.1
    obtain ⟨high', hhigh⟩ := bind_of_binds h.2
    rw [pieces, hlow, hhigh]
    exact ⟨_, rfl⟩
  | like column pattern, h => by
    obtain ⟨c, hc⟩ := h
    rw [pieces, Table.requireColumn_eq_ok.2 hc]
    exact ⟨_, rfl⟩
  | and parts, h => by
    obtain ⟨pss, hpss⟩ := partPieces_of_bindable h
    rw [pieces, hpss]
    exact ⟨_, rfl⟩
  | or parts, h => by
    obtain ⟨pss, hpss⟩ := partPieces_of_bindable h
    rw [pieces, hpss]
    exact ⟨_, rfl⟩

theorem partPieces_of_bindable : ∀ {parts : List Predicate}, BindableParts t parts →
    ∃ pss, partPieces t style parts = .ok pss
  | [], _ => by
    rw [partPieces]
    exact ⟨_, rfl⟩
  | p :: parts, h => by
    obtain ⟨ps, hps⟩ := pieces_of_bindable h.1
    obtain ⟨pss, hpss⟩ := partPieces_of_bindable h.2
    rw [partPieces, hps, hpss]
    exact ⟨_, rfl⟩

end

/-! ## Putting predicates together -/

theorem bindable_merge (j : Junction) {parts : List Predicate} (h : ∀ p ∈ parts, p.Bindable t) :
    (j.merge parts).Bindable t := by
  refine j.merge_of_parts (fun parts => ?_) h
  cases j <;> exact bindableParts_iff

theorem filledLists_merge (j : Junction) {parts : List Predicate} (h : ∀ p ∈ parts, p.FilledLists) :
    (j.merge parts).FilledLists := by
  refine j.merge_of_parts (fun parts => ?_) h
  cases j <;> exact filledParts_iff

theorem bindable_eq {column : String} {v : Value} (h : t.Binds column v) :
    (eq column v).Bindable t := by
  unfold eq
  split
  · trivial
  · exact h

theorem filledLists_eq (column : String) (v : Value) : (eq column v).FilledLists := by
  unfold eq
  split <;> trivial

theorem exists_of_mem_zipWith_eq {columns : List String} {values : List Value} {p : Predicate}
    (hp : p ∈ columns.zipWith eq values) : ∃ pair ∈ columns.zip values, p = eq pair.1 pair.2 := by
  rw [← List.map_uncurry_zip_eq_zipWith] at hp
  obtain ⟨pair, hpair, rfl⟩ := List.mem_map.1 hp
  exact ⟨pair, hpair, rfl⟩

end Predicate
end KeyedRows
