import KeyedRows.Proofs.Written

/-!
# Changes and storage

* `differ_eq_false_iff` : values that their column takes differ exactly if their storage forms do;
* `differ_eq_true_iff_ne` : a state without a value differs from every other one;
* `changedColumns_eq` : the columns that are set and changed, in table order;
* `isChanged_iff_storage` : a column is changed exactly if storage could tell it from its baseline.
-/

namespace KeyedRows

namespace Entity

/-! ## Two states of a column -/

section
variable {type : ColumnType}

theorem differ_eq_false_iff {v w a b : Value} (hv : type.coerce v = .ok a)
    (hw : type.coerce w = .ok b) :
    differ type (.set v) (.set w) = false ↔ type.store? v = type.store? w := by
  rw [← ColumnType.coerce_inj_iff hv hw, differ, hv, hw]
  simp

theorem differ_comm (f g : Field) : differ type f g = differ type g f := by
  cases f with
  | unset => cases g <;> rfl
  | set v =>
    cases g with
    | unset => rfl
    | set w =>
      rw [differ, differ]
      cases type.coerce v <;> cases type.coerce w <;> simp [eq_comm]

/-- Null differs from everything else: no other value is coerced to it. -/
theorem differ_null (g : Field) : differ type (.set .null) g = true ↔ .set .null ≠ g := by
  have hnull : type.coerce .null = .ok .null :=
    ColumnType.coerce_eq_ok.2 ⟨.null, ColumnType.store?_null type, ColumnType.load?_null type⟩
  cases g with
  | unset => simp [differ]
  | set w =>
    rw [differ, hnull]
    cases hw : type.coerce w with
    | error err => simp
    | ok b =>
      have hstable : b = .null ↔ w = .null := (ColumnType.coerce_stable hw).2.2
      rw [decide_eq_true_eq, ne_comm, ne_eq, hstable, ne_eq, Field.set.injEq, eq_comm]

theorem differ_eq_true_iff_ne {f g : Field} (h : f.value? = none ∨ g.value? = none) :
    differ type f g = true ↔ f ≠ g := by
  have hleft {f g : Field} (h : f.value? = none) : differ type f g = true ↔ f ≠ g := by
    rcases Field.value?_eq_none.1 h with rfl | rfl
    · cases g <;> simp [differ]
    · exact differ_null g
  rcases h with h | h
  · exact hleft h
  · rw [differ_comm, hleft h, ne_comm]

end

/-! ## The changed columns -/

variable {e : Entity}

/-- The changed columns are the set ones that differ from the baseline, in table order. -/
theorem changedColumns_eq (hvalid : e.table.validate = .ok ()) :
    e.changedColumns = e.table.columns.filter fun c => e.isSet c.id && e.isChanged c.id := by
  have hcolumns : e.states.zipIdx.map (Prod.fst ∘ Prod.fst) = e.table.columns := by
    rw [← List.map_map, List.zipIdx_map_fst, map_fst_states]
  rw [← hcolumns, ← List.filterMap_eq_filter, List.filterMap_map]
  refine List.filterMap_congr fun p hp => ?_
  obtain ⟨⟨c, f⟩, i⟩ := p
  have hstate : e.states[i]? = some (c, f) := List.mk_mem_zipIdx_iff_getElem?.1 hp
  have hc := (List.getElem?_zip_eq_some.1 hstate).1
  have hposition := Table.position?_of_getElem? hvalid hc
  have hset : e.isSet c.id = f.isSet := by
    rw [isSet, field?_of_mem_states hvalid (List.mem_of_getElem? hstate)]
    rfl
  have hchanged : e.isChanged c.id = e.changed i := by
    rw [isChanged, hposition]
    rfl
  simp only [Function.comp_apply, Option.guard, hset, hchanged]

/-- **A column is changed exactly if storage could tell it from its baseline.** Two values that the
column takes are not a change exactly if they have one storage form; where one of the two states is unset
or null, any difference is a change. The changed columns are the set ones among them, in table order. -/
theorem isChanged_iff_storage (hvalid : e.table.validate = .ok ()) :
    (e.baseline ≠ none → ∀ c ∈ e.table.columns, ∃ before after,
      e.baselineField? c.id = some before ∧ e.field? c.id = some after ∧
      (∀ v w, before.value? = some v → after.value? = some w →
        (∃ a, c.type.coerce v = .ok a) → (∃ b, c.type.coerce w = .ok b) →
        (e.isChanged c.id = false ↔ ∃ cell, c.type.store v = .ok cell ∧ c.type.store w = .ok cell)) ∧
      (before.value? = none ∨ after.value? = none → (e.isChanged c.id = true ↔ before ≠ after))) ∧
    e.changedColumns = e.table.columns.filter fun c => e.isSet c.id && e.isChanged c.id := by
  refine ⟨fun hbase c hc => ?_, changedColumns_eq hvalid⟩
  obtain ⟨before, after, hbefore, hafter, hdiffer⟩ :=
    isChanged_of_column? (Table.column?_of_mem hvalid hc) hbase
  refine ⟨before, after, hbefore, hafter, ?_, fun hnone => ?_⟩
  · rintro v w hv hw ⟨a, ha⟩ ⟨b, hb⟩
    obtain ⟨cell, hcell, _⟩ := ColumnType.coerce_eq_ok.1 ha
    obtain ⟨rfl, _⟩ := Field.value?_eq_some.1 hv
    obtain ⟨rfl, _⟩ := Field.value?_eq_some.1 hw
    rw [hdiffer, differ_eq_false_iff ha hb]
    simp only [ColumnType.store_eq_ok, hcell, Option.some.injEq, exists_eq_left']
    exact eq_comm
  · rw [hdiffer, differ_eq_true_iff_ne hnone]

section

private def partsTable : Table :=
  { name := "parts"
    columns := [⟨"count", .integer, none, none⟩, ⟨"price", .decimal, none, none⟩,
      ⟨"note", .string, none, none⟩] }

private def partsEntity : Entity where
  table := partsTable
  fields := [.set (.string " 2 "), .set .null, .unset]
  baseline := some [.set (.integer 2), .set (.decimal 0), .set (.string "x")]
  fields_length := rfl
  baseline_length := by simp [partsTable]

/-- The text of the count is stored as the number before it; the two other columns have changed, and the
one that is still set is listed. -/
theorem isChanged_iff_storage_parts :
    partsTable.validate = .ok () ∧ partsEntity.isChanged "count" = false ∧
      partsEntity.isChanged "note" = true ∧
      partsEntity.changedColumns = [⟨"price", .decimal, none, none⟩] := by
  have hvalid : partsTable.validate = .ok () := by decide
  obtain ⟨hcolumns, hlist⟩ := isChanged_iff_storage (e := partsEntity) hvalid
  have hchange := hcolumns (by simp [partsEntity])
  refine ⟨hvalid, ?_, ?_, hlist.trans rfl⟩
  · obtain ⟨before, after, hbefore, hafter, hvalues, _⟩ :=
      hchange ⟨"count", .integer, none, none⟩ (by decide)
    cases hbefore
    cases hafter
    exact (hvalues _ _ rfl rfl ⟨.integer 2, rfl⟩ ⟨.integer 2, rfl⟩).2 ⟨.integer 2, rfl, rfl⟩
  · obtain ⟨before, after, hbefore, hafter, _, hstates⟩ :=
      hchange ⟨"note", .string, none, none⟩ (by decide)
    cases hbefore
    cases hafter
    exact (hstates (.inr rfl)).2 (by decide)

end
end Entity
end KeyedRows
