import KeyedRows.Proofs.Session.DiffOnly

/-!
# What one update does

* `Entity.Targets`, `Entity.Assigns` : the columns that an update is for, and all that it assigns;
* `mem_updates_iff`, `mem_assignments_iff`, `nodup_assignments` : its assignments are these, and each
  column has one at most;
* `Entity.KeyMatches`, `Entity.RowLacks` : a row has the key of the baseline, or not all of the new
  values;
* `truth_keyPredicate`, `truth_updateCondition_iff` : what the condition of an update asks of a row;
* `update_eq_none_iff` : when an update has nothing to write;
* `Entity.Sets`, `Entity.update_writes` : the cells that an update writes, and into which rows.
-/

namespace KeyedRows

open Sql

theorem Stamp.onUpdate_iff {s : Stamp} :
    s.onUpdate = true ↔ s ∈ [updatedAt, updatedBy, updatedProgram] := by
  cases s <;> decide

namespace Entity

/-! ## Assignments -/

/-- An update is for a column that is set and no stamp, if it is changed or, unless only changes
count, not in the key. -/
structure Targets (e : Entity) (ctx : Context) (c : Column) (v : Value) : Prop where
  field : (c, .set v) ∈ e.states
  stamp : c.stamp = none
  due : e.isChanged c.id = true ∨ ctx.diffOnly = false ∧ c.id ∉ e.table.keyColumns

/-- An update assigns the columns that it is for, and every stamp of an update: its own value where
data is replayed and the stamp is set, and else the one of the context. -/
inductive Assigns (e : Entity) (ctx : Context) : Column → Value → Prop where
  | target {c : Column} {v : Value} (h : e.Targets ctx c v) : e.Assigns ctx c v
  | own {c : Column} {v : Value} {s : Stamp} (hmem : (c, .set v) ∈ e.states) (hs : c.stamp = some s)
    (hupdate : s ∈ [.updatedAt, .updatedBy, .updatedProgram]) (hinput : ctx.input = true) :
    e.Assigns ctx c v
  | context {c : Column} {f : Field} {s : Stamp} (hmem : (c, f) ∈ e.states) (hs : c.stamp = some s)
    (hupdate : s ∈ [.updatedAt, .updatedBy, .updatedProgram])
    (hother : ctx.input = false ∨ f = .unset) : e.Assigns ctx c (ctx.stampValue s)

section
variable {e : Entity} {ctx : Context} {c : Column} {v : Value}

theorem mem_updates_iff : (c, v) ∈ e.updates e.table ctx ↔ e.Targets ctx c v := by
  unfold updates
  rw [List.mem_filterMap]
  constructor
  · rintro ⟨⟨d, f⟩, hmem, hvalue⟩
    dsimp only at hvalue
    by_cases htarget : e.isTarget e.table ctx d = true
    · rw [if_pos htarget, Option.map_eq_some_iff] at hvalue
      obtain ⟨w, hw, hpair⟩ := hvalue
      cases hpair
      cases f with
      | unset => cases hw
      | set w =>
        cases hw
        simp only [isTarget, Column.isStamp, Table.isKeyColumn, Bool.and_eq_true, Bool.or_eq_true,
          Bool.not_eq_true', Option.isSome_eq_false_iff, Option.isNone_iff_eq_none,
          Bool.or_eq_false_iff] at htarget
        exact ⟨hmem, htarget.1, by simpa using htarget.2⟩
    · rw [if_neg htarget] at hvalue
      cases hvalue
  · rintro ⟨hmem, hstamp, hdue⟩
    have htarget : e.isTarget e.table ctx c = true := by
      simpa [isTarget, Column.isStamp, Table.isKeyColumn, hstamp] using hdue
    exact ⟨_, hmem, by dsimp only; rw [if_pos htarget]; rfl⟩

theorem mem_updateStamps_iff : (c, v) ∈ e.updateStamps ctx ↔ ∃ f s, (c, f) ∈ e.states ∧
    c.stamp = some s ∧ s.onUpdate = true ∧
      (if ctx.input then f.assigned? else none).getD (ctx.stampValue s) = v := by
  unfold updateStamps
  rw [List.mem_filterMap]
  constructor
  · rintro ⟨⟨d, f⟩, hmem, hvalue⟩
    dsimp only at hvalue
    cases hs : d.stamp with
    | none =>
      rw [hs] at hvalue
      cases hvalue
    | some s =>
      by_cases hupdate : s.onUpdate = true
      · simp only [hs, hupdate, if_true, Option.some.injEq, Prod.mk.injEq] at hvalue
        obtain ⟨rfl, rfl⟩ := hvalue
        exact ⟨f, s, hmem, hs, hupdate, rfl⟩
      · simp [hs, hupdate] at hvalue
  · rintro ⟨f, s, hmem, hs, hupdate, rfl⟩
    exact ⟨_, hmem, by simp only [hs, hupdate, if_true]⟩

theorem mem_assignments_iff :
    (c, v) ∈ e.updates e.table ctx ++ e.updateStamps ctx ↔ e.Assigns ctx c v := by
  rw [List.mem_append, mem_updates_iff, mem_updateStamps_iff]
  constructor
  · rintro (htarget | ⟨f, s, hmem, hs, hupdate, rfl⟩)
    · exact .target htarget
    · have hupdate := Stamp.onUpdate_iff.1 hupdate
      cases hinput : ctx.input with
      | false => exact .context hmem hs hupdate (.inl hinput)
      | true =>
        cases f with
        | unset => exact .context hmem hs hupdate (.inr rfl)
        | set w => exact .own hmem hs hupdate hinput
  · rintro (htarget | ⟨hmem, hs, hupdate, hinput⟩ | ⟨hmem, hs, hupdate, hother⟩)
    · exact .inl htarget
    · exact .inr ⟨_, _, hmem, hs, Stamp.onUpdate_iff.2 hupdate, by rw [if_pos hinput]; rfl⟩
    · refine .inr ⟨_, _, hmem, hs, Stamp.onUpdate_iff.2 hupdate, ?_⟩
      rcases hother with hinput | rfl
      · rw [hinput]
        rfl
      · simp [Field.assigned?]

end

/-! ## One assignment a column -/

section
variable {e : Entity} (hvalid : e.table.validate = .ok ())
include hvalid

/-- An update assigns no column twice: those that it is for are no stamps. -/
theorem nodup_assignments (ctx : Context) :
    ((e.updates e.table ctx ++ e.updateStamps ctx).map fun q => q.1.id).Nodup := by
  rw [List.map_append, List.nodup_append]
  refine ⟨nodup_filterMap_states hvalid ?_, nodup_filterMap_states hvalid ?_, ?_⟩
  · intro p q hq
    dsimp only at hq
    split at hq
    · obtain ⟨_, _, rfl⟩ := Option.map_eq_some_iff.1 hq
      rfl
    · cases hq
  · intro p q hq
    dsimp only at hq
    split at hq
    · split at hq
      · cases hq
        rfl
      · cases hq
    · cases hq
  · intro id hid id' hid' heq
    obtain ⟨⟨c, v⟩, hc, rfl⟩ := List.mem_map.1 hid
    obtain ⟨⟨d, w⟩, hd, rfl⟩ := List.mem_map.1 hid'
    have heq : c.id = d.id := heq
    have htarget := mem_updates_iff.1 hc
    obtain ⟨f, s, hmem, hs, _⟩ := mem_updateStamps_iff.1 hd
    have hcolumn := column?_of_mem_states hvalid htarget.field
    rw [heq, column?_of_mem_states hvalid hmem] at hcolumn
    cases hcolumn
    rw [htarget.stamp] at hs
    cases hs

end

/-! ## The rows -/

/-- The key of the baseline is, in its storage form, the key of the row. -/
def KeyMatches (e : Entity) (k : Collation) (row : String → Cell) : Prop :=
  ∀ column ∈ e.table.keyColumns, ∃ cell, e.table.baselineCell? e column column = some cell ∧
    k.Alike column (row column) cell

/-- Some column that the update is for has another cell in the row than the new one. -/
def RowLacks (e : Entity) (ctx : Context) (k : Collation) (row : String → Cell) : Prop :=
  ∃ c v cell, e.Targets ctx c v ∧ c.type.store? v = some cell ∧ ¬k.Alike c.id (row c.id) cell

section
variable {e : Entity} {ctx : Context} {k : Collation} {style : Style} {row : String → Cell}
  {keys : List Value}

theorem truth_keyPredicate (hkeys : e.baselineKey = .ok keys) :
    (e.table.keyPredicate keys).truth e.table style k row = .yes ↔ e.KeyMatches k row := by
  have hnull := not_null_of_baselineKey hkeys
  have hbase := List.forall₂_iff_zip.1 (baselineKey_eq_ok hkeys)
  have hcell : ∀ column v, (column, v) ∈ e.table.keyColumns.zip keys →
      e.table.baselineCell? e column column = e.table.stored? column v := by
    intro column v hmem
    rw [Table.baselineCell?, hbase.2 hmem, Option.bind_some]
  rw [Predicate.truth, ← Predicate.all_eval_conjuncts, Table.conjuncts_keyPredicate _ hnull,
    Truth.all_eq_yes]
  constructor
  · intro h column hcolumn
    obtain ⟨v, hmem, _⟩ := exists_zip_of_mem (baselineKey_eq_ok hkeys) hcolumn
    have hequal := h _ (List.mem_map_of_mem (List.mem_map_of_mem hmem))
    obtain ⟨cell, hstored, hcellnull, hrownull, horder⟩ := View.test_eq_eq_yes.1 hequal
    exact ⟨cell, (hcell column v hmem).trans hstored, hrownull.trans hcellnull.symm, horder⟩
  · intro h truth htruth
    obtain ⟨p, hp, rfl⟩ := List.mem_map.1 htruth
    obtain ⟨⟨column, v⟩, hmem, rfl⟩ := List.mem_map.1 hp
    obtain ⟨cell, hbaseline, halike⟩ := h column (List.of_mem_zip hmem).1
    have hstored := (hcell column v hmem).symm.trans hbaseline
    have hcellnull : cell.isNull = false :=
      (Table.isNull_of_stored? hstored).trans (hnull v (List.of_mem_zip hmem).2)
    exact View.test_eq_eq_yes.2 ⟨cell, hstored, hcellnull, halike.1.trans hcellnull, halike.2⟩

/-- The condition of an update that can be bound is true of the rows that have the key and, where
only changes count, lack a new value. -/
theorem truth_updateCondition_iff (hvalid : e.table.validate = .ok ())
    (hkeys : e.baselineKey = .ok keys)
    (hstored : ∀ c v, e.Targets ctx c v → ∃ cell, c.type.store? v = some cell) :
    (e.table.updateCondition ctx keys (e.updates e.table ctx)).truth e.table style k row = .yes ↔
      e.KeyMatches k row ∧ (ctx.diffOnly = true → e.RowLacks ctx k row) := by
  have hguard : (∃ p ∈ e.updates e.table ctx, (differs p.1 p.2).truth e.table style k row = .yes) ↔
      e.RowLacks ctx k row := by
    constructor
    · rintro ⟨⟨c, v⟩, hmem, hdiffers⟩
      have htarget := mem_updates_iff.1 hmem
      obtain ⟨cell, hcell⟩ := hstored c v htarget
      have hbound := (stored?_of_mem_states hvalid htarget.field v).trans hcell
      exact ⟨c, v, cell, htarget, hcell, (truth_differs_eq_yes hbound).1 hdiffers⟩
    · rintro ⟨c, v, cell, htarget, hcell, hother⟩
      have hbound := (stored?_of_mem_states hvalid htarget.field v).trans hcell
      exact ⟨(c, v), mem_updates_iff.2 htarget, (truth_differs_eq_yes hbound).2 hother⟩
  rw [truth_updateCondition, truth_keyPredicate hkeys, hguard]

end

/-! ## One update -/

/-- The cells are the storage forms of all that an update assigns, one a column, and none of them is
for a stamp of an insert. -/
structure Sets (e : Entity) (ctx : Context) (cells : List (String × Cell)) : Prop where
  nodup : (cells.map Prod.fst).Nodup
  stored : ∀ c v, e.Assigns ctx c v → ∃ cell, c.type.store? v = some cell
  mem_iff : ∀ column cell, (column, cell) ∈ cells ↔
    ∃ c v, e.Assigns ctx c v ∧ c.id = column ∧ c.type.store? v = some cell
  created : ∀ c ∈ e.table.columns, ∀ s ∈ [.createdAt, .createdBy, .createdProgram],
    c.stamp = some s → ∀ cell, (c.id, cell) ∉ cells

section
variable {e : Entity} {ctx : Context} {style : Style}

theorem Assigns.mem_states {c : Column} {v : Value} (h : e.Assigns ctx c v) :
    ∃ f, (c, f) ∈ e.states := by
  cases h with
  | target h => exact ⟨_, h.field⟩
  | own hmem => exact ⟨_, hmem⟩
  | context hmem => exact ⟨_, hmem⟩

theorem Assigns.onUpdate {c : Column} {v : Value} (h : e.Assigns ctx c v) {s : Stamp}
    (hs : c.stamp = some s) : s.onUpdate = true := by
  cases h with
  | target h =>
    rw [h.stamp] at hs
    cases hs
  | own _ hs' hupdate =>
    rw [hs'] at hs
    cases hs
    exact Stamp.onUpdate_iff.2 hupdate
  | context _ hs' hupdate =>
    rw [hs'] at hs
    cases hs
    exact Stamp.onUpdate_iff.2 hupdate

theorem sets_of_update (hvalid : e.table.validate = .ok ()) {s : Statement}
    (h : e.table.update style e ctx = .ok (some s)) :
    e.Sets ctx (e.table.written (e.updates e.table ctx ++ e.updateStamps ctx)) := by
  obtain ⟨_, _, _, _, hset, _⟩ := Table.update_eq_ok h
  have hbound : ∀ p ∈ e.updates e.table ctx ++ e.updateStamps ctx,
      ∃ cell, e.table.stored? p.1.id p.2 = some cell :=
    fun p hp => Table.exists_stored?_of_setClause hset hp
  have hmem_iff : ∀ column cell,
      (column, cell) ∈ e.table.written (e.updates e.table ctx ++ e.updateStamps ctx) ↔
        ∃ c v, e.Assigns ctx c v ∧ c.id = column ∧ c.type.store? v = some cell := by
    intro column cell
    rw [mem_written_of_states hvalid fun c v hmem => (mem_assignments_iff.1 hmem).mem_states]
    simp only [mem_assignments_iff]
  refine ⟨?_, fun c v hassigns => ?_, hmem_iff, ?_⟩
  · rw [Table.map_fst_written hbound]
    exact nodup_assignments hvalid ctx
  · obtain ⟨f, hmem⟩ := hassigns.mem_states
    rw [← stored?_of_mem_states hvalid hmem]
    exact hbound _ (mem_assignments_iff.2 hassigns)
  · intro c hc s hcreated hs cell hmem
    obtain ⟨d, v, hassigns, hid, _⟩ := (hmem_iff c.id cell).1 hmem
    obtain ⟨f, hd⟩ := hassigns.mem_states
    have hcolumn := column?_of_mem_states hvalid hd
    rw [hid, Table.column?_of_mem hvalid hc] at hcolumn
    cases hcolumn
    have hupdate := hassigns.onUpdate hs
    revert hupdate hcreated
    cases s <;> decide

theorem updates_eq_nil_iff : e.updates e.table ctx = [] ↔ ∀ c v, ¬e.Targets ctx c v := by
  rw [List.eq_nil_iff_forall_not_mem, Prod.forall]
  simp only [mem_updates_iff]

/-- An update has nothing to write exactly if there is a key to address and no column that it is
for. -/
theorem update_eq_none_iff : e.table.update style e ctx = .ok none ↔
    (e.table.hasKey = true ∧ ∃ keys, e.baselineKey = .ok keys) ∧ ∀ c v, ¬e.Targets ctx c v := by
  constructor
  · intro h
    obtain ⟨hkey, keys, hkeys, _⟩ := Table.update_cases h
    exact ⟨⟨hkey, keys, hkeys⟩, updates_eq_nil_iff.1 (Table.updates_of_update_eq_none h)⟩
  · rintro ⟨⟨hkey, keys, hkeys⟩, hnone⟩
    have hentity : e.table.checkEntity e = .ok () := if_pos rfl
    have hrequire : e.table.requireKey = .ok () := if_pos hkey
    refine bind_eq_ok.2 ⟨_, hentity, bind_eq_ok.2 ⟨_, hrequire, bind_eq_ok.2 ⟨keys, hkeys, ?_⟩⟩⟩
    dsimp only
    rw [updates_eq_nil_iff.2 hnone]
    rfl

/-- **What one update does.** A statement for the update of an entity assigns every column that the
update is for, and every stamp of an update, once each and nothing else. Its condition is true of
the rows that have the key of the baseline and, where only changes count, lack a new value, so that
a row with all of them is left out. There is no statement, and no error, exactly if the update is
for no column. -/
theorem update_writes (hvalid : e.table.validate = .ok ()) (style : Style) (ctx : Context) :
    (∀ s, e.table.update style e ctx = .ok (some s) → ∃ cells p, e.Sets ctx cells ∧
      s.EndsInWhere e.table style .update (e.table.updatePieces cells) p ∧
      (style.quoteNames = true → ∃ condition, (filled? s.bindings 1 s.sql.toList).bind write? =
          some (.update e.table.name cells condition) ∧
        ∀ k row, condition.eval k row = p.truth e.table style k row) ∧
      ∀ k row, (p.truth e.table style k row = .yes ↔
          e.KeyMatches k row ∧ (ctx.diffOnly = true → e.RowLacks ctx k row)) ∧
        (ctx.diffOnly = true → (∀ c v cell, e.Targets ctx c v → c.type.store? v = some cell →
          k.Alike c.id (row c.id) cell) → p.truth e.table style k row ≠ .yes)) ∧
    (e.table.update style e ctx = .ok none ↔
      (∃ statement, e.table.update style e ctx = .ok statement) ∧ ∀ c v, ¬e.Targets ctx c v) := by
  refine ⟨fun s h => ?_, fun h => ⟨⟨none, h⟩, (update_eq_none_iff.1 h).2⟩, ?_⟩
  · obtain ⟨_, keys, set, hkeys, hset, hwhere⟩ := Table.update_eq_ok h
    have hsets := sets_of_update hvalid h
    refine ⟨_, _, hsets, ?_, fun hquote => Table.write?_of_update hquote h hkeys, fun k row => ?_⟩
    · rw [Table.updatePieces, ← Table.setClause_eq_ok hset]
      exact hwhere
    · have hstored : ∀ c v, e.Targets ctx c v → ∃ cell, c.type.store? v = some cell :=
        fun c v htarget => hsets.stored c v (.target htarget)
      refine ⟨truth_updateCondition_iff hvalid hkeys hstored, fun hdiff hall hyes => ?_⟩
      have hlacks := ((truth_updateCondition_iff hvalid hkeys hstored).1 hyes).2 hdiff
      obtain ⟨c, v, cell, htarget, hcell, hother⟩ := hlacks
      exact hother (hall c v cell htarget hcell)
  · rintro ⟨⟨statement, h⟩, hnone⟩
    obtain ⟨hkey, keys, hkeys, _⟩ := Table.update_cases h
    exact update_eq_none_iff.2 ⟨⟨hkey, keys, hkeys⟩, hnone⟩

section

private def seatTable : Table :=
  { name := "seat"
    columns := [⟨"row", .integer, none, none⟩, ⟨"note", .string, none, none⟩,
      ⟨"paid", .integer, none, none⟩, ⟨"maker", .string, none, some .createdBy⟩,
      ⟨"user", .string, none, some .updatedBy⟩]
    key := [⟨"row", .descending⟩] }

private def seatEntity : Entity where
  table := seatTable
  fields := [.set (.integer 1), .set (.string "y"), .set .null, .set (.string "bob"),
    .set (.string "bob")]
  baseline := some [.set (.integer 1), .set (.string "x"), .set (.integer 5),
    .set (.string "bob"), .set (.string "bob")]
  fields_length := rfl
  baseline_length := by simp [seatTable]

/-- An update of changes only, of a value and of a null: it leaves the maker alone, and it skips the
row that has both already, but not one that still has the payment. -/
theorem update_writes_seat :
    let ctx : Context := ⟨⟨⟨2024, 2, 29, by decide⟩, .midnight⟩, "ann", "till", false, true⟩
    ∃ s cells p, seatTable.update {} seatEntity ctx = .ok (some s) ∧ seatEntity.Sets ctx cells ∧
      s.EndsInWhere seatTable {} .update (seatTable.updatePieces cells) p ∧
      ("user", .text "ann") ∈ cells ∧ (∀ cell, ("maker", cell) ∉ cells) ∧
      p.truth seatTable {} .plain (seatTable.cell [.integer 1, .text "y", .integer 5, .null, .null]) =
        .yes ∧
      p.truth seatTable {} .plain (seatTable.cell [.integer 1, .text "y", .null, .null, .null]) ≠
        .yes := by
  intro ctx
  have hvalid : seatTable.validate = .ok () := by decide
  obtain ⟨s, hs⟩ : ∃ s, seatTable.update {} seatEntity ctx = .ok (some s) := ⟨_, rfl⟩
  obtain ⟨hstatement, _⟩ := update_writes (e := seatEntity) hvalid {} ctx
  obtain ⟨cells, p, hsets, hwhere, _, hrows⟩ := hstatement s hs
  refine ⟨s, cells, p, hs, hsets, hwhere, ?_, ?_, ?_, ?_⟩
  · let user : Column := ⟨"user", .string, none, some .updatedBy⟩
    have hmem : (user, .set (.string "bob")) ∈ seatEntity.states := by decide
    have hupdate : Stamp.updatedBy ∈ [.updatedAt, .updatedBy, .updatedProgram] := by decide
    have hassigns : seatEntity.Assigns ctx user (.string "ann") := .context hmem rfl hupdate (.inl rfl)
    exact (hsets.mem_iff "user" (.text "ann")).2 ⟨user, _, hassigns, rfl, rfl⟩
  · exact hsets.created ⟨"maker", .string, none, some .createdBy⟩ (by decide) .createdBy (by simp) rfl
  · refine (hrows .plain _).1.2 ⟨fun column hcolumn => ?_, fun _ => ?_⟩
    · obtain rfl : column = "row" := List.mem_singleton.1 hcolumn
      exact ⟨.integer 1, by decide, .refl _⟩
    · have htarget : seatEntity.Targets ctx ⟨"paid", .integer, none, none⟩ .null :=
        ⟨by decide, rfl, .inl (by decide)⟩
      exact ⟨_, _, .null, htarget, rfl, fun halike => Bool.false_ne_true halike.1⟩
  · refine (hrows .plain _).2 rfl fun c v cell htarget hcell => ?_
    have hfield := htarget.field
    have hstamp := htarget.stamp
    simp only [states, seatEntity, seatTable, List.zip_cons_cons, List.zip_nil_right, List.mem_cons,
      List.not_mem_nil, or_false, Prod.mk.injEq, Field.set.injEq] at hfield
    rcases hfield with ⟨rfl, rfl⟩ | ⟨rfl, rfl⟩ | ⟨rfl, rfl⟩ | ⟨rfl, rfl⟩ | ⟨rfl, rfl⟩
    · obtain rfl : Cell.integer 1 = cell := Option.some.inj hcell
      exact .refl _
    · obtain rfl : Cell.text "y" = cell := Option.some.inj hcell
      exact .refl _
    · obtain rfl : Cell.null = cell := Option.some.inj hcell
      exact .refl _
    · cases hstamp
    · cases hstamp

end
end
end Entity
end KeyedRows
