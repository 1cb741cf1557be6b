import KeyedRows.Proofs.Session.Run

/-!
# Updates of changes only

* `Sql.Collation.Alike`, `Sql.Collation.Discerns` : cells that a column counts as equal, and a cell
  that equals no storage form but itself;
* `truth_differs_eq_yes` : the guard of an update is true of the rows that have not the new value;
* `truth_updateCondition` : the rows of an update have the key and, where only changes count, some
  value that is not the new one;
* `Entity.mem_updates_or_kept` : a set field counts as a change, or the row has it already;
* `Session.row_of_update` : what becomes of one row;
* `Session.update_diffOnly` : an update of changes only leaves the row as the full update does.
-/

namespace KeyedRows

open Sql

namespace Sql.Collation

variable (k : Collation) (column : String)

/-- A column counts the cells as equal, null only with null. -/
def Alike (a b : Cell) : Prop := a.isNull = b.isNull ∧ k.order (some column) a b = .eq

/-- Of storage forms, a column counts none as equal to the cell but the cell itself. -/
def Discerns (a : Cell) : Prop :=
  ∀ b : Cell, b.isReal = false → k.order (some column) a b = .eq → a = b

variable {k column}

theorem Alike.refl (a : Cell) : k.Alike column a a := by
  have htrans := k.trans (some column)
  exact ⟨rfl, Std.ReflCmp.compare_self⟩

theorem Alike.symm {a b : Cell} (h : k.Alike column a b) : k.Alike column b a := by
  have htrans := k.trans (some column)
  exact ⟨h.1.symm, Std.OrientedCmp.eq_comm.1 h.2⟩

theorem plain_discerns (column : String) (a : Cell) : plain.Discerns column a := by
  intro b hb horder
  cases ha : a.isReal with
  | false => exact (plain_exact [column] column (List.mem_singleton_self _) a b ha hb).1 horder
  | true =>
    have hrank : compare a.rank b.rank = .eq := (Ordering.then_eq_eq.1 horder).1
    rw [compare_eq_iff_eq] at hrank
    cases a <;> cases b <;> simp_all [Cell.isReal, Cell.rank]

end Sql.Collation

theorem Cell.isNull_eq_true {cell : Cell} : cell.isNull = true ↔ cell = .null := by
  cases cell <;> simp [isNull]

/-! ## The guard -/

section
variable {t : Table} {k : Collation} {style : Style}

theorem truth_differs {row : String → Cell} {c : Column} {v : Value} {cell : Cell}
    (hv : t.stored? c.id v = some cell) :
    (differs c v).truth t style k row =
      if cell.isNull then .ofBool !(row c.id).isNull
      else if (row c.id).isNull then .yes
      else .ofBool (k.order (some c.id) (row c.id) cell).isNe := by
  have hnull : cell.isNull = v.isNull := Table.isNull_of_stored? hv
  unfold Predicate.truth differs
  by_cases hvalue : v.isNull = true
  · rw [if_pos hvalue, if_pos (hnull.trans hvalue)]
    rfl
  · have hcell : ¬cell.isNull = true := by rwa [hnull]
    rw [if_neg hvalue, if_neg hcell, Predicate.eval_any, List.map_cons, List.map_singleton,
      Truth.any_cons, Truth.any_cons, Truth.any_nil, Truth.or_no, Predicate.eval, Predicate.eval,
      View.test_ofCells hv, Collation.test, Collation.compare?]
    show (Truth.ofBool (row c.id).isNull).or _ = _
    by_cases hrow : (row c.id).isNull = true
    · rw [if_pos hrow, hrow]
      rfl
    · simp only [Operand.value, hrow, hcell, Bool.or_false, Bool.false_eq_true, if_false]
      rfl

/-- It is true that a row differs from a new value where the row has not that value, and nowhere
else. -/
theorem truth_differs_eq_yes {row : String → Cell} {c : Column} {v : Value} {cell : Cell}
    (hv : t.stored? c.id v = some cell) :
    (differs c v).truth t style k row = .yes ↔ ¬k.Alike c.id (row c.id) cell := by
  rw [truth_differs hv]
  by_cases hcell : cell.isNull = true
  · have halike : k.Alike c.id (row c.id) cell ↔ (row c.id).isNull = true := by
      refine ⟨fun h => h.1.trans hcell, fun hrow => ?_⟩
      rw [Cell.isNull_eq_true.1 hrow, Cell.isNull_eq_true.1 hcell]
      exact .refl _
    rw [if_pos hcell, Truth.ofBool_eq_yes, halike, Bool.not_eq_true', Bool.not_eq_true]
  · rw [if_neg hcell]
    by_cases hrow : (row c.id).isNull = true
    · have halike : ¬k.Alike c.id (row c.id) cell := fun h => hcell (h.1 ▸ hrow)
      rw [if_pos hrow]
      exact iff_of_true rfl halike
    · have hnull : (row c.id).isNull = cell.isNull := by simp [hrow, hcell]
      rw [if_neg hrow, Truth.ofBool_eq_yes, Collation.Alike, and_iff_right hnull]
      cases k.order (some c.id) (row c.id) cell <;> simp [Ordering.isNe]

/-- The condition of an update asks for its key and, where only changes count, for a difference from
some new value. -/
theorem truth_updateCondition {ctx : Context} {keys : List Value} {targets : Assignments}
    {row : String → Cell} :
    (t.updateCondition ctx keys targets).truth t style k row = .yes ↔
      (t.keyPredicate keys).truth t style k row = .yes ∧
        (ctx.diffOnly = true → ∃ p ∈ targets, (differs p.1 p.2).truth t style k row = .yes) := by
  rw [Predicate.truth, Table.updateCondition, Predicate.eval_all, List.map_cons, Truth.all_cons,
    Truth.and_eq_yes]
  by_cases hdiff : ctx.diffOnly = true
  · simp only [hdiff, if_true, forall_const, List.map_singleton, Truth.all_cons, Truth.all_nil,
      Truth.and_yes, Predicate.eval_any, Truth.any_eq_yes, List.map_map]
    simp only [List.mem_map, Function.comp_apply, Predicate.truth]
  · simp only [hdiff, Bool.false_eq_true, if_false, List.map_nil, Truth.all_nil, false_implies, and_true]
    rfl

theorem picks_updateCondition {ctx : Context} {keys : List Value} {targets : Assignments} {row : Row} :
    t.picks k style (t.updateCondition ctx keys targets) row = true ↔
      (t.keyPredicate keys).truth t style k (t.cell row) = .yes ∧
        (ctx.diffOnly = true →
          ∃ p ∈ targets, (differs p.1 p.2).truth t style k (t.cell row) = .yes) := by
  rw [Table.picks, decide_eq_true_eq, truth_updateCondition]

end

/-! ## Two updates of one row -/

namespace Entity

variable {e : Entity} {k : Collation} {style : Style} {ctx : Context} {row : Row}

/-- The row that an update puts in place of another one. -/
def overwrite (e : Entity) (ctx : Context) (row : Row) : Row :=
  e.table.assign (e.table.written (e.updates e.table ctx ++ e.updateStamps ctx)) row

/-- A set field that is no stamp counts as a change, or the row holds its value already. -/
theorem mem_updates_or_kept {s : Statement} (h : e.table.update style e ctx = .ok (some s))
    (htracks : e.Tracks row) {column : String} {c : Column} {v : Value}
    (hc : e.table.column? column = some c) (hstamp : c.stamp = none)
    (hf : e.field? column = some (.set v)) (ctx' : Context) :
    (c, v) ∈ e.updates e.table ctx' ∨
      e.table.stored? column v = some (e.table.cell row column) := by
  obtain ⟨f, hf', hmem⟩ := field_of_column? hc
  rw [hf] at hf'
  cases hf'
  have hid := id_of_column? hc
  by_cases hchanged : e.isChanged column = true
  · left
    have htarget : e.isTarget e.table ctx' c = true := by
      simp [isTarget, Column.isStamp, hstamp, hid, hchanged]
    exact List.mem_filterMap.2 ⟨_, hmem, by dsimp only; rw [if_pos htarget]; rfl⟩
  · right
    obtain ⟨w, hbaseline, hsame⟩ := stored?_of_not_isChanged hc hf (baseline_ne_none_of_update h)
      (Bool.eq_false_of_not_eq_true hchanged)
    rw [← hsame]
    exact htracks.stored hc hstamp hbaseline

theorem updates_eq_nil (t : Table) (h : e.updates t { ctx with diffOnly := false } = []) :
    e.updates t { ctx with diffOnly := true } = [] := by
  unfold updates at h ⊢
  rw [List.filterMap_eq_nil_iff] at h ⊢
  intro p hp
  have hnone := h p hp
  dsimp only at hnone ⊢
  by_cases htarget : e.isTarget t { ctx with diffOnly := true } p.1 = true
  · have hfull : e.isTarget t { ctx with diffOnly := false } p.1 = true := by
      simp [isTarget] at htarget ⊢
      exact ⟨htarget.1, .inl htarget.2⟩
    rw [if_pos htarget]
    rwa [if_pos hfull] at hnone
  · rw [if_neg htarget]

section
variable (hvalid : e.table.validate = .ok ()) (htracks : e.Tracks row) {column : String} {c : Column}
  (hc : e.table.column? column = some c) (hstamp : c.stamp = none)
include hvalid htracks hc hstamp

/-- Whatever two updates leave out, they put the same cells into a row that the entity tracks. -/
theorem cell_overwrite {s s' : Statement} {ctx' : Context}
    (h : e.table.update style e ctx = .ok (some s))
    (h' : e.table.update style e ctx' = .ok (some s')) :
    e.table.cell (e.overwrite ctx row) column = e.table.cell (e.overwrite ctx' row) column := by
  obtain ⟨f, hf, _⟩ := field_of_column? hc
  cases f with
  | unset =>
    have hkept (ctx : Context) :
        e.table.cell (e.overwrite ctx row) column = e.table.cell row column :=
      cell_of_update_of_unset hvalid htracks hc hstamp hf
    rw [hkept, hkept]
  | set v =>
    have hcell := cell_of_update_of_set hvalid h htracks hc hstamp hf
    have hcell' := cell_of_update_of_set hvalid h' htracks hc hstamp hf
    exact Option.some.inj (hcell.symm.trans hcell')

/-- A row that differs from no changed value already has what an update puts into it. -/
theorem alike_overwrite {s : Statement} (h : e.table.update style e ctx = .ok (some s))
    {ctx' : Context}
    (hnone : ∀ p ∈ e.updates e.table ctx',
      (differs p.1 p.2).truth e.table style k (e.table.cell row) ≠ .yes) :
    k.Alike column (e.table.cell (e.overwrite ctx row) column) (e.table.cell row column) ∧
      (k.Discerns column (e.table.cell row column) →
        e.table.cell (e.overwrite ctx row) column = e.table.cell row column) := by
  obtain ⟨f, hf, _⟩ := field_of_column? hc
  cases f with
  | unset =>
    have hcell : e.table.cell (e.overwrite ctx row) column = e.table.cell row column :=
      cell_of_update_of_unset hvalid htracks hc hstamp hf
    rw [hcell]
    exact ⟨.refl _, fun _ => rfl⟩
  | set v =>
    have hcell : e.table.stored? column v = some (e.table.cell (e.overwrite ctx row) column) :=
      cell_of_update_of_set hvalid h htracks hc hstamp hf
    rcases mem_updates_or_kept h htracks hc hstamp hf ctx' with hmem | hkept
    · have hid := id_of_column? hc
      have halike := not_not.1 (mt (truth_differs_eq_yes (hid.symm ▸ hcell)).2 (hnone _ hmem))
      rw [hid] at halike
      exact ⟨halike.symm, fun hdiscerns =>
        (hdiscerns _ (Table.isReal_of_stored? hcell) halike.2).symm⟩
    · have hsame : e.table.cell (e.overwrite ctx row) column = e.table.cell row column :=
        Option.some.inj (hcell.symm.trans hkept)
      rw [hsame]
      exact ⟨.refl _, fun _ => rfl⟩

end

end Entity

namespace Session

variable {x : Storage (List Row)} {k : Collation} {style : Style} {e after after' : Entity}
  {ctx : Context} {store next next' : List Row} {n n' i : Nat} {row : Row}

/-- One row after an update: the one before it, or one that was put in its place because the
condition was true. -/
theorem row_of_update (hx : x.Writes e.table k style)
    (h : Session.update x ⟨ctx, style⟩ e store = ((.ok n, after), next)) (hrow : store[i]? = some row) :
    (e.table.update style e ctx = .ok none ∧ next[i]? = some row) ∨
      ∃ s keys, e.table.update style e ctx = .ok (some s) ∧ e.baselineKey = .ok keys ∧
        next[i]? = some (if e.table.picks k style
          (e.table.updateCondition ctx keys (e.updates e.table ctx)) row
          then e.overwrite ctx row else row) := by
  cases hs : e.table.update style e ctx with
  | error err =>
    rw [Session.update, hs] at h
    cases h
  | ok statement =>
    cases statement with
    | none =>
      rw [Session.update, hs] at h
      cases h
      exact .inl ⟨rfl, hrow⟩
    | some s =>
      obtain ⟨_, keys, _, hkeys, _⟩ := Table.update_eq_ok hs
      refine .inr ⟨s, keys, rfl, hkeys, ?_⟩
      rcases hrun : x.execute s store with ⟨result, rows⟩
      cases result with
      | error failure =>
        simp only [Session.update, hs, Storage.affected, hrun] at h
        cases h
      | ok m =>
        have hresult := update_of_execute (u := ⟨ctx, style⟩) hs hrun
        rw [hresult] at h
        cases h
        obtain ⟨_, rfl, _⟩ := (hx.update e ctx s keys hs hkeys).of_eq_ok hrun
        rw [Table.updateEffect, Effect.apply, List.getElem?_map, hrow]
        rfl

/-- The rows that the two updates leave in the place of one. -/
theorem alike_of_updates (hvalid : e.table.validate = .ok ()) (hx : x.Writes e.table k style)
    (hrow : store[i]? = some row) (htracks : e.Tracks row)
    (hfull : Session.update x ⟨{ ctx with diffOnly := false }, style⟩ e store = ((.ok n, after), next))
    (hdiff : Session.update x ⟨{ ctx with diffOnly := true }, style⟩ e store =
      ((.ok n', after'), next')) :
    ∃ full diff, next[i]? = some full ∧ next'[i]? = some diff ∧
      ∀ column c, e.table.column? column = some c → c.stamp = none →
        k.Alike column (e.table.cell full column) (e.table.cell diff column) ∧
          (k.Discerns column (e.table.cell row column) →
            e.table.cell full column = e.table.cell diff column) := by
  rcases row_of_update hx hfull hrow with ⟨hs, hnext⟩ | ⟨s, keys, hs, hkeys, hnext⟩
  · rcases row_of_update hx hdiff hrow with ⟨_, hnext'⟩ | ⟨s', _, hs', _, _⟩
    · exact ⟨row, row, hnext, hnext', fun _ _ _ _ => ⟨.refl _, fun _ => rfl⟩⟩
    · have hnil := Entity.updates_eq_nil e.table (Table.updates_of_update_eq_none hs)
      exact absurd hnil (Table.updates_ne_nil_of_update hs')
  · by_cases hkey : (e.table.keyPredicate keys).truth e.table style k (e.table.cell row) = .yes
    · rw [if_pos (picks_updateCondition.2 ⟨hkey, by simp⟩)] at hnext
      rcases row_of_update hx hdiff hrow with ⟨hs', hnext'⟩ | ⟨s', keys', hs', hkeys', hnext'⟩
      · refine ⟨_, row, hnext, hnext', fun column c hc hstamp => ?_⟩
        apply Entity.alike_overwrite hvalid htracks hc hstamp hs
        rw [Table.updates_of_update_eq_none hs']
        exact List.forall_mem_nil _
      · rw [hkeys] at hkeys'
        cases hkeys'
        by_cases hguard : ∃ p ∈ e.updates e.table { ctx with diffOnly := true },
            (differs p.1 p.2).truth e.table style k (e.table.cell row) = .yes
        · rw [if_pos (picks_updateCondition.2 ⟨hkey, fun _ => hguard⟩)] at hnext'
          refine ⟨_, _, hnext, hnext', fun column c hc hstamp => ?_⟩
          rw [Entity.cell_overwrite hvalid htracks hc hstamp hs hs']
          exact ⟨.refl _, fun _ => rfl⟩
        · rw [if_neg fun h => hguard ((picks_updateCondition.1 h).2 rfl)] at hnext'
          refine ⟨_, row, hnext, hnext', fun column c hc hstamp => ?_⟩
          apply Entity.alike_overwrite hvalid htracks hc hstamp hs
          intro p hp hdiffers
          exact hguard ⟨p, hp, hdiffers⟩
    · rw [if_neg fun h => hkey (picks_updateCondition.1 h).1] at hnext
      refine ⟨row, row, hnext, ?_, fun _ _ _ _ => ⟨.refl _, fun _ => rfl⟩⟩
      rcases row_of_update hx hdiff hrow with ⟨_, hnext'⟩ | ⟨_, keys', _, hkeys', hnext'⟩
      · exact hnext'
      · rw [hkeys] at hkeys'
        cases hkeys'
        rwa [if_neg fun h => hkey (picks_updateCondition.1 h).1] at hnext'

/-- **An update of changes only leaves the row as the full update does.** In every column that is no
stamp the two leave cells that storage counts as equal, and the same cell unless storage counts the
one that was there as equal to another one. So the two leave the same cells where storage tells all storage
forms apart. -/
theorem update_diffOnly (hvalid : e.table.validate = .ok ()) (hx : x.Writes e.table k style)
    (hrow : store[i]? = some row) (htracks : e.Tracks row)
    (hfull : Session.update x ⟨{ ctx with diffOnly := false }, style⟩ e store = ((.ok n, after), next))
    (hdiff : Session.update x ⟨{ ctx with diffOnly := true }, style⟩ e store =
      ((.ok n', after'), next')) :
    ∃ full diff, next[i]? = some full ∧ next'[i]? = some diff ∧
      (∀ column c, e.table.column? column = some c → c.stamp = none →
        k.Alike column (e.table.cell full column) (e.table.cell diff column) ∧
          (k.Discerns column (e.table.cell row column) →
            e.table.cell full column = e.table.cell diff column)) ∧
      ((∀ column cell, k.Discerns column cell) → ∀ column c, e.table.column? column = some c →
        c.stamp = none → e.table.cell full column = e.table.cell diff column) := by
  obtain ⟨full, diff, hnext, hnext', hcells⟩ := alike_of_updates hvalid hx hrow htracks hfull hdiff
  exact ⟨full, diff, hnext, hnext', hcells,
    fun hdiscerns column c hc hstamp => (hcells column c hc hstamp).2 (hdiscerns column _)⟩

section

private def stockTable : Table :=
  { name := "stock"
    columns := [⟨"id", .integer, none, none⟩, ⟨"note", .string, none, none⟩,
      ⟨"count", .integer, none, none⟩, ⟨"user", .string, none, some .updatedBy⟩]
    key := [⟨"id", .ascending⟩] }

/-- An entity that was loaded without a count. -/
private def stockEntity : Entity where
  table := stockTable
  fields := [.set (.integer 1), .set (.string "x"), .set (.string " 3"), .unset]
  baseline := some [.set (.integer 1), .set (.string "x"), .unset, .unset]
  fields_length := rfl
  baseline_length := by simp [stockTable]

/-- The one changed value is in the row already: the full update writes it again, with the audit
column, and the update of changes only leaves the row as it is. -/
theorem update_diffOnly_guarded :
    let ctx : Context := ⟨⟨⟨2024, 2, 29, by decide⟩, .midnight⟩, "ann", "till", false, false⟩
    let store : List Row := [[.integer 1, .text "x", .integer 3, .text "bob"]]
    let x := stockTable.database .plain
    ∃ after after' next next' n n',
      Session.update x ⟨{ ctx with diffOnly := false }, {}⟩ stockEntity store = ((.ok n, after), next) ∧
      Session.update x ⟨{ ctx with diffOnly := true }, {}⟩ stockEntity store = ((.ok n', after'), next') ∧
      n = 1 ∧ n' = 0 ∧ next ≠ next' ∧
      ∃ full diff, next[0]? = some full ∧ next'[0]? = some diff ∧
        ∀ column c, stockTable.column? column = some c → c.stamp = none →
          stockTable.cell full column = stockTable.cell diff column := by
  intro ctx store x
  have htracks : stockEntity.Tracks [.integer 1, .text "x", .integer 3, .text "bob"] := by
    refine ⟨rfl, fun {column c} hc hstamp {v} hv => ?_⟩
    obtain rfl := Entity.id_of_column? hc
    have hmem := List.mem_of_find?_eq_some hc
    simp only [stockEntity, stockTable, List.mem_cons, List.not_mem_nil, or_false] at hmem
    rcases hmem with rfl | rfl | rfl | rfl
    all_goals cases hv
    all_goals rfl
  obtain ⟨s, hs⟩ : ∃ s, stockTable.update {} stockEntity { ctx with diffOnly := false } =
    .ok (some s) := ⟨_, rfl⟩
  obtain ⟨s', hs'⟩ : ∃ s, stockTable.update {} stockEntity { ctx with diffOnly := true } =
    .ok (some s) := ⟨_, rfl⟩
  have hkeys : stockEntity.baselineKey = .ok [.integer 1] := rfl
  have hfull : x.execute s store = (.ok 1, [[.integer 1, .text "x", .integer 3, .text "ann"]]) :=
    (Table.database_update rfl hs hkeys .plain store).trans (by decide)
  have hdiff : x.execute s' store = (.ok 0, store) :=
    (Table.database_update rfl hs' hkeys .plain store).trans (by decide)
  have hupdate := update_of_execute (u := ⟨{ ctx with diffOnly := false }, {}⟩) hs hfull
  have hupdate' := update_of_execute (u := ⟨{ ctx with diffOnly := true }, {}⟩) hs' hdiff
  obtain ⟨full, diff, hnext, hnext', _, hsame⟩ := update_diffOnly (by decide)
    (Table.database_writes rfl .plain) (rfl : store[0]? = some _) htracks hupdate hupdate'
  exact ⟨_, _, _, _, _, _, hupdate, hupdate', rfl, rfl, by decide, full, diff, hnext, hnext',
    hsame Collation.plain_discerns⟩

end

end Session

end KeyedRows
