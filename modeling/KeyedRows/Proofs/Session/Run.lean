import KeyedRows.Proofs.Session.Address
import KeyedRows.Proofs.Sql.Database

/-!
# Runs of edits and updates

* `Edit`, `Step`, `Step.runAll` : edits of an entity and updates of its row, one after another;
* `Entity.Tracks` : what the baseline has for a column that is no stamp is what the row holds;
* `Follows` : a store with unique keys and the place of the row that an entity tracks;
* `Follows.of_ofRow`, `Follows.of_insert` : the row that an entity was loaded from or inserted as;
* `Follows.edit`, `Follows.update` : no step loses it;
* `Follows.runAll` : so no run does;
* `Session.update_keeps_edits` : after any run, an update that changes a row writes every set field
  into the row of the entity and leaves the unset ones as they were.
-/

namespace KeyedRows

open Sql

/-! ## Steps -/

inductive Edit where
  | set (column : String) (v : Value)
  | setNull (column : String)
  | unset (column : String)
  /-- Every column is unset. -/
  | clear
  | refresh

def Edit.apply (e : Entity) : Edit → Entity
  | set column v => (e.set column v).toOption.getD e
  | setNull column => (e.setNull column).toOption.getD e
  | unset column => (e.unset column).toOption.getD e
  | clear => e.clear
  | refresh => e.refresh.1

/-- One call of a caller that holds an entity. Every update has its own context. -/
inductive Step where
  | edit (change : Edit)
  | update (ctx : Context)

def Step.run (x : Storage (List Row)) (style : Style) (e : Entity) (store : List Row) :
    Step → Entity × List Row
  | edit change => (change.apply e, store)
  | update ctx =>
    let ((_, after), next) := Session.update x ⟨ctx, style⟩ e store
    (after, next)

def Step.runAll (x : Storage (List Row)) (style : Style) (e : Entity) (store : List Row)
    (steps : List Step) : Entity × List Row :=
  steps.foldl (fun (e, store) step => step.run x style e store) (e, store)

theorem Entity.put_eq_ok {e after : Entity} {column : String} {f : Field}
    (h : e.put column f = .ok after) : after.table = e.table ∧ after.baseline = e.baseline := by
  obtain ⟨_, _, h⟩ := bind_eq_ok.1 h
  cases h
  exact ⟨rfl, rfl⟩

theorem Edit.apply_baseline (e : Entity) (edit : Edit) :
    (edit.apply e).table = e.table ∧ (edit.apply e).baseline = e.baseline := by
  have hput : ∀ column f, ((e.put column f).toOption.getD e).table = e.table ∧
      ((e.put column f).toOption.getD e).baseline = e.baseline := by
    intro column f
    cases h : e.put column f with
    | error err => exact ⟨rfl, rfl⟩
    | ok after => exact Entity.put_eq_ok h
  cases edit with
  | set column v => exact hput column (.set v)
  | setNull column => exact hput column (.set .null)
  | unset column => exact hput column .unset
  | clear => exact ⟨rfl, rfl⟩
  | refresh => exact ⟨rfl, rfl⟩

/-! ## The row of an entity -/

/-- The row holds the baseline, in its storage form, in every column that is set there and is no
stamp. -/
structure Entity.Tracks (e : Entity) (row : Row) : Prop where
  width : row.length = e.table.columns.length
  stored : ∀ {column : String} {c : Column}, e.table.column? column = some c → c.stamp = none →
    ∀ {v : Value}, e.baselineField? column = some (.set v) →
      e.table.stored? column v = some (e.table.cell row column)

/-- The rows have unique keys, and the entity tracks the one at a given place. -/
structure Follows (t : Table) (k : Collation) (e : Entity) (store : List Row) (i : Nat) : Prop where
  table : e.table = t
  unique : t.UniqueKeys k store
  row : ∃ row, store[i]? = some row ∧ e.Tracks row

/-- Every cell is one that its column would store again. -/
def Table.IsCanonical (t : Table) (row : Row) : Prop :=
  ∀ column c, t.column? column = some c → c.type.Canonical (t.cell row column)

/-- No column of the key is filled in by itself. -/
def Table.PlainKey (t : Table) : Prop :=
  ∀ column ∈ t.keyColumns, ∀ c, t.column? column = some c → c.stamp = none

namespace Entity

theorem baseline_of_ofRow {t : Table} {row : Row} {e : Entity} (h : ofRow t row = .ok e) :
    e.baseline = some e.fields := by
  unfold ofRow at h
  split at h
  · split at h
    · cases h; rfl
    · cases h
  · cases h

theorem tracks_of_ofRow {t : Table} {row : Row} {e : Entity} (h : ofRow t row = .ok e)
    (hcanonical : t.IsCanonical row) : e.Tracks row := by
  obtain ⟨rfl, hwidth, _⟩ := ofRow_eq_ok h
  refine ⟨hwidth, fun {column c} hc _ {v} hv => ?_⟩
  have hf : e.field? column = some (.set v) := by
    rw [← hv, baselineField?, baseline_of_ofRow h]
    rfl
  have hget : (e.get? column).getD .null = v := by
    rw [get?, hf, Option.bind_some]
    cases v <;> rfl
  have hload := load?_cell h hc
  rw [hget] at hload
  obtain ⟨w, hw, hstore⟩ := hcanonical column c hc
  rw [hload] at hw
  cases hw
  rw [stored?_of_column? hc, hstore]

variable {e : Entity} {ctx : Context} {style : Style} {s : Statement}

theorem tracks_of_insert (hvalid : e.table.validate = .ok ())
    (h : e.table.insert style e ctx = .ok s) :
    e.capture.Tracks (e.table.assign (e.table.written (e.inserts ctx)) e.table.blank) := by
  have hblank : e.table.blank.length = e.table.columns.length := List.length_replicate
  refine ⟨Table.length_assign hblank _, fun {column c} hc hstamp {v} hv => ?_⟩
  have hc : e.table.column? column = some c := hc
  rw [baselineField?_capture] at hv
  obtain ⟨f, hf, hmem⟩ := field_of_column? hc
  rw [hv] at hf
  cases hf
  have hvalue : insertValue? ctx c (.set v) = some v :=
    insertValue?_of_set fun h => by simp [Column.isStamp, hstamp] at h
  have hin : (c, v) ∈ e.inserts ctx := mem_inserts.2 ⟨_, hmem, hvalue⟩
  obtain ⟨cell, hcell⟩ := Table.exists_stored?_of_insert h hin
  have hlookup := lookup_inserts hvalid e.table ctx hmem
  rw [hvalue, Option.bind_some, hcell] at hlookup
  rw [id_of_column? hc] at hlookup hcell
  show e.table.stored? column v = some (e.table.cell _ column)
  rw [Table.cell_assign hblank _ hc, hlookup, Option.getD_some, hcell]

section
variable {before : Row} (hvalid : e.table.validate = .ok ())
  (h : e.table.update style e ctx = .ok (some s)) (htracks : e.Tracks before) {column : String}
  {c : Column} (hc : e.table.column? column = some c) (hstamp : c.stamp = none)
include hvalid h htracks hc hstamp

/-- After an update the row holds a set field: it was written, or the row had it before. -/
theorem cell_of_update_of_set {v : Value} (hf : e.field? column = some (.set v)) :
    e.table.stored? column v = some (e.table.cell
      (e.table.assign (e.table.written (e.updates e.table ctx ++ e.updateStamps ctx)) before)
        column) := by
  rw [Table.cell_assign htracks.width _ hc]
  rcases written_or_kept hvalid h hc hstamp hf with
    ⟨cell, hlookup, hcell⟩ | ⟨hlookup, w, hbaseline, hsame⟩
  · rw [hlookup, Option.getD_some, hcell]
  · rw [hlookup, Option.getD_none, ← hsame, htracks.stored hc hstamp hbaseline]

omit h in
theorem cell_of_update_of_unset (hf : e.field? column = some .unset) :
    e.table.cell
      (e.table.assign (e.table.written (e.updates e.table ctx ++ e.updateStamps ctx)) before)
        column = e.table.cell before column := by
  obtain ⟨f, hf', hmem⟩ := field_of_column? hc
  rw [hf] at hf'
  cases hf'
  have hvalue : e.updateValue? e.table ctx c .unset = none := by
    simp [updateValue?, hstamp, Field.assigned?]
  have hlookup := lookup_updates hvalid e.table ctx hmem
  rw [hvalue, Option.bind_none, id_of_column? hc] at hlookup
  rw [Table.cell_assign htracks.width _ hc, hlookup, Option.getD_none]

end

theorem tracks_of_update {before : Row} (hvalid : e.table.validate = .ok ())
    (h : e.table.update style e ctx = .ok (some s)) (htracks : e.Tracks before) :
    e.capture.Tracks
      (e.table.assign (e.table.written (e.updates e.table ctx ++ e.updateStamps ctx)) before) where
  width := Table.length_assign htracks.width _
  stored hc hstamp _ hv := cell_of_update_of_set hvalid h htracks hc hstamp hv

end Entity

/-! ## Steps and runs -/

namespace Follows

variable {t : Table} {k : Collation} {x : Storage (List Row)} {e : Entity} {store : List Row} {i : Nat}

theorem of_ofRow {row : Row} (hunique : t.UniqueKeys k store) (hrow : store[i]? = some row)
    (hcanonical : t.IsCanonical row) (h : Entity.ofRow t row = .ok e) : Follows t k e store i :=
  ⟨(Entity.ofRow_eq_ok h).1, hunique, row, hrow, Entity.tracks_of_ofRow h hcanonical⟩

theorem of_insert {u : Session} {after : Entity} {next : List Row} {n : Nat}
    (hvalid : t.validate = .ok ()) (hx : x.Writes t k u.style) (htable : e.table = t)
    (h : u.insert x e store = ((.ok n, after), next)) : Follows t k after next store.length := by
  subst htable
  obtain ⟨s, hs, hrun, rfl⟩ := Session.insert_eq_ok h
  obtain ⟨_, rfl, hunique⟩ := (hx.insert e u.context s hs).of_eq_ok hrun
  exact ⟨rfl, hunique, _, List.getElem?_concat_length, Entity.tracks_of_insert hvalid hs⟩

theorem edit (h : Follows t k e store i) (change : Edit) : Follows t k (change.apply e) store i := by
  obtain ⟨rfl, hunique, row, hrow, hwidth, hstored⟩ := h
  obtain ⟨htable, hbaseline⟩ := Edit.apply_baseline e change
  refine ⟨htable, hunique, row, hrow, by rw [htable]; exact hwidth, ?_⟩
  intro column c hc hstamp v hv
  rw [htable] at hc ⊢
  exact hstored hc hstamp (by rw [← hv, Entity.baselineField?, Entity.baselineField?, htable, hbaseline])

section
variable {ctx : Context} {style : Style} {after : Entity} {next : List Row} {n : Nat}

/-- An update that changes rows replaces the row of the entity alone, and the entity then tracks the
new one. -/
theorem update_of_pos (hvalid : t.validate = .ok ()) (hplain : t.PlainKey)
    (hx : x.Writes t k style) (h : Follows t k e store i)
    (hrun : Session.update x ⟨ctx, style⟩ e store = ((.ok n, after), next)) (hn : 0 < n) :
    ∃ before row s, store[i]? = some before ∧ e.Tracks before ∧ next = store.set i row ∧
      t.UniqueKeys k next ∧ after = e.capture ∧ t.update style e ctx = .ok (some s) ∧
      row = t.assign (t.written (e.updates t ctx ++ e.updateStamps ctx)) before := by
  obtain ⟨rfl, hunique, before, hbefore, htracks⟩ := h
  obtain ⟨s, hs, hexecute, rfl⟩ := Session.update_eq_ok_of_pos hrun hn
  obtain ⟨hkey, keys, _, hkeys, _⟩ := Table.update_eq_ok hs
  obtain ⟨rfl, rfl, hunique'⟩ := (hx.update e ctx s keys hs hkeys).of_eq_ok hexecute
  have hzip : ∀ column ∈ e.table.keyColumns, ∃ v, (column, v) ∈ e.table.keyColumns.zip keys ∧
      e.table.stored? column v = some (e.table.cell before column) := by
    intro column hcolumn
    obtain ⟨v, hmem, hf, _⟩ := exists_zip_of_mem (Entity.set_of_baselineKey hkeys) hcolumn
    obtain ⟨c, hc⟩ := Table.declares_of_validate hvalid column hcolumn
    exact ⟨v, hmem, htracks.stored hc (hplain column hcolumn c hc) hf⟩
  exact ⟨before, _, s, hbefore, htracks,
    apply_updateEffect hkeys hkey hunique hbefore hzip hn, hunique', rfl, hs, rfl⟩

/-- An update keeps the entity at its row, whatever comes of it. -/
theorem update (hvalid : t.validate = .ok ()) (hplain : t.PlainKey) (hx : x.Writes t k style)
    (h : Follows t k e store i) (ctx : Context) {result : Except Error Nat}
    (hrun : Session.update x ⟨ctx, style⟩ e store = ((result, after), next)) :
    Follows t k after next i := by
  obtain rfl := h.table
  rcases Session.update_cases x ⟨ctx, style⟩ e store with
    ⟨_, _, hresult⟩ | ⟨s, hs, ⟨failure, rows, hexecute, hresult⟩ | ⟨n, rows, hexecute, hresult⟩⟩
  · rw [hresult] at hrun
    cases hrun
    exact h
  · obtain ⟨_, keys, _, hkeys, _⟩ := Table.update_eq_ok hs
    obtain rfl := (hx.update e ctx s keys hs hkeys).of_eq_error hexecute
    rw [hresult] at hrun
    cases hrun
    exact h
  · rcases Nat.eq_zero_or_pos n with rfl | hn
    · obtain ⟨_, keys, _, hkeys, _⟩ := Table.update_eq_ok hs
      obtain ⟨hzero, hrows, _⟩ := (hx.update e ctx s keys hs hkeys).of_eq_ok hexecute
      have hsame : rows = store := hrows.trans (Effect.apply_of_affected_eq_zero hzero.symm)
      rw [hresult, if_pos rfl, hsame] at hrun
      cases hrun
      exact h
    · -- Only here do entity and rows change, and both to what the statement wrote.
      rw [hresult] at hrun
      cases hrun
      obtain ⟨before, row, s, hbefore, htracks, hnext, hunique, hafter, hs, hrow⟩ :=
        h.update_of_pos hvalid hplain hx hresult hn
      refine ⟨by rw [hafter]; rfl, hunique, row, ?_, ?_⟩
      · rw [hnext]
        exact List.getElem?_set_self (List.getElem?_eq_some_iff.1 hbefore).1
      · rw [hafter, hrow]
        exact Entity.tracks_of_update hvalid hs htracks

end

/-- No step loses the row of the entity. -/
theorem step {style : Style} (hvalid : t.validate = .ok ()) (hplain : t.PlainKey)
    (hx : x.Writes t k style) (h : Follows t k e store i) (step : Step) :
    Follows t k (step.run x style e store).1 (step.run x style e store).2 i := by
  cases step with
  | edit change => exact h.edit change
  | update ctx => exact h.update hvalid hplain hx ctx rfl

/-- No run loses it. The induction is on the steps, each of which may change entity and rows. -/
theorem runAll {style : Style} (hvalid : t.validate = .ok ()) (hplain : t.PlainKey)
    (hx : x.Writes t k style) (h : Follows t k e store i) (steps : List Step) :
    Follows t k (Step.runAll x style e store steps).1 (Step.runAll x style e store steps).2 i := by
  induction steps generalizing e store with
  | nil => exact h
  | cons first steps ih => exact ih (h.step hvalid hplain hx first)

end Follows

/-- How an entity comes by a row, whose place is given: it was loaded from a row in canonical form of
rows with unique keys, or it was inserted. -/
inductive Starts (x : Storage (List Row)) (t : Table) (k : Collation) (style : Style) :
    Entity → List Row → Nat → Prop where
  | loaded {e : Entity} {store : List Row} {i : Nat} {row : Row} (hunique : t.UniqueKeys k store)
      (hrow : store[i]? = some row) (hcanonical : t.IsCanonical row)
      (h : Entity.ofRow t row = .ok e) : Starts x t k style e store i
  | inserted {ctx : Context} {e after : Entity} {store next : List Row} {n : Nat}
      (htable : e.table = t) (h : Session.insert x ⟨ctx, style⟩ e store = ((.ok n, after), next)) :
      Starts x t k style after next store.length

/-- **No edit is lost.** An entity has a row in storage with unique keys that nobody else writes.
After any edits and updates, an update that changes rows replaces the row of the entity alone. Of the
columns that are no stamps, the new row has the storage form of every one that is set in the entity,
and every one that is unset as it was before. -/
theorem Session.update_keeps_edits {x : Storage (List Row)} {t : Table} {k : Collation} {style : Style}
    (hvalid : t.validate = .ok ()) (hplain : t.PlainKey) (hx : x.Writes t k style) {e : Entity}
    {store : List Row} {i : Nat} (hstart : Starts x t k style e store i) (steps : List Step)
    {e' after : Entity} {rows next : List Row} (hsteps : Step.runAll x style e store steps = (e', rows))
    {ctx : Context} {n : Nat} (h : Session.update x ⟨ctx, style⟩ e' rows = ((.ok n, after), next))
    (hn : 0 < n) :
    ∃ before row, rows[i]? = some before ∧ next = rows.set i row ∧
      ∀ column c, t.column? column = some c → c.stamp = none →
        (∀ v, after.field? column = some (.set v) → t.stored? column v = some (t.cell row column)) ∧
        (after.field? column = some .unset → t.cell row column = t.cell before column) := by
  have hfollows : Follows t k e store i := by
    cases hstart with
    | loaded hunique hrow hcanonical hload => exact .of_ofRow hunique hrow hcanonical hload
    | inserted htable hinsert => exact .of_insert hvalid hx htable hinsert
  have hrun := hfollows.runAll hvalid hplain hx steps
  rw [hsteps] at hrun
  obtain ⟨before, row, s, hbefore, htracks, hnext, _, rfl, hs, rfl⟩ :=
    hrun.update_of_pos hvalid hplain hx h hn
  obtain rfl := hrun.table
  exact ⟨before, _, hbefore, hnext, fun column c hc hstamp =>
    ⟨fun v hf => Entity.cell_of_update_of_set hvalid hs htracks hc hstamp hf,
      Entity.cell_of_update_of_unset hvalid htracks hc hstamp⟩⟩

section
private def tripleTable : Table :=
  { name := "t"
    columns := [⟨"a", .integer, none, none⟩, ⟨"b", .string, none, none⟩, ⟨"c", .integer, none, none⟩]
    key := [⟨"a", .ascending⟩] }

private def tripleEntity (old new : List Field) (hold : old.length = 3) (hnew : new.length = 3) :
    Entity where
  table := tripleTable
  fields := new
  baseline := some old
  fields_length := hnew
  baseline_length := by simpa [tripleTable] using hold

/-- A row is loaded, one column is written where it differs, then the key is given as text and the
written column unset, and everything is written. -/
theorem Session.update_keeps_edits_rekeyed :
    let ctx : Context := ⟨⟨⟨2024, 2, 29, by decide⟩, .midnight⟩, "ann", "till", false, false⟩
    let store : List Row := [[.integer 2, .null, .integer 4], [.integer 1, .text "x", .integer 3]]
    let steps : List Step := [.edit (.set "b" (.string "y")), .update { ctx with diffOnly := true },
      .edit (.set "a" (.string "5")), .edit (.unset "b")]
    let x := tripleTable.database .plain
    ∃ e e' after rows next row, Entity.ofRow tripleTable [.integer 1, .text "x", .integer 3] = .ok e ∧
      Step.runAll x {} e store steps = (e', rows) ∧
      Session.update x ⟨ctx, {}⟩ e' rows = ((.ok 1, after), next) ∧ next = rows.set 1 row ∧
      tripleTable.cell row "a" = .integer 5 ∧ tripleTable.cell row "b" = .text "y" := by
  intro ctx store steps x
  let loaded : List Field := [.set (.integer 1), .set (.string "x"), .set (.integer 3)]
  let edited : List Field := [.set (.integer 1), .set (.string "y"), .set (.integer 3)]
  let rekeyed : List Field := [.set (.string "5"), .unset, .set (.integer 3)]
  let e := tripleEntity loaded loaded rfl rfl
  let e₁ := tripleEntity loaded edited rfl rfl
  let e' := tripleEntity edited rekeyed rfl rfl
  let rows : List Row := [[.integer 2, .null, .integer 4], [.integer 1, .text "y", .integer 3]]
  have hvalid : tripleTable.validate = .ok () := by decide
  have hplain : tripleTable.PlainKey := by
    intro column hcolumn c hc
    obtain rfl : column = "a" := List.mem_singleton.1 hcolumn
    cases hc
    rfl
  have hstart : Starts x tripleTable .plain {} e store 1 := by
    refine .loaded (by decide) rfl (fun column c hc => ?_) rfl
    obtain rfl := Entity.id_of_column? hc
    have hmem := List.mem_of_find?_eq_some hc
    simp only [tripleTable, List.mem_cons, List.not_mem_nil, or_false] at hmem
    rcases hmem with rfl | rfl | rfl
    · exact ⟨.integer 1, rfl, rfl⟩
    · exact ⟨.string "x", rfl, rfl⟩
    · exact ⟨.integer 3, rfl, rfl⟩
  have hfirst : Session.update x ⟨{ ctx with diffOnly := true }, {}⟩ e₁ store =
      ((.ok 1, e₁.capture), rows) := by
    obtain ⟨s, hs⟩ : ∃ s, tripleTable.update {} e₁ { ctx with diffOnly := true } = .ok (some s) :=
      ⟨_, rfl⟩
    exact Session.update_of_execute hs
      ((Table.database_update rfl hs (rfl : e₁.baselineKey = .ok [.integer 1]) .plain store).trans
        (by decide))
  have hsecond : Session.update x ⟨ctx, {}⟩ e' rows = ((.ok 1, e'.capture),
      [[.integer 2, .null, .integer 4], [.integer 5, .text "y", .integer 3]]) := by
    obtain ⟨s, hs⟩ : ∃ s, tripleTable.update {} e' ctx = .ok (some s) := ⟨_, rfl⟩
    exact Session.update_of_execute hs
      ((Table.database_update rfl hs (rfl : e'.baselineKey = .ok [.integer 1]) .plain rows).trans
        (by decide))
  have hsteps : Step.runAll x {} e store steps = (e', rows) := by
    have hset : (Edit.set "b" (.string "y")).apply e = e₁ := by decide
    have hedits : (Edit.unset "b").apply ((Edit.set "a" (.string "5")).apply e₁.capture) = e' := by
      decide
    simp only [Step.runAll, steps, List.foldl_cons, List.foldl_nil, Step.run, hset, hfirst, hedits]
  obtain ⟨before, row, hbefore, hnext, hcells⟩ := update_keeps_edits hvalid hplain
    (Table.database_writes rfl .plain) hstart steps hsteps hsecond (by decide)
  cases hbefore
  have hkey := (hcells "a" _ rfl rfl).1 (.string "5") rfl
  have hkept := (hcells "b" _ rfl rfl).2 rfl
  exact ⟨e, e', _, rows, _, row, rfl, hsteps, hsecond, hnext, (Option.some.inj hkey).symm, hkept⟩

end

end KeyedRows
