import KeyedRows.Proofs.Session.Outcome
import KeyedRows.Proofs.Sql.Bind
import KeyedRows.Proofs.Written

/-!
# The row that an entity addresses after a write

* `Entity.Addresses` : the key in a baseline is stored as given cells;
* `Entity.heldCell?` : the key cells that an updated row holds;
* `Entity.insertedCell?` : the cells that an insert writes;
* `Table.bindings_of_keyPredicate`, `Entity.delete_binds_iff` : a delete binds the key of the
  baseline;
* `Entity.written_or_kept` : an update writes a set field, or the baseline is stored alike;
* `Session.update_addresses_iff`, `Session.insert_addresses_iff` : when an entity addresses the row
  that it updated or inserted.

The baseline is a copy of all fields, so it misses a key column that is unset and mistakes one that
the write filled in by itself.
-/

namespace KeyedRows

open Sql

/-! ## Keys in a baseline -/

namespace Entity

/-- The baseline has a key, and each of its values is stored as the given cell of its column. -/
def Addresses (e : Entity) (cell? : String → Option Cell) : Prop :=
  ∃ keys, e.baselineKey = .ok keys ∧
    List.Forall₂ (fun column v => ∃ cell, e.table.stored? column v = some cell ∧
      cell? column = some cell) e.table.keyColumns keys

theorem set_of_baselineKey {e : Entity} {keys : List Value} (h : e.baselineKey = .ok keys) :
    List.Forall₂ (fun column v => e.baselineField? column = some (.set v) ∧ v ≠ .null)
      e.table.keyColumns keys := by
  refine (baselineKey_eq_ok h).imp fun column v hv => ?_
  obtain ⟨f, hf, hvalue⟩ := Option.bind_eq_some_iff.1 hv
  obtain ⟨rfl, hnull⟩ := Field.value?_eq_some.1 hvalue
  exact ⟨hf, hnull⟩

theorem exists_baselineKey {e : Entity}
    (h : ∀ column ∈ e.table.keyColumns, ∃ v, (e.baselineField? column).bind Field.value? = some v) :
    ∃ keys, e.baselineKey = .ok keys := by
  refine exists_mapM_eq_ok fun column hcolumn => ?_
  obtain ⟨v, hv⟩ := h column hcolumn
  exact ⟨v, by rw [hv]⟩

theorem addresses_iff {e : Entity} {cell? : String → Option Cell} :
    e.Addresses cell? ↔ ∀ column ∈ e.table.keyColumns, ∃ v cell,
      e.baselineField? column = some (.set v) ∧ v ≠ .null ∧
        e.table.stored? column v = some cell ∧ cell? column = some cell := by
  constructor
  · rintro ⟨keys, hkeys, hcells⟩ column hcolumn
    obtain ⟨v, hmem, cell, hstored, hcell⟩ := exists_zip_of_mem hcells hcolumn
    obtain ⟨hf, hv⟩ := (List.forall₂_iff_zip.1 (set_of_baselineKey hkeys)).2 hmem
    exact ⟨v, cell, hf, hv, hstored, hcell⟩
  · intro h
    obtain ⟨keys, hkeys⟩ : ∃ keys, e.baselineKey = .ok keys := by
      refine exists_baselineKey fun column hcolumn => ?_
      obtain ⟨v, cell, hf, hv, _⟩ := h column hcolumn
      exact ⟨v, by rw [hf, Option.bind_some, Field.value?_eq_some.2 ⟨rfl, hv⟩]⟩
    refine ⟨keys, hkeys, List.forall₂_iff_zip.2 ⟨(baselineKey_eq_ok hkeys).length_eq, ?_⟩⟩
    intro column v hmem
    obtain ⟨hbase, _⟩ := (List.forall₂_iff_zip.1 (set_of_baselineKey hkeys)).2 hmem
    obtain ⟨w, cell, hf, _, hstored, hcell⟩ := h column (List.of_mem_zip hmem).1
    rw [hf] at hbase
    cases hbase
    exact ⟨cell, hstored, hcell⟩

end Entity

/-! ## Bindings of a key condition -/

namespace Predicate

variable {t : Table} {style : Style}

theorem cells_grouped (p : Predicate) (ps : List Piece) : cells (grouped p ps) = cells ps := by
  unfold grouped
  split
  · rw [List.cons_append, cells_text, cells_append, cells_text, cells_nil, List.append_nil]
  · rfl

theorem cells_joined (word none : String) (parts : List (List Piece)) :
    cells (joined word none parts) = parts.flatMap cells := by
  unfold joined
  split
  · next hempty =>
    rw [List.isEmpty_iff.1 hempty]
    rfl
  · clear * -
    induction parts with
    | nil => rfl
    | cons ps parts ih =>
      cases parts with
      | nil => rw [List.flatMap_singleton]; exact congrArg cells (List.append_nil ps)
      | cons qs parts =>
        rw [List.intersperse_cons_cons, List.flatten_cons, List.flatten_cons, cells_append,
          cells_append, ih, List.flatMap_cons]
        rfl

/-- A condition binds what the parts of its conjunction bind. -/
theorem cells_pieces {p : Predicate} {ps : List Piece} (h : p.pieces t style = .ok ps) :
    ∃ pss, partPieces t style p.conjuncts = .ok pss ∧ cells ps = pss.flatMap cells := by
  cases p with
  | and parts =>
    rw [pieces] at h
    obtain ⟨pss, hparts, h⟩ := bind_eq_ok.1 h
    cases h
    exact ⟨pss, hparts, cells_joined _ _ pss⟩
  | _ =>
    refine ⟨_, by simp only [conjuncts, partPieces, h]; rfl, ?_⟩
    rw [List.flatMap_singleton, cells_grouped]

theorem cells_equalities {pairs : List (String × Value)} {pss : List (List Piece)}
    (h : partPieces t style (pairs.map fun p => compare p.1 .eq p.2) = .ok pss) :
    (pss.flatMap cells).map some = pairs.map fun p => t.stored? p.1 p.2 := by
  have hparts := partPieces_eq_ok.1 h
  rw [List.forall₂_map_left_iff] at hparts
  clear h
  induction hparts with
  | nil => rfl
  | cons hp _ ih =>
    obtain ⟨ps, hps, rfl⟩ := hp
    obtain ⟨cell, hcell, rfl⟩ := pieces_compare_eq_ok.1 hps
    rw [List.flatMap_cons, List.map_append, ih, List.map_cons, hcell]
    rfl

end Predicate

theorem Table.bindings_of_keyPredicate {t : Table} {style : Style} {keys : List Value}
    (hkeys : ∀ v ∈ keys, v.isNull = false) {ps : List Piece}
    (h : (t.keyPredicate keys).pieces t style = .ok ps) :
    (cells ps).map some = (t.keyColumns.zip keys).map fun p => t.stored? p.1 p.2 := by
  obtain ⟨pss, hparts, hcells⟩ := Predicate.cells_pieces h
  rw [conjuncts_keyPredicate t hkeys] at hparts
  rw [hcells]
  exact Predicate.cells_equalities hparts

theorem Table.bindable_keyPredicate {t : Table} {keys : List Value}
    (h : ∀ p ∈ t.keyColumns.zip keys, t.Binds p.1 p.2) : (t.keyPredicate keys).Bindable t := by
  refine Predicate.bindable_merge .and fun p hp => ?_
  obtain ⟨pair, hpair, rfl⟩ := Predicate.exists_of_mem_zipWith_eq hp
  exact Predicate.bindable_eq (h pair hpair)

/-- The delete of an entity binds given cells, one a key column, exactly if the entity addresses
them. -/
theorem Entity.delete_binds_iff {e : Entity} {style : Style} (hkey : e.table.hasKey = true)
    {cell? : String → Option Cell} :
    (∃ s, e.table.delete style e = .ok s ∧ s.bindings.map some = e.table.keyColumns.map cell?) ↔
      e.Addresses cell? := by
  have hcolumns {keys : List Value} (hkeys : e.baselineKey = .ok keys) :
      e.table.keyColumns.map cell? = (e.table.keyColumns.zip keys).map fun p => cell? p.1 := by
    have hfst := List.map_fst_zip (baselineKey_eq_ok hkeys).length_eq.le
    exact (congrArg (List.map cell?) hfst.symm).trans List.map_map
  constructor
  · rintro ⟨s, hs, hbindings⟩
    obtain ⟨_, keys, hkeys, ps, hps, rfl⟩ := Table.delete_eq_ok hs
    have hstored := Table.bindings_of_keyPredicate (not_null_of_baselineKey hkeys) hps
    have hcells : (cells ps).map some = e.table.keyColumns.map cell? := hbindings
    have hsame := List.map_inj_left.1 (hstored.symm.trans (hcells.trans (hcolumns hkeys)))
    refine ⟨keys, hkeys, List.forall₂_iff_zip.2
      ⟨(baselineKey_eq_ok hkeys).length_eq, fun {column v} hmem => ?_⟩⟩
    obtain ⟨cell, _, hcell⟩ := List.mem_map.1 (hstored ▸ List.mem_map_of_mem hmem :
      e.table.stored? column v ∈ (cells ps).map some)
    exact ⟨cell, hcell.symm, (hsame _ hmem).symm.trans hcell.symm⟩
  · -- Every value of the key has a storage form, so the delete can be written.
    rintro ⟨keys, hkeys, hcells⟩
    have hboth : ∀ p ∈ e.table.keyColumns.zip keys, ∃ cell,
        e.table.stored? p.1 p.2 = some cell ∧ cell? p.1 = some cell :=
      fun p hmem => (List.forall₂_iff_zip.1 hcells).2 hmem
    have hbinds : ∀ p ∈ e.table.keyColumns.zip keys, e.table.Binds p.1 p.2 := fun p hmem =>
      let ⟨cell, hcell, _⟩ := hboth p hmem
      ⟨cell, hcell⟩
    obtain ⟨ps, hps⟩ : ∃ ps, (e.table.keyPredicate keys).pieces e.table style = .ok ps :=
      Predicate.pieces_of_bindable (Table.bindable_keyPredicate hbinds)
    have hentity : e.table.checkEntity e = .ok () := if_pos rfl
    have hrequire : e.table.requireKey = .ok () := if_pos hkey
    refine ⟨_, bind_eq_ok.2 ⟨_, hentity, bind_eq_ok.2 ⟨_, hrequire, bind_eq_ok.2 ⟨keys, hkeys,
      bind_eq_ok.2 ⟨ps, hps, rfl⟩⟩⟩⟩, ?_⟩
    have hstored := Table.bindings_of_keyPredicate (not_null_of_baselineKey hkeys) hps
    refine hstored.trans ?_
    rw [hcolumns hkeys]
    refine List.map_congr_left fun p hmem => ?_
    obtain ⟨cell, hcell, hcell'⟩ := hboth p hmem
    rw [hcell, hcell']

/-! ## Updates -/

namespace Entity

/-- The cell of a row in a key column after an update: the one that the statement assigns, and else
the one that its condition asks for. -/
def heldCell? (e : Entity) (ctx : Context) (column : String) : Option Cell :=
  ((e.table.written (e.updates e.table ctx ++ e.updateStamps ctx)).lookup column).or
    (e.table.baselineCell? e column column)

section
variable {e : Entity} {style : Style} {ctx : Context} {s : Statement}

theorem baseline_of_update (h : e.table.update style e ctx = .ok (some s)) {column : String}
    (hcolumn : column ∈ e.table.keyColumns) : ∃ w cell, e.baselineField? column = some (.set w) ∧
      w ≠ .null ∧ e.table.stored? column w = some cell ∧
      e.table.baselineCell? e column column = some cell := by
  obtain ⟨_, keys, _, hkeys, _, ps, hps, _⟩ := Table.update_eq_ok h
  obtain ⟨_, _, _, hparts⟩ := Table.conjuncts_updateCondition e.table ctx
    (not_null_of_baselineKey hkeys) (e.updates e.table ctx)
  obtain ⟨w, hmem, hf, hw⟩ := exists_zip_of_mem (set_of_baselineKey hkeys) hcolumn
  have hpart : Predicate.compare column .eq w ∈
      (e.table.updateCondition ctx keys (e.updates e.table ctx)).conjuncts := by
    rw [hparts]
    exact List.mem_append_left _ (List.mem_map.2 ⟨_, hmem, rfl⟩)
  obtain ⟨cell, hcell⟩ := Predicate.stored_of_mem_conjuncts hps hpart
  refine ⟨w, cell, hf, hw, hcell, ?_⟩
  rw [Table.baselineCell?, hf, Option.bind_some, Field.value?_eq_some.2 ⟨rfl, hw⟩, Option.bind_some,
    hcell]

theorem stored_of_updateValue? (h : e.table.update style e ctx = .ok (some s)) {c : Column}
    {f : Field} (hmem : (c, f) ∈ e.states) {v : Value}
    (hv : e.updateValue? e.table ctx c f = some v) : ∃ cell, e.table.stored? c.id v = some cell := by
  obtain ⟨_, _, _, _, hset, _⟩ := Table.update_eq_ok h
  refine Table.exists_stored?_of_setClause hset (List.mem_append.2 ?_)
  unfold updateValue? at hv
  cases hs : c.stamp with
  | none =>
    simp only [hs] at hv
    split at hv
    · next htarget =>
      exact .inl (List.mem_filterMap.2 ⟨_, hmem, by simp only [htarget, if_true, hv, Option.map_some]⟩)
    · cases hv
  | some stamp =>
    simp only [hs] at hv
    split at hv
    · next honUpdate =>
      cases hv
      exact .inr (List.mem_filterMap.2 ⟨_, hmem, by simp only [hs, honUpdate, if_true]⟩)
    · cases hv

theorem exists_heldCell? (h : e.table.update style e ctx = .ok (some s)) {column : String}
    (hcolumn : column ∈ e.table.keyColumns) : ∃ cell, e.heldCell? ctx column = some cell := by
  obtain ⟨_, cell, _, _, _, hbase⟩ := baseline_of_update h hcolumn
  rw [heldCell?, hbase]
  cases (e.table.written (e.updates e.table ctx ++ e.updateStamps ctx)).lookup column with
  | none => exact ⟨cell, rfl⟩
  | some written => exact ⟨written, rfl⟩

theorem baseline_ne_none_of_update (h : e.table.update style e ctx = .ok (some s)) :
    e.baseline ≠ none := by
  obtain ⟨hkey, _⟩ := Table.update_eq_ok h
  have hne : e.table.keyColumns ≠ [] := by simpa [Table.hasKey, Table.keyColumns] using hkey
  obtain ⟨column, hcolumn⟩ := List.exists_mem_of_ne_nil _ hne
  obtain ⟨w, _, hbaseline, _⟩ := baseline_of_update h hcolumn
  intro hnone
  simp [baselineField?, hnone] at hbaseline

/-- An update writes a set field that is no stamp, or leaves it out because the baseline is stored
alike. -/
theorem written_or_kept (hvalid : e.table.validate = .ok ())
    (h : e.table.update style e ctx = .ok (some s)) {column : String} {c : Column}
    (hc : e.table.column? column = some c) (hstamp : c.stamp = none) {v : Value}
    (hf : e.field? column = some (.set v)) :
    let written := e.table.written (e.updates e.table ctx ++ e.updateStamps ctx)
    (∃ cell, written.lookup column = some cell ∧ e.table.stored? column v = some cell) ∨
      (written.lookup column = none ∧ ∃ w, e.baselineField? column = some (.set w) ∧
        e.table.stored? column w = e.table.stored? column v) := by
  obtain ⟨f, hf', hmem⟩ := field_of_column? hc
  rw [hf] at hf'
  cases hf'
  have hlookup := lookup_updates hvalid e.table ctx hmem
  have hid := id_of_column? hc
  cases htarget : e.isTarget e.table ctx c with
  | true =>
    have hvalue : e.updateValue? e.table ctx c (.set v) = some v := by
      simp only [updateValue?, hstamp, htarget, if_true, Field.assigned?]
    obtain ⟨cell, hcell⟩ := stored_of_updateValue? h hmem hvalue
    rw [hvalue, Option.bind_some, hcell, hid] at hlookup
    exact .inl ⟨cell, hlookup, hid ▸ hcell⟩
  | false =>
    have hvalue : e.updateValue? e.table ctx c (.set v) = none := by
      simp [updateValue?, hstamp, htarget]
    rw [hvalue, Option.bind_none, hid] at hlookup
    simp only [isTarget, Column.isStamp, hstamp, hid, Option.isSome_none, Bool.not_false,
      Bool.true_and, Bool.or_eq_false_iff] at htarget
    exact .inr ⟨hlookup,
      stored?_of_not_isChanged hc hf (baseline_ne_none_of_update h) htarget.1⟩

/-- A key column that is no stamp holds its field after an update. -/
theorem stored?_eq_heldCell? (hvalid : e.table.validate = .ok ())
    (h : e.table.update style e ctx = .ok (some s)) {column : String}
    (hcolumn : column ∈ e.table.keyColumns) {c : Column} (hc : e.table.column? column = some c)
    (hstamp : c.stamp = none) {v : Value} (hf : e.field? column = some (.set v)) :
    e.table.stored? column v = e.heldCell? ctx column := by
  rcases written_or_kept hvalid h hc hstamp hf with
    ⟨cell, hlookup, hcell⟩ | ⟨hlookup, w, hbaseline, hsame⟩
  · rw [heldCell?, hlookup, Option.some_or, hcell]
  · obtain ⟨w', cell, hbaseline', _, hcell, hbase⟩ := baseline_of_update h hcolumn
    rw [hbaseline] at hbaseline'
    cases hbaseline'
    rw [heldCell?, hlookup, Option.none_or, hbase, ← hsame, hcell]

end
end Entity

/-- **When an updated entity addresses its row.** An update that changes a row sets the given cells
under a condition on the baseline key. The entity then addresses what the row holds exactly if its
fields have a value for every key column and, in one that is a stamp, the value that the row holds. -/
theorem Session.update_addresses_iff {σ : Type} {x : Storage σ} {u : Session} {e after : Entity}
    {state next : σ} {n : Nat} (hvalid : e.table.validate = .ok ())
    (h : u.update x e state = ((.ok n, after), next)) (hn : 0 < n) :
    ∃ s keys, x.execute s state = (.ok n, next) ∧ e.baselineKey = .ok keys ∧
      s.EndsInWhere e.table u.style .update
        (e.table.updatePieces (e.table.written (e.updates e.table u.context ++
          e.updateStamps u.context)))
        (e.table.updateCondition u.context keys (e.updates e.table u.context)) ∧
      (after.Addresses (e.heldCell? u.context) ↔ ∀ column ∈ e.table.keyColumns, ∃ c v,
        e.table.column? column = some c ∧ e.field? column = some (.set v) ∧ v ≠ .null ∧
          (c.isStamp = true → e.table.stored? column v = e.heldCell? u.context column)) := by
  obtain ⟨s, hs, hrun, rfl⟩ := update_eq_ok_of_pos h hn
  obtain ⟨_, keys, set, hkeys, hset, hwhere⟩ := Table.update_eq_ok hs
  refine ⟨s, keys, hrun, hkeys, by rw [Table.updatePieces, ← Table.setClause_eq_ok hset]; exact hwhere,
    Entity.addresses_iff.trans (forall₂_congr fun column hcolumn => ?_)⟩
  have hcolumn : column ∈ e.table.keyColumns := hcolumn
  rw [Entity.baselineField?_capture]
  constructor
  · rintro ⟨v, cell, hf, hv, hstored, hheld⟩
    obtain ⟨c, hc⟩ := Table.declares_of_validate hvalid column hcolumn
    exact ⟨c, v, hc, hf, hv, fun _ => hstored.trans hheld.symm⟩
  · rintro ⟨c, v, hc, hf, hv, hstamp⟩
    obtain ⟨cell, hheld⟩ := Entity.exists_heldCell? hs hcolumn
    have hstored : e.table.stored? column v = e.heldCell? u.context column := by
      cases hc' : c.stamp with
      | none => exact Entity.stored?_eq_heldCell? hvalid hs hcolumn hc hc' hf
      | some stamp => exact hstamp (by rw [Column.isStamp, hc', Option.isSome_some])
    exact ⟨v, cell, hf, hv, hstored.trans hheld, hheld⟩

section
/-- Storage that reports one affected row. -/
private def oneRow : Storage Unit where
  fetch _ state := (.ok [], state)
  execute _ state := (.ok 1, state)

private def annSession : Session :=
  ⟨⟨⟨⟨2024, 2, 29, by decide⟩, .midnight⟩, "ann", "till", false, false⟩, {}⟩

private def noteTable (key : Column) : Table :=
  { name := "t", columns := [key, ⟨"b", .string, none, none⟩], key := [⟨key.id, .ascending⟩] }

private def noteEntity (key : Column) (old : Option Value) (a : Field) : Entity where
  table := noteTable key
  fields := [a, .set (.string "y")]
  baseline := old.map fun v => [.set v, .set (.string "x")]
  fields_length := rfl
  baseline_length := by simp [noteTable]

/-- An edited key, given as text, is the key afterwards. -/
theorem Session.update_addresses_iff_rekeyed :
    let e := noteEntity ⟨"a", .integer, none, none⟩ (some (.integer 1)) (.set (.string "2"))
    annSession.update oneRow e () = ((.ok 1, e.capture), ()) ∧
      e.heldCell? annSession.context "a" = some (.integer 2) ∧
      e.capture.Addresses (e.heldCell? annSession.context) := by
  intro e
  have hvalid : e.table.validate = .ok () := by decide
  have hupdate : annSession.update oneRow e () = ((.ok 1, e.capture), ()) := by decide
  obtain ⟨_, _, _, _, _, hiff⟩ := update_addresses_iff hvalid hupdate (by decide)
  refine ⟨hupdate, by decide, hiff.2 fun column hcolumn => ?_⟩
  obtain rfl : column = "a" := List.mem_singleton.1 hcolumn
  exact ⟨⟨"a", .integer, none, none⟩, .string "2", rfl, rfl, by decide, by decide⟩

/-- An unset key column is lost with the update of another column, and an edited stamp, which the
update does not write, is taken for the key. -/
theorem Session.update_misses_row :
    let e := noteEntity ⟨"a", .integer, none, none⟩ (some (.integer 1)) .unset
    let f := noteEntity ⟨"by", .string, none, some .createdBy⟩ (some (.string "ann"))
      (.set (.string "bob"))
    (e.table.validate = .ok () ∧ annSession.update oneRow e () = ((.ok 1, e.capture), ()) ∧
      e.heldCell? annSession.context "a" = some (.integer 1) ∧
      e.capture.baselineKey = .error (.missingKeyValue "t" "a")) ∧
    f.table.validate = .ok () ∧ annSession.update oneRow f () = ((.ok 1, f.capture), ()) ∧
      f.heldCell? annSession.context "by" = some (.text "ann") ∧
      f.capture.baselineKey = .ok [.string "bob"] ∧
      f.table.stored? "by" (.string "bob") = some (.text "bob") := by
  decide

/-! ## Inserts -/

namespace Entity

/-- The cell that an insert writes into a column. -/
def insertedCell? (e : Entity) (ctx : Context) (column : String) : Option Cell :=
  (e.table.written (e.inserts ctx)).lookup column

end Entity

/-- **When an entity addresses the row that it inserted.** An insert writes the given cells. Where
none of the key cells is null, the delete that follows binds them exactly if the entity has a value
of its own for every key column and, in one that the context fills in, the value that was written. -/
theorem Session.insert_addresses_iff {σ : Type} {x : Storage σ} {u : Session} {e after : Entity}
    {state next : σ} {n : Nat} (hvalid : e.table.validate = .ok ()) (hkey : e.table.hasKey = true)
    (h : u.insert x e state = ((.ok n, after), next))
    (hwritten : ∀ column ∈ e.table.keyColumns, ∃ cell,
      e.insertedCell? u.context column = some cell ∧ cell.isNull = false) :
    x.execute (.ofPieces u.style .insert
        (e.table.insertPieces (e.table.written (e.inserts u.context)))) state = (.ok n, next) ∧
      ((∃ s, e.table.delete u.style after = .ok s ∧
        s.bindings.map some = e.table.keyColumns.map (e.insertedCell? u.context)) ↔
      ∀ column ∈ e.table.keyColumns, ∃ c v,
        e.table.column? column = some c ∧ e.field? column = some (.set v) ∧
          (c.isStamp = true → u.context.input = false →
            e.table.stored? column v = e.insertedCell? u.context column)) := by
  obtain ⟨s, hs, hrun, rfl⟩ := insert_eq_ok h
  obtain rfl := Table.insert_eq_ok hs
  refine ⟨hrun, (Entity.delete_binds_iff (e := e.capture) hkey).trans
    (Entity.addresses_iff.trans (forall₂_congr fun column hcolumn => ?_))⟩
  have hcolumn : column ∈ e.table.keyColumns := hcolumn
  obtain ⟨cell, hcell, hnull⟩ := hwritten column hcolumn
  rw [Entity.baselineField?_capture]
  constructor
  · rintro ⟨v, stored, hf, _, hstored, hinserted⟩
    obtain ⟨c, hc⟩ := Table.declares_of_validate hvalid column hcolumn
    exact ⟨c, v, hc, hf, fun _ _ => hstored.trans hinserted.symm⟩
  · rintro ⟨c, v, hc, hf, hstamp⟩
    have hstored : e.table.stored? column v = e.insertedCell? u.context column := by
      by_cases hfilled : c.isStamp = true ∧ u.context.input = false
      · exact hstamp hfilled.1 hfilled.2
      · obtain ⟨f, hf', hmem⟩ := Entity.field_of_column? hc
        rw [hf] at hf'
        cases hf'
        have hlookup := Entity.lookup_inserts hvalid e.table u.context hmem
        rw [Entity.insertValue?_of_set fun hstamp => by
          rw [← Bool.not_eq_false]; exact fun hinput => hfilled ⟨hstamp, hinput⟩,
          Option.bind_some, Entity.id_of_column? hc] at hlookup
        exact hlookup.symm
    rw [hcell] at hstored
    refine ⟨v, cell, hf, ?_, hstored, hcell⟩
    rintro rfl
    have hisNull := Table.isNull_of_stored? hstored
    rw [hnull] at hisNull
    cases hisNull

/-- A key given as text is the key that was inserted. -/
theorem Session.insert_addresses_iff_text :
    let e := noteEntity ⟨"a", .integer, some (.integer 7), none⟩ none (.set (.string "2"))
    annSession.insert oneRow e () = ((.ok 1, e.capture), ()) ∧
      ∃ s, e.table.delete {} e.capture = .ok s ∧ s.bindings.map some = [some (.integer 2)] := by
  intro e
  have hvalid : e.table.validate = .ok () := by decide
  have hinsert : annSession.insert oneRow e () = ((.ok 1, e.capture), ()) := by decide
  have hwritten : ∀ column ∈ e.table.keyColumns, ∃ cell,
      e.insertedCell? annSession.context column = some cell ∧ cell.isNull = false := by
    intro column hcolumn
    obtain rfl : column = "a" := List.mem_singleton.1 hcolumn
    exact ⟨.integer 2, by decide, rfl⟩
  obtain ⟨_, hiff⟩ := insert_addresses_iff hvalid rfl hinsert hwritten
  refine ⟨hinsert, hiff.2 fun column hcolumn => ?_⟩
  obtain rfl : column = "a" := List.mem_singleton.1 hcolumn
  exact ⟨⟨"a", .integer, some (.integer 7), none⟩, .string "2", rfl, rfl, by decide⟩

/-- A key column that an insert fills in, from the default of the column or from the context, is not
what the delete that follows looks for. -/
theorem Session.insert_misses_row :
    let e := noteEntity ⟨"a", .integer, some (.integer 7), none⟩ none .unset
    let f := noteEntity ⟨"by", .string, none, some .createdBy⟩ none (.set (.string "bob"))
    (e.table.validate = .ok () ∧ annSession.insert oneRow e () = ((.ok 1, e.capture), ()) ∧
      e.insertedCell? annSession.context "a" = some (.integer 7) ∧
      e.table.delete {} e.capture = .error (.missingKeyValue "t" "a")) ∧
    f.table.validate = .ok () ∧ annSession.insert oneRow f () = ((.ok 1, f.capture), ()) ∧
      f.insertedCell? annSession.context "by" = some (.text "ann") ∧
      f.table.delete {} f.capture =
        .ok ⟨.delete, "DELETE FROM \"t\" WHERE \"by\" = ?", [.text "bob"]⟩ := by
  decide

end
end KeyedRows
