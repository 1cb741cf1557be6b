import KeyedRows.Batch
import KeyedRows.Proofs.KeyOrder
import KeyedRows.Proofs.Sql.Bind
import KeyedRows.Proofs.Sql.Select

/-!
# Rows whose key starts with a tuple

* `Table.Declares` : every key column is declared, as in a valid table;
* `Table.map_cell_eq`, `Table.column?_of_mem` : in a valid table a row is its cells column by column,
  and every column is found under its id;
* `Entity.field?_of_ofRow`, `Entity.load?_cell` : what a loaded entity has in a column;
* `Table.Matches` : the key columns of a row hold the storage forms of a tuple;
* `isPrefixOf_map_get?` : a loaded row starts with a coerced tuple exactly if its cells match;
* `eval_equalities`, `eval_oneOf` : conditions on the key are true of the rows that match;
* `bindable_equalities`, `bindable_oneOf` : such conditions can be written.
-/

namespace KeyedRows

open Sql

/-! ## Columns and cells -/

namespace Table

def Declares (t : Table) : Prop := ∀ column ∈ t.keyColumns, ∃ c, t.column? column = some c

theorem validate_eq_ok {t : Table} (h : t.validate = .ok ()) :
    firstRepeated? (t.columns.map Column.id) [] = none ∧
      firstUndeclared? t.keyColumns (t.columns.map Column.id) = none := by
  unfold validate at h
  dsimp only at h
  split at h
  · cases h
  · cases h
  · next hr hu => exact ⟨hr, hu⟩

theorem declares_of_validate {t : Table} (h : t.validate = .ok ()) : t.Declares := by
  intro column hcolumn
  have hid := List.find?_eq_none.1 (validate_eq_ok h).2 column hcolumn
  simp only [decide_eq_true_eq, not_not] at hid
  obtain ⟨c, hc, hid⟩ := List.mem_map.1 hid
  cases hfind : t.column? column with
  | some c => exact ⟨c, rfl⟩
  | none =>
    have hne := List.find?_eq_none.1 hfind c hc
    simp [hid] at hne

theorem nodup_of_firstRepeated? : ∀ {ids seen : List String}, firstRepeated? ids seen = none →
    ids.Nodup ∧ ∀ id ∈ ids, id ∉ seen
  | [], _, _ => by simp
  | id :: ids, seen, h => by
    unfold firstRepeated? at h
    split at h
    · cases h
    · next hid =>
      obtain ⟨hnodup, hseen⟩ := nodup_of_firstRepeated? h
      refine ⟨List.nodup_cons.2 ⟨fun hmem => hseen id hmem (by simp), hnodup⟩, fun d hd => ?_⟩
      rcases List.mem_cons.1 hd with rfl | hd
      · exact hid
      · exact fun hmem => hseen d hd (List.mem_cons_of_mem _ hmem)

theorem nodup_of_validate {t : Table} (h : t.validate = .ok ()) :
    (t.columns.map Column.id).Nodup :=
  (nodup_of_firstRepeated? (validate_eq_ok h).1).1

theorem position?_of_getElem? {t : Table} (h : t.validate = .ok ()) {i : Nat} {c : Column}
    (hc : t.columns[i]? = some c) : t.position? c.id = some i := by
  obtain ⟨hi, rfl⟩ := List.getElem?_eq_some_iff.1 hc
  refine List.findIdx?_eq_some_iff_getElem.2 ⟨hi, by simp, fun j hj hid => ?_⟩
  have hne := List.nodup_iff_getElem?_ne_getElem?.1 (nodup_of_validate h) j i hj (by simpa)
  have hlt : j < t.columns.length := by omega
  rw [List.getElem?_map, List.getElem?_map, List.getElem?_eq_getElem hlt,
    List.getElem?_eq_getElem hi] at hne
  exact hne (congrArg some (by simpa using hid))

theorem map_cell_eq {t : Table} (h : t.validate = .ok ()) {row : Row}
    (hlength : row.length = t.columns.length) : (t.columns.map Column.id).map (t.cell row) = row := by
  refine List.ext_getElem (by simp [hlength]) fun i hi hrow => ?_
  have hcolumn : i < t.columns.length := by omega
  have hposition := position?_of_getElem? h (List.getElem?_eq_getElem hcolumn)
  simp only [List.getElem_map, cell, hposition, Option.bind_some]
  rw [List.getElem?_eq_getElem hrow, Option.getD_some]

theorem column?_of_mem {t : Table} (h : t.validate = .ok ()) {c : Column} (hc : c ∈ t.columns) :
    t.column? c.id = some c := by
  obtain ⟨d, hd⟩ : ∃ d, t.column? c.id = some d :=
    Option.isSome_iff_exists.1 (List.find?_isSome.2 ⟨c, hc, by simp⟩)
  have hid : d.id = c.id := by simpa using List.find?_some hd
  rw [hd, List.inj_on_of_nodup_map (nodup_of_validate h) (List.mem_of_find?_eq_some hd) hc hid]

theorem position?_of_column? {t : Table} {column : String} {c : Column}
    (h : t.column? column = some c) : ∃ i, t.position? column = some i ∧ t.columns[i]? = some c := by
  rw [column?, List.find?_eq_bind_findIdx?_getElem?] at h
  exact Option.bind_eq_some_iff.1 h

end Table

/-! ## Loaded entities -/

namespace Entity

theorem forall₂_of_loadFields {columns : List Column} {row : Row} {fields : List Field}
    (h : loadFields columns row = .ok fields) :
    List.Forall₂ (fun p f => ∃ v, p.1.type.load p.2 = .ok v ∧ f = .set v) (columns.zip row) fields := by
  induction columns generalizing row fields with
  | nil =>
    cases h
    exact .nil
  | cons c columns ih =>
    cases row with
    | nil =>
      cases h
      exact .nil
    | cons cell row =>
      obtain ⟨v, hv, h⟩ := bind_eq_ok.1 h
      obtain ⟨rest, hrest, h⟩ := bind_eq_ok.1 h
      cases h
      exact .cons ⟨v, hv, rfl⟩ (ih hrest)

theorem load?_of_loadFields {columns : List Column} {row : Row} {fields : List Field}
    (h : loadFields columns row = .ok fields) {i : Nat} {c : Column} {cell : Cell}
    (hc : columns[i]? = some c) (hcell : row[i]? = some cell) :
    ∃ v, c.type.load? cell = some v ∧ fields[i]? = some (.set v) := by
  have hpair : (columns.zip row)[i]? = some (c, cell) := List.getElem?_zip_eq_some.2 ⟨hc, hcell⟩
  obtain ⟨f, hf, v, hv, rfl⟩ := exists_getElem?_of_forall₂ (forall₂_of_loadFields h) hpair
  exact ⟨v, ColumnType.load_eq_ok.1 hv, hf⟩

theorem ofRow_eq_ok {t : Table} {row : Row} {e : Entity} (h : ofRow t row = .ok e) :
    e.table = t ∧ row.length = t.columns.length ∧ loadFields t.columns row = .ok e.fields := by
  unfold ofRow at h
  split at h
  · next hlength =>
    split at h
    · next fields hfields => cases h; exact ⟨rfl, hlength, hfields⟩
    · cases h
  · cases h

theorem field?_of_ofRow {t : Table} {row : Row} {e : Entity} (h : ofRow t row = .ok e)
    {column : String} {c : Column} (hc : t.column? column = some c) :
    ∃ v, e.field? column = some (.set v) ∧ c.type.load? (t.cell row column) = some v := by
  obtain ⟨htable, hlength, hfields⟩ := ofRow_eq_ok h
  obtain ⟨i, hi, hcolumn⟩ := Table.position?_of_column? hc
  have hlt : i < row.length := by
    rw [hlength]
    exact (List.getElem?_eq_some_iff.1 hcolumn).1
  have hcell : row[i]? = some row[i] := List.getElem?_eq_getElem hlt
  obtain ⟨v, hv, hf⟩ := load?_of_loadFields hfields hcolumn hcell
  refine ⟨v, ?_, ?_⟩
  · rw [field?, htable, hi, Option.bind_some, hf]
  · rw [Table.cell, hi, Option.bind_some, hcell, Option.getD_some, hv]

theorem load?_cell {t : Table} {row : Row} {e : Entity} (h : ofRow t row = .ok e) {column : String}
    {c : Column} (hc : t.column? column = some c) :
    c.type.load? (t.cell row column) = some ((e.get? column).getD .null) := by
  obtain ⟨v, hf, hload⟩ := field?_of_ofRow h hc
  rw [hload, get?, hf, Option.bind_some]
  cases v <;> rfl

end Entity

/-! ## Tuples against rows -/

/-- Each value of a tuple is coerced by its column; columns may be left over. -/
inductive Table.Coerces (t : Table) : List String → List Value → List Value → Prop
  | nil (columns : List String) : t.Coerces columns [] []
  | cons {column : String} {columns : List String} {v w : Value} {values coerced : List Value}
    {c : Column} (hc : t.column? column = some c) (hw : c.type.coerce v = .ok w)
    (hrest : t.Coerces columns values coerced) :
    t.Coerces (column :: columns) (v :: values) (w :: coerced)

/-- The columns of a row hold the storage forms of a tuple, null being held as null. -/
def Table.Matches (t : Table) (row : Row) : List String → List Value → Prop
  | column :: columns, v :: values =>
    t.stored? column v = some (t.cell row column) ∧ t.Matches row columns values
  | _, _ => True

section
variable {t : Table} {row : Row}

theorem stored?_of_column? {column : String} {c : Column} (hc : t.column? column = some c)
    (v : Value) : t.stored? column v = c.type.store? v := by
  rw [Table.stored?, hc, Option.bind_some]

/-- Coercion does not change which rows match. -/
theorem matches_of_coerces {columns : List String} {values coerced : List Value}
    (h : t.Coerces columns values coerced) :
    t.Matches row columns coerced ↔ t.Matches row columns values := by
  induction h with
  | nil => rfl
  | cons hc hw _ ih =>
    rw [Table.Matches, Table.Matches, stored?_of_column? hc, stored?_of_column? hc,
      ColumnType.store?_of_coerce hw, ih]

/-- A loaded row starts with a coerced tuple exactly if its cells match the tuple. The induction is
on the tuple; each column is a case of `ColumnType.coerce_eq_iff`. -/
theorem isPrefixOf_map_get? {e : Entity} (he : Entity.ofRow t row = .ok e) {columns : List String}
    {values coerced : List Value} (h : t.Coerces columns values coerced)
    (hcanonical : ∀ column ∈ columns, ∀ c, t.column? column = some c →
      c.type.Canonical (t.cell row column)) :
    coerced.isPrefixOf (columns.map fun column => (e.get? column).getD .null) = true ↔
      t.Matches row columns values := by
  induction h with
  | nil columns => cases columns <;> simp [Table.Matches]
  | @cons column columns v w values coerced c hc hw _ ih =>
    have hrest := ih fun d hd => hcanonical d (List.mem_cons_of_mem _ hd)
    have hhead := ColumnType.coerce_eq_iff (hcanonical column (by simp) c hc)
      (Entity.load?_cell he hc) hw
    rw [List.map_cons, List.isPrefixOf_cons_cons, Bool.and_eq_true, beq_iff_eq, hrest, hhead,
      Table.Matches, stored?_of_column? hc]

end

/-! ## Conditions on the key -/

/-- A floating-point number, the one kind of cell that is no storage form. -/
def Cell.isReal : Cell → Bool
  | real _ => true
  | _ => false

/-- Equality in the given columns is equality of cells, apart from floating-point numbers, of which
some equal nothing. -/
def Sql.Collation.Exact (k : Collation) (columns : List String) : Prop :=
  ∀ column ∈ columns, ∀ a b : Cell, a.isReal = false → b.isReal = false →
    (k.order (some column) a b = .eq ↔ a = b)

theorem Sql.Collation.Exact.mono {k : Collation} {columns columns' : List String}
    (h : k.Exact columns) (hsub : columns' ⊆ columns) : k.Exact columns' :=
  fun column hcolumn => h column (hsub hcolumn)

theorem ColumnType.isReal_of_store? {type : ColumnType} {v : Value} {cell : Cell}
    (h : type.store? v = some cell) : cell.isReal = false := by
  by_cases hv : v = .null
  · rw [hv, store?_null] at h
    cases h
    rfl
  · have hform := form_of_store? h hv
    cases type <;> obtain ⟨_, rfl⟩ := hform <;> rfl

theorem ColumnType.Canonical.isReal_eq {type : ColumnType} {cell : Cell} (h : type.Canonical cell) :
    cell.isReal = false := by
  obtain ⟨v, _, hs⟩ := h
  exact isReal_of_store? hs

section
variable {t : Table} {k : Collation} {style : Style} {row : String → Cell}

theorem Table.isReal_of_stored? {column : String} {v : Value} {cell : Cell}
    (h : t.stored? column v = some cell) : cell.isReal = false := by
  obtain ⟨c, _, hs⟩ := Option.bind_eq_some_iff.1 h
  exact ColumnType.isReal_of_store? hs

theorem Table.isNull_of_stored? {column : String} {v : Value} {cell : Cell}
    (h : t.stored? column v = some cell) : cell.isNull = v.isNull := by
  obtain ⟨c, _, hs⟩ := Option.bind_eq_some_iff.1 h
  exact ColumnType.isNull_of_store? hs

theorem test_eq_yes_iff {column : String} {v : Value} {cell : Cell}
    (hexact : k.Exact [column]) (hrow : (row column).isReal = false)
    (h : t.stored? column v = some cell) (hv : v.isNull = false) :
    (View.ofCells k t style row).test .eq column v = .yes ↔ cell = row column := by
  have hcell : cell.isNull = false := by rw [Table.isNull_of_stored? h, hv]
  rw [View.test_eq_eq_yes, h]
  simp only [Option.some.injEq, exists_eq_left', hcell, true_and]
  rw [hexact column (by simp) (row column) cell hrow (Table.isReal_of_stored? h)]
  constructor
  · exact fun hsame => hsame.2.symm
  · rintro rfl
    exact ⟨hcell, rfl⟩

theorem eval_eq_yes_iff {column : String} {v : Value} {cell : Cell} (hexact : k.Exact [column])
    (hrow : (row column).isReal = false) (h : t.stored? column v = some cell) :
    (Predicate.eq column v).eval (.ofCells k t style row) = .yes ↔ cell = row column := by
  unfold Predicate.eq
  cases hv : v.isNull with
  | true =>
    have hcell : cell = .null := by
      have hnull : cell.isNull = true := by rw [Table.isNull_of_stored? h, hv]
      cases cell <;> cases hnull
      rfl
    subst hcell
    show Truth.ofBool (row column).isNull = .yes ↔ _
    rw [Truth.ofBool_eq_yes]
    cases hcell : row column <;> simp [Cell.isNull]
  | false =>
    rw [if_neg (by simp), Predicate.eval, test_eq_yes_iff hexact hrow h hv]

/-- Each value of a tuple has a storage form in its column. -/
def Table.BindsAll (t : Table) : List String → List Value → Prop
  | column :: columns, v :: values => t.Binds column v ∧ t.BindsAll columns values
  | _, _ => True

theorem Table.Coerces.length_eq {columns : List String} {values coerced : List Value}
    (h : t.Coerces columns values coerced) : coerced.length = values.length := by
  induction h with
  | nil => rfl
  | cons _ _ _ ih => rw [List.length_cons, ih, List.length_cons]

theorem Table.Coerces.bindsAll {columns : List String} {values coerced : List Value}
    (h : t.Coerces columns values coerced) :
    t.BindsAll columns values ∧ t.BindsAll columns coerced := by
  induction h with
  | nil columns => cases columns <;> exact ⟨trivial, trivial⟩
  | cons hc hw _ ih =>
    obtain ⟨cell, hs, _⟩ := ColumnType.coerce_eq_ok.1 hw
    have hv : t.Binds _ _ := ⟨cell, by rw [stored?_of_column? hc, hs]⟩
    have hw' : t.Binds _ _ := ⟨cell, by rw [stored?_of_column? hc, ColumnType.store?_of_coerce hw, hs]⟩
    exact ⟨⟨hv, ih.1⟩, hw', ih.2⟩

end

/-! ## Equality with tuples -/

namespace KeyRange

section
variable {t : Table} {k : Collation} {style : Style} {row : Row}

/-- The equalities of a tuple are true of the rows that match it. The induction is on the tuple,
along the columns of the key. -/
theorem all_eval_equalities : ∀ {key : Key} {values : List Value},
    k.Exact (key.map KeyPart.column) →
      (∀ column ∈ key.map KeyPart.column, (t.cell row column).isReal = false) →
        t.BindsAll (key.map KeyPart.column) values →
          (.all ((equalities key values).map (Predicate.eval (.ofCells k t style (t.cell row)))) =
            Truth.yes ↔ t.Matches row (key.map KeyPart.column) values)
  | [], values, _, _, _ => by simp [equalities, Table.Matches]
  | part :: key, [], _, _, _ => by simp [equalities, Table.Matches]
  | part :: key, v :: values, hexact, hreal, hbinds => by
    obtain ⟨⟨cell, hcell⟩, hrest⟩ := hbinds
    have ih := all_eval_equalities (hexact.mono (List.subset_cons_self _ _))
      (fun c hc => hreal c (List.mem_cons_of_mem _ hc)) hrest
    have hhead : (Predicate.eq part.column v).eval (.ofCells k t style (t.cell row)) = .yes ↔
        cell = t.cell row part.column :=
      eval_eq_yes_iff (hexact.mono (by simp)) (hreal part.column (by simp)) hcell
    have hzip : equalities (part :: key) (v :: values) =
        .eq part.column v :: equalities key values := rfl
    rw [hzip, List.map_cons, Truth.all_cons, Truth.and_eq_yes, ih, hhead, List.map_cons,
      Table.Matches, hcell, Option.some.injEq]

theorem eval_equalities {key : Key} {values : List Value} (hexact : k.Exact (key.map KeyPart.column))
    (hreal : ∀ column ∈ key.map KeyPart.column, (t.cell row column).isReal = false)
    (hbinds : t.BindsAll (key.map KeyPart.column) values) :
    (Predicate.all (equalities key values)).eval (.ofCells k t style (t.cell row)) = .yes ↔
      t.Matches row (key.map KeyPart.column) values := by
  rw [Predicate.eval_all, all_eval_equalities hexact hreal hbinds]

/-- The condition of several tuples is true of the rows that match one of them, also where it is a
list of values. -/
theorem eval_oneOf {key : Key} {tuples : List (List Value)}
    (hexact : k.Exact (key.map KeyPart.column))
    (hreal : ∀ column ∈ key.map KeyPart.column, (t.cell row column).isReal = false)
    (hbinds : ∀ values ∈ tuples, t.BindsAll (key.map KeyPart.column) values) :
    (oneOf key tuples).eval (.ofCells k t style (t.cell row)) = .yes ↔
      ∃ values ∈ tuples, t.Matches row (key.map KeyPart.column) values := by
  rw [eval_oneOf_eq, Truth.any_eq_yes, List.mem_map]
  constructor
  · rintro ⟨tuple, htuple, hyes⟩
    exact ⟨tuple, htuple, (eval_equalities hexact hreal (hbinds tuple htuple)).1 hyes⟩
  · rintro ⟨tuple, htuple, hmatch⟩
    exact ⟨tuple, htuple, (eval_equalities hexact hreal (hbinds tuple htuple)).2 hmatch⟩

/-! ## Writing them -/

theorem bindable_equalities : ∀ {key : Key} {values : List Value},
    t.BindsAll (key.map KeyPart.column) values → ∀ p ∈ equalities key values, p.Bindable t
  | [], _, _, _, hp => by simp [equalities] at hp
  | _ :: _, [], _, _, hp => by simp [equalities] at hp
  | part :: key, v :: values, ⟨hv, hrest⟩, p, hp => by
    have hzip : equalities (part :: key) (v :: values) =
        .eq part.column v :: equalities key values := rfl
    rw [hzip, List.mem_cons] at hp
    rcases hp with rfl | hp
    · exact Predicate.bindable_eq hv
    · exact bindable_equalities hrest p hp

theorem bindable_oneOf {key : Key} {tuples : List (List Value)}
    (hbinds : ∀ values ∈ tuples, t.BindsAll (key.map KeyPart.column) values) :
    (oneOf key tuples).Bindable t := by
  unfold oneOf
  split
  · next part key values hvalues =>
    intro v hv
    obtain ⟨tuple, htuple, hsame⟩ := exists_of_forall₂ (mapM_eq_some.1 hvalues) hv
    obtain ⟨rfl, _⟩ := eq_of_single? hsame
    exact (hbinds _ htuple).1
  · refine Predicate.bindable_merge .or fun p hp => ?_
    obtain ⟨tuple, htuple, rfl⟩ := List.mem_map.1 hp
    exact Predicate.bindable_merge .and (bindable_equalities (hbinds tuple htuple))

end
end KeyRange
end KeyedRows
