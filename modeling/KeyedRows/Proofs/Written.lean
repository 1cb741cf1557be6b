import KeyedRows.Proofs.KeyMatch
import KeyedRows.Proofs.Sql.Address

/-!
# What a write puts into each column

* `Table.written`, `Table.mem_written_iff` : the cells that some assignments put into columns;
* `Entity.field_of_column?` : a declared column has a field, next to it in table order;
* `field?_of_mem_states` : and where ids are distinct, the fields are those of the columns;
* `Entity.lookup_written` : of assignments column by column, what one column gets;
* `lookup_inserts`, `lookup_updates` : the cells that an insert and an update have for a column;
* `isChanged_of_column?` : with a baseline, a column is changed if its two states differ;
* `stored?_of_not_isChanged` : a field that does not count as changed is stored as in the baseline;
* `exists_stored?_of_setClause`, `exists_stored?_of_bindAll` : what is bound has a storage form;
* `Table.WrittenAs`, `forall₂_written` : each cell belongs to its assignment, in order;
* `Table.insert_eq_ok`, `Table.setClause_eq_ok` : the statements of the cells that are written;
* `Table.bindings_insertPieces`, `Table.exists_insert` : what an insert binds, and that it is accepted if
  all of it can be stored.
-/

namespace KeyedRows

/-- The cells that some assignments put into columns, by the ids of the columns. -/
def Table.written (t : Table) (values : Assignments) : List (String × Cell) :=
  values.filterMap fun (c, v) => (t.stored? c.id v).map fun cell => (c.id, cell)

theorem Table.written_append (t : Table) (values values' : Assignments) :
    t.written (values ++ values') = t.written values ++ t.written values' :=
  List.filterMap_append

/-- The cells that are written are storage forms of assignments. -/
theorem Table.mem_written_iff {t : Table} {values : Assignments} {column : String} {cell : Cell} :
    (column, cell) ∈ t.written values ↔
      ∃ c v, (c, v) ∈ values ∧ c.id = column ∧ t.stored? c.id v = some cell := by
  rw [written, List.mem_filterMap]
  constructor
  · rintro ⟨⟨c, v⟩, hmem, hcell⟩
    obtain ⟨stored, hstored, hpair⟩ := Option.map_eq_some_iff.1 hcell
    cases hpair
    exact ⟨c, v, hmem, rfl, hstored⟩
  · rintro ⟨c, v, hmem, rfl, hstored⟩
    exact ⟨(c, v), hmem, Option.map_eq_some_iff.2 ⟨cell, hstored, rfl⟩⟩

theorem lookup_filterMap_of_nodup {α β : Type} {key : α → String} (g : α → Option β) :
    ∀ {l : List α}, (l.map key).Nodup → ∀ {a : α}, a ∈ l →
      (l.filterMap fun a => (g a).map fun b => (key a, b)).lookup (key a) = g a
  | b :: l, hnodup, a, ha => by
    obtain ⟨hb, hl⟩ := List.nodup_cons.1 (List.map_cons ▸ hnodup)
    have hfront : (l.filterMap fun a => (g a).map fun c => (key a, c)).lookup (key b) = none := by
      rw [List.lookup_eq_none_iff]
      intro p hp
      obtain ⟨d, hd, hp⟩ := List.mem_filterMap.1 hp
      obtain ⟨_, _, rfl⟩ := Option.map_eq_some_iff.1 hp
      exact bne_iff_ne.2 fun heq => hb (heq ▸ List.mem_map_of_mem hd)
    rcases List.mem_cons.1 ha with rfl | ha
    · cases hg : g a <;> simp [hg, hfront]
    · have hne : (key a == key b) = false :=
        beq_eq_false_iff_ne.2 fun heq => hb (heq ▸ List.mem_map_of_mem ha)
      have ih := lookup_filterMap_of_nodup g hl ha
      cases hg : g b <;> simp [hg, hne, ih, List.lookup_cons]

/-! ## Fields by column -/

namespace Field

theorem value?_eq_some {f : Field} {v : Value} : f.value? = some v ↔ f = set v ∧ v ≠ .null := by
  cases f with
  | unset => simp [value?]
  | set w =>
    cases w <;> simp only [value?, Option.some.injEq, reduceCtorEq, set.injEq, false_iff, not_and,
      not_not]
    case null => exact fun h => h.symm
    all_goals
      constructor
      · rintro rfl
        exact ⟨rfl, by simp⟩
      · exact And.left

theorem value?_eq_none {f : Field} : f.value? = none ↔ f = unset ∨ f = set .null := by
  cases f with
  | unset => simp [value?]
  | set v => cases v <;> simp [value?]

end Field

namespace Entity

variable {e : Entity}

theorem field_of_column? {column : String} {c : Column} (hc : e.table.column? column = some c) :
    ∃ f, e.field? column = some f ∧ (c, f) ∈ e.states := by
  obtain ⟨i, hi, hcolumn⟩ := Table.position?_of_column? hc
  have hlt : i < e.fields.length := by
    rw [e.fields_length]
    exact (List.getElem?_eq_some_iff.1 hcolumn).1
  have hf : e.fields[i]? = some e.fields[i] := List.getElem?_eq_getElem hlt
  refine ⟨e.fields[i], ?_, ?_⟩
  · rw [field?, hi, Option.bind_some, hf]
  · exact List.mem_of_getElem? (List.getElem?_zip_eq_some.2 ⟨hcolumn, hf⟩)

theorem field?_of_mem_states (hvalid : e.table.validate = .ok ()) {c : Column} {f : Field}
    (hmem : (c, f) ∈ e.states) : e.field? c.id = some f := by
  obtain ⟨i, hi⟩ := List.mem_iff_getElem?.1 hmem
  obtain ⟨hc, hf⟩ := List.getElem?_zip_eq_some.1 hi
  rw [field?, Table.position?_of_getElem? hvalid hc, Option.bind_some, hf]

theorem id_of_column? {t : Table} {column : String} {c : Column} (hc : t.column? column = some c) :
    c.id = column := by
  simpa using List.find?_some hc

theorem baselineField?_capture (column : String) : e.capture.baselineField? column = e.field? column :=
  rfl

theorem map_fst_states (e : Entity) : e.states.map Prod.fst = e.table.columns :=
  List.map_fst_zip (by rw [e.fields_length])

theorem nodup_states (hvalid : e.table.validate = .ok ()) : (e.states.map fun p => p.1.id).Nodup := by
  have hids : (e.states.map fun p => p.1.id) = e.table.columns.map Column.id := by
    rw [← map_fst_states, List.map_map]
    rfl
  rw [hids]
  exact Table.nodup_of_validate hvalid

section
variable (hvalid : e.table.validate = .ok ())
include hvalid

theorem column?_of_mem_states {c : Column} {f : Field} (hmem : (c, f) ∈ e.states) :
    e.table.column? c.id = some c :=
  Table.column?_of_mem hvalid (List.of_mem_zip hmem).1

theorem stored?_of_mem_states {c : Column} {f : Field} (hmem : (c, f) ∈ e.states) (v : Value) :
    e.table.stored? c.id v = c.type.store? v :=
  stored?_of_column? (column?_of_mem_states hvalid hmem) v

theorem mem_written_of_states {values : Assignments}
    (hstates : ∀ c v, (c, v) ∈ values → ∃ f, (c, f) ∈ e.states) {column : String} {cell : Cell} :
    (column, cell) ∈ e.table.written values ↔
      ∃ c v, (c, v) ∈ values ∧ c.id = column ∧ c.type.store? v = some cell := by
  rw [Table.mem_written_iff]
  refine exists_congr fun c => exists_congr fun v => and_congr_right fun hmem => ?_
  obtain ⟨f, hf⟩ := hstates c v hmem
  rw [stored?_of_mem_states hvalid hf]

theorem nodup_filterMap_states {g : Column × Field → Option (Column × Value)}
    (hg : ∀ p q, g p = some q → q.1 = p.1) :
    ((e.states.filterMap g).map fun q => q.1.id).Nodup := by
  have hstates := List.pairwise_map.1 (nodup_states hvalid)
  refine List.pairwise_map.2 (List.pairwise_filterMap.2 (hstates.imp ?_))
  intro p p' hne q hq q' hq'
  rw [hg p q hq, hg p' q' hq']
  exact hne

end

theorem lookup_written (hvalid : e.table.validate = .ok ()) (t : Table)
    (g : Column × Field → Option Value) {c : Column} {f : Field} (hmem : (c, f) ∈ e.states) :
    (t.written (e.states.filterMap fun p => (g p).map fun v => (p.1, v))).lookup c.id =
      (g (c, f)).bind (t.stored? c.id) := by
  have hcells : t.written (e.states.filterMap fun p => (g p).map fun v => (p.1, v)) =
      e.states.filterMap fun p => ((g p).bind (t.stored? p.1.id)).map fun cell => (p.1.id, cell) := by
    rw [Table.written, List.filterMap_filterMap]
    refine List.filterMap_congr fun p _ => ?_
    cases g p <;> rfl
  rw [hcells]
  exact lookup_filterMap_of_nodup (fun p => (g p).bind (t.stored? p.1.id)) (nodup_states hvalid) hmem

theorem lookup_inserts (hvalid : e.table.validate = .ok ()) (t : Table) (ctx : Context) {c : Column}
    {f : Field} (hmem : (c, f) ∈ e.states) :
    (t.written (e.inserts ctx)).lookup c.id = (insertValue? ctx c f).bind (t.stored? c.id) :=
  lookup_written hvalid t (fun p => insertValue? ctx p.1 p.2) hmem

/-- What an update has for a column: the field of a target, or a stamp. -/
def updateValue? (e : Entity) (t : Table) (ctx : Context) (c : Column) (f : Field) : Option Value :=
  match c.stamp with
  | none => if e.isTarget t ctx c then f.assigned? else none
  | some s =>
    if s.onUpdate then some ((if ctx.input then f.assigned? else none).getD (ctx.stampValue s))
    else none

theorem lookup_updates (hvalid : e.table.validate = .ok ()) (t : Table) (ctx : Context) {c : Column}
    {f : Field} (hmem : (c, f) ∈ e.states) :
    (t.written (e.updates t ctx ++ e.updateStamps ctx)).lookup c.id =
      (e.updateValue? t ctx c f).bind (t.stored? c.id) := by
  have htargets : e.updates t ctx = e.states.filterMap fun p =>
      (if e.isTarget t ctx p.1 then p.2.assigned? else none).map fun v => (p.1, v) :=
    List.filterMap_congr fun p _ => by dsimp only; split <;> rfl
  have hstamps : e.updateStamps ctx = e.states.filterMap fun p =>
      (p.1.stamp.bind fun s => if s.onUpdate then
        some ((if ctx.input then p.2.assigned? else none).getD (ctx.stampValue s))
      else none).map fun v => (p.1, v) :=
    List.filterMap_congr fun p _ => by
      dsimp only
      cases p.1.stamp with
      | none => rfl
      | some s => by_cases hs : s.onUpdate = true <;> simp [hs]
  rw [Table.written_append, List.lookup_append, htargets, hstamps,
    lookup_written hvalid t (fun p => if e.isTarget t ctx p.1 then p.2.assigned? else none) hmem,
    lookup_written hvalid t _ hmem]
  unfold updateValue?
  cases hs : c.stamp with
  | none => simp
  | some s =>
    have htarget : e.isTarget t ctx c = false := by simp [isTarget, Column.isStamp, hs]
    rw [htarget]
    rfl

/-- An insert writes a column that is set, a stamp, or not without a default. -/
theorem isSome_insertValue? (ctx : Context) (c : Column) (f : Field) :
    (insertValue? ctx c f).isSome = (f.isSet || c.isStamp || c.default.isSome) := by
  unfold insertValue? Column.isStamp
  cases c.stamp <;> cases f <;> cases ctx.input <;> simp [Field.assigned?, Field.isSet]

theorem insertValue?_of_set {ctx : Context} {c : Column} {v : Value}
    (h : c.isStamp = true → ctx.input = true) : insertValue? ctx c (.set v) = some v := by
  unfold insertValue?
  cases hc : c.stamp with
  | none => rfl
  | some stamp =>
    dsimp only
    rw [if_pos (h (by rw [Column.isStamp, hc, Option.isSome_some]))]
    rfl

theorem mem_inserts {ctx : Context} {c : Column} {v : Value} :
    (c, v) ∈ e.inserts ctx ↔ ∃ f, (c, f) ∈ e.states ∧ insertValue? ctx c f = some v := by
  rw [inserts, List.mem_filterMap]
  constructor
  · rintro ⟨⟨d, f⟩, hmem, hvalue⟩
    obtain ⟨w, hw, hpair⟩ := Option.map_eq_some_iff.1 hvalue
    cases hpair
    exact ⟨f, hmem, hw⟩
  · rintro ⟨f, hmem, hvalue⟩
    exact ⟨(c, f), hmem, Option.map_eq_some_iff.2 ⟨v, hvalue, rfl⟩⟩

/-! ## Change -/

/-- Two states that do not differ are both unset, or both set to values with one storage form. -/
theorem of_differ_eq_false {type : ColumnType} {f g : Field} (h : differ type f g = false) :
    (f = .unset ∧ g = .unset) ∨
      ∃ v w, f = .set v ∧ g = .set w ∧ type.store? v = type.store? w := by
  cases f with
  | unset =>
    cases g with
    | unset => exact .inl ⟨rfl, rfl⟩
    | set w => cases h
  | set v =>
    cases g with
    | unset => cases h
    | set w =>
      refine .inr ⟨v, w, rfl, rfl, ?_⟩
      simp only [differ] at h
      split at h
      · next a b hv hw =>
        have heq : a = b := by simpa using h
        rw [← ColumnType.store?_of_coerce hv, ← ColumnType.store?_of_coerce hw, heq]
      · have heq : v = w := by simpa using h
        rw [heq]

theorem isChanged_of_column? {column : String} {c : Column}
    (hc : e.table.column? column = some c) (hbase : e.baseline ≠ none) :
    ∃ before after, e.baselineField? column = some before ∧ e.field? column = some after ∧
      e.isChanged column = differ c.type before after := by
  obtain ⟨i, hi, hcolumn⟩ := Table.position?_of_column? hc
  obtain ⟨b, hb⟩ := Option.ne_none_iff_exists'.1 hbase
  have hlt : i < e.table.columns.length := (List.getElem?_eq_some_iff.1 hcolumn).1
  obtain ⟨before, hbefore⟩ : ∃ before, b[i]? = some before :=
    ⟨_, List.getElem?_eq_getElem (by rwa [e.baseline_length b hb])⟩
  obtain ⟨after, hafter⟩ : ∃ after, e.fields[i]? = some after :=
    ⟨_, List.getElem?_eq_getElem (by rwa [e.fields_length])⟩
  refine ⟨before, after, ?_, ?_, ?_⟩
  · rw [baselineField?, hi, Option.bind_some, hb, Option.bind_some, hbefore]
  · rw [field?, hi, Option.bind_some, hafter]
  · simp only [isChanged, hi, Option.any_some, changed, hcolumn, hafter, hb, hbefore]

/-- With a baseline, a field that does not count as changed is stored as in the baseline. -/
theorem stored?_of_not_isChanged {column : String} {c : Column} {v : Value}
    (hc : e.table.column? column = some c) (hf : e.field? column = some (.set v))
    (hbase : e.baseline ≠ none) (h : e.isChanged column = false) :
    ∃ w, e.baselineField? column = some (.set w) ∧
      e.table.stored? column w = e.table.stored? column v := by
  obtain ⟨before, after, hbefore, hafter, hdiffer⟩ := isChanged_of_column? hc hbase
  rw [hf, Option.some.injEq] at hafter
  subst hafter
  rw [hdiffer] at h
  rcases of_differ_eq_false h with ⟨_, hunset⟩ | ⟨w, v', rfl, hv, hstore⟩
  · cases hunset
  · cases hv
    refine ⟨w, hbefore, ?_⟩
    rw [stored?_of_column? hc, stored?_of_column? hc, hstore]

end Entity

/-! ## What is bound -/

namespace Table

variable {t : Table} {values : Assignments}

/-- The names and bindings of some assignments are those of the cells that they write. -/
theorem bindAll_eq_ok {bindings : List Piece} (h : t.bindAll values = .ok bindings) :
    values.map (fun p => p.1.id) = (t.written values).map Prod.fst ∧
      bindings = (t.written values).map fun p => .binding p.2 := by
  have hbind := mapM_eq_ok.1 h
  clear h
  induction hbind with
  | nil => exact ⟨rfl, rfl⟩
  | @cons p piece values bindings hp _ ih =>
    obtain ⟨cell, hcell, rfl⟩ := bind_eq_ok.1 hp
    have hwritten : t.written (p :: values) = (p.1.id, cell) :: t.written values :=
      List.filterMap_cons_some (by dsimp only; rw [hcell, Option.map_some])
    rw [hwritten, List.map_cons, List.map_cons, List.map_cons, ih.1, ih.2]
    exact ⟨rfl, rfl⟩

theorem exists_stored?_of_bindAll {bindings : List Piece} (h : t.bindAll values = .ok bindings)
    {c : Column} {v : Value} (hmem : (c, v) ∈ values) : ∃ cell, t.stored? c.id v = some cell := by
  obtain ⟨piece, _, hbind⟩ := exists_of_forall₂ (mapM_eq_ok.1 h).flip hmem
  obtain ⟨cell, hcell, _⟩ := bind_eq_ok.1 hbind
  exact ⟨cell, hcell⟩

theorem exists_stored?_of_setClause {set : List Piece} (h : t.setClause values = .ok set)
    {c : Column} {v : Value} (hmem : (c, v) ∈ values) : ∃ cell, t.stored? c.id v = some cell := by
  obtain ⟨_, hbindings, _⟩ := KeyedRows.bind_eq_ok.1 h
  exact exists_stored?_of_bindAll hbindings hmem

theorem exists_stored?_of_insert {style : Style} {e : Entity} {ctx : Context} {s : Statement}
    (h : t.insert style e ctx = .ok s) {c : Column} {v : Value} (hmem : (c, v) ∈ e.inserts ctx) :
    ∃ cell, t.stored? c.id v = some cell := by
  obtain ⟨_, _, h⟩ := KeyedRows.bind_eq_ok.1 h
  dsimp only at h
  split at h
  · next hempty =>
    rw [List.isEmpty_iff.1 hempty] at hmem
    cases hmem
  · obtain ⟨_, hbindings, _⟩ := KeyedRows.bind_eq_ok.1 h
    exact exists_stored?_of_bindAll hbindings hmem

/-- Each cell is written into the column of its assignment and is the storage form of its value. -/
def WrittenAs (t : Table) (p : Column × Value) (q : String × Cell) : Prop :=
  p.1.id = q.1 ∧ t.stored? p.1.id p.2 = some q.2

theorem forall₂_written (h : ∀ p ∈ values, ∃ cell, t.stored? p.1.id p.2 = some cell) :
    List.Forall₂ t.WrittenAs values (t.written values) := by
  refine forall₂_filterMap_right (List.forall₂_same.2 fun p hp => ?_)
  obtain ⟨cell, hcell⟩ := h p hp
  exact ⟨(p.1.id, cell), by dsimp only; rw [hcell, Option.map_some], rfl, hcell⟩

theorem map_fst_of_forall₂ {cells : List (String × Cell)}
    (h : List.Forall₂ t.WrittenAs values cells) :
    cells.map Prod.fst = values.map fun p => p.1.id :=
  (map_eq_map_of_forall₂ (h.imp fun _ _ hp => hp.1)).symm

/-- Assignments that are bound are written into their columns, in order. -/
theorem map_fst_written (h : ∀ p ∈ values, ∃ cell, t.stored? p.1.id p.2 = some cell) :
    (t.written values).map Prod.fst = values.map fun p => p.1.id :=
  map_fst_of_forall₂ (forall₂_written h)

/-! ## Statements of cells -/

/-- An insert of cells by column. -/
def insertPieces (t : Table) (cells : List (String × Cell)) : List Piece :=
  [.text "INSERT INTO ", .name t.name] ++
    if cells.isEmpty then [.text " DEFAULT VALUES"]
    else .text " (" :: Piece.names (cells.map Prod.fst) ++ .text ") VALUES (" ::
      Piece.commaList (cells.map fun p => [.binding p.2]) ++ [.text ")"]

/-- An update that puts cells into columns, up to its condition. -/
def updatePieces (t : Table) (cells : List (String × Cell)) : List Piece :=
  [.text "UPDATE ", .name t.name, .text " SET "] ++
    Piece.commaList (cells.map fun p => [.name p.1, .text " = ", .binding p.2])

theorem setClause_eq_ok {set : List Piece} (h : t.setClause values = .ok set) :
    set = Piece.commaList ((t.written values).map fun p => [.name p.1, .text " = ", .binding p.2]) := by
  obtain ⟨bindings, hbindings, h⟩ := KeyedRows.bind_eq_ok.1 h
  cases h
  obtain ⟨hids, rfl⟩ := bindAll_eq_ok hbindings
  have hzip : values.zipWith (fun p b => [Piece.name p.1.id, .text " = ", b])
      ((t.written values).map fun p => .binding p.2) =
      (values.map fun p => p.1.id).zipWith (fun id b => [Piece.name id, .text " = ", b])
        ((t.written values).map fun p => .binding p.2) := by
    rw [List.zipWith_map_left]
  rw [hids, List.zipWith_map, List.zipWith_self] at hzip
  rw [← hzip]

theorem written_ne_nil_of_update {style : Style} {e : Entity} {ctx : Context} {s : Statement}
    (h : t.update style e ctx = .ok (some s)) :
    t.written (e.updates t ctx ++ e.updateStamps ctx) ≠ [] := by
  obtain ⟨_, _, _, _, hset, _⟩ := update_eq_ok h
  obtain ⟨_, hbindings, _⟩ := KeyedRows.bind_eq_ok.1 hset
  obtain ⟨hids, _⟩ := bindAll_eq_ok hbindings
  intro hnil
  rw [hnil, List.map_nil, List.map_eq_nil_iff, List.append_eq_nil_iff] at hids
  exact updates_ne_nil_of_update h hids.1

theorem insert_eq_ok {style : Style} {e : Entity} {ctx : Context} {s : Statement}
    (h : t.insert style e ctx = .ok s) :
    s = .ofPieces style .insert (t.insertPieces (t.written (e.inserts ctx))) := by
  obtain ⟨_, _, h⟩ := KeyedRows.bind_eq_ok.1 h
  dsimp only at h
  rw [insertPieces]
  split at h
  · next hempty =>
    cases h
    rw [List.isEmpty_iff.1 hempty]
    rfl
  · next hempty =>
    obtain ⟨bindings, hbindings, h⟩ := KeyedRows.bind_eq_ok.1 h
    cases h
    obtain ⟨hids, rfl⟩ := bindAll_eq_ok hbindings
    have hcells : (t.written (e.inserts ctx)).isEmpty = (e.inserts ctx).isEmpty := by
      have hnil := congrArg List.isEmpty hids
      rw [List.isEmpty_map, List.isEmpty_map] at hnil
      exact hnil.symm
    rw [hcells, if_neg hempty, ← hids, List.map_map]
    rfl

end Table
end KeyedRows
