import KeyedRows.Proofs.Sql.RangeSlots
import KeyedRows.Proofs.Written

/-!
# Bindings beside their placeholders

* `KeyRange.Gives` : the slots that a range has for the columns of a key;
* `stands_where`, `stands_order`, `stands_limit` : the clauses of a query with their placeholders;
* `lays_insertPieces` : an insert, where the values stand in the order of the names;
* `slots_keyPredicate`, `slots_updateCondition` : the slots of the condition of a write;
* `Statement.LinesUp` : as many placeholders as bindings, and each binding belongs to the place of
  its placeholder;
* `statements_lineUp` : so it is in every statement of a table.
-/

namespace KeyedRows

open Sql

/-! ## Ranges -/

namespace KeyRange

/-- The slot is a component of the range beside its key column. -/
def Gives (range : KeyRange) (key : Key) : Slot → Prop
  | .column id v =>
    ∃ values ∈ range.tuples, ∃ part, (part, v) ∈ key.zip values ∧ part.column = id
  | .pattern id v =>
    ∃ values part, range = .like values ∧ (part, v) ∈ key.zip values ∧ part.column = id
  | .limit _ => False

/-- Every value in the condition of a range is one that the range gives for its column. -/
theorem gives_of_predicate? {range : KeyRange} {key : Key} {p : Predicate}
    (h : range.predicate? key = some p) : ∀ slot ∈ p.slots, range.Gives key slot := by
  intro slot hmem
  rw [mem_slots_iff h, List.mem_append, List.mem_map, List.mem_map] at hmem
  rcases hmem with ⟨q, hq, rfl⟩ | ⟨q, hq, rfl⟩
  · obtain ⟨values, hvalues, hzip⟩ := exists_tuple_of_compared hq
    exact ⟨values, hvalues, q.1, hzip, rfl⟩
  · obtain ⟨values, hrange, hzip⟩ := exists_like_of_matched hq
    exact ⟨values, q.1, hrange, hzip, rfl⟩

end KeyRange

/-! ## Clauses -/

namespace Table

section
variable {t : Table} {style : Style} (hquote : style.quoteNames = true)
include hquote

theorem lays_names (ids : List String) (c : Cursor) :
    ∃ c', Lays t style true (Piece.names ids) c [] c' ∧ c'.names = c.names ++ ids := by
  have hitems : List.Forall₂ (fun id ps => ps = [Piece.name id]) ids (ids.map fun id => [.name id]) := by
    rw [List.forall₂_map_right_iff]
    exact List.forall₂_same.2 fun _ _ => rfl
  obtain ⟨c', hlays, hnames⟩ : ∃ c', Lays t style true (Piece.names ids) c
      (ids.flatMap fun _ => []) c' ∧ c'.names ++ [] = c.names ++ ids :=
    Lays.commaList (I := fun rest c' => c'.names ++ rest = c.names ++ ids) (by
      rintro id ps rest c' rfl hI
      refine ⟨_, Lays.name hquote id, ?_⟩
      rw [← hI, Cursor.beside, List.append_assoc, List.singleton_append]) hitems rfl
  rw [List.flatMap_eq_nil_iff.2 fun _ _ => rfl] at hlays
  exact ⟨c', hlays, by simpa using hnames⟩

theorem stands_name (id : String) : Stands t style [.name id] [] := fun _ => ⟨_, Lays.name hquote id⟩

theorem stands_where {p : Option Predicate} {ps : List Piece} (h : t.whereClause style p = .ok ps) :
    Stands t style ps (p.elim [] Predicate.slots) ∧ StaysFresh style ps := by
  cases p with
  | none =>
    cases h
    exact ⟨stands_nil, staysFresh_nil⟩
  | some p =>
    obtain ⟨qs, hqs, h⟩ := KeyedRows.bind_eq_ok.1 h
    cases h
    have hword (c : Cursor) : Lays t style false [.text " WHERE "] c [] c :=
      Lays.text_of ["WHERE".toList] (by decide) rfl
    exact ⟨Stands.text_append (fun c => ⟨c, hword c⟩) (Predicate.stands_pieces hquote hqs),
      (startsFresh_text rfl (by decide) qs).stays⟩

theorem stands_direction (id : String) (d : Direction) :
    Stands t style [.name id, .text (" " ++ d.keyword)] [] := by
  cases d with
  | ascending => exact Predicate.stands_words hquote id [] (w := "ASC".toList) (by decide) rfl
  | descending => exact Predicate.stands_words hquote id [] (w := "DESC".toList) (by decide) rfl

theorem stands_order (reverse : Bool) :
    Stands t style (t.orderClause reverse) [] ∧ StaysFresh style (t.orderClause reverse) := by
  unfold orderClause
  split
  · have hword (c : Cursor) : Lays t style false [.text " ORDER BY "] c [] c :=
      Lays.text_of ["ORDER".toList, "BY".toList] (by decide) rfl
    have hparts : Stands t style (Piece.commaList (t.key.map fun part =>
        let direction := if reverse then part.direction.reversed else part.direction
        [.name part.column, .text (" " ++ direction.keyword)])) (t.key.flatMap fun _ => []) := by
      refine Stands.commaList ?_ rfl
      rw [List.forall₂_map_right_iff]
      exact List.forall₂_same.2 fun part _ => stands_direction hquote part.column _
    rw [List.flatMap_eq_nil_iff.2 fun _ _ => rfl] at hparts
    exact ⟨Stands.text_append (fun c => ⟨c, hword c⟩) hparts, (startsFresh_text rfl (by decide) _).stays⟩
  · exact ⟨stands_nil, staysFresh_nil⟩

omit hquote in
theorem stands_limit (limit : Option Nat) :
    Stands t style (limitClause limit) (limit.toList.map .limit) ∧
      StaysFresh style (limitClause limit) := by
  cases limit with
  | none => exact ⟨stands_nil, staysFresh_nil⟩
  | some n =>
    have hword (c : Cursor) : Lays t style false [.text " LIMIT "] c [] (c.words ["LIMIT".toList]) :=
      Lays.text_of ["LIMIT".toList] (by decide) rfl
    have hplace (c : Cursor) : (c.words ["LIMIT".toList]).place? = some .limit := by
      rw [Cursor.words_limit, Cursor.place?]
    have hbinding (c : Cursor) :
        Lays t style true [.binding (limitCell n)] (c.words ["LIMIT".toList]) [.limit n] _ :=
      Lays.binding (hplace c) rfl
    exact ⟨fun c => ⟨_, (hword c).append (hbinding c) (by simp)⟩,
      (startsFresh_text rfl (by decide) _).stays⟩

end
end Table

/-! ## Values that are written -/

/-- The values that come next belong to the names, in order. -/
def Sql.Cursor.Awaits (c : Cursor) (ids : List String) : Prop :=
  ∃ k, c.spot = .value k ∧ c.names.drop k = ids

section
variable {c : Cursor} {id : String} {ids : List String}

theorem Sql.Cursor.Awaits.place?_eq (h : c.Awaits (id :: ids)) : c.place? = some (.column id) := by
  obtain ⟨k, hspot, hnames⟩ := h
  have hid : c.names[k]? = some id := by rw [← List.head?_drop, hnames, List.head?_cons]
  rw [Cursor.place?, hspot]
  dsimp only
  rw [hid, Option.map_some]

theorem Sql.Cursor.Awaits.next (h : c.Awaits (id :: ids)) : (c.next (.mark [])).Awaits ids := by
  obtain ⟨k, hspot, hnames⟩ := h
  have hnext : c.next (.mark []) = { c with spot := .value (k + 1) } := by rw [Cursor.next, hspot]
  rw [hnext]
  refine ⟨k + 1, rfl, ?_⟩
  rw [← List.tail_drop, hnames, List.tail_cons]

end

def Assignments.slots (values : Assignments) : List Slot := values.map fun (c, v) => .column c.id v

namespace Table

section
variable {t : Table} {style : Style} {values : Assignments}

/-- The values of an insert, where the cursor awaits those of its columns. -/
theorem lays_values {cells : List (String × Cell)} (h : List.Forall₂ t.WrittenAs values cells)
    {c : Cursor} (hc : c.Awaits (values.map fun p => p.1.id)) :
    ∃ c', Lays t style true (Piece.commaList (cells.map fun q => [.binding q.2])) c values.slots c' := by
  have hitems : List.Forall₂ (fun p ps => ∃ cell, t.stored? p.1.id p.2 = some cell ∧
      ps = [Piece.binding cell]) values (cells.map fun q => [.binding q.2]) := by
    rw [List.forall₂_map_right_iff]
    exact h.imp fun p q hpq => ⟨q.2, hpq.2, rfl⟩
  obtain ⟨c', hlays, _⟩ : ∃ c', Lays t style true
      (Piece.commaList (cells.map fun q => [.binding q.2])) c
      (values.flatMap fun p => [.column p.1.id p.2]) c' ∧ c'.Awaits [] :=
    Lays.commaList (I := fun (rest : Assignments) c' => c'.Awaits (rest.map fun p => p.1.id)) (by
      rintro p ps rest c' ⟨cell, hcell, rfl⟩ hawaits
      exact ⟨_, Lays.binding hawaits.place?_eq hcell, hawaits.next⟩) hitems hc
  rw [← List.map_eq_flatMap] at hlays
  exact ⟨c', hlays⟩

theorem lays_insertPieces (hquote : style.quoteNames = true) {cells : List (String × Cell)}
    (h : List.Forall₂ t.WrittenAs values cells) :
    ∃ c', Lays t style true (t.insertPieces cells) {} values.slots c' := by
  have hinto : Lays t style false [.text "INSERT INTO "] {} [] {} :=
    Lays.text_of ["INSERT".toList, "INTO".toList] (by decide) rfl
  have hhead : Lays t style true [.text "INSERT INTO ", .name t.name] {} [] _ :=
    hinto.append (Lays.name hquote t.name) (by simp)
  unfold insertPieces
  split
  · next hempty =>
    rw [List.isEmpty_iff.1 hempty, List.forall₂_nil_right_iff] at h
    subst h
    exact ⟨_, hhead.append_text (Lays.words_of ["DEFAULT".toList] (w := "VALUES".toList) (by decide) rfl)
      rfl (by decide)⟩
  · have hopen (c : Cursor) : Lays t style false [.text " ("] c [] c := Lays.text_of [] (by decide) rfl
    obtain ⟨c, hids, hnames⟩ := lays_names (t := t) hquote (cells.map Prod.fst)
      (({} : Cursor).beside t.name)
    have hvalues : Lays t style false [.text ") VALUES ("] c [] (c.words ["VALUES".toList]) :=
      Lays.text_of ["VALUES".toList] (by decide) rfl
    have hawaits : (c.words ["VALUES".toList]).Awaits (values.map fun p => p.1.id) := by
      refine ⟨1, rfl, ?_⟩
      rw [← map_fst_of_forall₂ h]
      exact congrArg (List.drop 1) hnames
    obtain ⟨c', hlist⟩ : ∃ c', Lays t style true
        (Piece.commaList (cells.map fun q => [.binding q.2])) _ values.slots c' := lays_values h hawaits
    have hclose : Lays t style false [.text ")"] c' [] c' := Lays.text_of [] (by decide) rfl
    have hcolumns := hhead.append_text ((hopen _).append hids (by simp)) rfl (by decide)
    have hrow := (hvalues.append hlist (by simp)).append_text hclose rfl (by decide)
    exact ⟨c', by simpa using (hcolumns.append_text hrow rfl (by decide)).opened⟩

theorem stands_assignments (hquote : style.quoteNames = true) {cells : List (String × Cell)}
    (h : List.Forall₂ t.WrittenAs values cells) :
    Stands t style (Piece.commaList (cells.map fun q => [.name q.1, .text " = ", .binding q.2]))
      values.slots := by
  refine Stands.commaList (g := fun p : Column × Value => [.column p.1.id p.2]) ?_
    List.map_eq_flatMap.symm
  rw [List.forall₂_map_right_iff]
  refine h.imp fun p q hpq c => ?_
  rw [← hpq.1]
  exact ⟨_, lays_operands hquote [] (by decide) rfl (.column p.1.id p.2) (c.place?_beside _) hpq.2⟩

/-! ## Conditions of writes -/

def keySlots (t : Table) (keys : List Value) : List Slot :=
  (t.keyColumns.zip keys).map fun (column, v) => .column column v

/-- The slots of the condition of an update: those of the key and, where only changes count, those
of the new values that are not null. -/
def conditionSlots (t : Table) (ctx : Context) (keys : List Value) (targets : Assignments) :
    List Slot :=
  t.keySlots keys ++
    if ctx.diffOnly then Assignments.slots (targets.filter fun p => !p.2.isNull) else []

theorem slots_keyPredicate {keys : List Value} (h : ∀ v ∈ keys, v.isNull = false) :
    (t.keyPredicate keys).slots = t.keySlots keys := by
  rw [keyPredicate, Predicate.slots_all, zipWith_eq t.keyColumns h, List.flatMap_map, keySlots,
    List.map_eq_flatMap]
  rfl

theorem slots_differs (c : Column) (v : Value) :
    (differs c v).slots = if v.isNull then [] else [.column c.id v] := by
  unfold differs
  split
  · rfl
  · rw [Predicate.slots_any]
    rfl

theorem slots_updateCondition {ctx : Context} {keys : List Value}
    (h : ∀ v ∈ keys, v.isNull = false) (targets : Assignments) :
    (t.updateCondition ctx keys targets).slots = t.conditionSlots ctx keys targets := by
  have hguard : (Predicate.any (targets.map fun (c, v) => differs c v)).slots =
      Assignments.slots (targets.filter fun p => !p.2.isNull) := by
    rw [Predicate.slots_any, List.flatMap_map, Assignments.slots]
    induction targets with
    | nil => rfl
    | cons p targets ih =>
      rw [List.flatMap_cons, ih, slots_differs, List.filter_cons]
      cases p.2.isNull <;> rfl
  rw [updateCondition, Predicate.slots_all, List.flatMap_cons, slots_keyPredicate h, conditionSlots]
  split
  · rw [List.flatMap_singleton, hguard]
  · rfl

end
end Table

/-! ## Statements -/

/-- The text of the statement has one placeholder for each binding. The placeholders are those of
the slots, numbered from one, and each binding is the cell of its slot. -/
structure Statement.LinesUp (s : Statement) (t : Table) (style : Style) (slots : List Slot) : Prop where
  count : s.placeholders.length = s.bindings.length
  placeholders : s.placeholders = marks style 1 slots
  bindings : List.Forall₂ (fun slot cell => slot.cell? t = some cell) slots s.bindings

section
variable {t : Table} {style : Style}

theorem Sql.Lays.linesUp {b : Bool} {ps : List Piece} {slots : List Slot} {c : Cursor}
    (h : Lays t style b ps {} slots c) (kind : StatementKind) :
    (Statement.ofPieces style kind ps).LinesUp t style slots := by
  have htext := h.text 1 [] fun _ => fresh_nil
  have hend : placed c (scan .between []) = [] := rfl
  rw [hend, List.append_nil, List.append_nil] at htext
  have hmarks : (Statement.ofPieces style kind ps).placeholders = marks style 1 slots := by
    rw [Statement.placeholders, Statement.ofPieces, String.toList_ofList, htext]
  refine ⟨?_, hmarks, h.cells⟩
  rw [hmarks, marks, List.length_map, List.length_zipIdx]
  exact h.cells.length_eq

theorem Sql.Stands.linesUp {ps : List Piece} {slots : List Slot} (h : Stands t style ps slots)
    (kind : StatementKind) : (Statement.ofPieces style kind ps).LinesUp t style slots := by
  obtain ⟨_, hlays⟩ := h {}
  exact hlays.linesUp kind

end

namespace Table

/-- The slots of a query: those of its condition and its limit. -/
def querySlots (p : Option Predicate) (limit : Option Nat) : List Slot :=
  p.elim [] Predicate.slots ++ limit.toList.map .limit

section
variable {t : Table} {style : Style} (hquote : style.quoteNames = true) {s : Statement}
include hquote

theorem selectWhere_linesUp {p : Option Predicate} {limit : Option Nat} {reverse : Bool}
    (h : t.selectWhere style p limit reverse = .ok s) : s.LinesUp t style (querySlots p limit) := by
  obtain ⟨ps, hps, h⟩ := KeyedRows.bind_eq_ok.1 h
  cases h
  have hselect (c : Cursor) : Lays t style false [.text "SELECT "] c [] c :=
    Lays.text_of ["SELECT".toList] (by decide) rfl
  have hfrom (c : Cursor) : Lays t style false [.text " FROM "] c [] c :=
    Lays.text_of ["FROM".toList] (by decide) rfl
  have hnames : Stands t style (Piece.names (t.columns.map Column.id)) [] :=
    fun c => (lays_names hquote _ c).imp fun _ => And.left
  have hcolumns := Stands.text_append (fun c => ⟨c, hselect c⟩) hnames
  have htable := Stands.text_append (fun c => ⟨c, hfrom c⟩) (stands_name (t := t) hquote t.name)
  obtain ⟨hwhere, hfreshWhere⟩ := stands_where hquote hps
  obtain ⟨horder, hfreshOrder⟩ := stands_order (t := t) hquote reverse
  obtain ⟨hlimit, hfreshLimit⟩ : Stands t style (limitClause limit) _ ∧ _ := stands_limit limit
  have hall := (((hcolumns.append htable (startsFresh_text rfl (by decide) _).stays).append hwhere
    hfreshWhere).append horder hfreshOrder).append hlimit hfreshLimit
  simpa [querySlots] using hall.linesUp .select

theorem count_linesUp {range : Option KeyRange} (h : t.count style range = .ok (some s)) :
    ∃ p, t.condition? range = some p ∧ s.LinesUp t style (querySlots p none) := by
  unfold count at h
  split at h
  · cases h
  · next p hp =>
    obtain ⟨ps, hps, h⟩ := KeyedRows.bind_eq_ok.1 h
    cases h
    have hcount : Lays t style false [.text "SELECT COUNT(*) FROM "] {} [] {} :=
      Lays.text_of ["SELECT".toList, "COUNT".toList, "FROM".toList] (by decide) rfl
    obtain ⟨hwhere, hfresh⟩ := stands_where hquote hps
    obtain ⟨c, hwhere⟩ := hwhere (({} : Cursor).beside t.name)
    have hall := (hcount.append (Lays.name hquote t.name) (by simp)).append hwhere
      fun _ next rest hrest => hfresh next rest (hrest rfl)
    exact ⟨p, hp, by simpa [querySlots] using hall.linesUp .count⟩

theorem insert_linesUp {e : Entity} {ctx : Context} (h : t.insert style e ctx = .ok s) :
    s.LinesUp t style (e.inserts ctx).slots := by
  obtain ⟨_, hlays⟩ := lays_insertPieces hquote
    (forall₂_written fun p hp => exists_stored?_of_insert h (c := p.1) (v := p.2) hp)
  rw [insert_eq_ok h]
  exact hlays.linesUp .insert

theorem update_linesUp {e : Entity} {ctx : Context} (h : t.update style e ctx = .ok (some s)) :
    ∃ keys, e.baselineKey = .ok keys ∧
      s.LinesUp t style (Assignments.slots (e.updates t ctx ++ e.updateStamps ctx) ++
        t.conditionSlots ctx keys (e.updates t ctx)) := by
  obtain ⟨_, keys, set, hkeys, hset, ps, hps, rfl⟩ := update_eq_ok h
  have hupdate : Lays t style false [.text "UPDATE "] {} [] {} :=
    Lays.text_of ["UPDATE".toList] (by decide) rfl
  have hword (c : Cursor) : Lays t style false [.text " SET "] c [] c :=
    Lays.text_of ["SET".toList] (by decide) rfl
  have hhead : Lays t style false [.text "UPDATE ", .name t.name, .text " SET "] {} [] _ :=
    hupdate.append ((Lays.name hquote t.name).append_text (hword _) rfl (by decide)) (by simp)
  have hassigned := stands_assignments hquote
    (forall₂_written fun p hp => exists_stored?_of_setClause hset (c := p.1) (v := p.2) hp)
  rw [← setClause_eq_ok hset] at hassigned
  have hcondition := Predicate.stands_pieces hquote hps
  rw [slots_updateCondition (Entity.not_null_of_baselineKey hkeys)] at hcondition
  have hwhere (c : Cursor) : Lays t style false [.text " WHERE "] c [] c :=
    Lays.text_of ["WHERE".toList] (by decide) rfl
  obtain ⟨c, hset'⟩ := hassigned _
  obtain ⟨c', hcondition⟩ := hcondition c
  have hall := (hhead.append hset' (by simp)).append_text ((hwhere c).append hcondition (by simp)) rfl
    (by decide)
  exact ⟨keys, hkeys, by simpa using hall.linesUp .update⟩

theorem delete_linesUp {e : Entity} (h : t.delete style e = .ok s) :
    ∃ keys, e.baselineKey = .ok keys ∧ s.LinesUp t style (t.keySlots keys) := by
  obtain ⟨_, keys, hkeys, ps, hps, rfl⟩ := delete_eq_ok h
  have hdelete : Lays t style false [.text "DELETE FROM "] {} [] {} :=
    Lays.text_of ["DELETE".toList, "FROM".toList] (by decide) rfl
  have hwhere (c : Cursor) : Lays t style false [.text " WHERE "] c [] c :=
    Lays.text_of ["WHERE".toList] (by decide) rfl
  have hcondition := Predicate.stands_pieces hquote hps
  rw [slots_keyPredicate (Entity.not_null_of_baselineKey hkeys)] at hcondition
  obtain ⟨c, hcondition⟩ := hcondition (({} : Cursor).beside t.name)
  have hall := (hdelete.append (Lays.name hquote t.name) (by simp)).append_text
    ((hwhere _).append hcondition (by simp)) rfl (by decide)
  exact ⟨keys, hkeys, by simpa using hall.linesUp .delete⟩

end

/-- **Bindings stand beside their placeholders.** In every statement of a table whose names are
quoted, what stands outside of quotes has one placeholder for each binding, numbered from one. A
binding belongs to the place of its placeholder: beside a column it is the storage form of the value
for that column, after `LIKE` the pattern as text, after `LIMIT` the limit. The values are those of
the range, of the assignments or of the key in the baseline. -/
theorem statements_lineUp (t : Table) {style : Style} (hquote : style.quoteNames = true) :
    (∀ p limit reverse s, t.selectWhere style p limit reverse = .ok s →
      s.LinesUp t style (querySlots p limit)) ∧
    (∀ q s, t.select style q = .ok (some s) → ∃ p, t.condition? q.range = some p ∧
      s.LinesUp t style (querySlots p q.limit)) ∧
    (∀ range s, t.count style range = .ok (some s) → ∃ p, t.condition? range = some p ∧
      s.LinesUp t style (querySlots p none)) ∧
    (∀ range p, t.condition? (some range) = some (some p) →
      ∀ slot ∈ p.slots, range.Gives t.key slot) ∧
    (∀ e ctx s, t.insert style e ctx = .ok s → s.LinesUp t style (e.inserts ctx).slots) ∧
    (∀ e ctx s, t.update style e ctx = .ok (some s) → ∃ keys, e.baselineKey = .ok keys ∧
      s.LinesUp t style (Assignments.slots (e.updates t ctx ++ e.updateStamps ctx) ++
        t.conditionSlots ctx keys (e.updates t ctx))) ∧
    (∀ e s, t.delete style e = .ok s → ∃ keys, e.baselineKey = .ok keys ∧
      s.LinesUp t style (t.keySlots keys)) := by
  refine ⟨fun p limit reverse s => selectWhere_linesUp hquote, fun q s h => ?_,
    fun range s => count_linesUp hquote, fun range p h => ?_, fun e ctx s => insert_linesUp hquote,
    fun e ctx s => update_linesUp hquote, fun e s => delete_linesUp hquote⟩
  · unfold select at h
    split at h
    · cases h
    · next p hp =>
      obtain ⟨_, hs, heq⟩ := map_eq_ok.1 h
      cases heq
      exact ⟨p, hp, selectWhere_linesUp hquote hs⟩
  · obtain ⟨_, hp, heq⟩ := Option.map_eq_some_iff.1 h
    cases heq
    exact KeyRange.gives_of_predicate? hp

section
private def quoteTable : Table :=
  { name := "a\"?", columns := [⟨"k$1", .string, none, none⟩, ⟨"it\x27s ?", .integer, none, none⟩],
    key := [⟨"k$1", .ascending⟩] }

private def quoteEntity : Entity where
  table := quoteTable
  fields := [.set (.string "x"), .set (.integer 5)]
  baseline := some [.set (.string "x"), .set (.integer 4)]
  fields_length := rfl
  baseline_length := by simp [quoteTable]

/-- A select with a pattern and a limit, and an update that is limited to changes. -/
theorem statements_lineUp_quotes :
    let style : Style := { placeholder := .dollar, likeEscape := some '\x27' }
    let ctx : Context := ⟨⟨⟨2024, 2, 29, by decide⟩, .midnight⟩, "ann", "till", false, true⟩
    let q : Query := { range := some (.like [.string "x%"]), limit := some 2 }
    (∃ s, quoteTable.select style q = .ok (some s) ∧
      s.placeholders = [(['$', '1'], some (.pattern "k$1")), (['$', '2'], some .limit)] ∧
      s.bindings = [.text "x%", .integer 2]) ∧
    ∃ s, quoteTable.update style quoteEntity ctx = .ok (some s) ∧
      s.placeholders = [(['$', '1'], some (.column "it\x27s ?")), (['$', '2'], some (.column "k$1")),
        (['$', '3'], some (.column "it\x27s ?"))] ∧
      s.bindings = [.integer 5, .text "x", .integer 5] := by
  intro style ctx q
  have hquote : style.quoteNames = true := rfl
  obtain ⟨_, hselect, _, _, _, hupdate, _⟩ := statements_lineUp quoteTable hquote
  refine ⟨⟨_, rfl, ?_, rfl⟩, ⟨_, rfl, ?_, rfl⟩⟩
  · obtain ⟨p, hp, hlines⟩ := hselect q _ rfl
    cases hp
    exact hlines.placeholders
  · obtain ⟨keys, hkeys, hlines⟩ := hupdate quoteEntity ctx _ rfl
    cases hkeys
    exact hlines.placeholders

end
end Table
end KeyedRows
