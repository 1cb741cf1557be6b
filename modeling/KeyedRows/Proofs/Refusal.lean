import KeyedRows.Proofs.Session.Update
import KeyedRows.Proofs.Sql.Failure

/-!
# Values that a valid table refuses

* `Table.Refuses` : a column has no storage form of a value;
* `Table.slotsFail_iff` : of declared columns a slot fails exactly if its value is refused;
* `KeyRange.Fails`, `Table.condition_fails_iff` : so a query fails exactly if a component that the condition
  of its range compares is refused;
* `Table.declared_slots`, `Table.declared_conditionSlots` : the columns of a write are declared;
* `Table.builders_fail` : what the statements of a valid table fail with.
-/

namespace KeyedRows

open Sql

/-! ## Refused values -/

/-- The column is declared and has no storage form of the value; the error names its type and the
value. -/
def Table.Refuses (t : Table) (column : String) (v : Value) (err : Error) : Prop :=
  ∃ c, t.column? column = some c ∧ c.type.store v = .error (.cannotStore c.type v) ∧
    err = .value (.cannotStore c.type v)

/-- The column of the slot is declared. -/
def Sql.Slot.Declared (t : Table) : Slot → Prop
  | .column id _ | .pattern id _ => ∃ c, t.column? id = some c
  | .limit _ => True

/-- The condition of the range compares a component that its key column refuses. -/
def KeyRange.Fails (range : KeyRange) (t : Table) (err : Error) : Prop :=
  (range.predicate? t.key).isSome ∧
    ∃ q ∈ range.compared t.key, t.Refuses q.1.column q.2 err

namespace Table

variable {t : Table}

theorem requireColumn_ne_error {column : String} (h : ∃ c, t.column? column = some c) (err : Error) :
    t.requireColumn column ≠ .error err := by
  obtain ⟨c, hc⟩ := h
  rw [requireColumn_eq_ok.2 hc]
  exact fun h => by cases h

theorem bind_eq_error {column : String} (h : ∃ c, t.column? column = some c) {v : Value} {err : Error} :
    t.bind column v = .error err ↔ t.Refuses column v err := by
  obtain ⟨c, hc⟩ := h
  have hsame : t.Refuses column v err ↔ c.type.store v = .error (.cannotStore c.type v) ∧
      err = .value (.cannotStore c.type v) := by simp [Refuses, hc]
  have hfound : t.requireColumn column = pure c := requireColumn_eq_ok.2 hc
  rw [hsame, bind, hfound, pure_bind]
  cases hs : c.type.store? v with
  | none =>
    have hstore : c.type.store v = .error (.cannotStore c.type v) := by rw [ColumnType.store, hs]
    rw [hstore, Except.error.injEq]
    exact ⟨fun h => ⟨rfl, h.symm⟩, fun h => h.2.symm⟩
  | some cell =>
    rw [ColumnType.store_eq_ok.2 hs]
    exact ⟨fun h => (by cases h), fun h => (by cases h.1)⟩

/-! ## Slots and queries -/

/-- Some slots have a value that its column refuses. -/
def RefusesOne (t : Table) (slots : List Slot) (err : Error) : Prop :=
  ∃ id v, .column id v ∈ slots ∧ t.Refuses id v err

theorem slotsFail_iff {slots : List Slot} {err : Error} (h : ∀ slot ∈ slots, slot.Declared t) :
    SlotsFail t slots err ↔ t.RefusesOne slots err := by
  constructor
  · rintro ⟨slot, hmem, hfails⟩
    cases slot with
    | column id v => exact ⟨id, v, hmem, (bind_eq_error (h _ hmem)).1 hfails⟩
    | pattern id v => exact absurd hfails (requireColumn_ne_error (h _ hmem) err)
    | limit n => exact hfails.elim
  · rintro ⟨id, v, hmem, hrefuses⟩
    exact ⟨_, hmem, (bind_eq_error (h _ hmem)).2 hrefuses⟩

/-- The condition of a range fails exactly if a key column refuses a component that it is compared
with. -/
theorem slotsFail_range (hdeclares : t.Declares) {range : KeyRange} {p : Predicate}
    (h : range.predicate? t.key = some p) {err : Error} :
    SlotsFail t p.slots err ↔ range.Fails t err := by
  have hdeclared {values : List Value} {q : KeyPart × Value} (hq : q ∈ t.key.zip values) :
      ∃ c, t.column? q.1.column = some c :=
    hdeclares _ (List.mem_map_of_mem (List.of_mem_zip hq).1)
  have hslots : ∀ slot ∈ p.slots, slot.Declared t := by
    intro slot hmem
    rw [KeyRange.mem_slots_iff h, List.mem_append, List.mem_map, List.mem_map] at hmem
    rcases hmem with ⟨q, hq, rfl⟩ | ⟨q, hq, rfl⟩
    · obtain ⟨_, _, hzip⟩ := KeyRange.exists_tuple_of_compared hq
      exact hdeclared hzip
    · obtain ⟨_, _, hzip⟩ := KeyRange.exists_like_of_matched hq
      exact hdeclared hzip
  have hcompared (id : String) (v : Value) : .column id v ∈ p.slots ↔
      ∃ q ∈ range.compared t.key, q.1.column = id ∧ q.2 = v := by
    rw [KeyRange.mem_slots_iff h]
    simp [KeyRange.columnSlot, KeyRange.patternSlot]
  rw [slotsFail_iff hslots, KeyRange.Fails, h]
  constructor
  · rintro ⟨id, v, hmem, hrefuses⟩
    obtain ⟨q, hq, rfl, rfl⟩ := (hcompared id v).1 hmem
    exact ⟨rfl, q, hq, hrefuses⟩
  · rintro ⟨_, q, hq, hrefuses⟩
    exact ⟨_, _, (hcompared _ _).2 ⟨q, hq, rfl, rfl⟩, hrefuses⟩

theorem condition_fails_iff (hdeclares : t.Declares) {range : Option KeyRange} {err : Error} :
    (∃ p, t.condition? range = some p ∧ SlotsFail t (p.elim [] Predicate.slots) err) ↔
      ∃ r, range = some r ∧ r.Fails t err := by
  cases range with
  | none => simp [condition?, SlotsFail]
  | some r =>
    cases hp : r.predicate? t.key with
    | none => simp [condition?, KeyRange.Fails, hp]
    | some p => simp [condition?, hp, slotsFail_range hdeclares hp]

/-! ## Slots of writes -/

theorem declared_slots {values : Assignments}
    (h : ∀ c v, (c, v) ∈ values → t.column? c.id = some c) :
    ∀ slot ∈ values.slots, slot.Declared t := by
  intro slot hmem
  obtain ⟨⟨c, v⟩, hcv, rfl⟩ := List.mem_map.1 hmem
  exact ⟨c, h c v hcv⟩

theorem declared_keySlots (hdeclares : t.Declares) (keys : List Value) :
    ∀ slot ∈ t.keySlots keys, slot.Declared t := by
  intro slot hmem
  obtain ⟨q, hq, rfl⟩ := List.mem_map.1 hmem
  exact hdeclares _ (List.of_mem_zip hq).1

theorem declared_conditionSlots (hdeclares : t.Declares) (ctx : Context) (keys : List Value)
    {targets : Assignments} (h : ∀ c v, (c, v) ∈ targets → t.column? c.id = some c) :
    ∀ slot ∈ t.conditionSlots ctx keys targets, slot.Declared t := by
  refine List.forall_mem_append.2 ⟨declared_keySlots hdeclares keys, ?_⟩
  split
  · exact declared_slots fun c v hmem => h c v (List.mem_of_mem_filter hmem)
  · exact List.forall_mem_nil _

theorem Refuses.ne_unknownColumn {column : String} {v : Value} {err : Error}
    (h : t.Refuses column v err) (table name : String) : err ≠ .unknownColumn table name := by
  obtain ⟨_, _, _, rfl⟩ := h
  exact fun h => by cases h

theorem not_foreign_self (e : Entity) {err : Error} : ¬e.table.Foreign e err := fun h => h.1 rfl

section
variable {style : Style} {e : Entity} {ctx : Context} (hvalid : e.table.validate = .ok ())
include hvalid

theorem failsWith_insert_of_validate :
    FailsWith (e.table.insert style e ctx) (e.table.RefusesOne (e.inserts ctx).slots) := by
  refine failsWith_insert.congr fun err => ?_
  rw [or_iff_right (not_foreign_self e), slotsFail_iff (declared_slots fun c v hmem => ?_)]
  obtain ⟨f, hf, _⟩ := Entity.mem_inserts.1 hmem
  exact Entity.column?_of_mem_states hvalid hf

theorem failsWith_update_of_validate : FailsWith (e.table.update style e ctx) fun err =>
    e.table.KeyError e err ∨ ∃ keys, e.baselineKey = .ok keys ∧ e.updates e.table ctx ≠ [] ∧
      e.table.RefusesOne (Assignments.slots (e.updates e.table ctx ++ e.updateStamps ctx) ++
        e.table.conditionSlots ctx keys (e.updates e.table ctx)) err := by
  have htargets : ∀ c v, (c, v) ∈ e.updates e.table ctx → e.table.column? c.id = some c :=
    fun c v hmem => Entity.column?_of_mem_states hvalid (Entity.mem_updates_iff.1 hmem).field
  have hassigned : ∀ c v, (c, v) ∈ e.updates e.table ctx ++ e.updateStamps ctx →
      e.table.column? c.id = some c := by
    intro c v hmem
    rcases List.mem_append.1 hmem with hmem | hmem
    · exact htargets c v hmem
    · obtain ⟨f, _, hf, _⟩ := Entity.mem_updateStamps_iff.1 hmem
      exact Entity.column?_of_mem_states hvalid hf
  refine failsWith_update.congr fun err => ?_
  rw [or_iff_right (not_foreign_self e)]
  refine or_congr_right <| exists_congr fun keys => and_congr_right fun _ => and_congr_right fun _ =>
    slotsFail_iff ?_
  exact List.forall_mem_append.2 ⟨declared_slots hassigned,
    declared_conditionSlots (declares_of_validate hvalid) ctx keys htargets⟩

theorem failsWith_delete_of_validate : FailsWith (e.table.delete style e) fun err =>
    e.table.KeyError e err ∨
      ∃ keys, e.baselineKey = .ok keys ∧ e.table.RefusesOne (e.table.keySlots keys) err := by
  refine failsWith_delete.congr fun err => ?_
  rw [or_iff_right (not_foreign_self e)]
  exact or_congr_right <| exists_congr fun keys => and_congr_right fun _ =>
    slotsFail_iff (declared_keySlots (declares_of_validate hvalid) keys)

end

/-- **What the statements of a valid table fail with.** A select or a count fails exactly if its range has
a condition that compares a component which its key column refuses. An insert fails exactly if a column
refuses a value that it would bind, an update or delete also without a key or without one of its values
in the baseline. All other errors are ruled out, that of an unknown column among them. -/
theorem builders_fail {t : Table} (hvalid : t.validate = .ok ()) (style : Style) :
    (∀ q, FailsWith (t.select style q) fun err => ∃ range, q.range = some range ∧ range.Fails t err) ∧
    (∀ r, FailsWith (t.count style r) fun err => ∃ range, r = some range ∧ range.Fails t err) ∧
    (∀ e ctx, e.table = t →
      FailsWith (t.insert style e ctx) (t.RefusesOne (e.inserts ctx).slots) ∧
      (FailsWith (t.update style e ctx) fun err =>
        t.KeyError e err ∨ ∃ keys, e.baselineKey = .ok keys ∧ e.updates t ctx ≠ [] ∧
          t.RefusesOne (Assignments.slots (e.updates t ctx ++ e.updateStamps ctx) ++
            t.conditionSlots ctx keys (e.updates t ctx)) err) ∧
      FailsWith (t.delete style e) fun err =>
        t.KeyError e err ∨ ∃ keys, e.baselineKey = .ok keys ∧ t.RefusesOne (t.keySlots keys) err) ∧
    ∀ table column, (∀ q, t.select style q ≠ .error (.unknownColumn table column)) ∧
      (∀ r, t.count style r ≠ .error (.unknownColumn table column)) ∧
      ∀ e ctx, e.table = t → t.insert style e ctx ≠ .error (.unknownColumn table column) ∧
        t.update style e ctx ≠ .error (.unknownColumn table column) ∧
        t.delete style e ≠ .error (.unknownColumn table column) := by
  have hdeclares := declares_of_validate hvalid
  have hone {slots : List Slot} {table column : String} :
      ¬t.RefusesOne slots (.unknownColumn table column) :=
    fun ⟨_, _, _, h⟩ => h.ne_unknownColumn table column rfl
  have hrange {table column : String} {r : Option KeyRange} :
      ¬∃ range, r = some range ∧ range.Fails t (.unknownColumn table column) :=
    fun ⟨_, _, _, _, _, h⟩ => h.ne_unknownColumn table column rfl
  have hselect (q : Query) := (@failsWith_select t style q).congr fun _ =>
    condition_fails_iff hdeclares
  have hcount (r : Option KeyRange) := (@failsWith_count t style r).congr fun _ =>
    condition_fails_iff hdeclares
  refine ⟨hselect, hcount, ?_, fun table column => ⟨fun q h => hrange ((hselect q).due _ h),
    fun r h => hrange ((hcount r).due _ h), ?_⟩⟩
  · rintro e ctx rfl
    exact ⟨failsWith_insert_of_validate hvalid, failsWith_update_of_validate hvalid,
      failsWith_delete_of_validate hvalid⟩
  · rintro e ctx rfl
    have hkey : ¬e.table.KeyError e (.unknownColumn table column) := fun h => by cases h
    refine ⟨fun h => hone ((failsWith_insert_of_validate hvalid).due _ h), fun h => ?_, fun h => ?_⟩
    · exact ((failsWith_update_of_validate hvalid).due _ h).elim hkey fun ⟨_, _, _, h⟩ => hone h
    · exact ((failsWith_delete_of_validate hvalid).due _ h).elim hkey fun ⟨_, _, h⟩ => hone h

section

private def loans : Table :=
  { name := "loans"
    columns := [⟨"reader", .integer, none, none⟩, ⟨"due", .date, none, none⟩]
    key := [⟨"reader", .ascending⟩, ⟨"due", .descending⟩] }

/-- A text that names no day fails as a bound, but not as a pattern, and a new row has no key. -/
theorem builders_fail_loans : loans.validate = .ok () ∧
    (∃ err, loans.select {} { range := some (.gt [.integer 7, .string "soon"]) } = .error err) ∧
    (∀ err, loans.select {} { range := some (.like [.integer 7, .string "soon%"]) } ≠ .error err) ∧
    ∃ err, loans.delete {} (.new loans) = .error err := by
  have hvalid : loans.validate = .ok () := by decide
  obtain ⟨hselect, _, hwrites, _⟩ := builders_fail hvalid {}
  have hdue : loans.Refuses "due" (.string "soon") (.value (.cannotStore .date (.string "soon"))) :=
    ⟨⟨"due", .date, none, none⟩, rfl, rfl, rfl⟩
  have hreader (err : Error) : ¬loans.Refuses "reader" (.integer 7) err := by
    rintro ⟨c, hc, hstore, _⟩
    cases hc
    cases hstore
  refine ⟨hvalid, (hselect _).fails ⟨_, _, rfl, rfl, (⟨"due", .descending⟩, _), by decide, hdue⟩,
    fun err h => ?_, ?_⟩
  · obtain ⟨range, hrange, _, q, hq, hrefuses⟩ := (hselect _).due err h
    cases hrange
    obtain rfl := List.mem_singleton.1 hq
    exact hreader err hrefuses
  · have hmissing : loans.KeyError (.new loans) (.missingKeyValue "loans" "due") :=
      .missing (by decide) rfl
    exact (hwrites (.new loans) ⟨⟨⟨2024, 2, 29, by decide⟩, .midnight⟩, "ann", "desk", false, false⟩
      rfl).2.2.fails ⟨_, .inl hmissing⟩

end

end Table
end KeyedRows
