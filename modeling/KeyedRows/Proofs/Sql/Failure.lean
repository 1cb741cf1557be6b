import KeyedRows.Proofs.Sql.Alignment

/-!
# Statements that cannot be built

* `FailsWith` : a step fails exactly if one of some errors is due, and then with one of them;
* `FailsWith.bind`, `FailsWith.map`, `FailsWith.mapM` : the errors of steps one after another;
* `Slot.Fails`, `Predicate.failsWith_pieces` : a condition fails with the errors of its slots;
* `Table.failsWith_select`, `Table.failsWith_count` : a query fails with those of its condition;
* `Table.Foreign`, `Table.KeyError` : why a table cannot write an entity, or not without a key;
* `Table.failsWith_insert`, `Table.failsWith_update`, `Table.failsWith_delete` : a write fails for these
  reasons or with the errors of its slots.
-/

namespace KeyedRows

open Sql

/-! ## Errors of steps -/

/-- The step fails exactly if one of the errors is due, and then with one of them. -/
structure FailsWith {ε α : Type*} (x : Except ε α) (errors : ε → Prop) : Prop where
  due : ∀ err, x = .error err → errors err
  fails : (∃ err, errors err) → ∃ err, x = .error err

namespace FailsWith

variable {ε α β : Type} {x : Except ε α} {P Q : ε → Prop}

theorem self (x : Except ε α) : FailsWith x fun err => x = .error err := ⟨fun _ h => h, fun h => h⟩

theorem ok (a : α) : FailsWith (.ok a : Except ε α) fun _ => False :=
  ⟨fun _ h => (by cases h), fun ⟨_, h⟩ => h.elim⟩

theorem congr (hx : FailsWith x P) (h : ∀ err, P err ↔ Q err) : FailsWith x Q where
  due err hx' := (h err).1 (hx.due err hx')
  fails := fun ⟨err, herr⟩ => hx.fails ⟨err, (h err).2 herr⟩

/-- A step after a step. Where the first fails the errors of the second do not matter, as it is not
taken. -/
theorem bind {f : α → Except ε β} (hx : FailsWith x P) (hf : ∀ a, x = .ok a → FailsWith (f a) Q) :
    FailsWith (x >>= f) fun err => P err ∨ Q err := by
  cases x with
  | error e =>
    refine ⟨fun err h => .inl ?_, fun _ => ⟨e, rfl⟩⟩
    cases h
    exact hx.due e rfl
  | ok a =>
    refine ⟨fun err h => .inr ((hf a rfl).due err h), ?_⟩
    rintro ⟨err, herr | herr⟩
    · obtain ⟨_, h⟩ := hx.fails ⟨err, herr⟩
      cases h
    · exact (hf a rfl).fails ⟨err, herr⟩

/-- What is done with the result of a step does not fail. -/
theorem map (hx : FailsWith x P) (g : α → β) : FailsWith (g <$> x) P where
  due err h := by
    cases x with
    | error e =>
      cases h
      exact hx.due _ rfl
    | ok a => cases h
  fails herr := by
    obtain ⟨e, he⟩ := hx.fails herr
    exact ⟨e, by rw [he]; rfl⟩

theorem mapM {f : α → Except ε β} {R : α → ε → Prop} : ∀ {as : List α},
    (∀ a ∈ as, FailsWith (f a) (R a)) → FailsWith (as.mapM f) fun err => ∃ a ∈ as, R a err
  | [], _ => (ok []).congr fun err => by simp
  | a :: as, h => by
    rw [List.mapM_cons]
    have hrest := mapM fun b hb => h b (List.mem_cons_of_mem _ hb)
    refine ((h a List.mem_cons_self).bind fun b _ => hrest.map (b :: ·)).congr fun err => ?_
    rw [List.exists_mem_cons_iff]

end FailsWith

/-! ## Conditions -/

namespace Sql

/-- Why a slot has no cell: its value has no storage form, or its column is not declared. -/
def Slot.Fails (t : Table) : Slot → Error → Prop
  | .column id v, err => t.bind id v = .error err
  | .pattern id _, err => t.requireColumn id = .error err
  | .limit _, _ => False

/-- A slot among some has no cell. -/
def SlotsFail (t : Table) (slots : List Slot) (err : Error) : Prop := ∃ slot ∈ slots, slot.Fails t err

variable {t : Table} {slots slots' : List Slot} {err : Error}

theorem slotsFail_append :
    SlotsFail t (slots ++ slots') err ↔ SlotsFail t slots err ∨ SlotsFail t slots' err := by
  simp only [SlotsFail, List.mem_append, or_and_right, exists_or]

end Sql

namespace Predicate

variable {t : Table} {style : Style}

mutual

/-- A condition fails with the errors of its slots. -/
theorem failsWith_pieces : ∀ p : Predicate, FailsWith (p.pieces t style) (SlotsFail t p.slots)
  | compare column op v => by
    rw [pieces]
    refine ((FailsWith.self (t.bind column v)).map _).congr fun err => ?_
    simp [SlotsFail, slots, Slot.Fails]
  | isNull column => by
    rw [pieces]
    exact (FailsWith.ok _).congr fun err => by simp [SlotsFail, slots]
  | isNotNull column => by
    rw [pieces]
    exact (FailsWith.ok _).congr fun err => by simp [SlotsFail, slots]
  | isIn column values => by
    rw [pieces]
    refine ((FailsWith.mapM fun v _ => FailsWith.self (t.bind column v)).map _).congr fun err => ?_
    simp [SlotsFail, slots, Slot.Fails]
  | between column low high => by
    rw [pieces]
    refine ((FailsWith.self (t.bind column low)).bind fun _ _ =>
      (FailsWith.self (t.bind column high)).map _).congr fun err => ?_
    simp [SlotsFail, slots, Slot.Fails]
  | like column pattern => by
    rw [pieces]
    refine ((FailsWith.self (t.requireColumn column)).map _).congr fun err => ?_
    simp [SlotsFail, slots, Slot.Fails]
  | and parts => by
    rw [pieces]
    exact (failsWith_partPieces parts).map _
  | or parts => by
    rw [pieces]
    exact (failsWith_partPieces parts).map _

theorem failsWith_partPieces : ∀ parts : List Predicate,
    FailsWith (partPieces t style parts) (SlotsFail t (partSlots parts))
  | [] => by
    rw [partPieces]
    exact (FailsWith.ok _).congr fun err => by simp [SlotsFail, partSlots]
  | p :: parts => by
    rw [partPieces]
    refine ((failsWith_pieces p).bind fun _ _ => (failsWith_partPieces parts).map _).congr fun err => ?_
    rw [partSlots, slotsFail_append]

end

end Predicate

/-! ## Queries -/

namespace Table

variable {t : Table} {style : Style}

theorem failsWith_whereClause (p : Option Predicate) :
    FailsWith (t.whereClause style p) (SlotsFail t (p.elim [] Predicate.slots)) := by
  cases p with
  | none => exact (FailsWith.ok _).congr fun err => by simp [SlotsFail]
  | some p => exact (p.failsWith_pieces).map _

/-- A query fails with the errors of its condition, and without one where no row matches. -/
theorem failsWith_select (q : Query) : FailsWith (t.select style q) fun err =>
    ∃ p, t.condition? q.range = some p ∧ SlotsFail t (p.elim [] Predicate.slots) err := by
  unfold select
  split
  · next h => exact (FailsWith.ok none).congr fun err => by simp [h]
  · next p h => exact (((failsWith_whereClause p).map _).map _).congr fun err => by simp [h]

theorem failsWith_count (range : Option KeyRange) : FailsWith (t.count style range) fun err =>
    ∃ p, t.condition? range = some p ∧ SlotsFail t (p.elim [] Predicate.slots) err := by
  unfold count
  split
  · next h => exact (FailsWith.ok none).congr fun err => by simp [h]
  · next p h => exact ((failsWith_whereClause p).map _).congr fun err => by simp [h]

/-! ## Writes -/

theorem failsWith_bindAll (values : Assignments) :
    FailsWith (t.bindAll values) (SlotsFail t values.slots) := by
  refine (FailsWith.mapM fun p _ => FailsWith.self (t.bind p.1.id p.2)).congr fun err => ?_
  simp [SlotsFail, Assignments.slots, Slot.Fails]

theorem failsWith_setClause (values : Assignments) :
    FailsWith (t.setClause values) (SlotsFail t values.slots) :=
  (failsWith_bindAll values).map _

/-- The entity is one of another table. -/
def Foreign (t : Table) (e : Entity) (err : Error) : Prop :=
  e.table.name ≠ t.name ∧ err = .schema (.foreignEntity e.table.name t.name)

/-- Why a table cannot address the row of an entity: it has no key, or the baseline no value for a key
column, be it unset, null or not there at all. -/
inductive KeyError (t : Table) (e : Entity) : Error → Prop where
  | noKey (h : t.key = []) : KeyError t e (.schema (.noKey t.name))
  | missing {column : String} (hcolumn : column ∈ e.table.keyColumns)
    (h : (e.baselineField? column).bind Field.value? = none) :
    KeyError t e (.missingKeyValue e.table.name column)

theorem failsWith_checkEntity (t : Table) (e : Entity) :
    FailsWith (t.checkEntity e) (t.Foreign e) := by
  unfold checkEntity Foreign
  split
  · next h => exact (FailsWith.ok ()).congr fun err => by simp [h]
  · next h => exact (FailsWith.self _).congr fun err => by simp [h, eq_comm]

theorem failsWith_requireKey (t : Table) :
    FailsWith t.requireKey fun err => t.key = [] ∧ err = .schema (.noKey t.name) := by
  unfold requireKey hasKey
  cases t.key with
  | nil => exact (FailsWith.self _).congr fun err => by simp [eq_comm]
  | cons part key => exact (FailsWith.ok ()).congr fun err => by simp

theorem failsWith_baselineKey (e : Entity) : FailsWith e.baselineKey fun err =>
    ∃ column ∈ e.table.keyColumns, (e.baselineField? column).bind Field.value? = none ∧
      err = .missingKeyValue e.table.name column := by
  refine FailsWith.mapM fun column _ => ?_
  cases hv : (e.baselineField? column).bind Field.value? with
  | none => exact (FailsWith.self _).congr fun err => by simp [eq_comm]
  | some v => exact (FailsWith.ok v).congr fun err => by simp

section
variable {e : Entity} {ctx : Context}

theorem failsWith_keyed {α : Type} {f : List Value → Except Error α} {P : List Value → Error → Prop}
    (hf : ∀ keys, e.baselineKey = .ok keys → FailsWith (f keys) (P keys)) :
    FailsWith (t.checkEntity e >>= fun _ => t.requireKey >>= fun _ => e.baselineKey >>= f) fun err =>
      t.Foreign e err ∨ t.KeyError e err ∨ ∃ keys, e.baselineKey = .ok keys ∧ P keys err := by
  have hkeys : FailsWith (e.baselineKey >>= f) fun err =>
      (∃ column ∈ e.table.keyColumns, (e.baselineField? column).bind Field.value? = none ∧
        err = .missingKeyValue e.table.name column) ∨
      ∃ keys, e.baselineKey = .ok keys ∧ P keys err :=
    (failsWith_baselineKey e).bind fun keys hkeys => (hf keys hkeys).congr fun err => by simp [hkeys]
  refine (t.failsWith_checkEntity e).bind fun _ _ =>
    (t.failsWith_requireKey.bind fun _ _ => hkeys).congr fun err => ?_
  rw [← or_assoc]
  refine or_congr_left ⟨?_, ?_⟩
  · rintro (⟨hkey, rfl⟩ | ⟨column, hcolumn, hnone, rfl⟩)
    · exact .noKey hkey
    · exact .missing hcolumn hnone
  · rintro (hkey | ⟨hcolumn, hnone⟩)
    · exact .inl ⟨hkey, rfl⟩
    · exact .inr ⟨_, hcolumn, hnone, rfl⟩

theorem failsWith_insert : FailsWith (t.insert style e ctx) fun err =>
    t.Foreign e err ∨ SlotsFail t (e.inserts ctx).slots err := by
  refine (t.failsWith_checkEntity e).bind fun _ _ => ?_
  dsimp only
  split
  · next hempty =>
    rw [List.isEmpty_iff.1 hempty]
    exact (FailsWith.ok _).congr fun err => by simp [SlotsFail, Assignments.slots]
  · refine ((failsWith_bindAll _).bind fun _ _ => FailsWith.ok _).congr fun err => ?_
    rw [or_false]

theorem failsWith_update : FailsWith (t.update style e ctx) fun err =>
    t.Foreign e err ∨ t.KeyError e err ∨ ∃ keys, e.baselineKey = .ok keys ∧ e.updates t ctx ≠ [] ∧
      SlotsFail t (Assignments.slots (e.updates t ctx ++ e.updateStamps ctx) ++
        t.conditionSlots ctx keys (e.updates t ctx)) err := by
  refine failsWith_keyed fun keys hkeys => ?_
  dsimp only
  split
  · next hempty =>
    exact (FailsWith.ok none).congr fun err => by simp [List.isEmpty_iff.1 hempty]
  · next hempty =>
    have hne : e.updates t ctx ≠ [] := fun hnil => hempty (List.isEmpty_iff.2 hnil)
    refine ((failsWith_setClause _).bind fun _ _ =>
      (Predicate.failsWith_pieces _).map _).congr fun err => ?_
    rw [slots_updateCondition (Entity.not_null_of_baselineKey hkeys), ← slotsFail_append]
    simp [hne]

theorem failsWith_delete : FailsWith (t.delete style e) fun err =>
    t.Foreign e err ∨ t.KeyError e err ∨
      ∃ keys, e.baselineKey = .ok keys ∧ SlotsFail t (t.keySlots keys) err := by
  refine failsWith_keyed fun keys hkeys => ?_
  rw [← slots_keyPredicate (Entity.not_null_of_baselineKey hkeys)]
  exact (Predicate.failsWith_pieces _).map _

end
end Table
end KeyedRows
