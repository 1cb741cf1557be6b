import KeyedRows.Table

/-!
# Entities

* `Field` : a column of an entity, unset or set to a value, which may be null;
* `Entity` : one row of a table in memory, and the baseline it was loaded with;
* `Entity.ofRow`, `Entity.ofValues` : an entity from a storage row or from given values;
* `set`, `unset`, `clear`, `refresh` : edits, none of which touches the baseline;
* `isChanged`, `changedColumns` : where an entity differs from its baseline;
* `keyValues?`, `baselineKey` : the key as it is, and as it was loaded.
-/

namespace KeyedRows

/-- What an entity knows of a column. Unset is not null: no write mentions an unset column. -/
inductive Field where
  | unset
  | set (v : Value)
deriving DecidableEq

namespace Field

def isSet : Field → Bool
  | unset => false
  | set _ => true

def isNull (f : Field) : Bool := f = set .null

/-- The value of a set field, null included. -/
def assigned? : Field → Option Value
  | unset => none
  | set v => some v

/-- The value of a set field that is not null. -/
def value? : Field → Option Value
  | unset | set .null => none
  | set v => some v

end Field

structure Entity where
  table : Table
  /-- One field a column, in table order. -/
  fields : List Field
  /-- The fields at the time of the last load or write. -/
  baseline : Option (List Field) := none
  fields_length : fields.length = table.columns.length
  baseline_length : ∀ b ∈ baseline, b.length = table.columns.length := by simp
deriving DecidableEq

namespace Entity

/-! ## Making entities -/

/-- Every column in the same state, and no baseline. -/
def filled (f : Field) (t : Table) : Entity where
  table := t
  fields := List.replicate t.columns.length f
  fields_length := List.length_replicate

def new (t : Table) : Entity := filled .unset t

def nulls (t : Table) : Entity := filled (.set .null) t

/-- The fields that the cells of a row stand for, column by column. -/
def loadFields : List Column → Row → Except ValueError (List Field)
  | c :: columns, cell :: row => do
    let v ← c.type.load cell
    return .set v :: (← loadFields columns row)
  | _, _ => return []

theorem length_loadFields {columns : List Column} {row : Row} {fields : List Field}
    (h : loadFields columns row = .ok fields) (hl : row.length = columns.length) :
    fields.length = columns.length := by
  induction columns generalizing row fields with
  | nil => cases row <;> simp_all [loadFields, pure, Except.pure]
  | cons c columns ih =>
    cases row with
    | nil => simp at hl
    | cons cell row =>
      simp only [loadFields, bind, Except.bind, pure, Except.pure] at h
      split at h
      · cases h
      · split at h
        · cases h
        · next hr => cases h; simpa using ih hr (by simpa using hl)

/-- Loads a storage row, which then is the baseline. -/
def ofRow (t : Table) (row : Row) : Except Error Entity :=
  if hl : row.length = t.columns.length then
    match h : loadFields t.columns row with
    | .ok fields => .ok {
        table := t
        fields := fields
        baseline := some fields
        fields_length := length_loadFields h hl
        baseline_length := by simpa using length_loadFields h hl }
    | .error e => .error (.value e)
  else .error (.schema (.rowWidth row.length t.name t.columns.length))

/-! ## Reading fields -/

def field? (e : Entity) (column : String) : Option Field :=
  (e.table.position? column).bind fun i => e.fields[i]?

/-- The value of a column that is set and not null. -/
def get? (e : Entity) (column : String) : Option Value := (e.field? column).bind Field.value?

def isSet (e : Entity) (column : String) : Bool := (e.field? column).any Field.isSet

def states (e : Entity) : List (Column × Field) := e.table.columns.zip e.fields

/-! ## Edits -/

def put (e : Entity) (column : String) (f : Field) : Except Error Entity := do
  let i ← e.table.requirePosition column
  return { e with fields := e.fields.set i f, fields_length := by simp [e.fields_length] }

def set (e : Entity) (column : String) (v : Value) : Except Error Entity := e.put column (.set v)

def setNull (e : Entity) (column : String) : Except Error Entity := e.put column (.set .null)

def unset (e : Entity) (column : String) : Except Error Entity := e.put column .unset

/-- An entity with the given values set in turn, and no baseline. -/
def ofValues (t : Table) (values : List (String × Value)) : Except Error Entity :=
  values.foldlM (fun e (column, v) => e.set column v) (new t)

def clear (e : Entity) : Entity :=
  { e with
    fields := List.replicate e.table.columns.length .unset
    fields_length := List.length_replicate }

/-- Coerces the set fields in order. The first value that its column does not take ends this, and
the fields before it stay coerced. -/
def coerceFields : List Column → List Field → List Field × Except ValueError Unit
  | c :: columns, .set v :: fields =>
    match c.type.coerce v with
    | .ok w =>
      let (rest, result) := coerceFields columns fields
      (.set w :: rest, result)
    | .error e => (.set v :: fields, .error e)
  | _ :: columns, .unset :: fields =>
    let (rest, result) := coerceFields columns fields
    (.unset :: rest, result)
  | _, fields => (fields, .ok ())

theorem length_coerceFields (columns : List Column) (fields : List Field) :
    (coerceFields columns fields).1.length = fields.length := by
  fun_induction coerceFields columns fields <;> simp_all

/-- Gives every set field the form in which its column would give it back. -/
def refresh (e : Entity) : Entity × Except Error Unit :=
  let result := coerceFields e.table.columns e.fields
  ({ e with
      fields := result.1
      fields_length := by rw [length_coerceFields, e.fields_length] },
    result.2.mapError .value)

/-! ## Baseline -/

def baselineField? (e : Entity) (column : String) : Option Field :=
  (e.table.position? column).bind fun i => e.baseline.bind fun b => b[i]?

def capture (e : Entity) : Entity :=
  { e with baseline := some e.fields, baseline_length := by simpa using e.fields_length }

/-- Two states of a column differ; set values are compared as the column gives them back. -/
def differ (type : ColumnType) : Field → Field → Bool
  | .set a, .set b =>
    match type.coerce a, type.coerce b with
    | .ok a, .ok b => a ≠ b
    | _, _ => a ≠ b
  | .unset, .unset => false
  | _, _ => true

/-- A column differs from its baseline; without a baseline, it is set. -/
def changed (e : Entity) (i : Nat) : Bool :=
  match e.table.columns[i]?, e.fields[i]?, e.baseline with
  | some _, some current, none => current.isSet
  | some c, some current, some b => b[i]?.any fun before => differ c.type before current
  | _, _, _ => false

def isChanged (e : Entity) (column : String) : Bool :=
  (e.table.position? column).any e.changed

/-- The set columns that differ from the baseline, in table order. -/
def changedColumns (e : Entity) : List Column :=
  e.states.zipIdx.filterMap fun ((c, f), i) => if f.isSet && e.changed i then some c else none

/-! ## Keys -/

/-- The values of the key columns, if all of them are set. -/
def keyValues? (e : Entity) : Option (List Value) :=
  e.table.keyColumns.mapM fun column => (e.field? column).bind Field.assigned?

/-- The values of the key columns in the baseline, which must not be null. -/
def baselineKey (e : Entity) : Except Error (List Value) :=
  e.table.keyColumns.mapM fun column =>
    match (e.baselineField? column).bind Field.value? with
    | some v => .ok v
    | none => .error (.missingKeyValue e.table.name column)

end Entity
end KeyedRows
