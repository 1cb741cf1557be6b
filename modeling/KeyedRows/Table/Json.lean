import KeyedRows.Json.Parser
import KeyedRows.Table
import KeyedRows.Value.Json

/-!
# Table definitions in JSON

* `Table.toJson`, `Table.ofJson?` : a definition as a document;
* `Table.load` : a valid definition from JSON text.

Records may also be written as arrays of their fields. The key may be left out of a table, the
default and the stamp out of a column, and the direction out of a part of the key.
-/

namespace KeyedRows

/-! ## Words -/

namespace ColumnType

def words : List (String × ColumnType) :=
  [integer, string, boolean, date, dateTime, timestamp, decimal].map fun t => (t.name, t)

def ofJson? : Json → Option ColumnType := Json.word? words

end ColumnType

namespace Stamp

def name : Stamp → String
  | createdAt => "created_at"
  | createdBy => "created_by"
  | createdProgram => "created_program"
  | updatedAt => "updated_at"
  | updatedBy => "updated_by"
  | updatedProgram => "updated_program"

def words : List (String × Stamp) :=
  [createdAt, createdBy, createdProgram, updatedAt, updatedBy, updatedProgram].map fun s =>
    (s.name, s)

def ofJson? : Json → Option Stamp := Json.word? words

end Stamp

/-! ## Records -/

namespace Column

def toJson (c : Column) : Json :=
  .object [("id", .text c.id), ("type", .text c.type.name),
    ("default", .ofOption Value.toJson c.default),
    ("stamp", .ofOption (fun s => .text s.name) c.stamp)]

/-- A default of `null` is no default, while the null value is one. -/
def ofJson? (j : Json) : Option Column := do
  let [id, type, default, stamp] ← j.fields? ["id", "type", "default", "stamp"] | none
  return {
    id := ← Json.required Json.text? id
    type := ← Json.required ColumnType.ofJson? type
    default := ← Json.optional Value.ofJson? default
    stamp := ← Json.optional Stamp.ofJson? stamp }

end Column

namespace KeyPart

def toJson (p : KeyPart) : Json :=
  .object [("column", .text p.column), ("ascending", .bool (p.direction = .ascending))]

def ofJson? (j : Json) : Option KeyPart := do
  let [column, ascending] ← j.fields? ["column", "ascending"] | none
  let ascending ← Json.orDefault true Json.bool? ascending
  return {
    column := ← Json.required Json.text? column
    direction := if ascending then .ascending else .descending }

end KeyPart

namespace Key

def toJson (key : Key) : Json := .array (key.map KeyPart.toJson)

def ofJson? : Json → Option Key := Json.list? KeyPart.ofJson?

end Key

namespace Table

def toJson (t : Table) : Json :=
  .object [("name", .text t.name), ("columns", .array (t.columns.map Column.toJson)),
    ("key", Key.toJson t.key)]

def ofJson? (j : Json) : Option Table := do
  let [name, columns, key] ← j.fields? ["name", "columns", "key"] | none
  return {
    name := ← Json.required Json.text? name
    columns := ← Json.required (Json.list? Column.ofJson?) columns
    key := ← Json.orDefault [] Key.ofJson? key }

inductive LoadError where
  | unreadable
  | invalid (e : SchemaError)
deriving DecidableEq

def load (text : String) : Except LoadError Table :=
  match (Json.parse? text).bind ofJson? with
  | none => .error .unreadable
  | some t => match t.validate with
    | .ok () => .ok t
    | .error e => .error (.invalid e)

end Table
end KeyedRows
