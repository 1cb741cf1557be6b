import KeyedRows.Json.Basic
import KeyedRows.Value

/-!
# Values in JSON

* `Value.toJson` : an object of the kind and the payload, or of the kind alone for null;
* `Value.ofJson?` : reads it back, also from an array of the two, which has the kind as a bare word.

Dates are written in their ISO forms and decimals as text.
-/

namespace KeyedRows.Value

/-- The name of a kind and the payload to write with it. -/
def toParts : Value → String × Option Json
  | null => ("null", none)
  | integer i => ("integer", some (.int i.toInt))
  | string s => ("string", some (.text s))
  | boolean b => ("boolean", some (.bool b))
  | date d => ("date", some (.text d.iso))
  | dateTime t => ("date_time", some (.text t.iso))
  | timestamp t => ("timestamp", some (.text t.iso))
  | decimal d => ("decimal", some (.text (toString d)))

/-- The value of a kind and a payload; null may have none. -/
def ofParts? (kind : String) (payload : Option Json) : Option Value :=
  match kind, payload with
  | "null", none | "null", some .null => some null
  | "integer", some (.int n) => (int64? n).map integer
  | "string", some (.text s) => some (string s)
  | "boolean", some (.bool b) => some (boolean b)
  | "date", some (.text s) => (readIsoDate? s).map date
  | "date_time", some (.text s) => (readIsoDateTime? s).map dateTime
  | "timestamp", some (.text s) => (readIsoDateTime? s).map timestamp
  | "decimal", some (.text s) => (Decimal.read? s).map decimal
  | _, _ => none

def toJson (v : Value) : Json :=
  let (kind, payload) := v.toParts
  .object (("type", .text kind) :: (payload.map fun j => ("value", j)).toList)

def ofJson? : Json → Option Value
  | .array [.text kind, payload] => ofParts? kind (some payload)
  | .object fields => do
    let kind ← (← Json.field? fields "type") >>= Json.label?
    ofParts? kind (← Json.field? fields "value")
  | _ => none

end KeyedRows.Value
