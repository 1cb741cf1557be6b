import KeyedRows.Cell
import KeyedRows.Value

/-!
# Column types and their conversions

* `ColumnType` : the type a column declares;
* `store?`, `store` : a value in the storage form of a column, or why it has none;
* `load?`, `load` : the value of a column that a cell stands for;
* `coerce` : storing followed by loading.

Null is stored and loaded as null whatever the type.
-/

namespace KeyedRows

inductive ColumnType where
  | integer
  | string
  | boolean
  | date
  /-- Date and time, kept to the second. -/
  | dateTime
  /-- Date and time, kept to the microsecond. -/
  | timestamp
  | decimal
deriving DecidableEq

inductive ValueError where
  /-- The text is no decimal. -/
  | invalidDecimal (text : String)
  | arithmetic (e : Decimal.ArithmeticError)
  /-- The value cannot be stored in a column of this type. -/
  | cannotStore (type : ColumnType) (value : Value)
  /-- The cell stands for no value of this type. -/
  | cannotLoad (type : ColumnType) (cell : Cell)
deriving DecidableEq

/-! ## Words and numbers in text -/

/-- A decimal, or the error that names the text. -/
def Decimal.read (s : String) : Except ValueError Decimal :=
  match Decimal.read? s with
  | some d => .ok d
  | none => .error (.invalidDecimal s)

/-- A whole number in text; a plain integer needs no decimal arithmetic. -/
def readInteger? (s : String) : Option Int64 :=
  let text := Text.trim s.toList
  Text.integer? text <|> (Decimal.readChars? text).bind Decimal.toInt64?

def trueWords : List String := ["1", "true", "t", "yes", "y", "on"]

def falseWords : List String := ["0", "false", "f", "no", "n", "off"]

/-- A word for true or false, in any case. -/
def readBoolean? (s : String) : Option Bool :=
  let word := String.ofList ((Text.trim s.toList).map Char.toLower)
  if word ∈ trueWords then some true else if word ∈ falseWords then some false else none

namespace ColumnType

def name : ColumnType → String
  | integer => "integer"
  | string => "string"
  | boolean => "boolean"
  | date => "date"
  | dateTime => "datetime"
  | timestamp => "timestamp"
  | decimal => "decimal"

/-! ## Storing -/

/-- The day that a value names; a time of day is left out. -/
def dateOf? : Value → Option Date
  | .date d => some d
  | .dateTime t | .timestamp t => some t.date
  | .string s => readDate? s
  | _ => none

/-- The date and time that a value names; a bare date is at midnight. -/
def dateTimeOf? : Value → Option DateTime
  | .date d => some ⟨d, .midnight⟩
  | .dateTime t | .timestamp t => some t
  | .string s => readDateTime? s
  | _ => none

/-- The storage form of a value in a column of this type. -/
def store? : ColumnType → Value → Option Cell
  | _, .null => some .null
  | integer, .integer i => some (.integer i)
  | integer, .boolean b => some (.ofBool b)
  | integer, .decimal d => d.toInt64?.map .integer
  | integer, .string s => (readInteger? s).map .integer
  | integer, _ => none
  | string, v => some (.text v.toText)
  | boolean, .boolean b => some (.ofBool b)
  | boolean, .integer i => some (.ofBool (i ≠ 0))
  | boolean, .decimal d => some (.ofBool !d.isZero)
  | boolean, .string s => (readBoolean? s).map .ofBool
  | boolean, _ => none
  | date, v => (dateOf? v).map fun d => .text d.slashed
  | dateTime, v => (dateTimeOf? v).map fun t => .text t.toSeconds
  | timestamp, v => (dateTimeOf? v).map fun t => .text t.toMicros
  | decimal, .decimal d => some (.text (toString d))
  | decimal, .integer i => some (.text (toString i.toInt))
  | decimal, .string s => (Decimal.read? s).map fun d => .text (toString d)
  | decimal, _ => none

def store (type : ColumnType) (v : Value) : Except ValueError Cell :=
  match type.store? v with
  | some c => .ok c
  | none => .error (.cannotStore type v)

/-! ## Loading -/

/-- The value that a cell stands for in a column of this type. -/
def load? : ColumnType → Cell → Option Value
  | _, .null => some .null
  | integer, .integer i => some (.integer i)
  | integer, .real x => (Binary64.ofFloat x).toInt64?.map .integer
  | integer, .text s => (readInteger? s).map .integer
  | string, .integer i => some (.string (toString i.toInt))
  | string, .real x => some (.string (Binary64.ofFloat x).toText)
  | string, .text s => some (.string s)
  | boolean, .integer i => some (.boolean (i ≠ 0))
  | boolean, .real x => some (.boolean !(Binary64.ofFloat x).isZero)
  | boolean, .text s => (readBoolean? s).map .boolean
  | date, .text s => (readDate? s).map .date
  | date, _ => none
  | dateTime, .text s => (readDateTime? s).map .dateTime
  | dateTime, _ => none
  | timestamp, .text s => (readDateTime? s).map .timestamp
  | timestamp, _ => none
  | decimal, .integer i => some (.decimal (.ofInt64 i))
  | decimal, .real x => (Decimal.read? (Binary64.ofFloat x).toText).map .decimal
  | decimal, .text s => (Decimal.read? s).map .decimal

def load (type : ColumnType) (c : Cell) : Except ValueError Value :=
  match type.load? c with
  | some v => .ok v
  | none => .error (.cannotLoad type c)

/-! ## Coercion -/

/-- A value as a column of this type gives it back: the text `7` in an integer column is the
number 7. -/
def coerce (type : ColumnType) (v : Value) : Except ValueError Value := do
  type.load (← type.store v)

end ColumnType

def ValueError.message : ValueError → String
  | invalidDecimal s => "invalid decimal: " ++ Text.quote s
  | arithmetic e => "arithmetic domain error: " ++ e.message
  | cannotStore type v => "cannot convert " ++ Text.quote v.inspect ++ " to " ++ type.name
  | cannotLoad type c => "cannot convert " ++ Text.quote c.toText ++ " to " ++ type.name

end KeyedRows
