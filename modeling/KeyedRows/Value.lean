import KeyedRows.Calendar.Text
import KeyedRows.Decimal.Text
import KeyedRows.Text.Quoted

/-!
# Typed values

* `Value` : what a column can hold, null included;
* `asInteger?` and its kin : the payload of one kind of value;
* `toText` : the text a value has in storage;
* `inspect` : kind and payload, as error messages show them.
-/

namespace KeyedRows

inductive Value where
  | null
  | integer (i : Int64)
  | string (s : String)
  | boolean (b : Bool)
  | date (d : Date)
  /-- A date and time to the second. -/
  | dateTime (t : DateTime)
  /-- A date and time below the second. -/
  | timestamp (t : DateTime)
  | decimal (d : Decimal)
deriving DecidableEq

/-! ## Values of plain data -/

instance : Coe Bool Value := ⟨.boolean⟩
instance : Coe Int64 Value := ⟨.integer⟩
instance : Coe String Value := ⟨.string⟩
instance : Coe Date Value := ⟨.date⟩
instance : Coe Decimal Value := ⟨.decimal⟩

/-- A date and time keeps what it has below the second. -/
instance : Coe DateTime Value := ⟨.timestamp⟩

namespace Value

def ofOption : Option Value → Value
  | some v => v
  | none => null

/-! ## Payloads -/

def isNull : Value → Bool
  | null => true
  | _ => false

def asInteger? : Value → Option Int64
  | integer i => some i
  | _ => none

def asString? : Value → Option String
  | string s => some s
  | _ => none

def asBoolean? : Value → Option Bool
  | boolean b => some b
  | _ => none

def asDate? : Value → Option Date
  | date d => some d
  | _ => none

/-- The date and time of either kind that has both. -/
def asDateTime? : Value → Option DateTime
  | dateTime t | timestamp t => some t
  | _ => none

def asDecimal? : Value → Option Decimal
  | decimal d => some d
  | _ => none

/-! ## Text -/

/-- The text a value has in storage; null has none. -/
def toText : Value → String
  | null => ""
  | integer i => toString i.toInt
  | string s => s
  | boolean b => if b then "1" else "0"
  | date d => d.slashed
  | dateTime t => t.toSeconds
  | timestamp t => t.toMicros
  | decimal d => toString d

/-- Kind and payload of a value. -/
def inspect : Value → String
  | null => "Null"
  | integer i => s!"Integer({i.toInt})"
  | string s => "String(" ++ Text.quote s ++ ")"
  | boolean b => s!"Boolean({b})"
  | date d => "Date(" ++ d.iso ++ ")"
  | dateTime t => "DateTime(" ++ t.iso ++ ")"
  | timestamp t => "Timestamp(" ++ t.iso ++ ")"
  | decimal d =>
    "Decimal(ExactDecimal \x7b mantissa: " ++ toString d.mantissa ++ ", exponent: " ++
      toString d.exponent ++ " \x7d)"

end Value
end KeyedRows
