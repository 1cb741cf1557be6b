import KeyedRows.ColumnType

/-!
# Errors

* `Error` : why a call on tables, entities or storage fails;
* `SchemaError`, `TupleError`, `StorageFailure` : the causes that have several forms;
* `Error.message`, `Error.causes` : what an error says, and what the errors behind it say.
-/

namespace KeyedRows

inductive SchemaError where
  | duplicateColumn (column table : String)
  /-- A part of the key names no column. -/
  | undeclaredKeyColumn (column table : String)
  | rowWidth (cells : Nat) (table : String) (columns : Nat)
  | noKey (table : String)
  /-- An entity of one table met the statements of another. -/
  | foreignEntity (entityTable table : String)
deriving DecidableEq

/-- Why a list of values is no leading part of a key. -/
inductive TupleError where
  | noKey
  | empty
  | tooLong (values width : Nat)
deriving DecidableEq

/-- A failure that storage reports, with the error that it wraps, if any. -/
structure StorageFailure where
  message : String
  cause : Option String := none
deriving DecidableEq

/-- A failure that says what the error it wraps says. -/
def StorageFailure.wrapping (cause : String) : StorageFailure := ⟨cause, some cause⟩

inductive Error where
  | value (e : ValueError)
  | unknownColumn (table column : String)
  /-- The loaded key of an entity has no value for a column. -/
  | missingKeyValue (table column : String)
  | invalidTuple (table : String) (e : TupleError)
  | schema (e : SchemaError)
  /-- A batch is used after a failed flush. -/
  | batchPoisoned
  | storage (sql : String) (e : StorageFailure)
deriving DecidableEq

def SchemaError.message : SchemaError → String
  | duplicateColumn c t => "duplicate column `" ++ c ++ "` in table `" ++ t ++ "`"
  | undeclaredKeyColumn c t => "key column `" ++ c ++ "` is not declared in table `" ++ t ++ "`"
  | rowWidth n t m => s!"row has {n} values but table `" ++ t ++ s!"` declares {m} columns"
  | noKey t => "table `" ++ t ++ "` has no composite key"
  | foreignEntity e t => "entity of table `" ++ e ++ "` passed to builder for `" ++ t ++ "`"

def TupleError.message : TupleError → String
  | noKey => "table has no composite key"
  | empty => "empty key tuple"
  | tooLong n m => s!"{n} values for a {m}-column key"

namespace Error

def message : Error → String
  | value e => "protocol error: " ++ e.message
  | unknownColumn t c => "unknown column `" ++ c ++ "` in table `" ++ t ++ "`"
  | missingKeyValue t c => "missing key value for `" ++ c ++ "` in table `" ++ t ++ "`"
  | invalidTuple t e => "invalid key tuple for table `" ++ t ++ "`: " ++ e.message
  | schema e => "invalid schema: " ++ e.message
  | batchPoisoned => "batch planner is unusable after a failed flush"
  | storage sql e => "storage error executing `" ++ sql ++ "`: " ++ e.message

/-- The messages of the errors behind this one, outermost first. -/
def causes : Error → List String
  | value e => [e.message]
  | storage _ e => e.message :: e.cause.toList
  | _ => []

end Error
end KeyedRows
