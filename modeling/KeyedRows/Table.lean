import KeyedRows.Error

/-!
# Tables

* `Column`, `Stamp` : a column, and the audit columns that writes fill in by themselves;
* `KeyPart`, `Direction` : a column of the key and the way it is ordered;
* `Table` : a name, columns in select order and an ordered key;
* `Table.position?`, `Table.requireColumn` : look-up by id, where the first column of an id counts;
* `Table.validate` : ids are distinct and the key names declared columns.
-/

namespace KeyedRows

/-- The audit columns: who wrote a row, with which program and when. -/
inductive Stamp where
  | createdAt | createdBy | createdProgram
  | updatedAt | updatedBy | updatedProgram
deriving DecidableEq

/-- Written by an update as well as by an insert. -/
def Stamp.onUpdate : Stamp → Bool
  | updatedAt | updatedBy | updatedProgram => true
  | createdAt | createdBy | createdProgram => false

structure Column where
  id : String
  type : ColumnType
  /-- The value that an insert writes where none is set. -/
  default : Option Value := none
  stamp : Option Stamp := none
deriving DecidableEq

def Column.isStamp (c : Column) : Bool := c.stamp.isSome

inductive Direction where
  | ascending
  | descending
deriving DecidableEq

namespace Direction

def keyword : Direction → String
  | ascending => "ASC"
  | descending => "DESC"

def reversed : Direction → Direction
  | ascending => descending
  | descending => ascending

end Direction

structure KeyPart where
  column : String
  direction : Direction := .ascending
deriving DecidableEq

/-- The columns that order the rows, most significant first. -/
abbrev Key := List KeyPart

structure Table where
  name : String
  columns : List Column := []
  /-- Empty for a table without range queries. -/
  key : Key := []
deriving DecidableEq

namespace Table

/-! ## Look-up -/

/-- Where the first column of an id stands. -/
def position? (t : Table) (id : String) : Option Nat := t.columns.findIdx? fun c => c.id = id

def column? (t : Table) (id : String) : Option Column := t.columns.find? fun c => c.id = id

def requirePosition (t : Table) (id : String) : Except Error Nat :=
  match t.position? id with
  | some i => .ok i
  | none => .error (.unknownColumn t.name id)

def requireColumn (t : Table) (id : String) : Except Error Column :=
  match t.column? id with
  | some c => .ok c
  | none => .error (.unknownColumn t.name id)

def keyColumns (t : Table) : List String := t.key.map KeyPart.column

def hasKey (t : Table) : Bool := !t.key.isEmpty

def isKeyColumn (t : Table) (id : String) : Bool := t.keyColumns.contains id

/-! ## Validity -/

/-- The first of `ids` that stands in `seen` or before it in `ids`. -/
def firstRepeated? : List String → List String → Option String
  | [], _ => none
  | id :: ids, seen => if id ∈ seen then some id else firstRepeated? ids (id :: seen)

/-- The first id that is none of `declared`. -/
def firstUndeclared? (ids declared : List String) : Option String :=
  ids.find? fun id => id ∉ declared

/-- Column ids are distinct, and every part of the key names a column. -/
def validate (t : Table) : Except SchemaError Unit :=
  let ids := t.columns.map Column.id
  match firstRepeated? ids [], firstUndeclared? t.keyColumns ids with
  | some id, _ => .error (.duplicateColumn id t.name)
  | none, some id => .error (.undeclaredKeyColumn id t.name)
  | none, none => .ok ()

end Table
end KeyedRows
