import KeyedRows.Table

/-!
# Write contexts

* `Context` : who writes, with which program and when, and how writes behave;
* `Context.stampValue` : what it puts into an audit column.
-/

namespace KeyedRows

structure Context where
  timestamp : DateTime
  user : String
  program : String
  /-- Data from elsewhere is replayed: audit columns that are set keep their values. -/
  input : Bool := false
  /-- Updates write changed columns only and skip rows that are equal already. -/
  diffOnly : Bool := false
deriving DecidableEq

/-- The value that this context gives an audit column. -/
def Context.stampValue (ctx : Context) : Stamp → Value
  | .createdAt | .updatedAt => .timestamp ctx.timestamp
  | .createdBy | .updatedBy => .string ctx.user
  | .createdProgram | .updatedProgram => .string ctx.program

end KeyedRows
