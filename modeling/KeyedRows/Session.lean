import KeyedRows.Sql.Query
import KeyedRows.Sql.Write

/-!
# Sessions

* `Storage` : what runs statements, as a pair of functions on its state;
* `Session` : the context and the style of one unit of work;
* `Session.select`, `first`, `count` : rows of a table as entities, or their number;
* `Session.insert`, `update`, `delete` : writes of one entity, each with the entity as it is after.

Every call runs at most one statement. After a successful write of a row the entity has its fields
as the baseline; after a failure it is the entity that was given.
-/

namespace KeyedRows

/-- Runs statements on a state of type `σ`. -/
structure Storage (σ : Type) where
  /-- The rows that a query returns. -/
  fetch : Statement → σ → Except StorageFailure (List Row) × σ
  /-- The number of rows that a write affects. -/
  execute : Statement → σ → Except StorageFailure Nat × σ

namespace Storage
variable {σ : Type} (x : Storage σ)

/-- Names the statement that failed. -/
def describe {α : Type} (s : Statement) : Except StorageFailure α → Except Error α :=
  Except.mapError (.storage s.sql)

def rows (s : Statement) (state : σ) : Except Error (List Row) × σ :=
  let (result, state) := x.fetch s state
  (describe s result, state)

def affected (s : Statement) (state : σ) : Except Error Nat × σ :=
  let (result, state) := x.execute s state
  (describe s result, state)

end Storage

structure Session where
  context : Context
  style : Style := {}
deriving DecidableEq

namespace Session
variable {σ : Type} (x : Storage σ) (u : Session)

/-! ## Reading -/

/-- The rows of a query in key order. -/
def select (t : Table) (q : Query) (state : σ) : Except Error (List Entity) × σ :=
  match t.select u.style q with
  | .error e => (.error e, state)
  | .ok none => (.ok [], state)
  | .ok (some s) =>
    let (result, state) := x.rows s state
    (result.bind fun rows => rows.mapM (Entity.ofRow t), state)

def first (t : Table) (range : KeyRange) (state : σ) : Except Error (Option Entity) × σ :=
  let (result, state) := u.select x t (.first range) state
  (result.map List.head?, state)

/-- The number in the first cell of a result; none and what is below zero count as zero. -/
def readCount (rows : List Row) : Except Error Nat :=
  match rows.head?.bind List.head? with
  | none => .ok 0
  | some c => match ColumnType.integer.load c with
    | .ok (.integer n) => .ok n.toInt.toNat
    | .ok _ => .ok 0
    | .error e => .error (.value e)

def count (t : Table) (range : Option KeyRange) (state : σ) : Except Error Nat × σ :=
  match t.count u.style range with
  | .error e => (.error e, state)
  | .ok none => (.ok 0, state)
  | .ok (some s) =>
    let (result, state) := x.rows s state
    (result.bind readCount, state)

/-! ## Writing -/

/-- Inserts an entity; its fields are the baseline then, also where something else was written. -/
def insert (e : Entity) (state : σ) : (Except Error Nat × Entity) × σ :=
  match e.table.insert u.style e u.context with
  | .error err => ((.error err, e), state)
  | .ok s => match x.affected s state with
    | (.error err, state) => ((.error err, e), state)
    | (.ok n, state) => ((.ok n, e.capture), state)

/-- Updates the row of an entity, unless nothing needs writing; if a row was changed, the fields are
the baseline then, also those that were not written. -/
def update (e : Entity) (state : σ) : (Except Error Nat × Entity) × σ :=
  match e.table.update u.style e u.context with
  | .error err => ((.error err, e), state)
  | .ok none => ((.ok 0, e), state)
  | .ok (some s) => match x.affected s state with
    | (.error err, state) => ((.error err, e), state)
    | (.ok n, state) => ((.ok n, if n = 0 then e else e.capture), state)

def delete (e : Entity) (state : σ) : Except Error Nat × σ :=
  match e.table.delete u.style e with
  | .error err => (.error err, state)
  | .ok s => x.affected s state

end Session
end KeyedRows
