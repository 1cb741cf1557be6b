import KeyedRows.Context
import KeyedRows.Entity
import KeyedRows.Sql.Condition

/-!
# Writes

* `Table.insert` : an insert of the columns that an entity, a default or the context gives;
* `Table.update` : an update of the row that the baseline of an entity names;
* `Table.delete` : a delete of that row.

An update or delete addresses its row by the key in the baseline, so an edit of a key column never
redirects it. The entity must belong to a table of the same name.
-/

namespace KeyedRows

/-- Columns with the values to write into them. -/
abbrev Assignments := List (Column × Value)

namespace Entity

/-! ## What is written -/

/-- What an insert writes into a column, if anything. -/
def insertValue? (ctx : Context) (c : Column) (f : Field) : Option Value :=
  match c.stamp with
  | some s => if ctx.input then f.assigned? <|> some (ctx.stampValue s) else some (ctx.stampValue s)
  | none => f.assigned? <|> c.default

def inserts (e : Entity) (ctx : Context) : Assignments :=
  e.states.filterMap fun (c, f) => (insertValue? ctx c f).map fun v => (c, v)

/-- An update leaves an unchanged column out if it belongs to the key, or if only changes count. -/
def isTarget (e : Entity) (t : Table) (ctx : Context) (c : Column) : Bool :=
  !c.isStamp && (e.isChanged c.id || !(ctx.diffOnly || t.isKeyColumn c.id))

/-- The columns that an update is for, with their new values. -/
def updates (e : Entity) (t : Table) (ctx : Context) : Assignments :=
  e.states.filterMap fun (c, f) =>
    if e.isTarget t ctx c then f.assigned?.map fun v => (c, v) else none

/-- The audit columns that go with an update. -/
def updateStamps (e : Entity) (ctx : Context) : Assignments :=
  e.states.filterMap fun (c, f) =>
    match c.stamp with
    | some s =>
      if s.onUpdate then
        some (c, ((if ctx.input then f.assigned? else none).getD (ctx.stampValue s)))
      else none
    | none => none

end Entity

/-- The row does not hold the new value yet. -/
def differs (c : Column) (v : Value) : Predicate :=
  if v.isNull then .isNotNull c.id else .any [.isNull c.id, .compare c.id .ne v]

namespace Table

/-! ## Parts of statements -/

def checkEntity (t : Table) (e : Entity) : Except Error Unit :=
  if e.table.name = t.name then .ok () else .error (.schema (.foreignEntity e.table.name t.name))

def requireKey (t : Table) : Except Error Unit :=
  if t.hasKey then .ok () else .error (.schema (.noKey t.name))

def keyPredicate (t : Table) (keys : List Value) : Predicate :=
  .all (t.keyColumns.zipWith .eq keys)

def bindAll (t : Table) (values : Assignments) : Except Error (List Piece) :=
  values.mapM fun (c, v) => t.bind c.id v

def setClause (t : Table) (values : Assignments) : Except Error (List Piece) := do
  let bindings ← t.bindAll values
  return Piece.commaList <|
    values.zipWith (fun (c, _) b => [.name c.id, .text " = ", b]) bindings

/-! ## Statements -/

def insert (t : Table) (style : Style) (e : Entity) (ctx : Context) : Except Error Statement := do
  t.checkEntity e
  let values := e.inserts ctx
  let pieces : List Piece ←
    if values.isEmpty then pure [.text " DEFAULT VALUES"]
    else do
      let bindings ← t.bindAll values
      pure <| .text " (" :: Piece.names (values.map fun (c, _) => c.id) ++ .text ") VALUES (" ::
        Piece.commaList (bindings.map fun b => [b]) ++ [.text ")"]
  return .ofPieces style .insert ([.text "INSERT INTO ", .name t.name] ++ pieces)

/-- The key of the baseline, and in diff-only mode that some new value is not there yet. -/
def updateCondition (t : Table) (ctx : Context) (keys : List Value) (targets : Assignments) :
    Predicate :=
  .all <| t.keyPredicate keys ::
    if ctx.diffOnly then [.any (targets.map fun (c, v) => differs c v)] else []

/-- The update of an entity's row, or nothing where no column needs writing. -/
def update (t : Table) (style : Style) (e : Entity) (ctx : Context) :
    Except Error (Option Statement) := do
  t.checkEntity e
  t.requireKey
  let keys ← e.baselineKey
  let targets := e.updates t ctx
  if targets.isEmpty then return none
  let assignments ← t.setClause (targets ++ e.updateStamps ctx)
  let condition ← (t.updateCondition ctx keys targets).pieces t style
  return some <| .ofPieces style .update <|
    [.text "UPDATE ", .name t.name, .text " SET "] ++ assignments ++ .text " WHERE " :: condition

def delete (t : Table) (style : Style) (e : Entity) : Except Error Statement := do
  t.checkEntity e
  t.requireKey
  let keys ← e.baselineKey
  let condition ← (t.keyPredicate keys).pieces t style
  return .ofPieces style .delete <|
    [.text "DELETE FROM ", .name t.name, .text " WHERE "] ++ condition

end Table
end KeyedRows
