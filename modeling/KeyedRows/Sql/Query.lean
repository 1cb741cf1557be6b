import KeyedRows.Sql.Condition

/-!
# Queries

* `Query` : which rows to select, how many of them and in which direction;
* `Table.select`, `Table.count` : the statement, or nothing where the range matches no row;
* `Table.selectWhere` : a select with a given condition.

A select lists every column and orders the rows by the key.
-/

namespace KeyedRows

structure Query where
  /-- Every row without one. -/
  range : Option KeyRange := none
  limit : Option Nat := none
  /-- Walks the key order backwards. -/
  reverse : Bool := false

namespace Query

/-- The same rows in the opposite order. -/
def reversed (q : Query) : Query := { q with reverse := !q.reverse }

def first (range : KeyRange) : Query := { range := some range, limit := some 1 }

end Query

namespace Table

/-- The largest limit that can be bound: the largest 64-bit integer. -/
def maxLimit : Nat := 9223372036854775807

def limitCell (n : Nat) : Cell := .integer (Int64.ofNat (min n maxLimit))

def whereClause (t : Table) (style : Style) : Option Predicate → Except Error (List Piece)
  | none => return []
  | some p => return .text " WHERE " :: (← p.pieces t style)

/-- The key columns with their directions, turned round for a backward walk. -/
def orderClause (t : Table) (reverse : Bool) : List Piece :=
  if t.hasKey then
    .text " ORDER BY " :: Piece.commaList (t.key.map fun part =>
      let direction := if reverse then part.direction.reversed else part.direction
      [.name part.column, .text (" " ++ direction.keyword)])
  else []

def limitClause : Option Nat → List Piece
  | none => []
  | some n => [.text " LIMIT ", .binding (limitCell n)]

/-- A select of the rows under a condition. -/
def selectWhere (t : Table) (style : Style) (p : Option Predicate) (limit : Option Nat)
    (reverse : Bool) : Except Error Statement := do
  let condition ← t.whereClause style p
  return .ofPieces style .select <|
    .text "SELECT " :: Piece.names (t.columns.map Column.id) ++ [.text " FROM ", .name t.name] ++
      condition ++ t.orderClause reverse ++ limitClause limit

/-- The condition of an optional range: `none` where the range matches no row. -/
def condition? (t : Table) : Option KeyRange → Option (Option Predicate)
  | none => some none
  | some range => (range.predicate? t.key).map some

def select (t : Table) (style : Style) (q : Query) : Except Error (Option Statement) :=
  match t.condition? q.range with
  | none => .ok none
  | some p => some <$> t.selectWhere style p q.limit q.reverse

def count (t : Table) (style : Style) (range : Option KeyRange) : Except Error (Option Statement) :=
  match t.condition? range with
  | none => .ok none
  | some p => do
    let condition ← t.whereClause style p
    return some (.ofPieces style .count ([.text "SELECT COUNT(*) FROM ", .name t.name] ++ condition))

end Table
end KeyedRows
