import KeyedRows.KeyRange
import KeyedRows.Sql.Statement

/-!
# Conditions in statements

* `Table.bind` : the binding of a value for a column, in the storage form of the column;
* `Predicate.pieces` : a predicate as SQL writes it.

A conjunction or disjunction inside another stands in parentheses. A pattern is bound as text
whatever the type of its column.
-/

namespace KeyedRows

/-- The binding of a value for a column, in the storage form of that column. -/
def Table.bind (t : Table) (column : String) (v : Value) : Except Error Piece := do
  let c ← t.requireColumn column
  match c.type.store v with
  | .ok cell => .ok (.binding cell)
  | .error e => .error (.value e)

namespace Predicate

/-- What follows a pattern. -/
def escapeClause (style : Style) : List Piece :=
  match style.likeEscape with
  | some c => [.text " ESCAPE ", .quoted c]
  | none => []

def grouped (p : Predicate) (pieces : List Piece) : List Piece :=
  if p.isCompound then .text "(" :: pieces ++ [.text ")"] else pieces

/-- Parts joined by a word, or what stands for no parts. -/
def joined (word none : String) (parts : List (List Piece)) : List Piece :=
  if parts.isEmpty then [.text none] else (parts.intersperse [.text word]).flatten

mutual

/-- The condition in SQL, or the error of the first binding that has no storage form. -/
def pieces (t : Table) (style : Style) : Predicate → Except Error (List Piece)
  | compare column op v => do
    return [.name column, .text (" " ++ op.symbol ++ " "), ← t.bind column v]
  | isNull column => return [.name column, .text " IS NULL"]
  | isNotNull column => return [.name column, .text " IS NOT NULL"]
  | isIn column values => do
    let bindings ← values.mapM fun v => t.bind column v
    return [.name column, .text " IN ("] ++ Piece.commaList (bindings.map fun b => [b]) ++ [.text ")"]
  | between column low high => do
    let low ← t.bind column low
    return [.name column, .text " BETWEEN ", low, .text " AND ", ← t.bind column high]
  | like column pattern => do
    let _ ← t.requireColumn column
    return [.name column, .text " LIKE ", .binding (.text pattern.toText)] ++ escapeClause style
  | and parts => return joined " AND " "1 = 1" (← partPieces t style parts)
  | or parts => return joined " OR " "1 = 0" (← partPieces t style parts)

def partPieces (t : Table) (style : Style) : List Predicate → Except Error (List (List Piece))
  | [] => return []
  | p :: parts => do
    let first ← p.pieces t style
    return grouped p first :: (← partPieces t style parts)

end

end Predicate
end KeyedRows
