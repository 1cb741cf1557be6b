import KeyedRows.Cell
import KeyedRows.Sql.Style

/-!
# Statements

* `Piece` : a stretch of statement text, a name, a bound cell or a quoted character;
* `Statement` : the kind of a statement, its text and its bindings;
* `Statement.ofPieces` : the statement that a list of pieces makes up.

A cell enters the text as a placeholder alone, numbered by its place among the bindings.
-/

namespace KeyedRows

/-- What a statement is put together from. -/
inductive Piece where
  | text (s : String)
  | name (s : String)
  | binding (c : Cell)
  /-- A character between single quotes, itself doubled if it is one. -/
  | quoted (c : Char)
deriving DecidableEq

inductive StatementKind where
  | select | count | insert | update | delete
deriving DecidableEq

namespace StatementKind

def isQuery : StatementKind → Bool
  | select | count => true
  | insert | update | delete => false

def name : StatementKind → String
  | select => "Select"
  | count => "Count"
  | insert => "Insert"
  | update => "Update"
  | delete => "Delete"

end StatementKind

/-- A statement as storage gets it; the bindings are in the order of their placeholders. -/
structure Statement where
  kind : StatementKind
  sql : String
  bindings : List Cell
deriving DecidableEq

namespace Piece

/-- The text of some pieces, of which the first binding has the index `next`. -/
def render (style : Style) (next : Nat) : List Piece → List Char
  | [] => []
  | text s :: pieces => s.toList ++ render style next pieces
  | name s :: pieces => style.identifier s ++ render style next pieces
  | binding _ :: pieces => style.placeholder.render next ++ render style (next + 1) pieces
  | quoted c :: pieces => '\x27' :: Style.doubled '\x27' [c] ++ '\x27' :: render style next pieces

def binding? : Piece → Option Cell
  | binding c => some c
  | _ => none

def commaList (items : List (List Piece)) : List Piece :=
  (items.intersperse [text ", "]).flatten

def names (ids : List String) : List Piece := commaList (ids.map fun id => [name id])

end Piece

def Statement.ofPieces (style : Style) (kind : StatementKind) (pieces : List Piece) : Statement where
  kind := kind
  sql := String.ofList (Piece.render style 1 pieces)
  bindings := pieces.filterMap Piece.binding?

end KeyedRows
