import KeyedRows.Binary64
import KeyedRows.Text.Quoted

/-!
# Storage cells

* `Cell` : a value as it is bound to a statement or fetched from storage;
* `Row` : the cells of one result row;
* `Cell.ofBool` : a truth value in storage;
* `Cell.toText` : a cell as error messages show it.
-/

namespace KeyedRows

/-- A value in storage form. -/
inductive Cell where
  | null
  | integer (i : Int64)
  | real (x : Float)
  | text (s : String)
deriving DecidableEq

/-- One result row, its cells in select order. -/
abbrev Row := List Cell

namespace Cell

/-- Booleans are stored as 1 and 0. -/
def ofBool (b : Bool) : Cell := .integer (if b then 1 else 0)

def isNull : Cell → Bool
  | null => true
  | _ => false

/-- A cell as messages show it, text in quotes. -/
def toText : Cell → String
  | null => "NULL"
  | integer i => toString i.toInt
  | real x => (Binary64.ofFloat x).toText
  | text s => Text.quote s

end Cell
end KeyedRows
