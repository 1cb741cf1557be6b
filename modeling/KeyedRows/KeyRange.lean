import KeyedRows.Predicate
import KeyedRows.Table

/-!
# Ranges of a key

* `KeyRange` : a set of rows, given by values for leading columns of the key;
* `KeyRange.predicate?` : the condition that picks those rows, if the values fit the key.

Rows compare column by column in key order, and a descending column compares backwards. Fewer
values than the key has columns leave the other columns free.
-/

namespace KeyedRows

/-- Rows by the leading columns of their key. -/
inductive KeyRange where
  | eq (values : List Value)
  | gt (values : List Value)
  | lt (values : List Value)
  | ge (values : List Value)
  | le (values : List Value)
  /-- Both ends are included; they may have different lengths. -/
  | between (start stop : List Value)
  /-- The leading columns equal one of the tuples. -/
  | isIn (tuples : List (List Value))
  /-- All values but the last are equal, and the last one is a pattern. -/
  | like (values : List Value)

namespace KeyRange

def name : KeyRange → String
  | eq _ => "eq"
  | gt _ => "gt"
  | lt _ => "lt"
  | ge _ => "ge"
  | le _ => "le"
  | between _ _ => "between"
  | isIn _ => "in"
  | like _ => "like"

/-- Some values, and no more than the key has columns. -/
def Fits (key : Key) (values : List Value) : Prop := values ≠ [] ∧ values.length ≤ key.length

instance (key : Key) (values : List Value) : Decidable (Fits key values) :=
  inferInstanceAs (Decidable (_ ∧ _))

def equalities (key : Key) (values : List Value) : List Predicate :=
  key.zipWith (fun part v => .eq part.column v) values

/-- An operator in the order of one column of the key. -/
def directed (part : KeyPart) (op : Comparison) : Comparison :=
  match part.direction with
  | .ascending => op
  | .descending => op.mirrored

/-- One clause a value: the columns before it are equal, and its own column compares by `strict`, or
by `last` for the last value. -/
def clauses (strict last : Comparison) : List Predicate → Key → List Value → List Predicate
  | equal, part :: _, [v] => [.all (equal ++ [.compare part.column (directed part last) v])]
  | equal, part :: key, v :: values =>
    .all (equal ++ [.compare part.column (directed part strict) v]) ::
      clauses strict last (equal ++ [.eq part.column v]) key values
  | _, _, _ => []

/-- The rows whose key lies on one side of the values: the first column to differ lies on that side
by `strict`, or all but the last are equal and that one compares by `last`. -/
def lexicographic (key : Key) (values : List Value) (strict last : Comparison) : Predicate :=
  .any (clauses strict last [] key values)

def atLeast (key : Key) (values : List Value) : Predicate := lexicographic key values .gt .ge

def atMost (key : Key) (values : List Value) : Predicate := lexicographic key values .lt .le

/-- Two bounds on one column are one condition; a descending column has them exchanged. -/
def within (key : Key) (start stop : List Value) : Predicate :=
  match key, start, stop with
  | part :: _, [low], [high] =>
    match part.direction with
    | .ascending => .between part.column low high
    | .descending => .between part.column high low
  | _, _, _ => .all [atLeast key start, atMost key stop]

/-- The only value of a tuple, unless it is null, which no list of values matches. -/
def single? : List Value → Option Value
  | [v] => if v.isNull then none else some v
  | _ => none

/-- One of the tuples is equal: a list of values where each tuple has one that is not null. -/
def oneOf (key : Key) (tuples : List (List Value)) : Predicate :=
  match key, tuples.mapM single? with
  | part :: _, some values => .isIn part.column values
  | _, _ => .any (tuples.map fun values => .all (equalities key values))

/-- Equality for each value but the last, which is a pattern for its column. -/
def pattern : Key → List Value → List Predicate
  | part :: _, [v] => [.like part.column v]
  | part :: key, v :: values => .eq part.column v :: pattern key values
  | _, _ => []

/-- The condition of the range, or nothing where its values do not fit the key, so that no row
matches. -/
def predicate? (key : Key) : KeyRange → Option Predicate
  | eq values => if Fits key values then some (.all (equalities key values)) else none
  | gt values => if Fits key values then some (lexicographic key values .gt .gt) else none
  | lt values => if Fits key values then some (lexicographic key values .lt .lt) else none
  | ge values => if Fits key values then some (atLeast key values) else none
  | le values => if Fits key values then some (atMost key values) else none
  | between start stop =>
    if Fits key start ∧ Fits key stop then some (within key start stop) else none
  | isIn tuples =>
    if tuples ≠ [] ∧ ∀ values ∈ tuples, Fits key values then some (oneOf key tuples) else none
  | like values => if Fits key values then some (.all (pattern key values)) else none

end KeyRange
end KeyedRows
