import KeyedRows.Value

/-!
# Predicates over the columns of a table

* `Comparison` : the six comparison operators;
* `Predicate` : a condition on one row;
* `Predicate.eq` : equality in which null equals null;
* `Predicate.all`, `Predicate.any` : conjunction and disjunction without needless nesting.
-/

namespace KeyedRows

inductive Comparison where
  | eq | ne | lt | le | gt | ge
deriving DecidableEq

namespace Comparison

def symbol : Comparison → String
  | eq => "="
  | ne => "<>"
  | lt => "<"
  | le => "<="
  | gt => ">"
  | ge => ">="

def mirrored : Comparison → Comparison
  | lt => gt
  | le => ge
  | gt => lt
  | ge => le
  | eq => eq
  | ne => ne

end Comparison

inductive Predicate where
  | compare (column : String) (op : Comparison) (value : Value)
  | isNull (column : String)
  | isNotNull (column : String)
  | isIn (column : String) (values : List Value)
  /-- Both ends are included. -/
  | between (column : String) (low high : Value)
  | like (column : String) (pattern : Value)
  /-- True of every row if there are no parts. -/
  | and (parts : List Predicate)
  /-- False of every row if there are no parts. -/
  | or (parts : List Predicate)

namespace Predicate

/-- The column holds the value; null is held where the column is null. -/
def eq (column : String) (v : Value) : Predicate :=
  if v.isNull then isNull column else compare column .eq v

/-- The parts of a conjunction, or the predicate as the only part. -/
def conjuncts : Predicate → List Predicate
  | and parts => parts
  | p => [p]

/-- The parts of a disjunction, or the predicate as the only part. -/
def disjuncts : Predicate → List Predicate
  | or parts => parts
  | p => [p]

/-- The conjunction of some predicates; conjunctions among them are merged into it, and a single
part stands for itself. -/
def all (parts : List Predicate) : Predicate :=
  match parts.flatMap conjuncts with
  | [p] => p
  | flat => and flat

/-- The disjunction of some predicates; disjunctions among them are merged into it, and a single
part stands for itself. -/
def any (parts : List Predicate) : Predicate :=
  match parts.flatMap disjuncts with
  | [p] => p
  | flat => or flat

def isCompound : Predicate → Bool
  | and _ | or _ => true
  | _ => false

end Predicate
end KeyedRows
