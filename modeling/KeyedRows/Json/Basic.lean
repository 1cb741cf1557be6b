/-!
# JSON documents

* `Json` : the tree of a document, fields in order and repetitions kept;
* `Json.fields?` : the fields of a record, written by name or by position;
* `Json.required`, `Json.optional`, `Json.orDefault` : how a record reads one of them;
* `Json.word?` : a word out of a fixed set.
-/

namespace KeyedRows

inductive Json where
  | null
  | bool (b : Bool)
  /-- A number without fraction and exponent; a minus sign before zero makes it no such number. -/
  | int (n : Int)
  /-- Any other number. -/
  | real
  | text (s : String)
  | array (xs : List Json)
  | object (fields : List (String × Json))
  /-- A string that leaves a surrogate unpaired, or an object with such a name: it may be skipped
  but not read. -/
  | unpaired

namespace Json

/-- The field of a given name: absent, present once, or repeated and so unreadable. -/
def field? (fields : List (String × Json)) (name : String) : Option (Option Json) :=
  match fields.filter fun f => f.1 = name with
  | [] => some none
  | [f] => some (some f.2)
  | _ => none

/-- The fields of a record in the order of `names`. An object may have other fields besides; an
array gives the fields by position and may stop early. -/
def fields? (names : List String) : Json → Option (List (Option Json))
  | object fields => names.mapM (field? fields)
  | array xs =>
    if xs.length ≤ names.length then
      some (xs.map some ++ List.replicate (names.length - xs.length) none)
    else none
  | _ => none

/-! ## Reading one field -/

def required {α : Type} (read : Json → Option α) (j : Option Json) : Option α := j.bind read

/-- The field may be left out and then has a default. -/
def orDefault {α : Type} (default : α) (read : Json → Option α) : Option Json → Option α
  | none => some default
  | some j => read j

/-- The field may be left out or null. -/
def optional {α : Type} (read : Json → Option α) : Option Json → Option (Option α)
  | none | some null => some none
  | some j => (read j).map some

/-! ## Reading a value -/

def bool? : Json → Option Bool
  | bool b => some b
  | _ => none

def text? : Json → Option String
  | text s => some s
  | _ => none

def char? (j : Json) : Option Char :=
  match j.text?.map String.toList with
  | some [c] => some c
  | _ => none

def list? {α : Type} (read : Json → Option α) : Json → Option (List α)
  | array xs => xs.mapM read
  | _ => none

/-- A bare word, or the one field of an object whose value is null. -/
def label? : Json → Option String
  | text s => some s
  | object [(s, null)] => some s
  | _ => none

/-- The choice that a word stands for. -/
def word? {α : Type} (words : List (String × α)) (j : Json) : Option α :=
  j.label?.bind fun s => words.lookup s

/-- What is written for a part that may be absent. -/
def ofOption {α : Type} (write : α → Json) : Option α → Json
  | some a => write a
  | none => null

end Json
end KeyedRows
