import KeyedRows.Json.Parser

/-!
# How SQL text is written

* `Placeholder` : the three ways to mark a binding;
* `Style` : placeholders, quotes around names and the escape character of `LIKE`;
* `Style.identifier` : a name as it stands in a statement;
* `Style.load?` : a style from JSON text.
-/

namespace KeyedRows

/-- How a binding is marked in a statement. -/
inductive Placeholder where
  | question
  | numbered
  | dollar
deriving DecidableEq

namespace Placeholder

def name : Placeholder → String
  | question => "question"
  | numbered => "numbered"
  | dollar => "dollar"

def render (index : Nat) : Placeholder → List Char
  | question => ['?']
  | numbered => '?' :: Nat.toDigits 10 index
  | dollar => '$' :: Nat.toDigits 10 index

def words : List (String × Placeholder) := [question, numbered, dollar].map fun p => (p.name, p)

end Placeholder

structure Style where
  placeholder : Placeholder := .question
  /-- Names of tables and columns stand in double quotes. -/
  quoteNames : Bool := true
  /-- Declared as the escape character after every `LIKE`. -/
  likeEscape : Option Char := none
deriving DecidableEq

namespace Style

/-- Text in which every `mark` is written twice. -/
def doubled (mark : Char) (cs : List Char) : List Char :=
  cs.flatMap fun c => if c = mark then [c, c] else [c]

def identifier (style : Style) (name : String) : List Char :=
  if style.quoteNames then '"' :: doubled '"' name.toList ++ ['"'] else name.toList

def toJson (style : Style) : Json :=
  .object [("placeholder", .text style.placeholder.name), ("quote_identifiers", .bool style.quoteNames),
    ("like_escape", .ofOption (fun c => .text (String.singleton c)) style.likeEscape)]

/-- Any field may be left out and then has its default. -/
def ofJson? (j : Json) : Option Style := do
  let [placeholder, quoteNames, likeEscape] ←
    j.fields? ["placeholder", "quote_identifiers", "like_escape"] | none
  return {
    placeholder := ← Json.orDefault .question (Json.word? Placeholder.words) placeholder
    quoteNames := ← Json.orDefault true Json.bool? quoteNames
    likeEscape := ← Json.optional Json.char? likeEscape }

def load? (text : String) : Option Style := (Json.parse? text).bind ofJson?

end Style
end KeyedRows
