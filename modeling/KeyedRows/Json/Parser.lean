import KeyedRows.Json.Basic

/-!
# Reading JSON text

* `Json.Token`, `Json.tokens?` : the marks, literals, numbers and strings of a text;
* `Json.value?` : one value from the start of a token list;
* `Json.parse?` : the document of a text, if the text is one.

Both readers recurse on a count that is at least the length of what they read, since each of their
steps consumes a character or a token.
-/

namespace KeyedRows.Json

inductive Token where
  | openArray | closeArray | openObject | closeObject | comma | colon
  | null | bool (b : Bool) | int (n : Int) | real | text (s : String) | unpaired
deriving DecidableEq

/-! ## Strings -/

def hexDigit? (c : Char) : Option Nat :=
  if c.isDigit then some (c.toNat - '0'.toNat)
  else if 'a' ≤ c ∧ c ≤ 'f' then some (c.toNat - 'a'.toNat + 10)
  else if 'A' ≤ c ∧ c ≤ 'F' then some (c.toNat - 'A'.toNat + 10)
  else none

def codeUnit? (a b c d : Char) : Option Nat := do
  return (((← hexDigit? a) * 16 + (← hexDigit? b)) * 16 + (← hexDigit? c)) * 16 + (← hexDigit? d)

/-- The character that a one-letter escape stands for. -/
def escaped? (c : Char) : Option Char :=
  [('"', '"'), ('\\', '\\'), ('/', '/'), ('b', '\x08'), ('f', '\x0c'), ('n', '\n'), ('r', '\r'),
    ('t', '\t')].lookup c

/-- The code points and surrogates up to the closing quote, and the text after it. -/
def stringBody? : List Char → Option (List Nat × List Char)
  | '"' :: cs => some ([], cs)
  | '\\' :: 'u' :: a :: b :: c :: d :: cs => do
    let unit ← codeUnit? a b c d
    let (units, rest) ← stringBody? cs
    return (unit :: units, rest)
  | '\\' :: c :: cs => do
    let c ← escaped? c
    let (units, rest) ← stringBody? cs
    return (c.toNat :: units, rest)
  | c :: cs =>
    if c.toNat < 0x20 ∨ c = '\\' then none
    else (stringBody? cs).map fun (units, rest) => (c.toNat :: units, rest)
  | [] => none

def isHigh (n : Nat) : Bool := 0xD800 ≤ n && n < 0xDC00

def isLow (n : Nat) : Bool := 0xDC00 ≤ n && n < 0xE000

/-- Joins each high surrogate with the low one after it; none may be left over. -/
def pairSurrogates? : List Nat → Option (List Char)
  | [] => some []
  | [a] => if isHigh a || isLow a then none else some [Char.ofNat a]
  | a :: b :: units =>
    if isHigh a then
      if isLow b then
        (pairSurrogates? units).map
          (Char.ofNat (0x10000 + (a - 0xD800) * 0x400 + (b - 0xDC00)) :: ·)
      else none
    else if isLow a then none
    else (pairSurrogates? (b :: units)).map (Char.ofNat a :: ·)

/-- A string from behind its opening quote. -/
def stringToken? (cs : List Char) : Option (Token × List Char) :=
  (stringBody? cs).map fun (units, rest) =>
    (match pairSurrogates? units with
      | some s => .text (String.ofList s)
      | none => .unpaired, rest)

/-! ## Numbers -/

/-- The digits at the start of a text, of which there must be one, and what follows them. -/
def digits? (cs : List Char) : Option (List Char × List Char) :=
  let ds := cs.takeWhile Char.isDigit
  if ds = [] then none else some (ds, cs.dropWhile Char.isDigit)

/-- Skips a fraction; the flag tells whether there was one. -/
def skipFraction? : List Char → Option (Bool × List Char)
  | '.' :: cs => (digits? cs).map fun (_, rest) => (true, rest)
  | cs => some (false, cs)

/-- Skips an exponent; the flag tells whether there was one. -/
def skipExponent? : List Char → Option (Bool × List Char)
  | c :: cs =>
    if c = 'e' ∨ c = 'E' then
      let unsigned := match cs with
        | s :: rest => if s = '+' ∨ s = '-' then rest else cs
        | [] => []
      (digits? unsigned).map fun (_, rest) => (true, rest)
    else some (false, c :: cs)
  | [] => some (false, [])

/-- A number without its sign; only the number zero itself starts with a zero. -/
def unsigned? (negative : Bool) (cs : List Char) : Option (Token × List Char) := do
  let (ds, rest) ← digits? cs
  if ds.head? = some '0' ∧ ds.length ≠ 1 then none
  else
    let n := Nat.ofDigitChars 10 ds 0
    let (fraction, rest) ← skipFraction? rest
    let (exponent, rest) ← skipExponent? rest
    return (if fraction || exponent || (negative && n = 0) then .real
      else .int (if negative then -n else n), rest)

/-! ## Tokens -/

def isSpace (c : Char) : Bool := c = ' ' || c = '\t' || c = '\n' || c = '\r'

def token? (c : Char) (cs : List Char) : Option (Token × List Char) :=
  match c, cs with
  | '[', cs => some (.openArray, cs)
  | ']', cs => some (.closeArray, cs)
  | '\x7b', cs => some (.openObject, cs)
  | '\x7d', cs => some (.closeObject, cs)
  | ',', cs => some (.comma, cs)
  | ':', cs => some (.colon, cs)
  | '"', cs => stringToken? cs
  | '-', cs => unsigned? true cs
  | 'n', 'u' :: 'l' :: 'l' :: cs => some (.null, cs)
  | 't', 'r' :: 'u' :: 'e' :: cs => some (.bool true, cs)
  | 'f', 'a' :: 'l' :: 's' :: 'e' :: cs => some (.bool false, cs)
  | c, cs => unsigned? false (c :: cs)

def tokensWithin? : Nat → List Char → Option (List Token)
  | _, [] => some []
  | 0, _ :: _ => none
  | n + 1, c :: cs =>
    if isSpace c then tokensWithin? n cs
    else (token? c cs).bind fun (t, rest) => (tokensWithin? n rest).map (t :: ·)

def tokens? (cs : List Char) : Option (List Token) := tokensWithin? cs.length cs

/-! ## Values -/

/-- An object, unless one of its names leaves a surrogate unpaired. -/
def ofFields (fields : List (Option String × Json)) : Json :=
  match fields.mapM fun f => f.1.map fun name => (name, f.2) with
  | some fields => object fields
  | none => unpaired

def name? : Token → Option (Option String)
  | .text s => some (some s)
  | .unpaired => some none
  | _ => none

mutual

/-- One value and the tokens after it. -/
def value? : Nat → List Token → Option (Json × List Token)
  | n + 1, t :: ts =>
    match t with
    | .null => some (null, ts)
    | .bool b => some (bool b, ts)
    | .int i => some (int i, ts)
    | .real => some (real, ts)
    | .text s => some (text s, ts)
    | .unpaired => some (unpaired, ts)
    | .openArray =>
      match ts with
      | .closeArray :: rest => some (array [], rest)
      | ts => (elements? n ts).map fun (xs, rest) => (array xs, rest)
    | .openObject =>
      match ts with
      | .closeObject :: rest => some (object [], rest)
      | ts => (members? n ts).map fun (fields, rest) => (ofFields fields, rest)
    | _ => none
  | _, _ => none

/-- One or more values up to the closing bracket. -/
def elements? : Nat → List Token → Option (List Json × List Token)
  | n + 1, ts =>
    match value? n ts with
    | some (x, .comma :: rest) => (elements? n rest).map fun (xs, rest) => (x :: xs, rest)
    | some (x, .closeArray :: rest) => some ([x], rest)
    | _ => none
  | 0, _ => none

/-- One or more named values up to the closing brace. -/
def members? : Nat → List Token → Option (List (Option String × Json) × List Token)
  | n + 1, t :: .colon :: ts =>
    match name? t, value? n ts with
    | some name, some (x, .comma :: rest) =>
      (members? n rest).map fun (fields, rest) => ((name, x) :: fields, rest)
    | some name, some (x, .closeObject :: rest) => some ([(name, x)], rest)
    | _, _ => none
  | _, _ => none

end

/-- The document that the whole text is. -/
def parse? (s : String) : Option Json := do
  let ts ← tokens? s.toList
  match ← value? (2 * ts.length) ts with
  | (j, []) => some j
  | _ => none

end KeyedRows.Json
