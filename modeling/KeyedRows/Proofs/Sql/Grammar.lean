import KeyedRows.Proofs.Evaluation
import KeyedRows.Proofs.Sql.Token

/-!
# The grammar of conditions

* `Operand`, `Expr` : what a condition is made of;
* `comparison?`, `disjunction?`, `condition?` : the condition that some tokens spell, where `AND`
  binds tighter than `OR` and `BETWEEN` takes an `AND` of its own;
* `read?` : the condition of a text with its bindings;
* `Collation`, `Expr.eval` : how storage compares cells, and the truth of a condition on a row;
* `Primary`, `Conjunction`, `Disjunction` : tokens that spell an expression at a level of the
  grammar, with one lemma for each way to put such tokens together.
-/

namespace KeyedRows.Sql

/-! ## Conditions -/

inductive Operand where
  | column (name : String)
  | cell (c : Cell)
deriving DecidableEq

inductive Expr where
  | compare (x : Operand) (op : Comparison) (y : Operand)
  | isNull (x : Operand)
  | isNotNull (x : Operand)
  | isIn (x : Operand) (ys : List Operand)
  | between (x low high : Operand)
  | like (x pattern : Operand) (escape : Option Char)
  | and (a b : Expr)
  | or (a b : Expr)
deriving DecidableEq

/-! ## Reading conditions -/

def Token.operand? : Token → Option Operand
  | name s => some (.column s)
  | literal c => some (.cell c)
  | _ => none

def operands? : List Token → Option (List Operand × List Token)
  | token :: .closing :: rest => token.operand?.map fun x => ([x], rest)
  | token :: .comma :: rest => token.operand?.bind fun x =>
    (operands? rest).map fun (xs, rest) => (x :: xs, rest)
  | _ => none

/-- The tokens after a keyword, where that stands first. -/
def after? (w : String) : List Token → Option (List Token)
  | .word v :: rest => if v = w then some rest else none
  | _ => none

/-- The escape character of a pattern, if one is declared. -/
def escape? (tokens : List Token) : Option (Option Char × List Token) :=
  match after? "ESCAPE" tokens with
  | none => some (none, tokens)
  | some (.literal (.text s) :: rest) => match s.toList with
    | [c] => some (some c, rest)
    | _ => none
  | some _ => none

/-- A comparison, a null test, a list, two bounds or a pattern. -/
def comparison? : List Token → Option (Expr × List Token)
  | x :: .compare op :: y :: rest =>
    x.operand?.bind fun x => y.operand?.map fun y => (.compare x op y, rest)
  | x :: .word "IS" :: .word "NULL" :: rest => x.operand?.map fun x => (.isNull x, rest)
  | x :: .word "IS" :: .word "NOT" :: .word "NULL" :: rest =>
    x.operand?.map fun x => (.isNotNull x, rest)
  | x :: .word "IN" :: .opening :: rest =>
    x.operand?.bind fun x => (operands? rest).map fun (ys, rest) => (.isIn x ys, rest)
  | x :: .word "BETWEEN" :: low :: .word "AND" :: high :: rest =>
    x.operand?.bind fun x => low.operand?.bind fun low =>
      high.operand?.map fun high => (.between x low high, rest)
  | x :: .word "LIKE" :: y :: rest =>
    x.operand?.bind fun x => y.operand?.bind fun y => (escape? rest).map fun (c, rest) =>
      (.like x y c, rest)
  | _ => none

mutual

/-- One or more conjunctions with `OR` between them. -/
def disjunction? : Nat → List Token → Option (Expr × List Token)
  | 0, _ => none
  | fuel + 1, tokens => (conjunction? fuel tokens).bind fun (a, rest) => match after? "OR" rest with
    | some rest => (disjunction? fuel rest).map fun (b, rest) => (.or a b, rest)
    | none => some (a, rest)

/-- One or more primaries with `AND` between them. -/
def conjunction? : Nat → List Token → Option (Expr × List Token)
  | 0, _ => none
  | fuel + 1, tokens => (primary? fuel tokens).bind fun (a, rest) => match after? "AND" rest with
    | some rest => (conjunction? fuel rest).map fun (b, rest) => (.and a b, rest)
    | none => some (a, rest)

/-- A comparison, or a disjunction in parentheses. -/
def primary? : Nat → List Token → Option (Expr × List Token)
  | 0, _ => none
  | fuel + 1, .opening :: tokens => (disjunction? fuel tokens).bind fun (a, rest) => match rest with
    | .closing :: rest => some (a, rest)
    | _ => none
  | _ + 1, tokens => comparison? tokens

end

/-- The condition at the start of some tokens, and the tokens after it. A token takes at most three
steps, one for each level of the grammar. -/
def condition? (tokens : List Token) : Option (Expr × List Token) :=
  disjunction? (3 * tokens.length + 3) tokens

/-- The condition that a text spells with some bindings, where the first placeholder has the index
`next`. -/
def read? (bindings : List Cell) (next : Nat) (cs : List Char) : Option Expr :=
  (filled? bindings next cs).bind fun tokens => match condition? tokens with
    | some (e, []) => some e
    | _ => none

/-! ## The truth of a condition -/

/-- How storage compares cells that are not null. -/
structure Collation where
  /-- The order of two cells, of which one comes from the given column, if from any. -/
  order : Option String → Cell → Cell → Ordering
  /-- The cell fits the pattern, under an escape character. -/
  like : Option String → Option Char → Cell → Cell → Bool
  trans : ∀ column, Std.TransCmp (order column)
  order_integers : ∀ i j : Int64, order none (.integer i) (.integer j) = compare i j

namespace Operand

def value (row : String → Cell) : Operand → Cell
  | column name => row name
  | cell c => c

def column? : Operand → Option String
  | column name => some name
  | cell _ => none

end Operand

namespace Collation

variable (k : Collation) (row : String → Cell)

/-- How two operands compare; nothing where one of them is null. -/
def compare? (x y : Operand) : Option Ordering :=
  if (x.value row).isNull || (y.value row).isNull then none
  else some (k.order (x.column? <|> y.column?) (x.value row) (y.value row))

def test (op : Comparison) (x y : Operand) : Truth :=
  match k.compare? row x y with
  | some o => .ofBool (op.holds o)
  | none => .unknown

def fits (escape : Option Char) (x pattern : Operand) : Truth :=
  if (x.value row).isNull || (pattern.value row).isNull then .unknown
  else .ofBool (k.like x.column? escape (x.value row) (pattern.value row))

end Collation

/-- The truth of a condition on a row. -/
def Expr.eval (k : Collation) (row : String → Cell) : Expr → Truth
  | compare x op y => k.test row op x y
  | isNull x => .ofBool (x.value row).isNull
  | isNotNull x => .ofBool !(x.value row).isNull
  | isIn x ys => .any (ys.map (k.test row .eq x))
  | between x low high => (k.test row .ge x low).and (k.test row .le x high)
  | like x pattern escape => k.fits row escape x pattern
  | and a b => (a.eval k row).and (b.eval k row)
  | or a b => (a.eval k row).or (b.eval k row)

/-! ## Tokens that spell a condition -/

def Ends (words : List String) (rest : List Token) : Prop := ∀ w ∈ words, rest.head? ≠ some (.word w)

theorem Ends.mono {vs ws : List String} {rest : List Token} (h : Ends ws rest) (hsub : vs ⊆ ws) :
    Ends vs rest := fun v hv => h v (hsub hv)

theorem ends_of_ne {v : String} {words : List String} (h : v ∉ words) (rest : List Token) :
    Ends words (.word v :: rest) := by
  rintro w hw hhead
  cases hhead
  exact h hw

theorem ends_closing (words : List String) (rest : List Token) : Ends words (.closing :: rest) := by
  rintro w _ hhead
  cases hhead

theorem after?_word (w : String) (rest : List Token) : after? w (.word w :: rest) = some rest :=
  if_pos rfl

theorem after?_of_ends {words : List String} {rest : List Token} (h : Ends words rest) {w : String}
    (hw : w ∈ words) : after? w rest = none := by
  unfold after?
  split
  · next v rest =>
    have hv : v ≠ w := fun hv => h w hw (by rw [hv, List.head?_cons])
    rw [if_neg hv]
  · rfl

theorem escape?_of_ends {words : List String} {rest : List Token} (h : Ends words rest)
    (hw : "ESCAPE" ∈ words) : escape? rest = some (none, rest) := by
  rw [escape?, after?_of_ends h hw]

theorem escape?_literal (c : Char) (rest : List Token) :
    escape? (.word "ESCAPE" :: .literal (.text (String.singleton c)) :: rest) =
      some (some c, rest) := by
  simp [escape?, after?_word]

theorem operands?_literals (rest : List Token) : ∀ {cs : List Cell}, cs ≠ [] →
    operands? (((cs.map fun c => [Token.literal c]).intersperse [.comma]).flatten ++
      .closing :: rest) = some (cs.map .cell, rest)
  | [], h => absurd rfl h
  | [c], _ => rfl
  | c :: d :: cs, _ => by
    have ih := operands?_literals rest (List.cons_ne_nil d cs)
    simp only [List.map_cons, List.intersperse_cons_cons, List.flatten_cons] at ih ⊢
    simp only [List.cons_append, List.nil_append] at ih ⊢
    rw [operands?, ih]
    rfl

/-- The tokens spell a comparison or a parenthesised condition. -/
def Primary (ts : List Token) (e : Expr) : Prop :=
  ∀ fuel rest, 3 * ts.length + 1 ≤ fuel → Ends ["ESCAPE"] rest →
    primary? fuel (ts ++ rest) = some (e, rest)

/-- The tokens spell primaries with `AND` between them. -/
def Conjunction (ts : List Token) (e : Expr) : Prop :=
  ∀ fuel rest, 3 * ts.length + 2 ≤ fuel → Ends ["ESCAPE", "AND"] rest →
    conjunction? fuel (ts ++ rest) = some (e, rest)

/-- The tokens spell conjunctions with `OR` between them. -/
def Disjunction (ts : List Token) (e : Expr) : Prop :=
  ∀ fuel rest, 3 * ts.length + 3 ≤ fuel → Ends ["ESCAPE", "AND", "OR"] rest →
    disjunction? fuel (ts ++ rest) = some (e, rest)

section
variable {ts us : List Token} {e f : Expr}

theorem Primary.of_comparison {x : Operand} {token : Token} (hx : token.operand? = some x)
    (h : ∀ rest, Ends ["ESCAPE"] rest → comparison? (token :: (ts ++ rest)) = some (e, rest)) :
    Primary (token :: ts) e := by
  intro fuel rest hfuel hrest
  obtain ⟨fuel, rfl⟩ : ∃ n, fuel = n + 1 := ⟨fuel - 1, by omega⟩
  rw [List.cons_append, ← h rest hrest]
  cases token with
  | name s => rfl
  | literal c => rfl
  | _ => cases hx

theorem Primary.conjunction (h : Primary ts e) : Conjunction ts e := by
  intro fuel rest hfuel hrest
  obtain ⟨fuel, rfl⟩ : ∃ n, fuel = n + 1 := ⟨fuel - 1, by omega⟩
  have hend : after? "AND" rest = none := after?_of_ends hrest (by simp)
  rw [conjunction?, h fuel rest (by omega) (hrest.mono (by simp)), Option.bind_some]
  simp only [hend]

theorem Primary.and (h : Primary ts e) (h' : Conjunction us f) :
    Conjunction (ts ++ .word "AND" :: us) (.and e f) := by
  intro fuel rest hfuel hrest
  obtain ⟨fuel, rfl⟩ : ∃ n, fuel = n + 1 := ⟨fuel - 1, by omega⟩
  rw [List.length_append, List.length_cons] at hfuel
  rw [conjunction?, List.append_assoc, List.cons_append,
    h fuel _ (by omega) (ends_of_ne (by decide) _), Option.bind_some]
  simp only [after?_word, h' fuel rest (by omega) hrest, Option.map_some]

theorem Conjunction.disjunction (h : Conjunction ts e) : Disjunction ts e := by
  intro fuel rest hfuel hrest
  obtain ⟨fuel, rfl⟩ : ∃ n, fuel = n + 1 := ⟨fuel - 1, by omega⟩
  have hend : after? "OR" rest = none := after?_of_ends hrest (by simp)
  rw [disjunction?, h fuel rest (by omega) (hrest.mono (by simp)), Option.bind_some]
  simp only [hend]

theorem Conjunction.or (h : Conjunction ts e) (h' : Disjunction us f) :
    Disjunction (ts ++ .word "OR" :: us) (.or e f) := by
  intro fuel rest hfuel hrest
  obtain ⟨fuel, rfl⟩ : ∃ n, fuel = n + 1 := ⟨fuel - 1, by omega⟩
  rw [List.length_append, List.length_cons] at hfuel
  rw [disjunction?, List.append_assoc, List.cons_append,
    h fuel _ (by omega) (ends_of_ne (by decide) _), Option.bind_some]
  simp only [after?_word, h' fuel rest (by omega) hrest, Option.map_some]

/-- Parentheses make a condition a part of any other. -/
theorem Disjunction.grouped (h : Disjunction ts e) :
    Primary (.opening :: (ts ++ [.closing])) e := by
  intro fuel rest hfuel hrest
  obtain ⟨fuel, rfl⟩ : ∃ n, fuel = n + 1 := ⟨fuel - 1, by omega⟩
  simp only [List.length_cons, List.length_append, List.length_nil] at hfuel
  rw [List.cons_append, List.append_assoc, primary?, List.singleton_append,
    h fuel _ (by omega) (ends_closing _ rest), Option.bind_some]

theorem Disjunction.condition?_eq (h : Disjunction ts e) {rest : List Token}
    (hrest : Ends ["ESCAPE", "AND", "OR"] rest) : condition? (ts ++ rest) = some (e, rest) :=
  h _ rest (by rw [List.length_append]; omega) hrest

end
end KeyedRows.Sql
