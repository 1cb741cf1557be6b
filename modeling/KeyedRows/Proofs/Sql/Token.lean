import KeyedRows.Predicate
import KeyedRows.Proofs.Text.Number
import KeyedRows.Sql.Statement

/-!
# Statement text as tokens

* `Token`, `lexeme?`, `tokensFrom?` : the tokens of SQL text, where an anonymous placeholder gets the
  next index;
* `filled?` : the tokens of a text with the bindings put in for its placeholders;
* `Fresh` : a text that cannot extend the token before it;
* `filled?_name`, `filled?_word` and their kin : one token off the start of a text;
* `filled?_binding` : a rendered placeholder reads as the cell that is bound to it.
-/

namespace KeyedRows.Sql

open Text (takeWhile_append_of_head? dropWhile_append_of_head?)

inductive Token where
  /-- A keyword. -/
  | word (s : String)
  /-- A name in double quotes. -/
  | name (s : String)
  /-- A placeholder for the binding of an index, counted from one. -/
  | mark (index : Nat)
  /-- A number, a text in single quotes or a bound cell. -/
  | literal (c : Cell)
  | compare (op : Comparison)
  | opening | closing | comma
deriving DecidableEq

/-! ## Reading tokens -/

/-- The text up to the closing quote, doubled quotes taken once, and the text after it. -/
def unquote? (mark : Char) : List Char → Option (List Char × List Char)
  | [] => none
  | [c] => if c = mark then some ([], []) else none
  | c :: d :: rest =>
    if c = mark then
      if d = mark then (unquote? mark rest).map fun (s, rest) => (mark :: s, rest)
      else some ([], d :: rest)
    else (unquote? mark (d :: rest)).map fun (s, rest) => (c :: s, rest)

def digits? (cs : List Char) : Option (Nat × List Char) :=
  (Text.natural? (cs.takeWhile Char.isDigit)).map fun n => (n, cs.dropWhile Char.isDigit)

/-- The token that starts with a character other than a digit or a letter, where `next` is the index
of an anonymous placeholder. -/
def symbol? (next : Nat) : List Char → Option (Token × List Char)
  | '"' :: cs => (unquote? '"' cs).map fun (s, rest) => (.name (String.ofList s), rest)
  | '\x27' :: cs => (unquote? '\x27' cs).map fun (s, rest) => (.literal (.text (String.ofList s)), rest)
  | '(' :: cs => some (.opening, cs)
  | ')' :: cs => some (.closing, cs)
  | ',' :: cs => some (.comma, cs)
  | '=' :: cs => some (.compare .eq, cs)
  | '<' :: '>' :: cs => some (.compare .ne, cs)
  | '<' :: '=' :: cs => some (.compare .le, cs)
  | '<' :: cs => some (.compare .lt, cs)
  | '>' :: '=' :: cs => some (.compare .ge, cs)
  | '>' :: cs => some (.compare .gt, cs)
  | '?' :: cs => match digits? cs with
    | some (n, rest) => some (.mark n, rest)
    | none => some (.mark next, cs)
  | '$' :: cs => (digits? cs).map fun (n, rest) => (.mark n, rest)
  | _ => none

/-- The token at the start of a text. -/
def lexeme? (next : Nat) : List Char → Option (Token × List Char)
  | [] => none
  | c :: cs =>
    if c.isDigit then
      (digits? (c :: cs)).bind fun (n, rest) => (int64? n).map fun i => (.literal (.integer i), rest)
    else if c.isAlpha then
      some (.word (String.ofList ((c :: cs).takeWhile Char.isAlpha)), (c :: cs).dropWhile Char.isAlpha)
    else symbol? next (c :: cs)

/-- The index of the anonymous placeholder that comes next after a token: one more than the largest
so far. -/
def Token.after (next : Nat) : Token → Nat
  | mark n => max next (n + 1)
  | _ => next

/-- The tokens of a text, blanks between them aside. -/
def tokensFrom? (next : Nat) (cs : List Char) : Option (List Token) :=
  match cs with
  | [] => some []
  | c :: cs =>
    if c.isWhitespace then tokensFrom? next cs
    else match lexeme? next (c :: cs) with
      | some (token, rest) =>
        if rest.length ≤ cs.length then (tokensFrom? (token.after next) rest).map (token :: ·)
        else none
      | none => none
termination_by cs.length

/-- A placeholder becomes the cell that is bound to it. -/
def Token.fill (bindings : List Cell) : Token → Option Token
  | mark n => (bindings[n - 1]?).map literal
  | token => some token

/-- The tokens of a text with the bindings in place of the placeholders. -/
def filled? (bindings : List Cell) (next : Nat) (cs : List Char) : Option (List Token) :=
  (tokensFrom? next cs).bind fun tokens => tokens.mapM (Token.fill bindings)

/-! ## One token -/

/-- A text that does not extend a token before it: it is empty or starts with a blank, a comma or a
closing parenthesis. -/
def Fresh (cs : List Char) : Prop := ∀ c ∈ cs.head?, c = ' ' ∨ c = ',' ∨ c = ')'

@[simp] theorem fresh_nil : Fresh [] := by simp [Fresh]

@[simp] theorem fresh_blank (cs : List Char) : Fresh (' ' :: cs) := by simp [Fresh]

@[simp] theorem fresh_comma (cs : List Char) : Fresh (',' :: cs) := by simp [Fresh]

@[simp] theorem fresh_closing (cs : List Char) : Fresh (')' :: cs) := by simp [Fresh]

theorem Fresh.head?_eq_false {p : Char → Bool} (hb : p ' ' = false) (hc : p ',' = false)
    (hp : p ')' = false) {cs : List Char} (h : Fresh cs) : ∀ c ∈ cs.head?, p c = false := by
  intro c hcs
  rcases h c hcs with rfl | rfl | rfl <;> assumption

theorem Fresh.head?_ne {m : Char} (hb : ' ' ≠ m) (hc : ',' ≠ m) (hp : ')' ≠ m) {cs : List Char}
    (h : Fresh cs) : cs.head? ≠ some m := by
  intro hcs
  rcases h m hcs with rfl | rfl | rfl <;> contradiction

theorem unquote?_doubled (mark : Char) {rest : List Char} (hr : rest.head? ≠ some mark) :
    ∀ s : List Char, unquote? mark (Style.doubled mark s ++ mark :: rest) = some (s, rest)
  | [] => by
    cases rest with
    | nil => simp [Style.doubled, unquote?]
    | cons c rest =>
      have hc : c ≠ mark := by simpa using hr
      simp [Style.doubled, unquote?, hc]
  | c :: s => by
    have ih := unquote?_doubled mark hr s
    by_cases hc : c = mark
    · subst hc
      simp only [Style.doubled, List.flatMap_cons, if_pos, List.cons_append, List.nil_append] at ih ⊢
      rw [unquote?, if_pos rfl, if_pos rfl, ih]
      rfl
    · obtain ⟨d, tail, hd⟩ : ∃ d tail, Style.doubled mark s ++ mark :: rest = d :: tail := by
        cases Style.doubled mark s <;> simp
      have hs : Style.doubled mark (c :: s) = c :: Style.doubled mark s := by
        simp [Style.doubled, hc]
      rw [hs, List.cons_append, hd, unquote?, if_neg hc, ← hd, ih]
      rfl

section
variable {bindings : List Cell} {next : Nat} {rest : List Char}

@[simp] theorem filled?_nil : filled? bindings next [] = some [] := by
  simp [filled?, tokensFrom?]

@[simp] theorem filled?_blank : filled? bindings next (' ' :: rest) = filled? bindings next rest := by
  rw [filled?, tokensFrom?, if_pos (by decide), filled?]

theorem filled?_of_lexeme? {c : Char} {cs : List Char} {token filled : Token}
    (h : lexeme? next (c :: cs) = some (token, rest)) (hc : c.isWhitespace = false)
    (hlt : rest.length ≤ cs.length) (hfill : token.fill bindings = some filled) :
    filled? bindings next (c :: cs) =
      (filled? bindings (token.after next) rest).map (filled :: ·) := by
  rw [filled?, tokensFrom?, if_neg (by simp [hc]), h, filled?]
  simp only [if_pos hlt]
  cases tokensFrom? (token.after next) rest with
  | none => rfl
  | some tokens =>
    simp only [Option.map_some, Option.bind_some, List.mapM_cons, hfill]
    cases tokens.mapM (Token.fill bindings) <;> rfl

theorem filled?_opening :
    filled? bindings next ('(' :: rest) = (filled? bindings next rest).map (.opening :: ·) := by
  have hlex : lexeme? next ('(' :: rest) = some (.opening, rest) := rfl
  exact filled?_of_lexeme? hlex rfl (Nat.le_refl _) rfl

theorem filled?_closing :
    filled? bindings next (')' :: rest) = (filled? bindings next rest).map (.closing :: ·) := by
  have hlex : lexeme? next (')' :: rest) = some (.closing, rest) := rfl
  exact filled?_of_lexeme? hlex rfl (Nat.le_refl _) rfl

theorem filled?_comma :
    filled? bindings next (',' :: rest) = (filled? bindings next rest).map (.comma :: ·) := by
  have hlex : lexeme? next (',' :: rest) = some (.comma, rest) := rfl
  exact filled?_of_lexeme? hlex rfl (Nat.le_refl _) rfl

theorem filled?_compare (op : Comparison) :
    filled? bindings next (op.symbol.toList ++ ' ' :: rest) =
      (filled? bindings next rest).map (.compare op :: ·) := by
  have h : ∃ c cs, op.symbol.toList ++ ' ' :: rest = c :: cs ∧
      lexeme? next (c :: cs) = some (.compare op, ' ' :: rest) ∧ c.isWhitespace = false ∧
      (' ' :: rest).length ≤ cs.length := by
    cases op <;> exact ⟨_, _, rfl, rfl, rfl, by simp⟩
  obtain ⟨c, cs, hcs, hlex, hc, hlt⟩ := h
  rw [hcs, filled?_of_lexeme? hlex hc hlt rfl, filled?_blank]
  rfl

theorem lexeme?_of_symbol {c : Char} {cs : List Char} (hd : c.isDigit = false)
    (ha : c.isAlpha = false) : lexeme? next (c :: cs) = symbol? next (c :: cs) := by
  rw [lexeme?, if_neg (by simp [hd]), if_neg (by simp [ha])]

/-- A name in double quotes, whatever characters it has. -/
theorem filled?_name (s : String) (hr : rest.head? ≠ some '"') :
    filled? bindings next ('"' :: (Style.doubled '"' s.toList ++ '"' :: rest)) =
      (filled? bindings next rest).map (.name s :: ·) := by
  have hlex : lexeme? next ('"' :: (Style.doubled '"' s.toList ++ '"' :: rest)) =
      some (.name s, rest) := by
    rw [lexeme?_of_symbol rfl rfl]
    show (unquote? '"' _).map _ = _
    rw [unquote?_doubled '"' hr]
    simp
  exact filled?_of_lexeme? hlex rfl (by simp; omega) rfl

theorem filled?_quoted (c : Char) (hr : rest.head? ≠ some '\x27') :
    filled? bindings next ('\x27' :: (Style.doubled '\x27' [c] ++ '\x27' :: rest)) =
      (filled? bindings next rest).map (.literal (.text (String.singleton c)) :: ·) := by
  have hlex : lexeme? next ('\x27' :: (Style.doubled '\x27' [c] ++ '\x27' :: rest)) =
      some (.literal (.text (String.singleton c)), rest) := by
    rw [lexeme?_of_symbol rfl rfl]
    show (unquote? '\x27' _).map _ = _
    rw [unquote?_doubled '\x27' hr]
    rfl
  exact filled?_of_lexeme? hlex rfl (by simp; omega) rfl

theorem digits?_toDigits (n : Nat) (hr : Fresh rest) :
    digits? (Nat.toDigits 10 n ++ rest) = some (n, rest) := by
  have hw : ∀ c ∈ Nat.toDigits 10 n, c.isDigit := fun _ => Text.isDigit_of_mem_toDigits
  have hstop : ∀ c ∈ rest.head?, c.isDigit = false := hr.head?_eq_false rfl rfl rfl
  rw [digits?, takeWhile_append_of_head? hw hstop, dropWhile_append_of_head? hw hstop,
    Text.natural?_toDigits, Option.map_some]

theorem digits?_of_fresh (hr : Fresh rest) : digits? rest = none := by
  have hstop : ∀ c ∈ rest.head?, c.isDigit = false := hr.head?_eq_false rfl rfl rfl
  have htake : rest.takeWhile Char.isDigit = [] := by
    simpa using takeWhile_append_of_head? (w := []) (by simp) hstop
  rw [digits?, htake]
  rfl

theorem filled?_word {s : String} (hs : s.toList ≠ []) (hw : ∀ d ∈ s.toList, d.isAlpha)
    (hr : Fresh rest) :
    filled? bindings next (s.toList ++ rest) = (filled? bindings next rest).map (.word s :: ·) := by
  have hstop : ∀ d ∈ rest.head?, d.isAlpha = false := hr.head?_eq_false rfl rfl rfl
  obtain ⟨c, cs, hcs⟩ := List.exists_cons_of_ne_nil hs
  have hc : c.isAlpha := hw c (by simp [hcs])
  have hlex : lexeme? next (c :: (cs ++ rest)) = some (.word s, rest) := by
    have hd : ¬c.isDigit := by simp [Text.isDigit_of_isAlpha hc]
    rw [lexeme?, if_neg hd, if_pos hc, ← List.cons_append, ← hcs,
      takeWhile_append_of_head? hw hstop, dropWhile_append_of_head? hw hstop, String.ofList_toList]
  rw [hcs, List.cons_append]
  exact filled?_of_lexeme? hlex (Text.isWhitespace_of_isAlpha hc) (by simp) rfl

theorem filled?_natural {n : Nat} {i : Int64} (hi : int64? n = some i) (hr : Fresh rest) :
    filled? bindings next (Nat.toDigits 10 n ++ rest) =
      (filled? bindings next rest).map (.literal (.integer i) :: ·) := by
  obtain ⟨c, cs, hcs⟩ := List.exists_cons_of_ne_nil (Nat.toDigits_ne_nil (n := n) (b := 10))
  have hc : c.isDigit := Text.isDigit_of_mem_toDigits (n := n) (by simp [hcs])
  have hlex : lexeme? next (c :: (cs ++ rest)) = some (.literal (.integer i), rest) := by
    rw [lexeme?, if_pos hc, ← List.cons_append, ← hcs, digits?_toDigits n hr, Option.bind_some]
    exact congrArg (Option.map fun i => (Token.literal (.integer i), rest)) hi
  rw [hcs, List.cons_append]
  exact filled?_of_lexeme? hlex (Text.isWhitespace_of_isDigit hc) (by simp) rfl

/-- The placeholder of the next binding, in any of its styles, reads as the cell that is bound. -/
theorem filled?_binding (p : Placeholder) {c : Cell} (hc : bindings[next - 1]? = some c)
    (hr : Fresh rest) :
    filled? bindings next (p.render next ++ rest) =
      (filled? bindings (next + 1) rest).map (.literal c :: ·) := by
  have hmark : (Token.mark next).fill bindings = some (.literal c) := by simp [Token.fill, hc]
  have hafter : (Token.mark next).after next = next + 1 := by simp [Token.after]
  have hdigits := digits?_toDigits next hr
  rw [← hafter]
  cases p with
  | question =>
    have hlex : lexeme? next ('?' :: rest) = some (.mark next, rest) := by
      rw [lexeme?_of_symbol rfl rfl]
      show (match digits? rest with
        | some (n, rest) => some (Token.mark n, rest)
        | none => some (Token.mark next, rest)) = _
      rw [digits?_of_fresh hr]
    exact filled?_of_lexeme? hlex rfl (Nat.le_refl _) hmark
  | numbered =>
    have hlex : lexeme? next ('?' :: (Nat.toDigits 10 next ++ rest)) = some (.mark next, rest) := by
      rw [lexeme?_of_symbol rfl rfl]
      show (match digits? _ with
        | some (n, rest) => some (Token.mark n, rest)
        | none => some (Token.mark next, _)) = _
      rw [hdigits]
    exact filled?_of_lexeme? hlex rfl (by simp) hmark
  | dollar =>
    have hlex : lexeme? next ('$' :: (Nat.toDigits 10 next ++ rest)) = some (.mark next, rest) := by
      rw [lexeme?_of_symbol rfl rfl]
      show (digits? _).map _ = _
      rw [hdigits, Option.map_some]
    exact filled?_of_lexeme? hlex rfl (by simp) hmark

end
end KeyedRows.Sql
