import KeyedRows.Proofs.Sql.Piece

/-!
# Placeholders in statement text

* `Lexeme`, `Mode`, `scan` : the quoted names, words and placeholders of a text, character by
  character; what stands in quotes is neither a word nor a placeholder;
* `Place`, `Cursor`, `placed` : the placeholders of a text, each with the place where it stands;
* `Statement.placeholders` : those of a statement;
* `scan_text`, `scan_name`, `scan_binding`, `scan_quoted` : a scan of each kind of piece.
-/

namespace KeyedRows

namespace Sql

/-! ## Scanning -/

/-- What a scan tells apart. Symbols, numbers and texts in single quotes are passed over. -/
inductive Lexeme where
  /-- A name in double quotes, doubled quotes taken once. -/
  | name (s : List Char)
  | word (s : List Char)
  /-- A placeholder as it is written. -/
  | mark (s : List Char)
deriving DecidableEq

/-- What the character that was read last belongs to. -/
inductive Mode where
  | between
  | word (s : List Char)
  | mark (s : List Char)
  | quoted (quote : Char) (s : List Char)
  /-- After a quote that ends a quoted text, unless another quote follows. -/
  | closed (quote : Char) (s : List Char)
deriving DecidableEq

namespace Mode

def start (c : Char) : Mode :=
  if c = '"' ∨ c = '\x27' then quoted c []
  else if c = '?' ∨ c = '$' then mark [c]
  else if c.isAlpha then word [c]
  else between

/-- The mode after a character that goes on with what was read last. -/
def extend? : Mode → Char → Option Mode
  | between, _ => none
  | word s, c => if c.isAlpha then some (word (s ++ [c])) else none
  | mark s, c => if c.isDigit then some (mark (s ++ [c])) else none
  | quoted quote s, c => some (if c = quote then closed quote s else quoted quote (s ++ [c]))
  | closed quote s, c => if c = quote then some (quoted quote (s ++ [quote])) else none

/-- What was read last, where it ends. -/
def ended : Mode → List Lexeme
  | word s => [.word s]
  | mark s => [.mark s]
  | closed quote s => if quote = '"' then [.name s] else []
  | between | quoted _ _ => []

end Mode

/-- The lexemes that end within a text, and the mode after its last character. -/
def run (mode : Mode) : List Char → List Lexeme × Mode
  | [] => ([], mode)
  | c :: cs => match mode.extend? c with
    | some mode => run mode cs
    | none => (mode.ended ++ (run (.start c) cs).1, (run (.start c) cs).2)

def scan (mode : Mode) (cs : List Char) : List Lexeme := (run mode cs).1 ++ (run mode cs).2.ended

/-! ## Places -/

inductive Place where
  /-- Beside a column that it is compared with or whose new value it is. -/
  | column (id : String)
  /-- After the `LIKE` of a column. -/
  | pattern (column : String)
  /-- After `LIMIT`. -/
  | limit
deriving DecidableEq

/-- What a placeholder is by the words before it. -/
inductive Spot where
  | beside
  | like
  | limit
  /-- One of the values of an insert, for the name with index `k`. The table has index 0. -/
  | value (k : Nat)
deriving DecidableEq

/-- The names of a statement so far, and what a placeholder would be. -/
structure Cursor where
  names : List String := []
  spot : Spot := .beside
deriving DecidableEq

namespace Cursor

def next (c : Cursor) : Lexeme → Cursor
  | .name s => { names := c.names ++ [String.ofList s], spot := .beside }
  | .word s =>
    if s = "LIKE".toList then { c with spot := .like }
    else if s = "LIMIT".toList then { c with spot := .limit }
    else if s = "VALUES".toList then { c with spot := .value 1 }
    else c
  | .mark _ => match c.spot with
    | .value k => { c with spot := .value (k + 1) }
    | _ => c

/-- The place of a placeholder that comes next. -/
def place? (c : Cursor) : Option Place :=
  match c.spot with
  | .beside => c.names.getLast?.map .column
  | .like => c.names.getLast?.map .pattern
  | .limit => some .limit
  | .value k => c.names[k]?.map .column

end Cursor

/-- The placeholders among some lexemes in text order, each with its place. -/
def placed (c : Cursor) : List Lexeme → List (List Char × Option Place)
  | [] => []
  | .mark s :: lexemes => (s, c.place?) :: placed (c.next (.mark s)) lexemes
  | lexeme :: lexemes => placed (c.next lexeme) lexemes

end Sql

/-- The placeholders in the text of a statement, each with the place where it stands. -/
def Statement.placeholders (s : Statement) : List (List Char × Option Sql.Place) :=
  Sql.placed {} (Sql.scan .between s.sql.toList)

namespace Sql

/-! ## Scans of pieces -/

theorem run_append (mode : Mode) (cs ds : List Char) :
    run mode (cs ++ ds) =
      ((run mode cs).1 ++ (run (run mode cs).2 ds).1, (run (run mode cs).2 ds).2) := by
  induction cs generalizing mode with
  | nil => rfl
  | cons c cs ih =>
    rw [List.cons_append, run, run]
    cases mode.extend? c with
    | some mode => exact ih mode
    | none => simp only [ih, List.append_assoc]

theorem scan_append (mode : Mode) (cs ds : List Char) :
    scan mode (cs ++ ds) = (run mode cs).1 ++ scan (run mode cs).2 ds := by
  rw [scan, run_append, List.append_assoc, scan]

/-- What was read last ends before a text that does not go on with it. -/
theorem scan_of_extend? {mode : Mode} {cs : List Char}
    (h : ∀ c ∈ cs.head?, mode.extend? c = none) : scan mode cs = mode.ended ++ scan .between cs := by
  cases cs with
  | nil => simp [scan, run, Mode.ended]
  | cons c cs =>
    have hc : mode.extend? c = none := h c rfl
    have hbetween : Mode.between.extend? c = none := rfl
    simp only [scan, run, hc, hbetween, Mode.ended, List.nil_append, List.append_assoc]

theorem scan_of_fresh {mode : Mode} (hb : mode.extend? ' ' = none) (hc : mode.extend? ',' = none)
    (hp : mode.extend? ')' = none) {cs : List Char} (h : Fresh cs) :
    scan mode cs = mode.ended ++ scan .between cs := by
  refine scan_of_extend? fun c hcs => ?_
  rcases h c hcs with rfl | rfl | rfl <;> assumption

/-- A text piece of words and symbols, which ends between words or in a word. -/
theorem scan_text {s : String} {ws : List (List Char)} {mode : Mode}
    (h : run .between s.toList = (ws.map .word, mode)) {rest : List Char} :
    scan .between (s.toList ++ rest) = ws.map .word ++ scan mode rest := by
  rw [scan_append, h]

theorem run_doubled (quote : Char) (s : List Char) : ∀ before : List Char,
    run (.quoted quote before) (Style.doubled quote s) = ([], .quoted quote (before ++ s)) := by
  induction s with
  | nil => simp [Style.doubled, run]
  | cons c s ih =>
    intro before
    rw [Style.doubled, List.flatMap_cons, run_append, ← Style.doubled]
    by_cases hc : c = quote
    · simp [run, Mode.extend?, hc, ih]
    · simp [run, Mode.extend?, hc, ih]

theorem scan_quotes {quote : Char} (hq : quote = '"' ∨ quote = '\x27') (s rest : List Char) :
    scan .between (quote :: (Style.doubled quote s ++ quote :: rest)) = scan (.closed quote s) rest := by
  have hstart : Mode.start quote = .quoted quote [] := if_pos hq
  have hrun : run .between (quote :: (Style.doubled quote s ++ [quote])) = ([], .closed quote s) := by
    simp only [run, hstart, run_append, run_doubled, List.nil_append, Mode.ended, Mode.extend?,
      if_pos]
  have happend : quote :: (Style.doubled quote s ++ quote :: rest) =
      quote :: (Style.doubled quote s ++ [quote]) ++ rest := by simp
  rw [happend, scan_append, hrun, List.nil_append]

theorem scan_name {style : Style} (hquote : style.quoteNames = true) (s : String) {rest : List Char}
    (hr : Fresh rest) : scan .between (style.identifier s ++ rest) =
      .name s.toList :: scan .between rest := by
  have htext : style.identifier s ++ rest = '"' :: (Style.doubled '"' s.toList ++ '"' :: rest) := by
    simp [Style.identifier, hquote]
  rw [htext, scan_quotes (.inl rfl), scan_of_fresh rfl rfl rfl hr]
  rfl

theorem scan_quoted (c : Char) {rest : List Char} (hr : Fresh rest) :
    scan .between ('\x27' :: (Style.doubled '\x27' [c] ++ '\x27' :: rest)) = scan .between rest := by
  rw [scan_quotes (.inr rfl), scan_of_fresh rfl rfl rfl hr]
  rfl

theorem run_digits {ds : List Char} (h : ∀ d ∈ ds, d.isDigit) : ∀ s : List Char,
    run (.mark s) ds = ([], .mark (s ++ ds)) := by
  induction ds with
  | nil => simp [run]
  | cons d ds ih =>
    intro s
    have hd : d.isDigit := h d (by simp)
    simp [run, Mode.extend?, hd, ih fun e he => h e (List.mem_cons_of_mem _ he)]

theorem scan_binding (p : Placeholder) (next : Nat) {rest : List Char} (hr : Fresh rest) :
    scan .between (p.render next ++ rest) = .mark (p.render next) :: scan .between rest := by
  have hmark : run .between (p.render next) = ([], .mark (p.render next)) := by
    have hdigits := run_digits fun _ => Text.isDigit_of_mem_toDigits (n := next)
    cases p with
    | question => rfl
    | numbered => exact hdigits ['?']
    | dollar => exact hdigits ['$']
  rw [scan_append, hmark, scan_of_fresh rfl rfl rfl hr]
  rfl

end Sql
end KeyedRows
