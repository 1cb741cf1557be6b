import KeyedRows.Proofs.KeyMatch

/-!
# Storage that reads statements

* `Select`, `select?` : what a select asks for, and the select that some tokens spell;
* `Select.run` : the rows of a store that a select is for;
* `Table.engine` : storage that reads the text of each query with its bindings and runs it;
* `KeyRange.filledLists_of_predicate?` : the condition of a range has no empty list of values;
* `Table.Selects`, `reads_selectWhere` : the text of a select reads as what the query asks for;
* `engine_answers` : so such storage returns the rows of every query.
-/

namespace KeyedRows

open Sql

namespace Sql

/-! ## Reading selects -/

structure Select where
  columns : List String
  table : String
  condition : Option Expr
  order : Key
  limit : Option Int64

def names? : List Token → Option (List String × List Token)
  | .name s :: .comma :: rest => (names? rest).map fun (ss, rest) => (s :: ss, rest)
  | .name s :: rest => some ([s], rest)
  | _ => none

def direction? (w : String) : Option Direction :=
  if w = "ASC" then some .ascending else if w = "DESC" then some .descending else none

def parts? : List Token → Option (Key × List Token)
  | .name s :: .word w :: .comma :: rest => (direction? w).bind fun d =>
    (parts? rest).map fun (key, rest) => (⟨s, d⟩ :: key, rest)
  | .name s :: .word w :: rest => (direction? w).map fun d => ([⟨s, d⟩], rest)
  | _ => none

def where? (tokens : List Token) : Option (Option Expr × List Token) :=
  match after? "WHERE" tokens with
  | none => some (none, tokens)
  | some rest => (condition? rest).map fun (e, rest) => (some e, rest)

def orderBy? (tokens : List Token) : Option (Key × List Token) :=
  match after? "ORDER" tokens with
  | none => some ([], tokens)
  | some rest => (after? "BY" rest).bind parts?

def limit? (tokens : List Token) : Option (Option Int64 × List Token) :=
  match after? "LIMIT" tokens with
  | none => some (none, tokens)
  | some (.literal (.integer n) :: rest) => some (some n, rest)
  | some _ => none

/-- The select that some tokens spell. -/
def select? (tokens : List Token) : Option Select :=
  (after? "SELECT" tokens).bind fun rest => (names? rest).bind fun (columns, rest) =>
    (after? "FROM" rest).bind fun rest => match rest with
      | .name table :: rest => (where? rest).bind fun (condition, rest) =>
        (orderBy? rest).bind fun (order, rest) => (limit? rest).bind fun (limit, rest) =>
          if rest.isEmpty then some ⟨columns, table, condition, order, limit⟩ else none
      | _ => none

/-! ## Running them -/

/-- The rows that a select picks from the rows of a table, sorted and cut off, with the cells of its
columns. -/
def Select.run (q : Select) (k : Collation) (t : Table) (store : List Row) : List Row :=
  let picked := store.filter fun row => q.condition.all fun e => e.eval k (t.cell row) = .yes
  let sorted := picked.insertionSort fun a b =>
    (rowCompare k q.order (t.cell a) (t.cell b)).isLE = true
  let cut := match q.limit with
    | none => sorted
    | some n => sorted.take n.toInt.toNat
  cut.map fun row => q.columns.map (t.cell row)

end Sql

/-- Storage with the rows of one table, which reads the text of a query and runs it. It takes no
writes. -/
def Table.engine (t : Table) (k : Collation) (store : List Row) : Storage Unit where
  fetch s state :=
    match (filled? s.bindings 1 s.sql.toList).bind select? with
    | some q =>
      if q.table = t.name then (.ok (q.run k t store), state)
      else (.error ⟨"no such table", none⟩, state)
    | none => (.error ⟨"syntax error", none⟩, state)
  execute _ state := (.error ⟨"read-only storage", none⟩, state)

/-! ## Clauses that may be left out -/

namespace Sql

/-- Pieces of a clause that starts with a keyword, or none. -/
def Clause (style : Style) (w : String) (ps : List Piece) (ts : List Token) : Prop :=
  ps = [] ∧ ts = [] ∨ Reads style true ps ts ∧ StartsFresh style ps ∧ ts.head? = some (.word w)

section
variable {style : Style} {w : String} {ps : List Piece} {ts : List Token}

theorem Reads.clause {qs : List Piece} {us : List Token} (h : Reads style true ps ts)
    (hq : Clause style w qs us) : Reads style true (ps ++ qs) (ts ++ us) := by
  rcases hq with ⟨rfl, rfl⟩ | ⟨hread, hfresh, _⟩
  · simpa using h
  · exact h.append hread fun _ => hfresh

theorem Clause.head? (h : Clause style w ps ts) {token : Token} (ht : token ≠ .word w)
    {rest : List Token} (hrest : rest.head? ≠ some token) : (ts ++ rest).head? ≠ some token := by
  rcases h with ⟨_, rfl⟩ | ⟨_, _, hhead⟩
  · exact hrest
  · obtain ⟨us, rfl⟩ := List.head?_eq_some_iff.1 hhead
    rintro heq
    cases heq
    exact ht rfl

theorem Clause.ends (h : Clause style w ps ts) {words : List String} (hw : w ∉ words)
    {rest : List Token} (hrest : Ends words rest) : Ends words (ts ++ rest) := by
  intro v hv
  refine h.head? (fun heq => ?_) (hrest v hv)
  cases heq
  exact hw hv

end

/-! ## Reading each clause -/

theorem names?_eq {rest : List Token} (hrest : rest.head? ≠ some .comma) : ∀ {ids : List String},
    ids ≠ [] → names? (((ids.map fun id => [Token.name id]).intersperse [.comma]).flatten ++ rest) =
      some (ids, rest)
  | [], h => absurd rfl h
  | [id], _ => by
    cases rest with
    | nil => rfl
    | cons token rest => cases token <;> first | rfl | exact absurd rfl hrest
  | id :: id' :: ids, _ => by
    have ih := names?_eq hrest (List.cons_ne_nil id' ids)
    simp only [List.map_cons, List.intersperse_cons_cons, List.flatten_cons] at ih ⊢
    simp only [List.cons_append, List.nil_append] at ih ⊢
    rw [names?, ih]
    rfl

theorem direction?_keyword (d : Direction) : direction? d.keyword = some d := by
  cases d <;> rfl

def partTokens (part : KeyPart) : List Token := [.name part.column, .word part.direction.keyword]

theorem parts?_eq {rest : List Token} (hrest : rest.head? ≠ some .comma) : ∀ {key : Key}, key ≠ [] →
    parts? (((key.map partTokens).intersperse [.comma]).flatten ++ rest) = some (key, rest)
  | [], h => absurd rfl h
  | [part], _ => by
    have hparts : parts? (.name part.column :: .word part.direction.keyword :: rest) =
        (direction? part.direction.keyword).map fun d => ([⟨part.column, d⟩], rest) := by
      cases rest with
      | nil => rfl
      | cons token rest => cases token <;> first | rfl | exact absurd rfl hrest
    rw [direction?_keyword] at hparts
    exact hparts
  | part :: part' :: key, _ => by
    have ih := parts?_eq hrest (List.cons_ne_nil part' key)
    simp only [List.map_cons, List.intersperse_cons_cons, List.flatten_cons, partTokens] at ih ⊢
    simp only [List.cons_append, List.nil_append] at ih ⊢
    rw [parts?, ih, direction?_keyword]
    rfl

theorem select?_eq {ids : List String} (hids : ids ≠ []) (table : String) {ws os ls : List Token}
    {e : Option Expr} {key : Key} {limit : Option Int64}
    (hwhere : where? (ws ++ (os ++ ls)) = some (e, os ++ ls))
    (horder : orderBy? (os ++ ls) = some (key, ls)) (hlimit : limit? ls = some (limit, [])) :
    select? (.word "SELECT" :: (((ids.map fun id => [Token.name id]).intersperse [.comma]).flatten ++
      .word "FROM" :: .name table :: (ws ++ (os ++ ls)))) = some ⟨ids, table, e, key, limit⟩ := by
  have hfrom : (Token.word "FROM" :: .name table :: (ws ++ (os ++ ls))).head? ≠ some .comma := by simp
  have hnames := names?_eq hfrom hids
  rw [select?, after?_word, Option.bind_some, hnames, Option.bind_some]
  dsimp only
  rw [after?_word, Option.bind_some]
  dsimp only
  rw [hwhere, Option.bind_some]
  dsimp only
  rw [horder, Option.bind_some]
  dsimp only
  rw [hlimit, Option.bind_some]
  rfl

end Sql

namespace Table

variable {t : Table} {style : Style} (hquote : style.quoteNames = true)
include hquote

theorem reads_names (ids : List String) : Reads style true (Piece.names ids)
    ((ids.map fun id => [Token.name id]).intersperse [.comma]).flatten := by
  refine Reads.commaList ?_
  rw [List.forall₂_map_left_iff, List.forall₂_map_right_iff, List.forall₂_same]
  exact fun id _ => Reads.name hquote id

theorem reads_whereClause {p : Option Predicate} (hlists : ∀ q ∈ p, q.FilledLists)
    {ps : List Piece} (h : t.whereClause style p = .ok ps) : ∃ ts e, Clause style "WHERE" ps ts ∧
      (∀ rest, Ends ["WHERE", "ESCAPE", "AND", "OR"] rest → where? (ts ++ rest) = some (e, rest)) ∧
      ∀ (k : Collation) (row : String → Cell),
        (e.all fun e => e.eval k row = .yes) = p.all fun p => p.truth t style k row = .yes := by
  cases p with
  | none =>
    cases h
    refine ⟨[], none, .inl ⟨rfl, rfl⟩, fun rest hrest => ?_, fun _ _ => rfl⟩
    rw [List.nil_append, where?, after?_of_ends hrest (by simp)]
  | some p =>
    obtain ⟨ps, hp, h⟩ := KeyedRows.bind_eq_ok.1 h
    cases h
    obtain ⟨ts, e, hread, hlevel, heval⟩ := Predicate.readsAs_condition hquote (hlists p rfl) hp
    have hwhere : Reads style false [.text " WHERE "] [.word "WHERE"] :=
      Reads.spaced ["WHERE"] (by decide) (by decide)
    refine ⟨.word "WHERE" :: ts, some e, .inr ⟨hwhere.append hread (by simp),
      startsFresh_text rfl (by decide) ps, rfl⟩, fun rest hrest => ?_, fun k row => ?_⟩
    · rw [List.cons_append, where?, after?_word]
      dsimp only
      rw [hlevel.condition?_eq (hrest.mono (by simp)), Option.map_some]
    · rw [Option.all_some, Option.all_some, heval]

theorem reads_direction (column : String) (d : Direction) :
    Reads style true [.name column, .text (" " ++ d.keyword)] (partTokens ⟨column, d⟩) :=
  reads_words hquote column [d.keyword] (by cases d <;> decide) (by cases d <;> decide)
    (by cases d <;> rfl)

theorem reads_orderClause (reverse : Bool) : ∃ ts, Clause style "ORDER" (t.orderClause reverse) ts ∧
    ∀ rest, Ends ["ORDER"] rest → rest.head? ≠ some .comma →
      orderBy? (ts ++ rest) = some (sortKey reverse t.key, rest) := by
  unfold orderClause
  by_cases hkey : t.key = []
  · refine ⟨[], .inl ⟨by simp [hasKey, hkey], rfl⟩, fun rest hrest _ => ?_⟩
    rw [List.nil_append, orderBy?, after?_of_ends hrest (by simp), hkey]
    rfl
  · have hparts : Reads style true
        (Piece.commaList (t.key.map fun part =>
          let direction := if reverse then part.direction.reversed else part.direction
          [.name part.column, .text (" " ++ direction.keyword)]))
        (((sortKey reverse t.key).map partTokens).intersperse [.comma]).flatten := by
      refine Reads.commaList ?_
      rw [sortKey, List.map_map, List.forall₂_map_left_iff, List.forall₂_map_right_iff,
        List.forall₂_same]
      exact fun part _ => reads_direction hquote part.column _
    have horder : Reads style false [.text " ORDER BY "] [.word "ORDER", .word "BY"] :=
      Reads.spaced ["ORDER", "BY"] (by decide) (by decide)
    rw [if_pos (by simp [hasKey, hkey])]
    refine ⟨_, .inr ⟨horder.append hparts (by simp), startsFresh_text rfl (by decide) _, rfl⟩,
      fun rest _ hcomma => ?_⟩
    have hne : sortKey reverse t.key ≠ [] := by simpa [sortKey] using hkey
    show (after? "BY" (.word "BY" :: _)).bind parts? = _
    rw [after?_word, Option.bind_some]
    exact parts?_eq hcomma hne

omit hquote in
theorem reads_limitClause (style : Style) (limit : Option Nat) : ∃ ts, Clause style "LIMIT" (limitClause limit) ts ∧
    limit? ts = some (limit.map fun n => Int64.ofNat (min n Table.maxLimit), []) := by
  cases limit with
  | none => exact ⟨[], .inl ⟨rfl, rfl⟩, rfl⟩
  | some n =>
    have hlimit : Reads style false [.text " LIMIT "] [.word "LIMIT"] :=
      Reads.spaced ["LIMIT"] (by decide) (by decide)
    exact ⟨_, .inr ⟨hlimit.append (Reads.binding (limitCell n)) (by simp),
      startsFresh_text rfl (by decide) _, rfl⟩, rfl⟩

/-- The text of a statement, with its bindings, is a select of all columns of the rows that are asked
for. -/
def Selects (t : Table) (style : Style) (p : Option Predicate) (limit : Option Nat) (reverse : Bool)
    (s : Statement) : Prop :=
  ∃ q, (filled? s.bindings 1 s.sql.toList).bind select? = some q ∧ q.table = t.name ∧
    ∀ (k : Collation) (store : List Row), q.run k t store =
      (t.answer k reverse style store p limit).map fun row =>
        (t.columns.map Column.id).map (t.cell row)

theorem reads_selectWhere (hcolumns : t.columns ≠ []) {p : Option Predicate}
    (hlists : ∀ q ∈ p, q.FilledLists) {limit : Option Nat} {reverse : Bool} {s : Statement}
    (h : t.selectWhere style p limit reverse = .ok s) : t.Selects style p limit reverse s := by
  obtain ⟨ps, hps, h⟩ := KeyedRows.bind_eq_ok.1 h
  cases h
  obtain ⟨ws, e, hwhere, hcondition, heval⟩ := reads_whereClause hquote hlists hps
  obtain ⟨os, horder, hparts⟩ := reads_orderClause (t := t) hquote reverse
  obtain ⟨ls, hlimit, hcount⟩ := reads_limitClause style limit
  have hselect : Reads style false [.text "SELECT "] [.word "SELECT"] :=
    Reads.keyword (by decide) (by decide)
  have hfrom : Reads style true [.text " FROM ", .name t.name] [.word "FROM", .name t.name] :=
    (Reads.spaced ["FROM"] (by decide) (by decide)).append (Reads.name hquote t.name) (by simp)
  have hnames := reads_names hquote (t.columns.map Column.id)
  have hhead := (hselect.append hnames (by simp)).append hfrom fun _ =>
    startsFresh_text rfl (by decide) _
  have htokens :=
    (((hhead.clause hwhere).clause horder).clause hlimit).filled?_ofPieces .select
  simp only [List.append_assoc, List.cons_append, List.nil_append] at htokens ⊢
  have hlend {words : List String} (hw : "LIMIT" ∉ words) : Ends words ls := by
    simpa using hlimit.ends hw (by simp [Ends] : Ends words [])
  have hcomma : (ls ++ []).head? ≠ some .comma := hlimit.head? (by simp) (by simp)
  rw [List.append_nil] at hcomma
  have hcond := hcondition (os ++ ls) (horder.ends (by decide) (hlend (by decide)))
  have hpart := hparts ls (hlend (by decide)) hcomma
  have hids : t.columns.map Column.id ≠ [] := by simpa using hcolumns
  have hq := select?_eq hids t.name hcond hpart hcount
  refine ⟨⟨t.columns.map Column.id, t.name, e, sortKey reverse t.key,
    limit.map fun n => Int64.ofNat (min n Table.maxLimit)⟩, ?_, rfl, fun k store => ?_⟩
  · rw [htokens, Option.bind_some, hq]
  · cases limit with
    | none => simp only [Select.run, answer, heval]; rfl
    | some n =>
      have hn : (Int64.ofNat (min n Table.maxLimit)).toInt.toNat = min n Table.maxLimit := by
        have hle : min n Table.maxLimit ≤ 9223372036854775807 := Nat.min_le_right _ _
        rw [Int64.toInt_ofNat_of_lt (by omega), Int.toNat_natCast]
      simp only [Select.run, answer, heval, Option.map_some, hn]
      rfl

end Table

/-! ## Conditions of ranges -/

namespace KeyRange

theorem filledLists_of_predicate? {key : Key} {range : KeyRange} {p : Predicate}
    (h : range.predicate? key = some p) : p.FilledLists :=
  predicate?_of_parts (fun j _ => Predicate.filledLists_merge j) h
    (fun _ _ q _ => ⟨Predicate.filledLists_eq q.1.column q.2, fun _ => trivial⟩)
    (fun _ _ _ _ _ _ => trivial) (fun _ _ hne _ _ => hne) fun _ _ _ _ => trivial

end KeyRange

/-! ## The engine -/

/-- **Storage that reads the text of a select returns the rows of the query.** -/
theorem Table.engine_answers {t : Table} {style : Style} (hquote : style.quoteNames = true)
    (hvalid : t.validate = .ok ()) (hcolumns : t.columns ≠ []) (k : Collation) {store : List Row}
    (hwidth : ∀ row ∈ store, row.length = t.columns.length) :
    (t.engine k store).Answers t k style store := by
  intro q s state hs
  unfold select at hs
  split at hs
  · cases hs
  · next p hp =>
    obtain ⟨s, hs, heq⟩ := map_eq_ok.1 hs
    cases heq
    have hlists : ∀ r ∈ p, r.FilledLists := by
      rintro r rfl
      unfold condition? at hp
      split at hp
      · cases hp
      · obtain ⟨r', hr', heq⟩ := Option.map_eq_some_iff.1 hp
        cases heq
        exact KeyRange.filledLists_of_predicate? hr'
    obtain ⟨read, hread, hname, hrun⟩ := reads_selectWhere hquote hcolumns hlists hs
    have hsame : read.run k t store = t.answer k q.reverse style store p q.limit := by
      rw [hrun]
      refine (List.map_congr_left fun row hrow => ?_).trans (List.map_id _)
      exact map_cell_eq hvalid (hwidth row (mem_answer hrow))
    unfold engine Query.answer
    simp only [hread, if_pos hname, hsame, hp]

/-! ## A collation -/

namespace Cell

def rank : Cell → Nat
  | null => 0
  | integer _ => 1
  | real _ => 2
  | text _ => 3

def int : Cell → Int64
  | integer i => i
  | _ => 0

def string : Cell → String
  | text s => s
  | _ => ""

end Cell

/-- Integers by value and texts by their characters; floating-point numbers are all alike. A pattern
fits itself alone. -/
def Sql.Collation.plain : Collation where
  order _ := compareLex (compareOn Cell.rank) (compareLex (compareOn Cell.int) (compareOn Cell.string))
  like _ _ cell pattern := cell = pattern
  trans _ := inferInstance
  order_integers i j := by simp [compareLex, compareOn, Cell.rank, Cell.int, Cell.string]

theorem Sql.Collation.plain_exact (columns : List String) : plain.Exact columns := by
  intro column _ a b ha hb
  show ((compareOn _ a b).then ((compareOn _ a b).then (compareOn _ a b))) = .eq ↔ _
  rw [Ordering.then_eq_eq, Ordering.then_eq_eq]
  unfold compareOn
  rw [Std.compare_eq_iff_eq, Std.compare_eq_iff_eq, Std.compare_eq_iff_eq]
  cases a <;> cases b <;> simp_all [Cell.rank, Cell.int, Cell.string, Cell.isReal]

end KeyedRows
