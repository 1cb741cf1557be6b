import KeyedRows.Proofs.Sql.Effect
import KeyedRows.Proofs.Sql.Engine

/-!
# Storage that reads writes

* `Write`, `write?` : what an insert or update asks for, and the one that some tokens spell;
* `Table.database` : the rows of one table under unique keys, which reads the text of a query, insert
  or update with its bindings and runs it;
* `filledLists_updateCondition` : the condition of an update has no empty list of values;
* `reads_insert`, `reads_update`, `write?_of_insert`, `write?_of_update` : the text of a write reads as
  what the write is to do;
* `database_insert`, `database_update`, `database_writes` : so such storage does what the writes of a
  table say.
-/

namespace KeyedRows

open Sql

namespace Sql

/-! ## Reading writes -/

/-- What a write of one table asks for: cells by column, and for an update a condition. -/
inductive Write where
  | insert (table : String) (cells : List (String × Cell))
  | update (table : String) (cells : List (String × Cell)) (condition : Expr)

namespace Write

def table : Write → String
  | insert table _ | update table _ _ => table

def effect (k : Collation) (t : Table) : Write → Effect
  | insert _ cells => .insert cells
  | update _ cells condition => .update cells fun row => condition.eval k (t.cell row) = .yes

end Write

def Operand.cell? : Operand → Option Cell
  | cell c => some c
  | column _ => none

def columnValues? (table : String) (tokens : List Token) : Option Write :=
  match tokens with
  | .opening :: rest => (names? rest).bind fun (ids, rest) => match rest with
    | .closing :: rest => (after? "VALUES" rest).bind fun rest => match rest with
      | .opening :: rest => (operands? rest).bind fun (xs, rest) =>
        (xs.mapM Operand.cell?).bind fun cells =>
          if rest.isEmpty ∧ cells.length = ids.length then some (.insert table (ids.zip cells))
          else none
      | _ => none
    | _ => none
  | _ => (after? "DEFAULT" tokens).bind fun rest => (after? "VALUES" rest).bind fun rest =>
    if rest.isEmpty then some (.insert table []) else none

def insert? (tokens : List Token) : Option Write :=
  (after? "INSERT" tokens).bind fun rest => (after? "INTO" rest).bind fun rest => match rest with
    | .name table :: rest => columnValues? table rest
    | _ => none

def assignments? : List Token → Option (List (String × Cell) × List Token)
  | .name s :: .compare .eq :: .literal c :: .comma :: rest =>
    (assignments? rest).map fun (cells, rest) => ((s, c) :: cells, rest)
  | .name s :: .compare .eq :: .literal c :: rest => some ([(s, c)], rest)
  | _ => none

def update? (tokens : List Token) : Option Write :=
  (after? "UPDATE" tokens).bind fun rest => match rest with
    | .name table :: rest => (after? "SET" rest).bind fun rest =>
      (assignments? rest).bind fun (cells, rest) => (after? "WHERE" rest).bind fun rest =>
        (condition? rest).bind fun (e, rest) =>
          if rest.isEmpty then some (.update table cells e) else none
    | _ => none

/-- The insert or update that some tokens spell. -/
def write? (tokens : List Token) : Option Write := (insert? tokens).or (update? tokens)

end Sql

/-- Storage with the rows of one table, which reads the text of a query, insert or update and runs
it. A write that would leave two rows with one key is refused, and so is a delete. -/
def Table.database (t : Table) (k : Collation) : Storage (List Row) where
  fetch s store := (((t.engine k store).fetch s ()).1, store)
  execute s store :=
    match (filled? s.bindings 1 s.sql.toList).bind write? with
    | none => (.error ⟨"syntax error", none⟩, store)
    | some w =>
      if w.table = t.name then (w.effect k t).outcome t k store
      else (.error ⟨"no such table", none⟩, store)

/-! ## Reading back -/

namespace Sql

def assignTokens (p : String × Cell) : List Token := [.name p.1, .compare .eq, .literal p.2]

theorem assignments?_eq {rest : List Token} (hrest : rest.head? ≠ some .comma) :
    ∀ {cells : List (String × Cell)}, cells ≠ [] →
      assignments? (((cells.map assignTokens).intersperse [.comma]).flatten ++ rest) =
        some (cells, rest)
  | [], h => absurd rfl h
  | [p], _ => by
    cases rest with
    | nil => rfl
    | cons token rest => cases token <;> first | rfl | exact absurd rfl hrest
  | p :: q :: cells, _ => by
    have ih := assignments?_eq hrest (List.cons_ne_nil q cells)
    simp only [List.map_cons, List.intersperse_cons_cons, List.flatten_cons, assignTokens] at ih ⊢
    simp only [List.cons_append, List.nil_append] at ih ⊢
    rw [assignments?, ih]
    rfl

theorem columnValues?_eq (table : String) {cells : List (String × Cell)} (hcells : cells ≠ []) :
    columnValues? table (.opening :: ((((cells.map Prod.fst).map fun id => [Token.name id]).intersperse
      [.comma]).flatten ++ .closing :: .word "VALUES" :: .opening ::
        ((((cells.map Prod.snd).map fun c => [Token.literal c]).intersperse [.comma]).flatten ++
          [.closing]))) = some (.insert table cells) := by
  have hids : cells.map Prod.fst ≠ [] := by simpa using hcells
  have hvalues : cells.map Prod.snd ≠ [] := by simpa using hcells
  have hpayload : ((cells.map Prod.snd).map Operand.cell).mapM Operand.cell? =
      some (cells.map Prod.snd) :=
    mapM_eq_some.2 (List.forall₂_map_left_iff.2 (List.forall₂_same.2 fun _ _ => rfl))
  rw [columnValues?, names?_eq (by simp) hids, Option.bind_some]
  dsimp only
  rw [after?_word, Option.bind_some]
  dsimp only
  rw [operands?_literals [] hvalues, Option.bind_some]
  dsimp only
  rw [hpayload, Option.bind_some, if_pos ⟨rfl, by simp⟩, ← List.zip_of_prod (rfl : cells.map Prod.fst = _) rfl]

end Sql

namespace Table

variable {t : Table} {style : Style} (hquote : style.quoteNames = true) {cells : List (String × Cell)}
include hquote

/-- The text of an insert reads as the insert. -/
theorem reads_insert (cells : List (String × Cell)) : ∃ ts, Reads style true (t.insertPieces cells) ts ∧
    write? ts = some (.insert t.name cells) := by
  have hinto : Reads style false [.text "INSERT INTO "] [.word "INSERT", .word "INTO"] := by
    have hspell := (Spells.word (by decide : IsKeyword "INSERT")).append
      ((Spells.words (by decide : ∀ w ∈ ["INTO"], IsKeyword w)).append Spells.blank (by simp))
      fun _ rest => fresh_blank _
    exact Reads.text hspell
  have hhead := hinto.append (Reads.name hquote t.name) (by simp)
  by_cases hcells : cells = []
  · have hdefault : Reads style true [.text " DEFAULT VALUES"] [.word "DEFAULT", .word "VALUES"] :=
      Reads.words ["DEFAULT", "VALUES"] (by decide) (by decide)
    have hread := hhead.append hdefault fun _ => startsFresh_text rfl (by decide) []
    subst hcells
    exact ⟨_, hread, rfl⟩
  · have hopen : Reads style false [.text " ("] [.opening] := by
      have hspell := Spells.blank.append Spells.opening (by simp)
      exact Reads.text hspell
    have hvalues : Reads style false [.text ") VALUES ("] [.closing, .word "VALUES", .opening] := by
      have hspell := Spells.closing.append ((Spells.words (by decide : ∀ w ∈ ["VALUES"], IsKeyword w)).append
        (Spells.blank.append Spells.opening (by simp)) fun _ rest => fresh_blank _) (by simp)
      exact Reads.text hspell
    have hlist : Reads style true (Piece.commaList (cells.map fun p => [.binding p.2]))
        (((cells.map Prod.snd).map fun c => [Token.literal c]).intersperse [.comma]).flatten := by
      refine Reads.commaList ?_
      rw [List.map_map, List.forall₂_map_left_iff, List.forall₂_map_right_iff, List.forall₂_same]
      exact fun p _ => Reads.binding p.2
    have hclose : Reads style false [.text ")"] [.closing] := Reads.text Spells.closing
    have htail := (((hopen.append (reads_names hquote (cells.map Prod.fst)) (by simp)).append
      (hvalues.append hlist (by simp)) fun _ => startsFresh_text rfl (by decide) _).append hclose
        fun _ => startsFresh_text rfl (by decide) []).opened
    have hread := hhead.append htail fun _ => startsFresh_text rfl (by decide) _
    have hempty : cells.isEmpty = false := by simpa using hcells
    refine ⟨_, by rw [insertPieces, hempty]; exact hread, ?_⟩
    have hwrite := columnValues?_eq t.name hcells
    simp only [List.cons_append, List.nil_append, List.append_assoc]
    rw [write?, insert?, after?_word, Option.bind_some, after?_word, Option.bind_some]
    dsimp only
    rw [hwrite]
    rfl

/-- The text of an update that has something to write reads as the update, with a condition of the
truth of the predicate. -/
theorem reads_update (hcells : cells ≠ []) {p : Predicate} (hlists : p.FilledLists) {ps : List Piece}
    (hp : p.pieces t style = .ok ps) :
    ∃ ts e, Reads style true (t.updatePieces cells ++ .text " WHERE " :: ps) ts ∧
      write? ts = some (.update t.name cells e) ∧ ∀ k row, e.eval k row = p.truth t style k row := by
  obtain ⟨ts, e, hread, hlevel, heval⟩ := Predicate.readsAs_condition hquote hlists hp
  have hupdate : Reads style false [.text "UPDATE "] [.word "UPDATE"] :=
    Reads.keyword (by decide) (by decide)
  have hset : Reads style false [.text " SET "] [.word "SET"] :=
    Reads.spaced ["SET"] (by decide) (by decide)
  have hwhere : Reads style false [.text " WHERE "] [.word "WHERE"] :=
    Reads.spaced ["WHERE"] (by decide) (by decide)
  have hassign : Reads style true
      (Piece.commaList (cells.map fun p => [.name p.1, .text " = ", .binding p.2]))
      ((cells.map assignTokens).intersperse [.comma]).flatten := by
    have hequals : Reads style false [.text " = "] [.compare .eq] := by
      have hspell := Spells.blank.append (Spells.compare .eq) (by simp)
      exact Reads.text hspell
    refine Reads.commaList ?_
    rw [List.forall₂_map_left_iff, List.forall₂_map_right_iff, List.forall₂_same]
    exact fun p _ => reads_operands hquote p.1 hequals rfl p.2
  have hhead := (hupdate.append (Reads.name hquote t.name) (by simp)).append
    (hset.append hassign (by simp)) fun _ => startsFresh_text rfl (by decide) _
  have hall := hhead.append (hwhere.append hread (by simp)) fun _ => startsFresh_text rfl (by decide) _
  refine ⟨_, e, hall, ?_, heval⟩
  have hrest : (Token.word "WHERE" :: ts).head? ≠ some .comma := by simp
  have hassignments := assignments?_eq hrest hcells
  have hcondition := hlevel.condition?_eq (by simp [Ends] : Ends _ [])
  rw [List.append_nil] at hcondition
  have hinsert (rest : List Token) : insert? (.word "UPDATE" :: rest) = none := by
    rw [insert?, after?, if_neg (by decide), Option.bind_none]
  simp only [List.cons_append, List.nil_append]
  rw [write?, hinsert, Option.none_or, update?, after?_word, Option.bind_some]
  dsimp only
  rw [after?_word, Option.bind_some, hassignments, Option.bind_some]
  dsimp only
  rw [after?_word, Option.bind_some, hcondition, Option.bind_some]
  rfl

omit hquote in
theorem filledLists_updateCondition (ctx : Context) (keys : List Value) (targets : Assignments) :
    (t.updateCondition ctx keys targets).FilledLists := by
  have hkey : (t.keyPredicate keys).FilledLists := by
    refine Predicate.filledLists_merge .and fun p hp => ?_
    obtain ⟨pair, _, rfl⟩ := Predicate.exists_of_mem_zipWith_eq hp
    exact Predicate.filledLists_eq pair.1 pair.2
  have hdiffers (c : Column) (v : Value) : (differs c v).FilledLists := by
    unfold differs
    split
    · trivial
    · exact ⟨trivial, trivial, trivial⟩
  refine Predicate.filledLists_merge .and fun p hp => ?_
  rcases List.mem_cons.1 hp with rfl | hp
  · exact hkey
  · split at hp
    · rw [List.mem_singleton.1 hp]
      refine Predicate.filledLists_merge .or fun q hq => ?_
      obtain ⟨⟨c, v⟩, _, rfl⟩ := List.mem_map.1 hq
      exact hdiffers c v
    · cases hp

/-! ## The database -/

omit hquote in
theorem database_execute {k : Collation} {s : Statement} {w : Write}
    (hread : (filled? s.bindings 1 s.sql.toList).bind write? = some w) (htable : w.table = t.name)
    (store : List Row) : (t.database k).execute s store = (w.effect k t).outcome t k store := by
  simp only [database, hread, if_pos htable]

variable {e : Entity} {ctx : Context} {s : Statement}

theorem write?_of_insert (h : t.insert style e ctx = .ok s) :
    (filled? s.bindings 1 s.sql.toList).bind write? =
      some (.insert t.name (t.written (e.inserts ctx))) := by
  obtain rfl := insert_eq_ok h
  obtain ⟨ts, hread, hwrite⟩ := reads_insert (t := t) hquote (t.written (e.inserts ctx))
  rw [hread.filled?_ofPieces .insert, Option.bind_some, hwrite]

theorem database_insert (h : t.insert style e ctx = .ok s) (k : Collation) (store : List Row) :
    (t.database k).execute s store = (t.insertEffect e ctx).outcome t k store :=
  database_execute (write?_of_insert hquote h) rfl store

theorem write?_of_update (h : t.update style e ctx = .ok (some s)) {keys : List Value}
    (hkeys : e.baselineKey = .ok keys) :
    ∃ condition, (filled? s.bindings 1 s.sql.toList).bind write? =
        some (.update t.name (t.written (e.updates t ctx ++ e.updateStamps ctx)) condition) ∧
      ∀ k row, condition.eval k row =
        (t.updateCondition ctx keys (e.updates t ctx)).truth t style k row := by
  have hcells := written_ne_nil_of_update h
  obtain ⟨_, keys', set, hkeys', hset, ps, hps, rfl⟩ := update_eq_ok h
  rw [hkeys] at hkeys'
  cases hkeys'
  obtain ⟨ts, condition, hread, hwrite, heval⟩ :=
    reads_update (t := t) hquote hcells (filledLists_updateCondition ctx keys _) hps
  refine ⟨condition, ?_, heval⟩
  rw [setClause_eq_ok hset]
  exact (congrArg (Option.bind · write?) (hread.filled?_ofPieces .update)).trans hwrite

theorem database_update (h : t.update style e ctx = .ok (some s)) {keys : List Value}
    (hkeys : e.baselineKey = .ok keys) (k : Collation) (store : List Row) :
    (t.database k).execute s store = (t.updateEffect k style e ctx keys).outcome t k store := by
  obtain ⟨condition, hread, heval⟩ := write?_of_update hquote h hkeys
  have heffect : (Write.update t.name (t.written (e.updates t ctx ++ e.updateStamps ctx))
      condition).effect k t = t.updateEffect k style e ctx keys := by
    simp only [Write.effect, heval]
    rfl
  rw [← heffect]
  exact database_execute hread rfl store

/-- **Storage that reads the text of a write does what the write is to do.** -/
theorem database_writes (k : Collation) : (t.database k).Writes t k style where
  insert _ _ _ h := Storage.performs_of_outcome (database_insert hquote h k)
  update _ _ _ _ h hkeys := Storage.performs_of_outcome (database_update hquote h hkeys k)

end Table

end KeyedRows
