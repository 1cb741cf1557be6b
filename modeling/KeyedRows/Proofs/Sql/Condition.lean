import KeyedRows.Proofs.Coercion
import KeyedRows.Proofs.Sql.Grammar
import KeyedRows.Proofs.Sql.Piece
import KeyedRows.Sql.Condition

/-!
# What a rendered condition means

* `Table.stored?` : the storage form of a value in a column;
* `Predicate.pieces_induction` : induction over a predicate that has pieces;
* `View.ofCells` : a row of cells as conditions see it, values in their storage form;
* `Predicate.FilledLists` : no list of values in a predicate is empty;
* `ReadsAs` : pieces that read as an expression of a given truth;
* `readsAs_and`, `readsAs_or` : parts joined by `AND` or by `OR`;
* `Predicate.read_pieces` : the text of a predicate, read back with its bindings, has the truth of
  the predicate on every row.
-/

namespace KeyedRows

open Sql

def Table.stored? (t : Table) (column : String) (v : Value) : Option Cell :=
  (t.column? column).bind fun c => c.type.store? v

/-- A row of cells as conditions see it: a value counts in the storage form of the column, a pattern
as its text. -/
def View.ofCells (k : Collation) (t : Table) (style : Style) (row : String → Cell) : View where
  isNull column := (row column).isNull
  compare column v :=
    (t.stored? column v).bind fun cell => k.compare? row (.column column) (.cell cell)
  like column pattern :=
    k.fits row style.likeEscape (.column column) (.cell (.text pattern.toText))

namespace Table

theorem requireColumn_eq_ok {t : Table} {column : String} {c : Column} :
    t.requireColumn column = .ok c ↔ t.column? column = some c := by
  unfold requireColumn
  cases t.column? column <;> simp

theorem bind_eq_ok {t : Table} {column : String} {v : Value} {piece : Piece} :
    t.bind column v = .ok piece ↔ ∃ cell, t.stored? column v = some cell ∧ piece = .binding cell := by
  unfold bind stored?
  rw [KeyedRows.bind_eq_ok]
  constructor
  · rintro ⟨c, hc, h⟩
    rw [requireColumn_eq_ok.1 hc, Option.bind_some]
    cases hs : c.type.store? v with
    | none =>
      have hstore : c.type.store v = .error (.cannotStore c.type v) := by rw [ColumnType.store, hs]
      rw [hstore] at h
      cases h
    | some cell =>
      rw [ColumnType.store_eq_ok.2 hs] at h
      cases h
      exact ⟨cell, rfl, rfl⟩
  · rintro ⟨cell, hcell, rfl⟩
    obtain ⟨c, hc, hs⟩ := Option.bind_eq_some_iff.1 hcell
    refine ⟨c, requireColumn_eq_ok.2 hc, ?_⟩
    rw [ColumnType.store_eq_ok.2 hs]

theorem mapM_bind_eq_ok {t : Table} {column : String} {values : List Value} {pieces : List Piece}
    (h : values.mapM (fun v => t.bind column v) = .ok pieces) : ∃ cs : List Cell,
      pieces = cs.map .binding ∧
        List.Forall₂ (fun v cell => t.stored? column v = some cell) values cs := by
  have hpieces := mapM_eq_ok.1 h
  clear h
  induction hpieces with
  | nil => exact ⟨[], rfl, .nil⟩
  | cons hp _ ih =>
    obtain ⟨cell, hs, rfl⟩ := bind_eq_ok.1 hp
    obtain ⟨cs, rfl, hcs⟩ := ih
    exact ⟨cell :: cs, rfl, .cons hs hcs⟩

end Table

/-! ## The pieces of a predicate -/

namespace Predicate

variable {t : Table} {style : Style}

theorem pieces_compare_eq_ok {column : String} {op : Comparison} {v : Value} {ps : List Piece} :
    (compare column op v).pieces t style = .ok ps ↔ ∃ cell, t.stored? column v = some cell ∧
      ps = [.name column, .text (" " ++ op.symbol ++ " "), .binding cell] := by
  rw [pieces, bind_eq_ok]
  constructor
  · rintro ⟨piece, hbind, h⟩
    obtain ⟨cell, hcell, rfl⟩ := Table.bind_eq_ok.1 hbind
    cases h
    exact ⟨cell, hcell, rfl⟩
  · rintro ⟨cell, hcell, rfl⟩
    exact ⟨_, Table.bind_eq_ok.2 ⟨cell, hcell, rfl⟩, rfl⟩

/-- The pieces of some parts are those of each part, in parentheses where it needs them. -/
theorem partPieces_eq_ok {parts : List Predicate} {pss : List (List Piece)} :
    partPieces t style parts = .ok pss ↔
      List.Forall₂ (fun p qs => ∃ ps, p.pieces t style = .ok ps ∧ qs = grouped p ps) parts pss := by
  induction parts generalizing pss with
  | nil =>
    rw [partPieces, List.forall₂_nil_left_iff]
    exact ⟨fun h => by cases h; rfl, fun h => by rw [h]; rfl⟩
  | cons p parts ih =>
    rw [partPieces, bind_eq_ok]
    constructor
    · rintro ⟨ps, hp, h⟩
      obtain ⟨qss, hparts, h⟩ := bind_eq_ok.1 h
      cases h
      exact .cons ⟨ps, hp, rfl⟩ (ih.1 hparts)
    · rintro (_ | ⟨⟨ps, hp, rfl⟩, hparts⟩)
      exact ⟨ps, hp, bind_eq_ok.2 ⟨_, ih.2 hparts, rfl⟩⟩

/-- Induction over a predicate that has pieces, with the pieces of each case. The parts of a group
have the property before they get their parentheses. -/
@[elab_as_elim]
theorem pieces_induction
    {motive : ∀ (p : Predicate) (ps : List Piece), p.pieces t style = .ok ps → Prop}
    (compare : ∀ column op v cell h, t.stored? column v = some cell →
      motive (.compare column op v)
        [.name column, .text (" " ++ op.symbol ++ " "), .binding cell] h)
    (isNull : ∀ column h, motive (.isNull column) [.name column, .text " IS NULL"] h)
    (isNotNull : ∀ column h, motive (.isNotNull column) [.name column, .text " IS NOT NULL"] h)
    (isIn : ∀ column values cs h,
      List.Forall₂ (fun v cell => t.stored? column v = some cell) values cs →
        motive (.isIn column values) ([.name column, .text " IN ("] ++
          Piece.commaList (cs.map fun cell => [.binding cell]) ++ [.text ")"]) h)
    (between : ∀ column low high a b h, t.stored? column low = some a →
      t.stored? column high = some b → motive (.between column low high)
        [.name column, .text " BETWEEN ", .binding a, .text " AND ", .binding b] h)
    (like : ∀ column pattern c h, t.column? column = some c → motive (.like column pattern)
      ([.name column, .text " LIKE ", .binding (.text pattern.toText)] ++ escapeClause style) h)
    (and : ∀ parts pss h,
      List.Forall₂ (fun p qs => ∃ ps hp, motive p ps hp ∧ qs = grouped p ps) parts pss →
        motive (.and parts) (joined " AND " "1 = 1" pss) h)
    (or : ∀ parts pss h,
      List.Forall₂ (fun p qs => ∃ ps hp, motive p ps hp ∧ qs = grouped p ps) parts pss →
        motive (.or parts) (joined " OR " "1 = 0" pss) h)
    {p : Predicate} {ps : List Piece} (h : p.pieces t style = .ok ps) : motive p ps h := by
  have hgroup {parts : List Predicate} {pss : List (List Piece)}
      (hparts : partPieces t style parts = .ok pss) (hlt : ∀ q ∈ parts, sizeOf q < sizeOf p) :
      List.Forall₂ (fun p qs => ∃ ps hp, motive p ps hp ∧ qs = grouped p ps) parts pss := by
    have hmem := (List.forall₂_and_left _ _).2 ⟨fun q hq => hq, partPieces_eq_ok.1 hparts⟩
    refine hmem.imp fun q qs hq => ?_
    obtain ⟨hq, ps, hps, rfl⟩ := hq
    have hsmall := hlt q hq
    exact ⟨ps, hps, pieces_induction compare isNull isNotNull isIn between like and or hps, rfl⟩
  have hps := h
  cases p with
  | compare column op v =>
    obtain ⟨cell, hcell, rfl⟩ := pieces_compare_eq_ok.1 h
    exact compare column op v cell h hcell
  | isNull column =>
    rw [pieces] at hps
    cases hps
    exact isNull column h
  | isNotNull column =>
    rw [pieces] at hps
    cases hps
    exact isNotNull column h
  | isIn column values =>
    rw [pieces] at hps
    obtain ⟨bindings, hbind, hps⟩ := bind_eq_ok.1 hps
    obtain ⟨cs, rfl, hcs⟩ := Table.mapM_bind_eq_ok hbind
    rw [List.map_map] at hps
    cases hps
    exact isIn column values cs h hcs
  | between column low high =>
    rw [pieces] at hps
    obtain ⟨_, hlow, hps⟩ := bind_eq_ok.1 hps
    obtain ⟨_, hhigh, hps⟩ := bind_eq_ok.1 hps
    obtain ⟨a, ha, rfl⟩ := Table.bind_eq_ok.1 hlow
    obtain ⟨b, hb, rfl⟩ := Table.bind_eq_ok.1 hhigh
    cases hps
    exact between column low high a b h ha hb
  | like column pattern =>
    rw [pieces] at hps
    obtain ⟨c, hc, hps⟩ := bind_eq_ok.1 hps
    cases hps
    exact like column pattern c h (Table.requireColumn_eq_ok.1 hc)
  | and parts =>
    rw [pieces] at hps
    obtain ⟨pss, hparts, hps⟩ := bind_eq_ok.1 hps
    cases hps
    exact and parts pss h (hgroup hparts fun q hq => by
      have hlt := List.sizeOf_lt_of_mem hq
      rw [Predicate.and.sizeOf_spec]
      omega)
  | or parts =>
    rw [pieces] at hps
    obtain ⟨pss, hparts, hps⟩ := bind_eq_ok.1 hps
    cases hps
    exact or parts pss h (hgroup hparts fun q hq => by
      have hlt := List.sizeOf_lt_of_mem hq
      rw [Predicate.or.sizeOf_spec]
      omega)
termination_by sizeOf p

end Predicate

/-! ## Rows of cells -/

section
variable {t : Table} {column : String}

theorem View.test_ofCells {v : Value} {cell : Cell} (h : t.stored? column v = some cell)
    (k : Collation) (style : Style) (row : String → Cell) (op : Comparison) :
    (View.ofCells k t style row).test op column v = k.test row op (.column column) (.cell cell) := by
  simp only [View.test, View.ofCells, h, Option.bind_some]
  rfl

theorem View.test_eq_eq_yes {v : Value} {k : Collation} {style : Style} {row : String → Cell} :
    (View.ofCells k t style row).test .eq column v = .yes ↔ ∃ cell, t.stored? column v = some cell ∧
      cell.isNull = false ∧ (row column).isNull = false ∧
        k.order (some column) (row column) cell = .eq := by
  cases hs : t.stored? column v with
  | none => simp [View.test, View.ofCells, hs]
  | some cell =>
    rw [View.test_ofCells hs, Collation.test, Collation.compare?]
    cases hnull : (row column).isNull || cell.isNull with
    | true =>
      have hnot : ¬(cell.isNull = false ∧ (row column).isNull = false) := by
        rintro ⟨hcell, hrow⟩
        rw [hcell, hrow] at hnull
        cases hnull
      simp only [Operand.value, hnull, if_true, Option.some.injEq, exists_eq_left']
      exact iff_of_false (by simp) fun h => hnot ⟨h.1, h.2.1⟩
    | false =>
      rw [Bool.or_eq_false_iff] at hnull
      simp only [Operand.value, hnull.1, hnull.2, Bool.or_false, Bool.false_eq_true, if_false,
        Option.some.injEq, exists_eq_left', true_and]
      show Truth.ofBool (k.order (some column) (row column) cell).isEq = .yes ↔ _
      rw [Truth.ofBool_eq_yes, Ordering.isEq_iff_eq_eq]

theorem View.map_test_ofCells {values : List Value} {cs : List Cell}
    (h : List.Forall₂ (fun v cell => t.stored? column v = some cell) values cs) (k : Collation)
    (style : Style) (row : String → Cell) (op : Comparison) :
    values.map ((View.ofCells k t style row).test op column) =
      cs.map fun cell => k.test row op (.column column) (.cell cell) := by
  induction h with
  | nil => rfl
  | cons hs _ ih => rw [List.map_cons, List.map_cons, View.test_ofCells hs, ih]

end

/-! ## Pieces that read as an expression -/

/-- The pieces read as an expression that has the given truth on every row, and the tokens stand at
a level of the grammar. -/
def ReadsAs (style : Style) (level : List Token → Expr → Prop) (pieces : List Piece)
    (truth : Collation → (String → Cell) → Truth) : Prop :=
  ∃ ts e, Reads style true pieces ts ∧ level ts e ∧ ∀ k row, e.eval k row = truth k row

section
variable {style : Style} {ps : List Piece} {truth : Collation → (String → Cell) → Truth}

theorem ReadsAs.disjunction (h : ReadsAs style Primary ps truth) :
    ReadsAs style Disjunction ps truth := by
  obtain ⟨ts, e, hread, hlevel, heval⟩ := h
  exact ⟨ts, e, hread, hlevel.conjunction.disjunction, heval⟩

theorem ReadsAs.grouped (h : ReadsAs style Disjunction ps truth) :
    ReadsAs style Primary (.text "(" :: ps ++ [.text ")"]) truth := by
  obtain ⟨ts, e, hread, hlevel, heval⟩ := h
  have hopen : Reads style false [.text "("] [.opening] := Reads.text Spells.opening
  have hclose : Reads style false [.text ")"] [.closing] := Reads.text Spells.closing
  have hps : Reads style false (ps ++ [.text ")"]) (ts ++ [.closing]) :=
    hread.append hclose fun _ => startsFresh_text rfl (by decide) []
  exact ⟨_, e, (hopen.append hps (by simp)).opened, hlevel.grouped, heval⟩

theorem readsAs_constant {s : String} {a b : Nat} {i j : Int64} (ha : int64? a = some i)
    (hb : int64? b = some j)
    (hs : s.toList = Nat.toDigits 10 a ++ ([' '] ++ (Comparison.eq.symbol.toList ++ [' '] ++
      Nat.toDigits 10 b))) :
    ReadsAs style Primary [.text s] fun _ _ => .ofBool (compare i j).isEq := by
  have hsub : Spells false [' '] [] := Spells.blank
  have hop : Spells false (Comparison.eq.symbol.toList ++ [' ']) [.compare .eq] := Spells.compare .eq
  have hspell := (Spells.digit ha).append (hsub.append (hop.append (Spells.digit hb) (by simp))
    (by simp)) (by simp)
  refine ⟨_, .compare (.cell (.integer i)) .eq (.cell (.integer j)), Reads.text (hs ▸ hspell),
    Primary.of_comparison rfl fun rest _ => rfl, fun k row => ?_⟩
  show k.test row .eq (.cell (.integer i)) (.cell (.integer j)) = _
  rw [← k.order_integers i j]
  rfl

/-! ## Parts joined by a word -/

section
variable {α : Type} {truth : α → Collation → (String → Cell) → Truth} {parts : List α}
  {pieces : List (List Piece)}

/-- Primaries with a keyword between them, where `hjoin` says how the grammar takes them. The
induction is on the parts; the grammar joins them from the right, as the truth of a list does. -/
theorem ReadsAs.join {w s : String} {level : List Token → Expr → Prop} {node : Expr → Expr → Expr}
    {combine : Truth → Truth → Truth} {unit : Truth}
    (hs : s.toList = ([w].flatMap fun w => ' ' :: w.toList) ++ [' ']) (hw : IsKeyword w)
    (hlift : ∀ {ts e}, Primary ts e → level ts e)
    (hjoin : ∀ {ts us e f}, Primary ts e → level us f → level (ts ++ .word w :: us) (node e f))
    (heval : ∀ k row e f, (node e f).eval k row = combine (e.eval k row) (f.eval k row))
    (hunit : ∀ t, combine t unit = t)
    (h : List.Forall₂ (fun p ps => ReadsAs style Primary ps (truth p)) parts pieces)
    (hne : parts ≠ []) : ReadsAs style level (pieces.intersperse [.text s]).flatten
      fun k row => (parts.map fun p => truth p k row).foldr combine unit := by
  have hsep : Reads style false [.text s] [.word w] := Reads.spaced [w] (by simpa using hw) hs
  have hhead : s.toList.head? = some ' ' := by simp [hs]
  induction h with
  | nil => exact absurd rfl hne
  | @cons p ps parts pieces hp htail ih =>
    obtain ⟨ts, e, hread, hlevel, he⟩ := hp
    cases htail with
    | nil =>
      exact ⟨ts, e, by simpa using hread, hlift hlevel, fun k row => by simp [he, hunit]⟩
    | cons hq htail =>
      obtain ⟨us, f, hread', hlevel', hf⟩ := ih (by simp)
      refine ⟨_, node e f, ?_, hjoin hlevel hlevel', fun k row => ?_⟩
      · exact hread.append (hsep.append hread' (by simp)) fun _ =>
          startsFresh_text hhead (by decide) _
      · simp only [heval, he, hf, List.map_cons, List.foldr_cons]

theorem readsAs_and
    (h : List.Forall₂ (fun p ps => ReadsAs style Primary ps (truth p)) parts pieces) :
    ReadsAs style Disjunction (Predicate.joined " AND " "1 = 1" pieces)
      fun k row => .all (parts.map fun p => truth p k row) := by
  cases h with
  | nil => exact (readsAs_constant (a := 1) (b := 1) rfl rfl (by decide)).disjunction
  | cons hp htail =>
    obtain ⟨ts, e, hread, hlevel, heval⟩ := ReadsAs.join (s := " AND ") (by decide)
      (by decide) Primary.conjunction Primary.and (fun _ _ _ _ => rfl) Truth.and_yes
      (.cons hp htail) (by simp)
    exact ⟨ts, e, hread, hlevel.disjunction, heval⟩

theorem readsAs_or
    (h : List.Forall₂ (fun p ps => ReadsAs style Primary ps (truth p)) parts pieces) :
    ReadsAs style Disjunction (Predicate.joined " OR " "1 = 0" pieces)
      fun k row => .any (parts.map fun p => truth p k row) := by
  cases h with
  | nil => exact (readsAs_constant (a := 1) (b := 0) rfl rfl (by decide)).disjunction
  | cons hp htail =>
    exact ReadsAs.join (s := " OR ") (by decide) (by decide) (fun h => h.conjunction.disjunction)
      (fun h => h.conjunction.or) (fun _ _ _ _ => rfl) Truth.or_no (.cons hp htail) (by simp)

end
end

/-! ## Single conditions -/

section
variable {style : Style} (hquote : style.quoteNames = true) (column : String)
include hquote

theorem reads_operands {s : String} {tokens : List Token} (hs : Reads style false [.text s] tokens)
    (hhead : s.toList.head? = some ' ') (cell : Cell) :
    Reads style true [.name column, .text s, .binding cell]
      (.name column :: (tokens ++ [.literal cell])) :=
  (Reads.name hquote column).append (hs.append (Reads.binding cell) (by simp)) fun _ =>
    startsFresh_text hhead (by decide) _

theorem readsAs_compare (op : Comparison) (cell : Cell) :
    ReadsAs style Primary [.name column, .text (" " ++ op.symbol ++ " "), .binding cell]
      fun k row => k.test row op (.column column) (.cell cell) := by
  have hs : Reads style false [.text (" " ++ op.symbol ++ " ")] [.compare op] := by
    have hspell := Spells.blank.append (Spells.compare op) (by simp)
    exact Reads.text (by cases op <;> exact hspell)
  refine ⟨_, .compare (.column column) op (.cell cell),
    reads_operands hquote column hs (by cases op <;> rfl) cell, ?_, fun _ _ => rfl⟩
  exact Primary.of_comparison rfl fun rest _ => rfl

theorem reads_words {s : String} (ws : List String) (hws : ∀ w ∈ ws, IsKeyword w)
    (hs : s.toList = ws.flatMap fun w => ' ' :: w.toList) (hhead : s.toList.head? = some ' ') :
    Reads style true [.name column, .text s] (.name column :: ws.map .word) :=
  (Reads.name hquote column).append (Reads.words ws hws hs) fun _ =>
    startsFresh_text hhead (by decide) []

theorem readsAs_isNull : ReadsAs style Primary [.name column, .text " IS NULL"]
    fun _ row => .ofBool (row column).isNull := by
  refine ⟨_, .isNull (.column column),
    reads_words hquote column ["IS", "NULL"] (by decide) (by decide) rfl, ?_, fun _ _ => rfl⟩
  exact Primary.of_comparison rfl fun rest _ => rfl

theorem readsAs_isNotNull : ReadsAs style Primary [.name column, .text " IS NOT NULL"]
    fun _ row => .ofBool !(row column).isNull := by
  refine ⟨_, .isNotNull (.column column),
    reads_words hquote column ["IS", "NOT", "NULL"] (by decide) (by decide) rfl, ?_,
    fun _ _ => rfl⟩
  exact Primary.of_comparison rfl fun rest _ => rfl

theorem readsAs_isIn {cs : List Cell} (hcs : cs ≠ []) :
    ReadsAs style Primary
      ([.name column, .text " IN ("] ++ Piece.commaList (cs.map fun c => [.binding c]) ++ [.text ")"])
      fun k row => .any (cs.map fun c => k.test row .eq (.column column) (.cell c)) := by
  have hin : Reads style false [.text " IN ("] [.word "IN", .opening] := by
    have hspell := (Spells.words (by decide : ∀ w ∈ ["IN"], IsKeyword w)).append
      (Spells.blank.append Spells.opening (by simp)) (by simp)
    exact Reads.text hspell
  have hlist : Reads style true (Piece.commaList (cs.map fun c => [.binding c]))
      ((cs.map fun c => [Token.literal c]).intersperse [.comma]).flatten := by
    refine Reads.commaList ?_
    rw [List.forall₂_map_left_iff, List.forall₂_map_right_iff, List.forall₂_same]
    exact fun c _ => Reads.binding c
  have hclose : Reads style false [.text ")"] [.closing] := Reads.text Spells.closing
  have hread := ((Reads.name hquote column).append (hin.append hlist (by simp))
    fun _ => startsFresh_text rfl (by decide) _).append hclose
      fun _ => startsFresh_text rfl (by decide) []
  refine ⟨_, .isIn (.column column) (cs.map .cell), by simpa using hread.opened, ?_, fun k row => ?_⟩
  · refine Primary.of_comparison rfl fun rest _ => ?_
    have hoperands := operands?_literals rest hcs
    show (operands? _).map _ = _
    simp [hoperands]
  · rw [Expr.eval, List.map_map]
    rfl

theorem readsAs_between (low high : Cell) :
    ReadsAs style Primary
      [.name column, .text " BETWEEN ", .binding low, .text " AND ", .binding high]
      fun k row => (k.test row .ge (.column column) (.cell low)).and
        (k.test row .le (.column column) (.cell high)) := by
  have hbetween : Reads style false [.text " BETWEEN "] [.word "BETWEEN"] :=
    Reads.spaced ["BETWEEN"] (by decide) (by decide)
  have hand : Reads style false [.text " AND "] [.word "AND"] :=
    Reads.spaced ["AND"] (by decide) (by decide)
  have hread := (reads_operands hquote column hbetween rfl low).append
    (hand.append (Reads.binding high) (by simp)) fun _ => startsFresh_text rfl (by decide) _
  refine ⟨_, .between (.column column) (.cell low) (.cell high), hread, ?_, fun _ _ => rfl⟩
  exact Primary.of_comparison rfl fun rest _ => rfl

theorem readsAs_like (pattern : Cell) :
    ReadsAs style Primary ([.name column, .text " LIKE ", .binding pattern] ++
        Predicate.escapeClause style)
      fun k row => k.fits row style.likeEscape (.column column) (.cell pattern) := by
  have hlike : Reads style false [.text " LIKE "] [.word "LIKE"] :=
    Reads.spaced ["LIKE"] (by decide) (by decide)
  have hread := reads_operands hquote column hlike rfl pattern
  unfold Predicate.escapeClause
  cases hc : style.likeEscape with
  | none =>
    refine ⟨_, .like (.column column) (.cell pattern) none, by simpa using hread, ?_, fun _ _ => rfl⟩
    refine Primary.of_comparison rfl fun rest hrest => ?_
    show (escape? rest).map _ = _
    rw [escape?_of_ends hrest (by simp)]
    rfl
  | some c =>
    have hescape : Reads style false [.text " ESCAPE "] [.word "ESCAPE"] :=
      Reads.spaced ["ESCAPE"] (by decide) (by decide)
    refine ⟨_, .like (.column column) (.cell pattern) (some c),
      hread.append (hescape.append (Reads.quoted c) (by simp)) fun _ =>
        startsFresh_text rfl (by decide) _, ?_, fun _ _ => rfl⟩
    refine Primary.of_comparison rfl fun rest _ => ?_
    show (escape? (.word "ESCAPE" :: .literal (.text (String.singleton c)) :: rest)).map _ = _
    rw [escape?_literal]
    rfl

end

/-! ## Predicates -/

namespace Predicate

mutual

/-- Every list of values has a member. -/
def FilledLists : Predicate → Prop
  | isIn _ values => values ≠ []
  | and parts | or parts => FilledParts parts
  | _ => True

def FilledParts : List Predicate → Prop
  | [] => True
  | p :: parts => p.FilledLists ∧ FilledParts parts

end

theorem filledParts_iff : ∀ {parts : List Predicate},
    FilledParts parts ↔ ∀ p ∈ parts, p.FilledLists
  | [] => by simp [FilledParts]
  | p :: parts => by rw [FilledParts, filledParts_iff, List.forall_mem_cons]

def truth (t : Table) (style : Style) (p : Predicate) (k : Collation) (row : String → Cell) : Truth :=
  p.eval (.ofCells k t style row)

section
variable {t : Table} {style : Style}

/-- A part that needs no parentheses, or has them. -/
theorem readsAs_part {p : Predicate} {ps : List Piece}
    (h : ReadsAs style (if p.isCompound then Disjunction else Primary) ps (p.truth t style)) :
    ReadsAs style Primary (grouped p ps) (p.truth t style) := by
  unfold grouped
  cases hp : p.isCompound with
  | true => exact ReadsAs.grouped (by simpa [hp] using h)
  | false => simpa [hp] using h

/-- The parts of a group, each read on its own. -/
theorem readsAs_parts {parts : List Predicate} {pss : List (List Piece)}
    (hlists : FilledParts parts) (h : List.Forall₂ (fun p qs => ∃ ps, ∃ _ : p.pieces t style = .ok ps,
      (p.FilledLists → ReadsAs style (if p.isCompound then Disjunction else Primary) ps
        (p.truth t style)) ∧ qs = grouped p ps) parts pss) :
    List.Forall₂ (fun p qs => ReadsAs style Primary qs (p.truth t style)) parts pss := by
  refine ((List.forall₂_and_left _ _).2 ⟨filledParts_iff.1 hlists, h⟩).imp fun p qs hp => ?_
  obtain ⟨hfilled, ps, _, hread, rfl⟩ := hp
  exact readsAs_part (hread hfilled)

/-- The pieces of a predicate read as an expression of its truth. -/
theorem readsAs_pieces (hquote : style.quoteNames = true) {p : Predicate} {ps : List Piece}
    (hlists : p.FilledLists) (h : p.pieces t style = .ok ps) :
    ReadsAs style (if p.isCompound then Disjunction else Primary) ps (p.truth t style) := by
  induction h using pieces_induction with
  | compare column op v cell _ hs =>
    obtain ⟨ts, e, hread, hlevel, heval⟩ := readsAs_compare hquote column op cell
    refine ⟨ts, e, hread, hlevel, fun k row => ?_⟩
    rw [heval, truth, eval, View.test_ofCells hs]
  | isNull column => exact readsAs_isNull hquote column
  | isNotNull column => exact readsAs_isNotNull hquote column
  | isIn column values cs _ hcs =>
    have hne : cs ≠ [] := by
      rintro rfl
      exact hlists (List.forall₂_nil_right_iff.1 hcs)
    obtain ⟨ts, e, hread, hlevel, heval⟩ := readsAs_isIn hquote column hne
    refine ⟨ts, e, hread, hlevel, fun k row => ?_⟩
    rw [heval, truth, eval, View.map_test_ofCells hcs]
  | between column low high low' high' _ hs hs' =>
    obtain ⟨ts, e, hread, hlevel, heval⟩ := readsAs_between hquote column low' high'
    refine ⟨ts, e, hread, hlevel, fun k row => ?_⟩
    rw [heval, truth, eval, View.test_ofCells hs, View.test_ofCells hs']
  | like column pattern => exact readsAs_like hquote column _
  | and parts pss _ ih =>
    obtain ⟨ts, e, hread, hlevel, heval⟩ := readsAs_and (readsAs_parts hlists ih)
    refine ⟨ts, e, hread, hlevel, fun k row => ?_⟩
    rw [heval, truth, eval, evalParts_eq_map]
    rfl
  | or parts pss _ ih =>
    obtain ⟨ts, e, hread, hlevel, heval⟩ := readsAs_or (readsAs_parts hlists ih)
    refine ⟨ts, e, hread, hlevel, fun k row => ?_⟩
    rw [heval, truth, eval, evalParts_eq_map]
    rfl

/-- The pieces of any predicate stand where a condition may. -/
theorem readsAs_condition (hquote : style.quoteNames = true) {p : Predicate} (hlists : p.FilledLists)
    {ps : List Piece} (h : p.pieces t style = .ok ps) :
    ReadsAs style Disjunction ps (p.truth t style) := by
  have hp := readsAs_pieces hquote hlists h
  cases hc : p.isCompound with
  | true => simpa [hc] using hp
  | false =>
    rw [hc, if_neg (by simp)] at hp
    exact hp.disjunction

/-- **A rendered predicate means the predicate.** The text that a predicate has in a statement, with
the bindings of the statement put in for its placeholders, is a condition of the grammar that has the
truth of the predicate on every row, where values count in the storage form of their columns. -/
theorem read_pieces (hquote : style.quoteNames = true) {p : Predicate} (hlists : p.FilledLists)
    {ps : List Piece} (h : p.pieces t style = .ok ps) (before after : List Cell) :
    ∃ e, read? (before ++ (cells ps ++ after)) (before.length + 1)
        (Piece.render style (before.length + 1) ps) = some e ∧
      ∀ (k : Collation) (row : String → Cell), e.eval k row = p.eval (.ofCells k t style row) := by
  obtain ⟨ts, e, hread, hlevel, heval⟩ := readsAs_condition hquote hlists h
  refine ⟨e, ?_, heval⟩
  have htokens := hread before after [] fun _ => fresh_nil
  have hcondition := hlevel.condition?_eq (by simp [Ends] : Ends _ [])
  simp only [List.append_nil, filled?_nil, Option.map_some] at htokens hcondition
  rw [read?, htokens, Option.bind_some, hcondition]

/-- A disjunction inside a conjunction, over columns with quotes in their names. -/
theorem read_pieces_nested :
    let t : Table := { name := "t", columns := [⟨"a \x22", .integer, none, none⟩, ⟨"b", .string, none, none⟩] }
    let style : Style := ⟨.dollar, true, some '\x27'⟩
    let p : Predicate := .and [.or [.between "a \x22" (.integer 1) (.string "2"),
      .isIn "b" [.null, .boolean true]], .like "b" (.integer 7), .and []]
    style.quoteNames = true ∧ p.FilledLists ∧ ∃ ps, p.pieces t style = .ok ps ∧
      ∃ e, read? (cells ps) 1 (Piece.render style 1 ps) = some e ∧
        ∀ (k : Collation) (row : String → Cell), e.eval k row = p.eval (.ofCells k t style row) := by
  intro t style p
  have hlists : p.FilledLists := by simp [p, FilledLists, FilledParts]
  obtain ⟨ps, hps⟩ : ∃ ps, p.pieces t style = .ok ps := ⟨_, rfl⟩
  refine ⟨rfl, hlists, ps, hps, ?_⟩
  simpa using read_pieces rfl hlists hps [] []

end
end Predicate
end KeyedRows
