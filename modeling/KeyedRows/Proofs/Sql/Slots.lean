import KeyedRows.Proofs.Sql.Placeholder
import KeyedRows.Proofs.Written
import KeyedRows.Sql.Query

/-!
# Pieces with their placeholders

* `Slot` : a value of a statement with the place where its placeholder stands, and its cell;
* `Lays` : pieces whose text has the placeholders of some slots, and whose cells are those of the
  slots; a cursor goes through them from one state to another;
* `Lays.append`, `Lays.intersperse` : stretches of pieces one after another;
* `Stands` : such pieces, whatever stands before them;
* `Predicate.slots`, `Predicate.stands_pieces` : the slots of a condition, in the order of its text.
-/

namespace KeyedRows

namespace Sql

/-! ## Slots -/

/-- A value with the place of its placeholder. -/
inductive Slot where
  | column (id : String) (v : Value)
  | pattern (column : String) (v : Value)
  | limit (n : Nat)

namespace Slot

def place : Slot → Place
  | column id _ => .column id
  | pattern id _ => .pattern id
  | limit _ => .limit

/-- The cell to bind: the storage form of a value in its column, a pattern as text, a limit as an
integer. -/
def cell? (t : Table) : Slot → Option Cell
  | column id v => t.stored? id v
  | pattern _ v => some (.text v.toText)
  | limit n => some (Table.limitCell n)

end Slot

def marks (style : Style) (next : Nat) (slots : List Slot) : List (List Char × Option Place) :=
  (slots.zipIdx next).map fun (slot, k) => (style.placeholder.render k, some slot.place)

theorem marks_append (style : Style) (next : Nat) (slots slots' : List Slot) :
    marks style next (slots ++ slots') =
      marks style next slots ++ marks style (next + slots.length) slots' := by
  rw [marks, List.zipIdx_append, List.map_append, marks, marks]

/-! ## Cursors -/

namespace Cursor

def words (c : Cursor) (ws : List (List Char)) : Cursor := ws.foldl (fun c w => c.next (.word w)) c

def beside (c : Cursor) (id : String) : Cursor := { names := c.names ++ [id], spot := .beside }

theorem words_like (c : Cursor) : c.words ["LIKE".toList] = { c with spot := .like } := rfl

theorem words_limit (c : Cursor) : c.words ["LIMIT".toList] = { c with spot := .limit } := rfl

theorem next_name (c : Cursor) (id : String) : c.next (.name id.toList) = c.beside id := by
  rw [next, String.ofList_toList, beside]

theorem place?_beside (c : Cursor) (id : String) : (c.beside id).place? = some (.column id) := by
  simp [place?, beside]

end Cursor

theorem placed_words (c : Cursor) (ws : List (List Char)) (lexemes : List Lexeme) :
    placed c (ws.map .word ++ lexemes) = placed (c.words ws) lexemes := by
  induction ws generalizing c with
  | nil => rfl
  | cons w ws ih => exact ih (c.next (.word w))

/-! ## Pieces with placeholders -/

/-- The text of the pieces has the placeholders of the slots and leads from one cursor to another, and
the pieces bind the cells of the slots. Pieces with an open end need a fresh text after them. -/
structure Lays (t : Table) (style : Style) (isOpen : Bool) (pieces : List Piece) (c : Cursor)
    (slots : List Slot) (after : Cursor) : Prop where
  text : ∀ next rest, (isOpen = true → Fresh rest) →
    placed c (scan .between (Piece.render style next pieces ++ rest)) =
      marks style next slots ++ placed after (scan .between rest)
  cells : List.Forall₂ (fun slot cell => slot.cell? t = some cell) slots (cells pieces)

/-- Pieces that are followed by a fresh text start fresh themselves, or there are none. -/
def StaysFresh (style : Style) (pieces : List Piece) : Prop :=
  ∀ next rest, Fresh rest → Fresh (Piece.render style next pieces ++ rest)

section
variable {t : Table} {style : Style} {b b' : Bool} {ps qs : List Piece} {c c' c'' : Cursor}
  {slots slots' : List Slot}

theorem StartsFresh.stays (h : StartsFresh style ps) : StaysFresh style ps :=
  fun next rest _ => h next rest

theorem staysFresh_nil : StaysFresh style [] := fun _ _ h => h

theorem Lays.nil : Lays t style false [] c [] c where
  text _ _ _ := rfl
  cells := .nil

theorem Lays.opened (h : Lays t style b ps c slots c') : Lays t style true ps c slots c' where
  text next rest hrest := h.text next rest fun _ => hrest rfl
  cells := h.cells

/-- One stretch of pieces after another. -/
theorem Lays.append (hp : Lays t style b ps c slots c') (hq : Lays t style b' qs c' slots' c'')
    (hb : b = true → ∀ next rest, (b' = true → Fresh rest) →
      Fresh (Piece.render style next qs ++ rest)) :
    Lays t style b' (ps ++ qs) c (slots ++ slots') c'' where
  text next rest hrest := by
    rw [render_append, List.append_assoc, hp.text next _ fun h => hb h _ rest hrest,
      hq.text _ rest hrest, marks_append, hp.cells.length_eq, List.append_assoc]
  cells := by
    rw [cells_append]
    exact List.rel_append hp.cells hq.cells

theorem Lays.append_text {s : String} {ch : Char} (hp : Lays t style b ps c slots c')
    (hq : Lays t style b' (.text s :: qs) c' slots' c'') (hhead : s.toList.head? = some ch)
    (hch : ch = ' ' ∨ ch = ',' ∨ ch = ')') :
    Lays t style b' (ps ++ .text s :: qs) c (slots ++ slots') c'' :=
  hp.append hq fun _ next rest _ => startsFresh_text hhead hch qs next rest

/-! ## Single pieces -/

theorem Lays.text_of {s : String} (ws : List (List Char))
    (h : run .between s.toList = (ws.map .word, .between)) (hc : c.words ws = c') :
    Lays t style false [.text s] c [] c' where
  text next rest _ := by
    rw [Piece.render, Piece.render, List.append_nil, scan_text h, placed_words, hc]
    rfl
  cells := .nil

theorem Lays.words_of {s : String} (ws : List (List Char)) {w : List Char}
    (h : run .between s.toList = (ws.map .word, .word w)) (hc : c.words (ws ++ [w]) = c') :
    Lays t style true [.text s] c [] c' where
  text next rest hrest := by
    have hlast : scan (.word w) rest = [.word w] ++ scan .between rest :=
      scan_of_fresh rfl rfl rfl (hrest rfl)
    rw [Piece.render, Piece.render, List.append_nil, scan_text h, hlast, ← List.append_assoc,
      ← hc, ← placed_words, List.map_append]
    rfl
  cells := .nil

theorem Lays.name (hquote : style.quoteNames = true) (s : String) :
    Lays t style true [.name s] c [] (c.beside s) where
  text next rest hrest := by
    rw [Piece.render, Piece.render, List.append_nil, scan_name hquote s (hrest rfl), placed,
      Cursor.next_name]
    · rfl
    · exact fun _ h => by cases h
  cells := .nil

theorem Lays.binding {slot : Slot} {cell : Cell} (hplace : c.place? = some slot.place)
    (hcell : slot.cell? t = some cell) :
    Lays t style true [.binding cell] c [slot] (c.next (.mark [])) where
  text next rest hrest := by
    have hnext : c.next (.mark (style.placeholder.render next)) = c.next (.mark []) := rfl
    rw [Piece.render, Piece.render, List.append_nil, scan_binding style.placeholder next (hrest rfl),
      placed, hplace, hnext]
    rfl
  cells := .cons hcell .nil

theorem Lays.quoted (ch : Char) : Lays t style true [.quoted ch] c [] c where
  text next rest hrest := by
    have htext : Piece.render style next [.quoted ch] ++ rest =
        '\x27' :: (Style.doubled '\x27' [ch] ++ '\x27' :: rest) := by simp [Piece.render]
    rw [htext, scan_quoted ch (hrest rfl)]
    rfl
  cells := .nil

/-! ## Lists of pieces -/

/-- Stretches of pieces parted by a text, where an invariant of the cursor and of the items that are
left holds before each. -/
theorem Lays.intersperse {α : Type} {R : α → List Piece → Prop} {g : α → List Slot}
    {I : List α → Cursor → Prop} {sep : String} {ch : Char}
    (hsep : ∀ c, Lays t style false [.text sep] c [] c) (hhead : sep.toList.head? = some ch)
    (hch : ch = ' ' ∨ ch = ',' ∨ ch = ')')
    (hitem : ∀ a ps as c, R a ps → I (a :: as) c →
      ∃ c', Lays t style true ps c (g a) c' ∧ I as c')
    {as : List α} {pss : List (List Piece)} (h : List.Forall₂ R as pss) (hI : I as c) :
    ∃ c', Lays t style true (pss.intersperse [.text sep]).flatten c (as.flatMap g) c' ∧ I [] c' := by
  induction h generalizing c with
  | nil => exact ⟨c, Lays.nil.opened, hI⟩
  | @cons a ps as pss hp htail ih =>
    obtain ⟨c', hlays, hI'⟩ := hitem a ps as c hp hI
    cases htail with
    | nil => exact ⟨c', by simpa using hlays, hI'⟩
    | cons hq htail =>
      obtain ⟨c'', hrest, hI''⟩ := ih hI'
      refine ⟨c'', ?_, hI''⟩
      rw [List.intersperse_cons_cons, List.flatten_cons, List.flatten_cons, List.flatMap_cons]
      exact hlays.append_text ((hsep c').append hrest (by simp)) hhead hch

theorem lays_comma (c : Cursor) : Lays t style false [.text ", "] c [] c :=
  Lays.text_of [] (by decide) rfl

theorem Lays.commaList {α : Type} {R : α → List Piece → Prop} {g : α → List Slot}
    {I : List α → Cursor → Prop}
    (hitem : ∀ a ps as c, R a ps → I (a :: as) c →
      ∃ c', Lays t style true ps c (g a) c' ∧ I as c')
    {as : List α} {pss : List (List Piece)} (h : List.Forall₂ R as pss) (hI : I as c) :
    ∃ c', Lays t style true (Piece.commaList pss) c (as.flatMap g) c' ∧ I [] c' :=
  Lays.intersperse lays_comma rfl (by decide) hitem h hI

/-- The pieces have the placeholders and bind the cells of the slots, whatever stands before them. -/
def Stands (t : Table) (style : Style) (ps : List Piece) (slots : List Slot) : Prop :=
  ∀ c, ∃ c', Lays t style true ps c slots c'

theorem Stands.append (hp : Stands t style ps slots) (hq : Stands t style qs slots')
    (hqs : StaysFresh style qs) : Stands t style (ps ++ qs) (slots ++ slots') := by
  intro c
  obtain ⟨c', hp⟩ := hp c
  obtain ⟨c'', hq⟩ := hq c'
  exact ⟨c'', hp.append hq fun _ next rest hrest => hqs next rest (hrest rfl)⟩

theorem stands_nil : Stands t style [] [] := fun c => ⟨c, Lays.nil.opened⟩

theorem Stands.text_append (htext : ∀ c, ∃ c', Lays t style false ps c [] c')
    (hq : Stands t style qs slots) : Stands t style (ps ++ qs) slots := by
  intro c
  obtain ⟨c', hp⟩ := htext c
  obtain ⟨c'', hq⟩ := hq c'
  exact ⟨c'', hp.append hq (by simp)⟩

theorem Stands.commaList {α : Type} {g : α → List Slot} {as : List α} {pss : List (List Piece)}
    (h : List.Forall₂ (fun a ps => Stands t style ps (g a)) as pss) (hg : as.flatMap g = slots) :
    Stands t style (Piece.commaList pss) slots := by
  intro c
  obtain ⟨c', hlays, _⟩ := Lays.commaList (I := fun _ _ => True)
    (fun a ps _ c hp _ => (hp c).imp fun _ h => ⟨h, trivial⟩) h (c := c) trivial
  exact ⟨c', hg ▸ hlays⟩

/-! ## Conditions -/

theorem lays_operands (hquote : style.quoteNames = true) {s : String} (ws : List (List Char))
    (hs : run .between s.toList = (ws.map .word, .between)) (hhead : s.toList.head? = some ' ')
    {id : String} (slot : Slot) (hplace : ((c.beside id).words ws).place? = some slot.place)
    {cell : Cell} (hcell : slot.cell? t = some cell) :
    Lays t style true [.name id, .text s, .binding cell] c [slot]
      (((c.beside id).words ws).next (.mark [])) :=
  (Lays.name hquote id).append_text
    ((Lays.text_of ws hs rfl).append (Lays.binding hplace hcell) (by simp)) hhead (by decide)

end
end Sql

open Sql

namespace Predicate

mutual

/-- The values of a condition in the order of its text. -/
def slots : Predicate → List Slot
  | compare column _ v => [.column column v]
  | isNull _ | isNotNull _ => []
  | isIn column values => values.map (.column column)
  | between column low high => [.column column low, .column column high]
  | like column pattern => [.pattern column pattern]
  | and parts | or parts => partSlots parts

def partSlots : List Predicate → List Slot
  | [] => []
  | p :: parts => p.slots ++ partSlots parts

end

theorem partSlots_eq_flatMap (parts : List Predicate) : partSlots parts = parts.flatMap slots := by
  induction parts with
  | nil => rfl
  | cons p parts ih => rw [partSlots, ih, List.flatMap_cons]

theorem slots_group (j : Junction) (parts : List Predicate) :
    (j.group parts).slots = parts.flatMap slots := by
  cases j <;> exact partSlots_eq_flatMap parts

theorem flatMap_slots_parts (j : Junction) (p : Predicate) : (j.parts p).flatMap slots = p.slots := by
  rcases j.group_or_parts_eq p with ⟨parts, rfl⟩ | ⟨_, hself⟩
  · rw [j.parts_group, slots_group]
  · rw [hself, List.flatMap_singleton]

theorem slots_wrap (j : Junction) (ps : List Predicate) : (j.wrap ps).slots = ps.flatMap slots := by
  unfold Junction.wrap
  split
  · rw [List.flatMap_singleton]
  · exact slots_group j _

/-- Merging groups keeps the values in order. -/
theorem slots_merge (j : Junction) (parts : List Predicate) :
    (j.merge parts).slots = parts.flatMap slots := by
  rw [j.merge_eq_wrap, slots_wrap, List.flatMap_assoc]
  exact List.flatMap_congr fun p _ => flatMap_slots_parts j p

theorem slots_all (parts : List Predicate) : (all parts).slots = parts.flatMap slots :=
  slots_merge .and parts

theorem slots_any (parts : List Predicate) : (any parts).slots = parts.flatMap slots :=
  slots_merge .or parts

theorem slots_eq (column : String) (v : Value) :
    (eq column v).slots = if v.isNull then [] else [.column column v] := by
  unfold eq
  split <;> rfl

variable {t : Table} {style : Style}

theorem stands_grouped {p : Predicate} {ps : List Piece} {slots : List Slot}
    (h : Stands t style ps slots) : Stands t style (grouped p ps) slots := by
  unfold grouped
  split
  · have hopen (c : Cursor) : Lays t style false [.text "("] c [] c := Lays.text_of [] (by decide) rfl
    intro c
    obtain ⟨c', hps⟩ := h c
    have hclose : Lays t style false [.text ")"] c' [] c' := Lays.text_of [] (by decide) rfl
    have hall := (((hopen c).append hps (by simp)).append_text hclose rfl (by decide)).opened
    exact ⟨c', by simpa using hall⟩
  · exact h

/-- Parts of a conjunction or disjunction, or the constant that stands for none. -/
theorem stands_joined {word none : String} {ch : Char}
    (hword : ∀ c, Lays t style false [.text word] c [] c) (hhead : word.toList.head? = some ch)
    (hch : ch = ' ' ∨ ch = ',' ∨ ch = ')')
    (hnone : run .between none.toList = ([], .between)) {parts : List Predicate}
    {pss : List (List Piece)} (h : List.Forall₂ (fun p ps => Stands t style ps p.slots) parts pss) :
    Stands t style (joined word none pss) (partSlots parts) := by
  intro c
  rw [partSlots_eq_flatMap]
  unfold joined
  split
  · next hempty =>
    rw [List.isEmpty_iff.1 hempty, List.forall₂_nil_right_iff] at h
    rw [h]
    exact ⟨c, (Lays.text_of [] hnone rfl).opened⟩
  · obtain ⟨c', hlays, _⟩ := Lays.intersperse (I := fun _ _ => True) hword hhead hch
      (fun p ps _ c hp _ => (hp c).imp fun _ h => ⟨h, trivial⟩) h trivial
    exact ⟨c', hlays⟩

section
variable (hquote : style.quoteNames = true)
include hquote

theorem stands_words (column : String) {s : String} (ws : List (List Char)) {w : List Char}
    (h : run .between s.toList = (ws.map .word, .word w)) (hhead : s.toList.head? = some ' ') :
    Stands t style [.name column, .text s] [] :=
  fun _ => ⟨_, (Lays.name hquote column).append_text (Lays.words_of ws h rfl) hhead (by decide)⟩

theorem stands_compare {column : String} {op : Comparison} {v : Value} {cell : Cell}
    (hcell : t.stored? column v = some cell) :
    Stands t style [.name column, .text (" " ++ op.symbol ++ " "), .binding cell]
      [.column column v] :=
  fun c => ⟨_, lays_operands hquote [] (by cases op <;> decide) (by cases op <;> rfl)
    (.column column v) (c.place?_beside column) hcell⟩

theorem stands_isIn {column : String} {values : List Value} {cs : List Cell}
    (h : List.Forall₂ (fun v cell => t.stored? column v = some cell) values cs) :
    Stands t style ([.name column, .text " IN ("] ++
      Piece.commaList (cs.map fun cell => [.binding cell]) ++ [.text ")"])
      (values.map (.column column)) := by
  intro c
  have hhead : Lays t style false [.name column, .text " IN ("] c [] (c.beside column) :=
    (Lays.name hquote column).append_text (Lays.text_of ["IN".toList] (by decide) rfl) rfl (by decide)
  have hclose (c : Cursor) : Lays t style false [.text ")"] c [] c := Lays.text_of [] (by decide) rfl
  have hitems : List.Forall₂ (fun v ps => ∃ cell, t.stored? column v = some cell ∧
      ps = [Piece.binding cell]) values (cs.map fun cell => [.binding cell]) := by
    rw [List.forall₂_map_right_iff]
    exact h.imp fun v cell hcell => ⟨cell, hcell, rfl⟩
  obtain ⟨c', hlist, rfl⟩ : ∃ c', Lays t style true
      (Piece.commaList (cs.map fun cell => [.binding cell])) (c.beside column)
      (values.flatMap fun v => [Slot.column column v]) c' ∧ c' = c.beside column :=
    Lays.commaList (I := fun _ c' => c' = c.beside column) (by
      rintro v ps _ _ ⟨cell, hcell, rfl⟩ rfl
      exact ⟨_, Lays.binding (c.place?_beside column) hcell, rfl⟩) hitems rfl
  have hall := ((hhead.append hlist (by simp)).append_text (hclose _) rfl (by decide)).opened
  rw [← List.map_eq_flatMap] at hall
  exact ⟨_, by simpa using hall⟩

theorem stands_between {column : String} {low high : Value} {a b : Cell}
    (ha : t.stored? column low = some a) (hb : t.stored? column high = some b) :
    Stands t style [.name column, .text " BETWEEN ", .binding a, .text " AND ", .binding b]
      [.column column low, .column column high] := by
  intro c
  have hlow := lays_operands hquote (s := " BETWEEN ") ["BETWEEN".toList] (by decide) rfl
    (.column column low) (c.place?_beside column) ha
  have hand : Lays t style false [.text " AND "] (c.beside column) [] (c.beside column) :=
    Lays.text_of ["AND".toList] (by decide) rfl
  have hhigh : Lays t style true [.binding b] (c.beside column) [.column column high] _ :=
    Lays.binding (c.place?_beside column) hb
  exact ⟨_, hlow.append_text (hand.append hhigh (by simp)) rfl (by decide)⟩

theorem stands_like (column : String) (v : Value) :
    Stands t style ([.name column, .text " LIKE ", .binding (.text v.toText)] ++ escapeClause style)
      [.pattern column v] := by
  intro c
  have hplace : ((c.beside column).words ["LIKE".toList]).place? = some (.pattern column) := by
    rw [Cursor.words_like]
    simp [Cursor.place?, Cursor.beside]
  have hlike := lays_operands hquote (t := t) (s := " LIKE ") ["LIKE".toList] (by decide) rfl
    (.pattern column v) hplace rfl
  unfold escapeClause
  split
  · next ch _ =>
    have hescape (c : Cursor) : Lays t style false [.text " ESCAPE "] c [] c :=
      Lays.text_of ["ESCAPE".toList] (by decide) rfl
    exact ⟨_, hlike.append_text ((hescape _).append (Lays.quoted ch) (by simp)) rfl (by decide)⟩
  · exact ⟨_, by simpa using hlike⟩

end

/-- The text of a condition has the placeholders of its values, in order. -/
theorem stands_pieces (hquote : style.quoteNames = true) {p : Predicate} {ps : List Piece}
    (h : p.pieces t style = .ok ps) : Stands t style ps p.slots := by
  induction h using pieces_induction with
  | compare column op v cell _ hcell => exact stands_compare hquote hcell
  | isNull column =>
    exact stands_words hquote column ["IS".toList] (w := "NULL".toList) (by decide) rfl
  | isNotNull column =>
    exact stands_words hquote column ["IS".toList, "NOT".toList] (w := "NULL".toList) (by decide) rfl
  | isIn column values cs _ hcs => exact stands_isIn hquote hcs
  | between column low high a b _ ha hb => exact stands_between hquote ha hb
  | like column v => exact stands_like hquote column v
  | and parts pss _ ih =>
    refine stands_joined (fun c => Lays.text_of ["AND".toList] (by decide) rfl) rfl (by decide)
      (by decide) (ih.imp fun p qs hp => ?_)
    obtain ⟨ps, _, hps, rfl⟩ := hp
    exact stands_grouped hps
  | or parts pss _ ih =>
    refine stands_joined (fun c => Lays.text_of ["OR".toList] (by decide) rfl) rfl (by decide)
      (by decide) (ih.imp fun p qs hp => ?_)
    obtain ⟨ps, _, hps, rfl⟩ := hp
    exact stands_grouped hps

end Predicate
end KeyedRows
