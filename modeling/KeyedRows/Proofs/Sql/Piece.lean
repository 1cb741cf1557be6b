import KeyedRows.Proofs.Outcome
import KeyedRows.Proofs.Sql.Token

/-!
# Pieces as tokens

* `Reads` : pieces whose text, with their bindings put in, is a list of tokens, whatever stands
  before and after them;
* `Reads.append` : one stretch of pieces after another;
* `Reads.filled?_ofPieces` : so the text of a statement is the tokens of its pieces;
* `Reads.name`, `Reads.binding`, `Reads.words` and their kin : the single pieces;
* `Reads.intersperse`, `Reads.commaList` : pieces parted by a text or by a comma.
-/

namespace KeyedRows.Sql

def cells (pieces : List Piece) : List Cell := pieces.filterMap Piece.binding?

@[simp] theorem cells_nil : cells [] = [] := rfl

@[simp] theorem cells_text (s : String) (ps : List Piece) : cells (.text s :: ps) = cells ps := rfl

@[simp] theorem cells_name (s : String) (ps : List Piece) : cells (.name s :: ps) = cells ps := rfl

@[simp] theorem cells_quoted (c : Char) (ps : List Piece) : cells (.quoted c :: ps) = cells ps := rfl

@[simp] theorem cells_binding (c : Cell) (ps : List Piece) :
    cells (.binding c :: ps) = c :: cells ps := rfl

theorem cells_append (ps qs : List Piece) : cells (ps ++ qs) = cells ps ++ cells qs :=
  List.filterMap_append

theorem render_append (style : Style) (ps qs : List Piece) (next : Nat) :
    Piece.render style next (ps ++ qs) =
      Piece.render style next ps ++ Piece.render style (next + (cells ps).length) qs := by
  induction ps generalizing next with
  | nil => rfl
  | cons p ps ih =>
    cases p with
    | binding c =>
      have hnext : next + (cells (.binding c :: ps)).length = next + 1 + (cells ps).length := by
        rw [cells_binding, List.length_cons]
        omega
      rw [hnext, List.cons_append, Piece.render, Piece.render, ih, List.append_assoc]
    | text s => simp [Piece.render, ih]
    | name s => simp [Piece.render, ih]
    | quoted c => simp [Piece.render, ih]

/-- The pieces read as the tokens, where the bindings `before` and `after` belong to what surrounds
them. Pieces with an open end need a fresh text after them. -/
def Reads (style : Style) (isOpen : Bool) (pieces : List Piece) (tokens : List Token) : Prop :=
  ∀ (before after : List Cell) (rest : List Char), (isOpen = true → Fresh rest) →
    filled? (before ++ (cells pieces ++ after)) (before.length + 1)
        (Piece.render style (before.length + 1) pieces ++ rest) =
      (filled? (before ++ (cells pieces ++ after)) (before.length + 1 + (cells pieces).length)
        rest).map (tokens ++ ·)

/-- Pieces whose text does not extend a token before it. -/
def StartsFresh (style : Style) (pieces : List Piece) : Prop :=
  ∀ next rest, Fresh (Piece.render style next pieces ++ rest)

section
variable {style : Style}

theorem startsFresh_text {s : String} {c : Char} (hs : s.toList.head? = some c)
    (hc : c = ' ' ∨ c = ',' ∨ c = ')') (ps : List Piece) : StartsFresh style (.text s :: ps) := by
  intro next rest d hd
  obtain ⟨cs, hcs⟩ := List.head?_eq_some_iff.1 hs
  simp only [Piece.render, hcs, List.cons_append, List.head?_cons, Option.mem_def,
    Option.some.injEq] at hd
  exact hd ▸ hc

theorem Reads.nil : Reads style false [] [] := by
  intro before after rest _
  simp [Piece.render]

theorem Reads.append {ps qs : List Piece} {ts us : List Token} {b b' : Bool}
    (hp : Reads style b ps ts) (hq : Reads style b' qs us) (hb : b = true → StartsFresh style qs) :
    Reads style b' (ps ++ qs) (ts ++ us) := by
  intro before after rest hrest
  have h₁ := hp before (cells qs ++ after)
    (Piece.render style (before.length + 1 + (cells ps).length) qs ++ rest) fun h => hb h _ _
  have h₂ := hq (before ++ cells ps) after rest hrest
  have hlength : (before ++ cells ps).length + 1 = before.length + 1 + (cells ps).length := by
    rw [List.length_append]
    omega
  rw [hlength, List.append_assoc] at h₂
  rw [cells_append, render_append, List.append_assoc, List.append_assoc, h₁, h₂, Option.map_map,
    List.length_append, ← Nat.add_assoc]
  congr 1
  funext tokens
  exact (List.append_assoc ts us tokens).symm

/-- The end of the pieces may be taken as open. -/
theorem Reads.opened {ps : List Piece} {ts : List Token} {b : Bool} (h : Reads style b ps ts) :
    Reads style true ps ts :=
  fun before after rest hrest => h before after rest fun _ => hrest rfl

/-- The text of a statement reads as the tokens of its pieces. -/
theorem Reads.filled?_ofPieces {ps : List Piece} {ts : List Token} (h : Reads style true ps ts)
    (kind : StatementKind) :
    filled? (Statement.ofPieces style kind ps).bindings 1
      (Statement.ofPieces style kind ps).sql.toList = some ts := by
  have htokens := h [] [] [] fun _ => fresh_nil
  simp only [List.nil_append, List.append_nil, List.length_nil, Nat.zero_add, filled?_nil,
    Option.map_some] at htokens
  rw [Statement.ofPieces, String.toList_ofList]
  exact htokens

/-! ## Single pieces -/

theorem Reads.name (hquote : style.quoteNames = true) (s : String) :
    Reads style true [.name s] [.name s] := by
  intro before after rest hrest
  have hr : rest.head? ≠ some '"' := (hrest rfl).head?_ne (by decide) (by decide) (by decide)
  simpa [Piece.render, Style.identifier, hquote] using filled?_name s hr

theorem Reads.binding (c : Cell) : Reads style true [.binding c] [.literal c] := by
  intro before after rest hrest
  have hc : (before ++ c :: after)[before.length + 1 - 1]? = some c := by simp
  simpa [Piece.render] using filled?_binding style.placeholder hc (hrest rfl)

theorem Reads.quoted (c : Char) :
    Reads style true [.quoted c] [.literal (.text (String.singleton c))] := by
  intro before after rest hrest
  have hr : rest.head? ≠ some '\x27' := (hrest rfl).head?_ne (by decide) (by decide) (by decide)
  simpa [Piece.render] using filled?_quoted c hr

/-! ## Text pieces -/

/-- A text reads as some tokens. -/
def Spells (isOpen : Bool) (cs : List Char) (tokens : List Token) : Prop :=
  ∀ (bindings : List Cell) (next : Nat) (rest : List Char), (isOpen = true → Fresh rest) →
    filled? bindings next (cs ++ rest) = (filled? bindings next rest).map (tokens ++ ·)

theorem Spells.append {b b' : Bool} {cs ds : List Char} {ts us : List Token} (hc : Spells b cs ts)
    (hd : Spells b' ds us) (hb : b = true → ∀ rest, Fresh (ds ++ rest)) :
    Spells b' (cs ++ ds) (ts ++ us) := by
  intro bindings next rest hrest
  rw [List.append_assoc, hc bindings next _ fun h => hb h rest, hd bindings next rest hrest,
    Option.map_map]
  congr 1
  funext tokens
  exact (List.append_assoc ts us tokens).symm

theorem Spells.blank : Spells false [' '] [] := by
  intro bindings next rest _
  simp

theorem Spells.opening : Spells false ['('] [.opening] := fun _ _ _ _ => filled?_opening

theorem Spells.closing : Spells false [')'] [.closing] := fun _ _ _ _ => filled?_closing

theorem Spells.comma : Spells false [','] [.comma] := fun _ _ _ _ => filled?_comma

theorem Spells.compare (op : Comparison) :
    Spells false (op.symbol.toList ++ [' ']) [.compare op] := by
  intro bindings next rest _
  rw [List.append_assoc]
  exact filled?_compare op

theorem Spells.digit {n : Nat} {i : Int64} (hi : int64? n = some i) :
    Spells true (Nat.toDigits 10 n) [.literal (.integer i)] := by
  intro bindings next rest hrest
  exact filled?_natural hi (hrest rfl)

/-- A word of letters alone. -/
def IsKeyword (w : String) : Prop := w.toList ≠ [] ∧ w.toList.all Char.isAlpha = true

instance (w : String) : Decidable (IsKeyword w) := inferInstanceAs (Decidable (_ ∧ _))

theorem Spells.word {w : String} (hw : IsKeyword w) : Spells true w.toList [.word w] :=
  fun _ _ _ hrest => filled?_word hw.1 (List.all_eq_true.1 hw.2) (hrest rfl)

theorem Spells.words : ∀ {ws : List String}, (∀ w ∈ ws, IsKeyword w) →
    Spells true (ws.flatMap fun w => ' ' :: w.toList) (ws.map .word)
  | [], _ => fun _ _ _ _ => by simp
  | w :: ws, hws => by
    have hword := Spells.word (hws w (by simp))
    have ih := Spells.words fun v (hv : v ∈ ws) => hws v (List.mem_cons_of_mem _ hv)
    intro bindings next rest hrest
    have hfresh : Fresh ((ws.flatMap fun w => ' ' :: w.toList) ++ rest) := by
      cases ws with
      | nil => exact hrest rfl
      | cons v ws => simp
    simp only [List.flatMap_cons, List.map_cons, List.cons_append, List.append_assoc, filled?_blank]
    rw [hword bindings next _ fun _ => hfresh, ih bindings next rest hrest, Option.map_map]
    rfl

theorem Reads.text {b : Bool} {s : String} {tokens : List Token} (h : Spells b s.toList tokens) :
    Reads style b [.text s] tokens := by
  intro before after rest hrest
  simpa [Piece.render] using h (before ++ after) (before.length + 1) rest hrest

theorem Reads.keyword {s w : String} (hw : IsKeyword w) (hs : s.toList = w.toList ++ [' ']) :
    Reads style false [.text s] [.word w] := by
  have hspell := (Spells.word hw).append Spells.blank (by simp)
  rw [← hs, List.append_nil] at hspell
  exact Reads.text hspell

section
variable {s : String} (ws : List String)

theorem Reads.words (hws : ∀ w ∈ ws, IsKeyword w)
    (hs : s.toList = ws.flatMap fun w => ' ' :: w.toList) :
    Reads style true [.text s] (ws.map .word) :=
  Reads.text (hs ▸ Spells.words hws)

theorem Reads.spaced (hws : ∀ w ∈ ws, IsKeyword w)
    (hs : s.toList = (ws.flatMap fun w => ' ' :: w.toList) ++ [' ']) :
    Reads style false [.text s] (ws.map .word) := by
  have hspell := (Spells.words hws).append Spells.blank (by simp)
  rw [← hs, List.append_nil] at hspell
  exact Reads.text hspell

end

/-! ## Lists of pieces -/

/-- Stretches of pieces parted by a text. -/
theorem Reads.intersperse {sep : String} {mark : List Token} {c : Char}
    (hsep : Reads style false [.text sep] mark) (hhead : sep.toList.head? = some c)
    (hc : c = ' ' ∨ c = ',' ∨ c = ')') {items : List (List Piece)} {tss : List (List Token)}
    (h : List.Forall₂ (Reads style true) items tss) :
    Reads style true (items.intersperse [.text sep]).flatten (tss.intersperse mark).flatten := by
  induction h with
  | nil => exact Reads.nil.opened
  | @cons ps ts items tss hp htail ih =>
    cases htail with
    | nil => simpa using hp
    | @cons qs us items tss hq htail =>
      simp only [List.intersperse_cons_cons, List.flatten_cons]
      exact hp.append (hsep.append ih (by simp)) fun _ => startsFresh_text hhead hc _

theorem Reads.commaList {items : List (List Piece)} {tss : List (List Token)}
    (h : List.Forall₂ (Reads style true) items tss) :
    Reads style true (Piece.commaList items) (tss.intersperse [.comma]).flatten := by
  have hsep : Reads style false [.text ", "] [.comma] :=
    Reads.text (Spells.comma.append Spells.blank (by simp))
  exact Reads.intersperse hsep rfl (by decide) h

end
end KeyedRows.Sql
