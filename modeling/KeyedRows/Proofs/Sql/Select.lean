import Mathlib.Data.List.Sort
import KeyedRows.Proofs.KeyOrder
import KeyedRows.Proofs.Sql.Bind
import KeyedRows.Session

/-!
# What a select returns

* `rowCompare` : how two rows compare in the order of a key;
* `filter_orderedInsert`, `filter_insertionSort` : a stable sort of some rows keeps any part of them
  in the same order;
* `Table.answer`, `Query.answer` : the rows of a store that a query is for;
* `Storage.Answers` : storage that returns those rows;
* `Table.select_of_bindable` : a condition that can be written gives a select;
* `Session.select_eq` : what a session makes of the rows.
-/

namespace KeyedRows

open Sql

/-! ## The order of rows -/

theorem transCmp_apply {α : Type*} {cmp : α → α → Ordering} (h : Std.TransCmp cmp) (d : Direction) :
    Std.TransCmp fun a b => d.apply (cmp a b) := by
  cases d with
  | ascending => exact h
  | descending =>
    have hswap : (fun a b => (cmp a b).swap) = fun a b => cmp b a := by
      funext a b
      exact Std.OrientedCmp.eq_swap.symm
    show Std.TransCmp fun a b => (cmp a b).swap
    rw [hswap]
    infer_instance

/-- How two rows compare by a key, under the order that storage has for each column. -/
def rowCompare (k : Collation) : Key → (String → Cell) → (String → Cell) → Ordering
  | [], _, _ => .eq
  | part :: key, a, b =>
    (part.direction.apply (k.order (some part.column) (a part.column) (b part.column))).then
      (rowCompare k key a b)

theorem transCmp_rowCompare (k : Collation) : ∀ key : Key, Std.TransCmp (rowCompare k key)
  | [] => { eq_swap := rfl, isLE_trans := fun _ _ => rfl }
  | part :: key => by
    have hcolumn : Std.TransCmp fun a b : String → Cell =>
        part.direction.apply (k.order (some part.column) (a part.column) (b part.column)) := by
      have h := transCmp_apply (k.trans (some part.column)) part.direction
      exact { eq_swap := h.eq_swap, isLE_trans := h.isLE_trans }
    have hrest := transCmp_rowCompare k key
    exact inferInstanceAs (Std.TransCmp (compareLex _ _))

theorem rowCompare_swap (k : Collation) (key : Key) (a b : String → Cell) :
    rowCompare k key b a = (rowCompare k key a b).swap := by
  have htrans := transCmp_rowCompare k key
  exact htrans.eq_swap

/-! ## Stable sorting -/

section
variable {α : Type*} {r : α → α → Prop} [DecidableRel r]

theorem orderedInsert_of_forall {a : α} {l : List α} (h : ∀ b ∈ l, r a b) :
    l.orderedInsert r a = a :: l := by
  cases l with
  | nil => rfl
  | cons b l => exact List.orderedInsert_cons_of_le r l (h b (by simp))

/-- The part of a sorted list after an insertion. The one case with an argument is an element that
goes before a head that is left out: then it goes before all that is left. -/
theorem filter_orderedInsert [IsTrans α r] (p : α → Bool) (a : α) : ∀ {l : List α}, l.Pairwise r →
    (l.orderedInsert r a).filter p =
      if p a then (l.filter p).orderedInsert r a else l.filter p
  | [], _ => by cases hp : p a <;> simp [hp]
  | b :: l, hsorted => by
    obtain ⟨hb, hl⟩ := List.pairwise_cons.1 hsorted
    have ih := filter_orderedInsert p a hl
    by_cases hab : r a b
    · have hall : ∀ c ∈ (b :: l).filter p, r a c := by
        intro c hc
        rcases List.mem_cons.1 (List.mem_of_mem_filter hc) with rfl | hc
        · exact hab
        · exact IsTrans.trans a b c hab (hb c hc)
      rw [List.orderedInsert_cons_of_le r l hab, orderedInsert_of_forall hall]
      cases hp : p a <;> simp [hp]
    · rw [List.orderedInsert_of_not_le r l hab]
      cases hpb : p b with
      | true =>
        rw [List.filter_cons_of_pos hpb, ih, List.filter_cons_of_pos hpb,
          List.orderedInsert_of_not_le r _ hab]
        cases p a <;> rfl
      | false =>
        rw [List.filter_cons_of_neg (by simp [hpb]), ih, List.filter_cons_of_neg (by simp [hpb])]

/-- A stable sort keeps any part of a list in the same order. -/
theorem filter_insertionSort [IsTrans α r] [Std.Total r] (p : α → Bool) (l : List α) :
    (l.insertionSort r).filter p = (l.filter p).insertionSort r := by
  induction l with
  | nil => rfl
  | cons a l ih =>
    rw [List.insertionSort_cons, filter_orderedInsert p a (List.pairwise_insertionSort r l), ih]
    cases hp : p a with
    | true => rw [List.filter_cons_of_pos hp, List.insertionSort_cons]; rfl
    | false => rw [List.filter_cons_of_neg (by simp [hp])]; rfl

end

/-! ## The rows of a query -/

/-- The key with its directions turned round for a backward walk. -/
def sortKey (reverse : Bool) (key : Key) : Key :=
  key.map fun part =>
    { part with direction := if reverse then part.direction.reversed else part.direction }

namespace Table

def cell (t : Table) (row : Row) (column : String) : Cell :=
  ((t.position? column).bind fun i => row[i]?).getD .null

/-- A row that does not come after another one. -/
def NotAfter (t : Table) (k : Collation) (reverse : Bool) (a b : Row) : Prop :=
  (rowCompare k (sortKey reverse t.key) (t.cell a) (t.cell b)).isLE = true

variable (t : Table) (k : Collation) (reverse : Bool)

instance : DecidableRel (t.NotAfter k reverse) :=
  fun _ _ => inferInstanceAs (Decidable (_ = true))

instance : IsTrans Row (t.NotAfter k reverse) where
  trans a b c hab hbc := by
    have h := transCmp_rowCompare k (sortKey reverse t.key)
    exact Std.TransCmp.isLE_trans hab hbc

instance : Std.Total (t.NotAfter k reverse) where
  total a b := by
    unfold NotAfter
    rw [rowCompare_swap k _ (t.cell a) (t.cell b)]
    cases rowCompare k (sortKey reverse t.key) (t.cell a) (t.cell b) <;> simp

/-- The rows of a store of which a condition is true, in key order and as many as a limit allows. -/
def answer (style : Style) (store : List Row) (p : Option Predicate) (limit : Option Nat) : List Row :=
  let picked := store.filter fun row => p.all fun p => p.truth t style k (t.cell row) = .yes
  let sorted := picked.insertionSort (t.NotAfter k reverse)
  match limit with
  | none => sorted
  | some n => sorted.take (min n maxLimit)

variable {t k reverse} {style : Style} {store : List Row}

theorem mem_answer {p : Option Predicate} {limit : Option Nat} {row : Row}
    (h : row ∈ t.answer k reverse style store p limit) : row ∈ store := by
  unfold answer at h
  cases limit with
  | none => exact List.mem_of_mem_filter ((List.mem_insertionSort _).1 h)
  | some n => exact List.mem_of_mem_filter ((List.mem_insertionSort _).1 (List.mem_of_mem_take h))

/-- The rows of a condition are a part of the rows of any weaker one, in the same order. -/
theorem filter_answer {p q : Predicate}
    (h : ∀ row ∈ store, q.truth t style k (t.cell row) = .yes →
      p.truth t style k (t.cell row) = .yes) :
    (t.answer k reverse style store (some p) none).filter
        (fun row => q.truth t style k (t.cell row) = .yes) =
      t.answer k reverse style store (some q) none := by
  simp only [answer, Option.all_some]
  rw [filter_insertionSort, List.filter_filter]
  congr 1
  refine List.filter_congr fun row hrow => ?_
  have hrow := h row hrow
  by_cases hq : q.truth t style k (t.cell row) = .yes
  · simp [hq, hrow hq]
  · simp [hq]

theorem answer_one (p : Option Predicate) :
    t.answer k reverse style store p (some 1) = (t.answer k reverse style store p none).take 1 :=
  rfl

end Table

/-- The rows of a store that a query is for. -/
def Query.answer (q : Query) (t : Table) (k : Collation) (style : Style) (store : List Row) :
    List Row :=
  match t.condition? q.range with
  | none => []
  | some p => t.answer k q.reverse style store p q.limit

/-- Storage runs every select of the table on the given rows. -/
def Storage.Answers {σ : Type} (x : Storage σ) (t : Table) (k : Collation) (style : Style)
    (store : List Row) : Prop :=
  ∀ q s state, t.select style q = .ok (some s) →
    (x.fetch s state).1 = .ok (q.answer t k style store)

theorem Table.select_of_bindable {t : Table} {style : Style} {q : Query} {p : Predicate}
    (hq : t.condition? q.range = some (some p)) (hp : p.Bindable t) :
    ∃ s, t.select style q = .ok (some s) ∧
      t.selectWhere style (some p) q.limit q.reverse = .ok s := by
  obtain ⟨ps, hps⟩ : ∃ ps, p.pieces t style = .ok ps := Predicate.pieces_of_bindable hp
  have hclause : t.whereClause style (some p) = .ok (.text " WHERE " :: ps) :=
    KeyedRows.bind_eq_ok.2 ⟨ps, hps, rfl⟩
  obtain ⟨s, hs⟩ : ∃ s, t.selectWhere style (some p) q.limit q.reverse = .ok s :=
    ⟨_, KeyedRows.bind_eq_ok.2 ⟨_, hclause, rfl⟩⟩
  refine ⟨s, ?_, hs⟩
  unfold select
  rw [hq]
  exact map_eq_ok.2 ⟨s, hs, rfl⟩

namespace Session

variable {σ : Type} {x : Storage σ} {u : Session} {t : Table} {k : Collation} {store : List Row}

theorem select_eq (hx : x.Answers t k u.style store) {q : Query} {s : Option Statement}
    (hq : t.select u.style q = .ok s) (state : σ) :
    (u.select x t q state).1 = (q.answer t k u.style store).mapM (Entity.ofRow t) := by
  unfold select
  rw [hq]
  cases s with
  | none =>
    have hnone : t.condition? q.range = none := by
      unfold Table.select at hq
      split at hq
      · next h => exact h
      · cases hs : t.selectWhere u.style _ q.limit q.reverse with
        | error e => rw [hs] at hq; cases hq
        | ok s => rw [hs] at hq; cases hq
    rw [Query.answer, hnone]
    rfl
  | some s =>
    have hfetch := hx q s state hq
    dsimp only
    unfold Storage.rows Storage.describe
    dsimp only
    rw [hfetch]
    rfl

end Session
end KeyedRows
