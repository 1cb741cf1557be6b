import KeyedRows.Proofs.Sql.Select
import KeyedRows.Proofs.Written

/-!
# What writes do to stored rows

* `Table.assign` : a row with new cells in some columns;
* `Table.UniqueKeys` : no two rows of a store have the same key;
* `Effect`, `Effect.apply` : a write as storage sees it, and the rows after it;
* `Table.insertEffect`, `Table.updateEffect` : what the insert and the update of an entity are to do;
* `Storage.Writes` : storage that does what those statements say, or refuses and changes nothing;
* `Table.sameKey_of_picked` : the condition of an update picks rows with the key of the baseline;
* `apply_updateEffect` : under unique keys an update replaces one row.
-/

namespace KeyedRows

open Sql

/-! ## Rows -/

namespace Table

variable {t : Table} {k : Collation}

/-- A row with new cells in some columns. -/
def assign (t : Table) (cells : List (String × Cell)) (row : Row) : Row :=
  t.columns.zipWith (fun c cell => (cells.lookup c.id).getD cell) row

def blank (t : Table) : Row := List.replicate t.columns.length .null

theorem length_assign {row : Row} (hlength : row.length = t.columns.length)
    (cells : List (String × Cell)) : (t.assign cells row).length = t.columns.length := by
  rw [assign, List.length_zipWith, hlength, Nat.min_self]

theorem cell_assign {row : Row} (hlength : row.length = t.columns.length)
    (cells : List (String × Cell)) {column : String} {c : Column} (hc : t.column? column = some c) :
    t.cell (t.assign cells row) column = (cells.lookup column).getD (t.cell row column) := by
  obtain ⟨i, hi, hcolumn⟩ := position?_of_column? hc
  have hlt : i < row.length := by
    rw [hlength]
    exact (List.getElem?_eq_some_iff.1 hcolumn).1
  have hrow : row[i]? = some row[i] := List.getElem?_eq_getElem hlt
  rw [cell, cell, hi, Option.bind_some, Option.bind_some, assign, List.getElem?_zipWith, hcolumn, hrow]
  simp only [Entity.id_of_column? hc, Option.getD_some]

/-- The key columns of two rows hold equal cells, none of them null. -/
def SameKey (t : Table) (k : Collation) (a b : Row) : Prop :=
  ∀ column ∈ t.keyColumns, (t.cell a column).isNull = false ∧ (t.cell b column).isNull = false ∧
    k.order (some column) (t.cell a column) (t.cell b column) = .eq

instance : DecidableRel (t.SameKey k) := fun _ _ => inferInstanceAs (Decidable (∀ _ ∈ _, _))

theorem SameKey.symm {a b : Row} (h : t.SameKey k a b) : t.SameKey k b a := by
  intro column hcolumn
  obtain ⟨ha, hb, hsame⟩ := h column hcolumn
  have htrans := k.trans (some column)
  exact ⟨hb, ha, Std.OrientedCmp.eq_comm.1 hsame⟩

/-- Where a table has a key, no two rows have the same; one with a null in it is like no other. -/
def UniqueKeys (t : Table) (k : Collation) (store : List Row) : Prop :=
  t.hasKey = true → store.Pairwise fun a b => ¬t.SameKey k a b

instance (store : List Row) : Decidable (t.UniqueKeys k store) :=
  inferInstanceAs (Decidable (_ → _))

theorem UniqueKeys.eq {store : List Row} (h : t.UniqueKeys k store) (hkey : t.hasKey = true)
    {i j : Nat} {a b : Row} (ha : store[i]? = some a) (hb : store[j]? = some b)
    (hsame : t.SameKey k a b) : i = j := by
  obtain ⟨hi, rfl⟩ := List.getElem?_eq_some_iff.1 ha
  obtain ⟨hj, rfl⟩ := List.getElem?_eq_some_iff.1 hb
  have hpairs := List.pairwise_iff_getElem.1 (h hkey)
  rcases Nat.lt_trichotomy i j with hlt | heq | hlt
  · exact absurd hsame (hpairs i j hi hj hlt)
  · exact heq
  · exact absurd hsame.symm (hpairs j i hj hi hlt)

end Table

/-! ## Effects -/

/-- A write as storage sees it: cells by column, and for an update the rows it is for. -/
inductive Effect where
  | insert (cells : List (String × Cell))
  | update (cells : List (String × Cell)) (picked : Row → Bool)

namespace Effect

def affected (store : List Row) : Effect → Nat
  | insert _ => 1
  | update _ picked => store.countP picked

/-- The rows after a write. A new row has null in every column that gets no cell. -/
def apply (t : Table) (store : List Row) : Effect → List Row
  | insert cells => store ++ [t.assign cells t.blank]
  | update cells picked => store.map fun row => if picked row then t.assign cells row else row

end Effect

namespace Table

def picks (t : Table) (k : Collation) (style : Style) (p : Predicate) (row : Row) : Bool :=
  p.truth t style k (t.cell row) = .yes

def insertEffect (t : Table) (e : Entity) (ctx : Context) : Effect :=
  .insert (t.written (e.inserts ctx))

/-- What the update of an entity is to do, addressed by the given key. -/
def updateEffect (t : Table) (k : Collation) (style : Style) (e : Entity) (ctx : Context)
    (keys : List Value) : Effect :=
  .update (t.written (e.updates t ctx ++ e.updateStamps ctx))
    (t.picks k style (t.updateCondition ctx keys (e.updates t ctx)))

end Table

/-- What comes of a write under unique keys: it is done, or refused where two rows would have one
key. -/
def Effect.outcome (effect : Effect) (t : Table) (k : Collation) (store : List Row) :
    Except StorageFailure Nat × List Row :=
  if t.UniqueKeys k (effect.apply t store) then (.ok (effect.affected store), effect.apply t store)
  else (.error ⟨"unique constraint failed", none⟩, store)

/-- Storage either refuses a statement and keeps its rows, or has the effect and unique keys after
it. -/
def Storage.Performs (x : Storage (List Row)) (t : Table) (k : Collation) (s : Statement)
    (effect : Effect) : Prop :=
  ∀ store, (∃ failure, x.execute s store = (.error failure, store)) ∨
    (x.execute s store = (.ok (effect.affected store), effect.apply t store) ∧
      t.UniqueKeys k (effect.apply t store))

/-- Storage does what the inserts and updates of a table say. -/
structure Storage.Writes (x : Storage (List Row)) (t : Table) (k : Collation) (style : Style) :
    Prop where
  insert : ∀ e ctx s, t.insert style e ctx = .ok s → x.Performs t k s (t.insertEffect e ctx)
  update : ∀ e ctx s keys, t.update style e ctx = .ok (some s) → e.baselineKey = .ok keys →
    x.Performs t k s (t.updateEffect k style e ctx keys)

theorem Storage.performs_of_outcome {x : Storage (List Row)} {t : Table} {k : Collation}
    {s : Statement} {effect : Effect} (h : ∀ store, x.execute s store = effect.outcome t k store) :
    x.Performs t k s effect := by
  intro store
  rw [h store, Effect.outcome]
  split
  · next hunique => exact .inr ⟨rfl, hunique⟩
  · exact .inl ⟨_, rfl⟩

theorem Storage.Performs.of_eq_ok {x : Storage (List Row)} {t : Table} {k : Collation}
    {s : Statement} {effect : Effect} (h : x.Performs t k s effect) {store after : List Row} {n : Nat}
    (hok : x.execute s store = (.ok n, after)) :
    n = effect.affected store ∧ after = effect.apply t store ∧ t.UniqueKeys k after := by
  rcases h store with ⟨_, herror⟩ | ⟨hrun, hunique⟩
  · rw [herror] at hok
    cases hok
  · rw [hrun] at hok
    cases hok
    exact ⟨rfl, rfl, hunique⟩

theorem Storage.Performs.of_eq_error {x : Storage (List Row)} {t : Table} {k : Collation}
    {s : Statement} {effect : Effect} (h : x.Performs t k s effect) {store after : List Row}
    {failure : StorageFailure} (herror : x.execute s store = (.error failure, after)) :
    after = store := by
  rcases h store with ⟨_, hrefused⟩ | ⟨hrun, _⟩
  · rw [hrefused] at herror
    cases herror
    rfl
  · rw [hrun] at herror
    cases herror

theorem Effect.apply_of_affected_eq_zero {t : Table} {store : List Row}
    {cells : List (String × Cell)} {picked : Row → Bool}
    (h : (update cells picked).affected store = 0) : (update cells picked).apply t store = store := by
  have hnone : ∀ row ∈ store, ¬picked row = true := List.countP_eq_zero.1 h
  refine (List.map_congr_left fun row hrow => ?_).trans (List.map_id store)
  rw [if_neg (hnone row hrow), id_eq]

/-! ## The rows of an update -/

/-- The condition of an update picks rows with the key of the baseline. -/
theorem Table.sameKey_of_picked {t : Table} {k : Collation} {style : Style} {e : Entity}
    {ctx : Context} {keys : List Value} {a b : Row} (hkeys : e.baselineKey = .ok keys)
    (hzip : ∀ column ∈ t.keyColumns, ∃ v, (column, v) ∈ t.keyColumns.zip keys ∧
      t.stored? column v = some (t.cell a column))
    (hb : t.picks k style (t.updateCondition ctx keys (e.updates t ctx)) b = true) :
    t.SameKey k b a := by
  have hnull := Entity.not_null_of_baselineKey hkeys
  obtain ⟨guards, _, _, hparts⟩ := conjuncts_updateCondition t ctx hnull (e.updates t ctx)
  rw [picks, decide_eq_true_eq, Predicate.truth, ← Predicate.all_eval_conjuncts, hparts,
    Truth.all_eq_yes] at hb
  intro column hcolumn
  obtain ⟨v, hv, hstored⟩ := hzip column hcolumn
  have hmem : Predicate.compare column .eq v ∈ t.keyEqualities keys ++ guards :=
    List.mem_append_left _ (List.mem_map.2 ⟨_, hv, rfl⟩)
  obtain ⟨cell, hcell, hcellnull, hrownull, horder⟩ :=
    View.test_eq_eq_yes.1 (hb _ (List.mem_map_of_mem hmem))
  rw [hstored] at hcell
  cases hcell
  exact ⟨hrownull, hcellnull, horder⟩

theorem map_ite_eq_set {α : Type} {p : α → Bool} (f : α → α) {l : List α} {i : Nat} {a : α}
    (hi : l[i]? = some a) (ha : p a = true) (h : ∀ j b, l[j]? = some b → p b = true → j = i) :
    (l.map fun b => if p b then f b else b) = l.set i (f a) := by
  refine List.ext_getElem? fun j => ?_
  rw [List.getElem?_map, List.getElem?_set]
  by_cases hj : i = j
  · subst hj
    have hlt : i < l.length := (List.getElem?_eq_some_iff.1 hi).1
    rw [hi, Option.map_some, if_pos ha, if_pos rfl, if_pos hlt]
  · rw [if_neg hj]
    cases hb : l[j]? with
    | none => rfl
    | some b =>
      have hp : p b ≠ true := fun hp => hj (h j b hb hp).symm
      simp [hp]

/-- An update that affects a row, addressed by the key of one row under unique keys, replaces that
row. -/
theorem apply_updateEffect {t : Table} {k : Collation} {style : Style} {e : Entity} {ctx : Context}
    {keys : List Value} {store : List Row} {i : Nat} {row : Row} (hkeys : e.baselineKey = .ok keys)
    (hkey : t.hasKey = true) (hunique : t.UniqueKeys k store) (hrow : store[i]? = some row)
    (hzip : ∀ column ∈ t.keyColumns, ∃ v, (column, v) ∈ t.keyColumns.zip keys ∧
      t.stored? column v = some (t.cell row column))
    (hpos : 0 < (t.updateEffect k style e ctx keys).affected store) :
    (t.updateEffect k style e ctx keys).apply t store =
      store.set i (t.assign (t.written (e.updates t ctx ++ e.updateStamps ctx)) row) := by
  have honly : ∀ j b, store[j]? = some b →
      t.picks k style (t.updateCondition ctx keys (e.updates t ctx)) b = true → j = i :=
    fun j b hb hpicked =>
      hunique.eq hkey hb hrow (Table.sameKey_of_picked hkeys hzip hpicked)
  obtain ⟨b, hb, hpicked⟩ := List.countP_pos_iff.1 hpos
  obtain ⟨j, hj⟩ := List.mem_iff_getElem?.1 hb
  have hsame : j = i := honly j b hj hpicked
  subst hsame
  rw [hrow] at hj
  cases hj
  exact map_ite_eq_set _ hrow hpicked honly

end KeyedRows
