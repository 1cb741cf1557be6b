import Mathlib.Data.Int.Order.Basic
import Mathlib.Order.Compare
import KeyedRows.Proofs.Evaluation
import KeyedRows.Proofs.Outcome

/-!
# Ranges in key order

* `keyOrder` : how the leading key columns of a row compare with a tuple, a descending column
  backwards;
* `clauses_of_parts` : a property of conjunctions that every clause of an ordered range has;
* `eval_clauses`, `eval_lexicographic` : the disjunction of growing equality chains says how the key
  compares with the tuple;
* `eval_within_eq`, `eval_oneOf_eq` : bounds on one column and a list of values have the truth of the
  conditions that they stand for;
* `KeyRange.predicate?_of_parts` : what the condition of any range has, if its parts have it;
* `KeyRange.Picks` : what an ordered range asks of that comparison;
* `predicate?_picks` : the predicate of an ordered range is true of exactly the rows it picks, under
  any linear orders on the columns.
-/

namespace KeyedRows

/-- An order as a column of some direction counts it. -/
def Direction.apply : Direction → Ordering → Ordering
  | ascending, o => o
  | descending, o => o.swap

theorem Direction.isEq_apply (d : Direction) (o : Ordering) : (d.apply o).isEq = o.isEq := by
  cases d <;> cases o <;> rfl

/-- How the leading columns of a key compare with a tuple, where `order` compares one column with
one value: the first column that differs decides. -/
def keyOrder (order : String → Value → Ordering) : Key → List Value → Ordering
  | part :: key, v :: values =>
    (part.direction.apply (order part.column v)).then (keyOrder order key values)
  | _, _ => .eq

namespace KeyRange

theorem holds_directed (part : KeyPart) (op : Comparison) (o : Ordering) :
    (directed part op).holds o = op.holds (part.direction.apply o) := by
  unfold directed Direction.apply
  cases part.direction with
  | ascending => rfl
  | descending => exact op.holds_mirrored o

theorem clauses_singleton (strict last : Comparison) (equal : List Predicate) (part : KeyPart)
    (key : Key) (v : Value) : clauses strict last equal (part :: key) [v] =
      [.all (equal ++ [.compare part.column (directed part last) v])] := rfl

theorem clauses_cons_cons (strict last : Comparison) (equal : List Predicate) (part : KeyPart)
    (key : Key) (v w : Value) (values : List Value) :
    clauses strict last equal (part :: key) (v :: w :: values) =
      .all (equal ++ [.compare part.column (directed part strict) v]) ::
        clauses strict last (equal ++ [.eq part.column v]) key (w :: values) := rfl

/-- What a conjunction has if its parts have it, the clauses have if each column with its value has it.
The induction is on the values; each clause adds an equality to those before it. -/
theorem clauses_of_parts {P : Predicate → Prop} {strict last : Comparison}
    (hall : ∀ parts, (∀ p ∈ parts, P p) → P (.all parts)) :
    ∀ {equal : List Predicate} {key : Key} {values : List Value}, (∀ p ∈ equal, P p) →
      (∀ p ∈ key.zip values, P (.eq p.1.column p.2) ∧ ∀ op, P (.compare p.1.column op p.2)) →
      ∀ p ∈ clauses strict last equal key values, P p
  | equal, key, [], _, _ => by cases key <;> exact List.forall_mem_nil _
  | equal, [], v :: values, _, _ => by cases values <;> exact List.forall_mem_nil _
  | equal, part :: key, [v], hequal, hpart => by
    have hlast := (hpart (part, v) (by simp)).2 (directed part last)
    rw [clauses_singleton, List.forall_mem_singleton]
    exact hall _ (List.forall_mem_append.2 ⟨hequal, List.forall_mem_singleton.2 hlast⟩)
  | equal, part :: key, v :: w :: values, hequal, hpart => by
    obtain ⟨heq, hcompare⟩ := hpart (part, v) (by simp)
    have hnext := List.forall_mem_append.2 ⟨hequal, List.forall_mem_singleton.2 heq⟩
    rw [clauses_cons_cons, List.forall_mem_cons]
    refine ⟨hall _ (List.forall_mem_append.2 ⟨hequal, List.forall_mem_singleton.2 (hcompare _)⟩), ?_⟩
    exact clauses_of_parts hall hnext fun p hp => hpart p (List.mem_cons_of_mem _ hp)

/-! ## Chains of equalities -/

section
variable {view : View} {order : String → Value → Ordering} {strict last : Comparison}

theorem eval_compare {op : Comparison} {column : String} {v : Value} {o : Ordering}
    (h : view.compare column v = some o) :
    (Predicate.compare column op v).eval view = .ofBool (op.holds o) := by
  rw [Predicate.eval, View.test, h]

theorem eval_eq {column : String} {v : Value} {o : Ordering}
    (h : view.compare column v = some o) (hv : v.isNull = false) :
    (Predicate.eq column v).eval view = .ofBool o.isEq := by
  rw [Predicate.eq, if_neg (by simp [hv]), eval_compare h]
  rfl

theorem eval_chain (equal : List Predicate) {part : KeyPart} {op : Comparison} {v : Value}
    {o : Ordering} (h : view.compare part.column v = some o) :
    (Predicate.all (equal ++ [.compare part.column (directed part op) v])).eval view =
      (Truth.all (equal.map (Predicate.eval view))).and
        (.ofBool (op.holds (part.direction.apply o))) := by
  rw [Predicate.eval_all, List.map_append, Truth.all_append, List.map_singleton, Truth.all_cons,
    Truth.all_nil, Truth.and_yes, eval_compare h, holds_directed]

theorem holds_then (hs : ∀ o, strict.holds o = (o.isNe && last.holds o)) (a b : Ordering) :
    (strict.holds a || a.isEq && last.holds b) = last.holds (a.then b) := by
  rw [hs]
  cases a <;> simp [Ordering.then, Ordering.isNe, Ordering.isEq]

/-- The clauses after some equalities: these hold, and the rest of the key compares by `last` with
the rest of the tuple. The induction is on the tuple; each step moves one equality into the
chain. -/
theorem eval_clauses (hs : ∀ o, strict.holds o = (o.isNe && last.holds o)) :
    ∀ (equal : List Predicate) (key : Key) (values : List Value), Fits key values →
      (∀ p ∈ key.zip values, view.compare p.1.column p.2 = some (order p.1.column p.2)) →
      (∀ v ∈ values, v.isNull = false) →
      .any ((clauses strict last equal key values).map (Predicate.eval view)) =
        (Truth.all (equal.map (Predicate.eval view))).and
          (.ofBool (last.holds (keyOrder order key values)))
  | _, _, [], hfit, _, _ => absurd rfl hfit.1
  | _, [], _ :: _, hfit, _, _ => absurd hfit.2 (by simp)
  | equal, part :: key, [v], _, hview, _ => by
    have hv := hview (part, v) (by simp)
    rw [clauses_singleton, List.map_singleton, Truth.any_cons, Truth.any_nil, Truth.or_no,
      eval_chain equal hv]
    simp [keyOrder]
  | equal, part :: key, v :: w :: values, hfit, hview, hnull => by
    have hv := hview (part, v) (by simp)
    have ih := eval_clauses hs (equal ++ [.eq part.column v]) key (w :: values)
      ⟨by simp, Nat.le_of_succ_le_succ hfit.2⟩
      (fun p hp => hview p (List.mem_cons_of_mem _ hp))
      (fun u hu => hnull u (List.mem_cons_of_mem _ hu))
    rw [List.map_append, Truth.all_append, List.map_singleton, Truth.all_cons, Truth.all_nil,
      Truth.and_yes, eval_eq hv (hnull v (by simp)), Truth.and_assoc, Truth.ofBool_and] at ih
    rw [clauses_cons_cons, List.map_cons, Truth.any_cons, ih, eval_chain equal hv,
      ← Truth.and_or_left, Truth.ofBool_or, ← part.direction.isEq_apply, holds_then hs]
    rfl

theorem eval_lexicographic (hs : ∀ o, strict.holds o = (o.isNe && last.holds o)) {key : Key}
    {values : List Value} (hfit : Fits key values)
    (hview : ∀ p ∈ key.zip values, view.compare p.1.column p.2 = some (order p.1.column p.2))
    (hnull : ∀ v ∈ values, v.isNull = false) :
    (lexicographic key values strict last).eval view =
      .ofBool (last.holds (keyOrder order key values)) := by
  rw [lexicographic, Predicate.eval_any, eval_clauses hs [] key values hfit hview hnull]
  rfl

end

/-! ## Shorter forms -/

section
variable (view : View)

theorem eval_lexicographic_singleton (part : KeyPart) (key : Key) (strict last : Comparison)
    (v : Value) : (lexicographic (part :: key) [v] strict last).eval view =
      view.test (directed part last) part.column v := by
  rw [lexicographic, clauses_singleton, Predicate.eval_any, List.map_singleton, Truth.any_cons,
    Truth.any_nil, Truth.or_no, List.nil_append, Predicate.eval_all, List.map_singleton,
    Truth.all_cons, Truth.all_nil, Truth.and_yes, Predicate.eval]

theorem eval_within_eq (key : Key) (start stop : List Value) : (within key start stop).eval view =
    ((atLeast key start).eval view).and ((atMost key stop).eval view) := by
  unfold within
  split
  · next part key low high =>
    rw [atLeast, atMost, eval_lexicographic_singleton, eval_lexicographic_singleton, directed, directed]
    cases hd : part.direction with
    | ascending => rfl
    | descending =>
      rw [Truth.and_comm]
      rfl
  · rw [Predicate.eval_all, List.map_cons, List.map_singleton, Truth.all_cons, Truth.all_cons,
      Truth.all_nil, Truth.and_yes]

theorem eq_of_single? {values : List Value} {v : Value} (h : single? values = some v) :
    values = [v] ∧ v.isNull = false := by
  unfold single? at h
  split at h
  · split at h
    · cases h
    · next hnull => cases h; exact ⟨rfl, by simpa using hnull⟩
  · cases h

theorem eval_oneOf_eq (key : Key) (tuples : List (List Value)) : (oneOf key tuples).eval view =
    .any (tuples.map fun values => (Predicate.all (equalities key values)).eval view) := by
  unfold oneOf
  split
  · next part key values hvalues =>
    have hsingle := mapM_eq_some.1 hvalues
    clear hvalues
    rw [Predicate.eval]
    congr 1
    induction hsingle with
    | nil => rfl
    | @cons tuple v tuples values hv _ ih =>
      obtain ⟨rfl, hnull⟩ := eq_of_single? hv
      have hequal : (Predicate.all (equalities (part :: key) [v])).eval view =
          view.test .eq part.column v := by
        simp [Predicate.eval_all, equalities, Predicate.eq, hnull, Predicate.eval]
      rw [List.map_cons, List.map_cons, ih, hequal]
  · rw [Predicate.eval_any, List.map_map]
    rfl

end

/-! ## Ordered ranges -/

/-- The range compares rows with its tuples in key order. -/
def IsOrdered : KeyRange → Prop
  | gt _ | lt _ | ge _ | le _ | between _ _ => True
  | eq _ | isIn _ | like _ => False

def tuples : KeyRange → List (List Value)
  | eq values | gt values | lt values | ge values | le values | like values => [values]
  | between start stop => [start, stop]
  | isIn tuples => tuples

/-! ## What the condition of a range has -/

theorem equalities_eq_map (key : Key) (values : List Value) :
    equalities key values = (key.zip values).map fun q => .eq q.1.column q.2 := by
  rw [equalities, ← List.map_uncurry_zip_eq_zipWith]
  rfl

section
variable {P : Predicate → Prop} {key : Key}
  (hmerge : ∀ (j : Junction) (parts : List Predicate), (∀ p ∈ parts, P p) → P (j.merge parts))

include hmerge in
theorem equalities_of_parts {values : List Value}
    (h : ∀ q ∈ key.zip values, P (.eq q.1.column q.2)) : P (.all (equalities key values)) := by
  refine hmerge .and _ fun p hp => ?_
  rw [equalities_eq_map] at hp
  obtain ⟨q, hq, rfl⟩ := List.mem_map.1 hp
  exact h q hq

include hmerge in
theorem lexicographic_of_parts {values : List Value}
    (h : ∀ q ∈ key.zip values, P (.eq q.1.column q.2) ∧ ∀ op, P (.compare q.1.column op q.2))
    (strict last : Comparison) : P (lexicographic key values strict last) :=
  hmerge .or _ (clauses_of_parts (hmerge .and) (List.forall_mem_nil _) h)

theorem pattern_of_parts : ∀ {key : Key} {values : List Value},
    (∀ q ∈ key.zip values, P (.eq q.1.column q.2) ∧ P (.like q.1.column q.2)) →
      ∀ p ∈ pattern key values, P p
  | key, [], _ => by cases key <;> exact List.forall_mem_nil _
  | [], v :: values, _ => by cases values <;> exact List.forall_mem_nil _
  | part :: key, [v], h => List.forall_mem_singleton.2 (h (part, v) (by simp)).2
  | part :: key, v :: w :: values, h =>
    List.forall_mem_cons.2 ⟨(h (part, v) (by simp)).1,
      pattern_of_parts fun q hq => h q (List.mem_cons_of_mem _ hq)⟩

include hmerge in
/-- What the condition of a range has, if conjunctions and disjunctions have it with their parts, and
if each comparison of a key column with its component, or with all of them, has it. -/
theorem predicate?_of_parts {range : KeyRange} {p : Predicate} (h : range.predicate? key = some p)
    (hvalue : ∀ values ∈ range.tuples, ∀ q ∈ key.zip values,
      P (.eq q.1.column q.2) ∧ ∀ op, P (.compare q.1.column op q.2))
    (hbetween : ∀ part low high, [low] ∈ range.tuples → [high] ∈ range.tuples → part ∈ key.head? →
      P (.between part.column low high))
    (hlist : ∀ part values, values ≠ [] → (∀ v ∈ values, [v] ∈ range.tuples) → part ∈ key.head? →
      P (.isIn part.column values))
    (hlike : ∀ values, range = .like values → ∀ q ∈ key.zip values, P (.like q.1.column q.2)) :
    P p := by
  have hequal : ∀ values ∈ range.tuples, ∀ q ∈ key.zip values, P (.eq q.1.column q.2) :=
    fun values hvalues q hq => (hvalue values hvalues q hq).1
  have hlex : ∀ values ∈ range.tuples, ∀ strict last, P (lexicographic key values strict last) :=
    fun values hvalues => lexicographic_of_parts hmerge (hvalue values hvalues)
  cases range <;> simp only [predicate?, Option.ite_none_right_eq_some, Option.some.injEq] at h <;>
    obtain ⟨hfits, rfl⟩ := h
  case eq => exact equalities_of_parts hmerge (hequal _ (by simp [tuples]))
  case isIn tuples =>
    unfold oneOf
    split
    · next part key values hvalues =>
      have hsingle := mapM_eq_some.1 hvalues
      refine hlist part values ?_ (fun v hv => ?_) rfl
      · rintro rfl
        exact hfits.1 (List.forall₂_nil_right_iff.1 hsingle)
      · obtain ⟨tuple, htuple, hsame⟩ := exists_of_forall₂ hsingle hv
        exact (eq_of_single? hsame).1 ▸ htuple
    · refine hmerge .or _ fun p hp => ?_
      obtain ⟨values, hvalues, rfl⟩ := List.mem_map.1 hp
      exact equalities_of_parts hmerge (hequal values hvalues)
  case like values =>
    exact hmerge .and _ <| pattern_of_parts fun q hq =>
      ⟨hequal values (by simp [tuples]) q hq, hlike values rfl q hq⟩
  case between start stop =>
    unfold within
    split
    · split
      · exact hbetween _ _ _ (by simp [tuples]) (by simp [tuples]) rfl
      · exact hbetween _ _ _ (by simp [tuples]) (by simp [tuples]) rfl
    · refine hmerge .and _ fun p hp => ?_
      rcases List.mem_pair.1 hp with rfl | rfl
      · exact hlex start (by simp [tuples]) _ _
      · exact hlex stop (by simp [tuples]) _ _
  all_goals exact hlex _ (by simp [tuples]) _ _

end

/-! ## Rows that an ordered range picks -/

/-- What an ordered range asks of a row, where `order` compares the key of the row with a tuple: to
lie after the tuple, before it, not before it or not after it. -/
def Picks (order : List Value → Ordering) : KeyRange → Prop
  | gt values => order values = .gt
  | lt values => order values = .lt
  | ge values => order values ≠ .lt
  | le values => order values ≠ .gt
  | between start stop => order start ≠ .lt ∧ order stop ≠ .gt
  | eq _ | isIn _ | like _ => False

theorem eval_of_isOrdered {view : View} {order : String → Value → Ordering} {key : Key}
    (hview : ∀ part ∈ key, ∀ v : Value, v.isNull = false →
      view.compare part.column v = some (order part.column v))
    {range : KeyRange} (hrange : range.IsOrdered)
    (htuples : ∀ values ∈ range.tuples, Fits key values ∧ ∀ v ∈ values, v.isNull = false) :
    ∃ p, range.predicate? key = some p ∧
      (p.eval view = .yes ↔ range.Picks (keyOrder order key)) := by
  have hlex : ∀ strict last : Comparison, (∀ o, strict.holds o = (o.isNe && last.holds o)) →
      ∀ values ∈ range.tuples, (lexicographic key values strict last).eval view = .yes ↔
        last.holds (keyOrder order key values) = true := by
    intro strict last hs values hvalues
    obtain ⟨hfit, hnull⟩ := htuples values hvalues
    have hzip : ∀ p ∈ key.zip values, view.compare p.1.column p.2 = some (order p.1.column p.2) := by
      intro p hp
      obtain ⟨hpart, hv⟩ := List.of_mem_zip hp
      exact hview p.1 hpart p.2 (hnull p.2 hv)
    rw [eval_lexicographic hs hfit hzip hnull, Truth.ofBool_eq_yes]
  cases range with
  | eq values => exact hrange.elim
  | isIn tuples => exact hrange.elim
  | like values => exact hrange.elim
  | gt values =>
    refine ⟨_, if_pos (htuples values (by simp [tuples])).1, ?_⟩
    rw [hlex .gt .gt (by decide) values (by simp [tuples])]
    exact Ordering.isGT_iff_eq_gt
  | lt values =>
    refine ⟨_, if_pos (htuples values (by simp [tuples])).1, ?_⟩
    rw [hlex .lt .lt (by decide) values (by simp [tuples])]
    exact Ordering.isLT_iff_eq_lt
  | ge values =>
    refine ⟨_, if_pos (htuples values (by simp [tuples])).1, ?_⟩
    rw [atLeast, hlex .gt .ge (by decide) values (by simp [tuples])]
    exact Ordering.isGE_iff_ne_lt
  | le values =>
    refine ⟨_, if_pos (htuples values (by simp [tuples])).1, ?_⟩
    rw [atMost, hlex .lt .le (by decide) values (by simp [tuples])]
    exact Ordering.isLE_iff_ne_gt
  | between start stop =>
    refine ⟨_, if_pos ⟨(htuples start (by simp [tuples])).1, (htuples stop (by simp [tuples])).1⟩, ?_⟩
    rw [eval_within_eq, Truth.and_eq_yes, atLeast, atMost,
      hlex .gt .ge (by decide) start (by simp [tuples]),
      hlex .lt .le (by decide) stop (by simp [tuples])]
    exact and_congr Ordering.isGE_iff_ne_lt Ordering.isLE_iff_ne_gt

end KeyRange

section
variable {α : String → Type} [∀ column, LinearOrder (α column)]

/-- A row whose columns have orders of their own, where `denote` gives what a value stands for in a
column. -/
def View.ofOrders (denote : (column : String) → Value → α column) (like : String → Value → Truth)
    (row : (column : String) → Option (α column)) : View where
  isNull column := (row column).isNone
  compare column v := if v.isNull then none else (row column).map (Ord.compare · (denote column v))
  like := like

/-- The key of a row, with the values `x` in its columns, against a tuple. -/
def rowOrder (denote : (column : String) → Value → α column) (x : (column : String) → α column) :
    Key → List Value → Ordering :=
  keyOrder fun column v => Ord.compare (x column) (denote column v)

/-- **An ordered range picks the rows on its side of its tuples.** Whatever the directions of the key
and the linear orders of its columns, the range has a predicate, and that is true of a row with no
null in its key exactly if the leading columns of the key lie after the tuple, before it, not before
it or not after it in key order, or between two tuples of any lengths. -/
theorem KeyRange.predicate?_picks (denote : (column : String) → Value → α column)
    (like : String → Value → Truth) (row : (column : String) → Option (α column))
    (x : (column : String) → α column) (key : Key)
    (hrow : ∀ part ∈ key, row part.column = some (x part.column)) (range : KeyRange)
    (hrange : range.IsOrdered)
    (htuples : ∀ values ∈ range.tuples, Fits key values ∧ ∀ v ∈ values, v.isNull = false) :
    ∃ p, range.predicate? key = some p ∧
      (p.eval (.ofOrders denote like row) = .yes ↔ range.Picks (rowOrder denote x key)) := by
  refine eval_of_isOrdered (fun part hpart v hv => ?_) hrange htuples
  simp [View.ofOrders, hv, hrow part hpart]

/-- A row `(3, 7)` under a key whose second column is descending, and bounds of two lengths. -/
theorem KeyRange.predicate?_picks_between :
    let key : Key := [⟨"region", .ascending⟩, ⟨"id", .descending⟩]
    let range : KeyRange := .between [.integer 3, .integer 9] [.integer 3]
    let orders : (column : String) → LinearOrder Int := fun _ => inferInstance
    let denote : String → Value → Int := fun _ v => (v.asInteger?.map Int64.toInt).getD 0
    let row : String → Int := fun column => if column = "region" then 3 else 7
    let view : View := @View.ofOrders _ orders denote (fun _ _ => .unknown) fun c => some (row c)
    range.IsOrdered ∧ (∀ values ∈ range.tuples, Fits key values ∧ ∀ v ∈ values, v.isNull = false) ∧
      ∃ p, range.predicate? key = some p ∧
        (p.eval view = .yes ↔ range.Picks (@rowOrder _ orders denote row key)) := by
  intro key range orders denote row view
  have htuples : ∀ values ∈ range.tuples, Fits key values ∧ ∀ v ∈ values, v.isNull = false := by
    decide
  exact ⟨trivial, htuples, @predicate?_picks _ orders denote _ _ row key (fun _ _ => rfl) range trivial
    htuples⟩

end
end KeyedRows
