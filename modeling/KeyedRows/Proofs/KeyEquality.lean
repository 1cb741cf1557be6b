import Mathlib.Data.Option.NAry
import KeyedRows.Proofs.KeyOrder

/-!
# Ranges of equal keys, and ranges in a shorter form

* `KeyRange.predicate?_eq_none_iff` : which ranges have no condition;
* `KeyRange.truth?`, `predicate?_collapsed` : the shorter forms of a condition agree with the longer
  ones, also where their truth is unknown;
* `pattern_eq_append` : the condition of a pattern column by column;
* `KeyRange.Selects`, `eval_iff_selects` : what a range of equal keys asks of a row;
* `predicate?_selects` : its condition is true of these rows alone, where null equals null and
  nothing else.
-/

namespace KeyedRows.KeyRange

/-! ## Ranges without a condition -/

theorem not_fits_iff {key : Key} {values : List Value} :
    ¬Fits key values ↔ values = [] ∨ key.length < values.length := by
  rw [Fits, not_and_or, not_not, Nat.not_le]

theorem not_fits_nil (values : List Value) : ¬Fits [] values := by
  rw [not_fits_iff]
  cases values <;> simp

theorem predicate?_eq_none_iff {key : Key} {range : KeyRange} :
    range.predicate? key = none ↔ range = .isIn [] ∨ ∃ values ∈ range.tuples, ¬Fits key values := by
  cases range with
  | between start stop => simp [predicate?, tuples, -not_and, not_and_or]
  | isIn tuples => simp [predicate?, KeyRange.tuples, -not_and, not_and_or]
  | _ values => simp [predicate?, tuples]

theorem predicate?_nil (range : KeyRange) : range.predicate? [] = none := by
  rw [predicate?_eq_none_iff]
  cases range with
  | isIn tuples =>
    cases tuples with
    | nil => exact .inl rfl
    | cons values tuples => exact .inr ⟨values, by simp [KeyRange.tuples], not_fits_nil values⟩
  | between start stop => exact .inr ⟨start, by simp [tuples], not_fits_nil start⟩
  | _ values => exact .inr ⟨values, by simp [tuples], not_fits_nil values⟩

/-! ## Shorter forms -/

section
variable (view : View)

/-- The truth of the condition of a range, if it has one. -/
def truth? (key : Key) (range : KeyRange) : Option Truth :=
  (range.predicate? key).map (Predicate.eval view)

theorem truth?_nil (range : KeyRange) : range.truth? view [] = none := by
  rw [truth?, predicate?_nil, Option.map_none]

theorem exists_within_eq_between (part : KeyPart) (key : Key) (low high : Value) :
    ∃ column a b, within (part :: key) [low] [high] = .between column a b := by
  simp only [within]
  cases part.direction with
  | ascending => exact ⟨_, _, _, rfl⟩
  | descending => exact ⟨_, _, _, rfl⟩

theorem exists_oneOf_eq_isIn (part : KeyPart) (key : Key) {tuples : List (List Value)}
    (h : ∀ values ∈ tuples, ∃ v, values = [v] ∧ v.isNull = false) :
    ∃ column list, oneOf (part :: key) tuples = .isIn column list := by
  have hlist : tuples.mapM single? = some (tuples.map fun values => values.headD .null) := by
    refine mapM_eq_some.2 (List.forall₂_map_right_iff.2 (List.forall₂_same.2 ?_))
    intro values hvalues
    obtain ⟨v, rfl, hnull⟩ := h values hvalues
    simp [single?, hnull]
  simp only [oneOf, hlist]
  exact ⟨_, _, rfl⟩

theorem fits_singleton {key : Key} (hkey : key ≠ []) (v : Value) : Fits key [v] :=
  ⟨by simp, List.length_pos_iff.2 hkey⟩

/-- **The shorter forms agree with the longer ones.** Bounds of one value each are written as one
condition on the first column of the key, and tuples of one value that is not null as a list of
values. Whatever a row holds and however its columns are ordered, the first is as true as both
bounds are, and the second as one of the equalities is, also where their truth is unknown. -/
theorem predicate?_collapsed (key : Key) :
    (∀ low high,
      (key ≠ [] → ∃ column a b,
        (between [low] [high]).predicate? key = some (.between column a b)) ∧
      (between [low] [high]).truth? view key =
        Option.map₂ Truth.and ((ge [low]).truth? view key) ((le [high]).truth? view key)) ∧
    ∀ tuples, tuples ≠ [] → (∀ values ∈ tuples, ∃ v, values = [v] ∧ v.isNull = false) →
      (key ≠ [] → ∃ column list, (isIn tuples).predicate? key = some (.isIn column list)) ∧
      (isIn tuples).truth? view key =
        (tuples.mapM fun values => (eq values).truth? view key).map .any := by
  refine ⟨fun low high => ?_, fun tuples htuples hsingle => ?_⟩
  · cases key with
    | nil => exact ⟨fun h => absurd rfl h, by simp only [truth?_nil, Option.map₂_none_left]⟩
    | cons part key =>
      have hlow : Fits (part :: key) [low] := fits_singleton (by simp) low
      have hhigh : Fits (part :: key) [high] := fits_singleton (by simp) high
      have hbetween : (between [low] [high]).predicate? (part :: key) =
          some (within (part :: key) [low] [high]) := by rw [predicate?, if_pos ⟨hlow, hhigh⟩]
      have hleast : (ge [low]).predicate? (part :: key) = some (atLeast (part :: key) [low]) := by
        rw [predicate?, if_pos hlow]
      have hmost : (le [high]).predicate? (part :: key) = some (atMost (part :: key) [high]) := by
        rw [predicate?, if_pos hhigh]
      refine ⟨fun _ => ?_, ?_⟩
      · simpa only [hbetween, Option.some.injEq] using exists_within_eq_between part key low high
      · rw [truth?, truth?, truth?, hbetween, hleast, hmost, Option.map_some, Option.map_some,
          Option.map_some, Option.map₂_some_some, eval_within_eq]
  · cases key with
    | nil =>
      obtain ⟨values, tuples, rfl⟩ := List.exists_cons_of_ne_nil htuples
      refine ⟨fun h => absurd rfl h, ?_⟩
      rw [truth?_nil, List.mapM_cons, truth?_nil]
      rfl
    | cons part key =>
      have hfits : ∀ values ∈ tuples, Fits (part :: key) values := by
        intro values hvalues
        obtain ⟨v, rfl, _⟩ := hsingle values hvalues
        exact fits_singleton (by simp) v
      have hin : (isIn tuples).predicate? (part :: key) = some (oneOf (part :: key) tuples) := by
        rw [predicate?, if_pos ⟨htuples, hfits⟩]
      have hequal : tuples.mapM (fun values => (eq values).truth? view (part :: key)) =
          some (tuples.map fun values =>
            (Predicate.all (equalities (part :: key) values)).eval view) := by
        refine mapM_eq_some.2 (List.forall₂_map_right_iff.2 (List.forall₂_same.2 ?_))
        intro values hvalues
        rw [truth?, predicate?, if_pos (hfits values hvalues), Option.map_some]
      refine ⟨fun _ => ?_, ?_⟩
      · simpa only [hin, Option.some.injEq] using exists_oneOf_eq_isIn part key hsingle
      · rw [hequal, truth?, hin, Option.map_some, Option.map_some, eval_oneOf_eq]

/-- A row with a null in the descending column that bounds and values are for. -/
theorem predicate?_collapsed_null :
    let key : Key := [⟨"id", .descending⟩, ⟨"no", .ascending⟩]
    let view : View := ⟨fun _ => true, fun _ _ => none, fun _ _ => .unknown⟩
    let tuples : List (List Value) := [[.integer 3], [.string "x"]]
    tuples ≠ [] ∧ (∀ values ∈ tuples, ∃ v, values = [v] ∧ v.isNull = false) ∧
      (isIn tuples).truth? view key =
        (tuples.mapM fun values => (eq values).truth? view key).map .any ∧
      (isIn tuples).truth? view key = some .unknown := by
  intro key view tuples
  have hsingle : ∀ values ∈ tuples, ∃ v, values = [v] ∧ v.isNull = false := by
    refine List.forall_mem_cons.2 ⟨⟨_, rfl, rfl⟩, List.forall_mem_singleton.2 ⟨_, rfl, rfl⟩⟩
  exact ⟨by simp [tuples], hsingle,
    ((predicate?_collapsed view key).2 tuples (by simp [tuples]) hsingle).2, rfl⟩

end

/-! ## Rows of equal keys -/

theorem pattern_eq_append : ∀ {key : Key} {values : List Value}, Fits key values →
    pattern key values = (key.zip values).dropLast.map (fun q => .eq q.1.column q.2) ++
      (key.zip values).getLast?.toList.map fun q => .like q.1.column q.2
  | _, [], h => absurd rfl h.1
  | [], v :: values, h => absurd h.2 (by simp)
  | part :: key, [v], _ => by cases key <;> rfl
  | [part], v :: w :: values, h => absurd h.2 (by simp)
  | part :: part' :: key, v :: w :: values, h => by
    have hfits : Fits (part' :: key) (w :: values) := ⟨by simp, Nat.le_of_succ_le_succ h.2⟩
    have ih := pattern_eq_append hfits
    rw [pattern, ih]
    · simp
    · simp

/-- What a range of equal keys asks of a row, where `holds` says of a column that it holds a value and
`fits` that it fits a pattern. -/
def Selects (holds fits : String → Value → Prop) (key : Key) : KeyRange → Prop
  | eq values => ∀ q ∈ key.zip values, holds q.1.column q.2
  | isIn tuples => ∃ values ∈ tuples, ∀ q ∈ key.zip values, holds q.1.column q.2
  | like values => (∀ q ∈ (key.zip values).dropLast, holds q.1.column q.2) ∧
    ∃ q ∈ (key.zip values).getLast?, fits q.1.column q.2
  | gt _ | lt _ | ge _ | le _ | between _ _ => False

section
variable {view : View} {key : Key}

theorem eval_all_equalities {values : List Value} :
    (Predicate.all (equalities key values)).eval view = .yes ↔
      ∀ q ∈ key.zip values, (Predicate.eq q.1.column q.2).eval view = .yes := by
  rw [Predicate.eval_all, equalities_eq_map, List.map_map, Truth.all_eq_yes, List.forall_mem_map]
  rfl

theorem eval_all_pattern {values : List Value} (h : Fits key values) :
    (Predicate.all (pattern key values)).eval view = .yes ↔
      (∀ q ∈ (key.zip values).dropLast, (Predicate.eq q.1.column q.2).eval view = .yes) ∧
        ∃ q ∈ (key.zip values).getLast?, view.like q.1.column q.2 = .yes := by
  have hne : key.zip values ≠ [] := by
    have hlength : (key.zip values).length = values.length := by
      rw [List.length_zip, Nat.min_eq_right h.2]
    rw [← List.length_pos_iff, hlength, List.length_pos_iff]
    exact h.1
  obtain ⟨last, hlast⟩ : ∃ q, (key.zip values).getLast? = some q :=
    ⟨_, List.getLast?_eq_some_getLast hne⟩
  rw [Predicate.eval_all, pattern_eq_append h, hlast, Option.toList_some, List.map_append,
    Truth.all_append, Truth.and_eq_yes, Truth.all_eq_yes, List.map_map, List.forall_mem_map,
    List.map_singleton, List.map_singleton, Truth.all_cons, Truth.all_nil, Truth.and_yes, Predicate.eval]
  simp only [Option.mem_def, Option.some.injEq, exists_eq_left', Function.comp_apply]

/-- The condition of a range of equal keys is true of the rows of which each of its parts is. -/
theorem eval_iff_selects {range : KeyRange} {p : Predicate} (hrange : ¬range.IsOrdered)
    (h : range.predicate? key = some p) : p.eval view = .yes ↔
      range.Selects (fun column v => (Predicate.eq column v).eval view = .yes)
        (fun column v => view.like column v = .yes) key := by
  cases range <;> simp only [predicate?, Option.ite_none_right_eq_some, Option.some.injEq] at h <;>
    obtain ⟨hfits, rfl⟩ := h
  case eq values => exact eval_all_equalities
  case like values => exact eval_all_pattern hfits
  case isIn tuples =>
    rw [eval_oneOf_eq, Truth.any_eq_yes, List.mem_map]
    simp only [eval_all_equalities, Selects]
  all_goals exact absurd trivial hrange

end

section
variable {α : String → Type} [∀ column, LinearOrder (α column)]

/-- What a value stands for in a column; null stands for nothing. -/
def denote? (denote : (column : String) → Value → α column) (column : String) (v : Value) :
    Option (α column) :=
  if v.isNull then none else some (denote column v)

/-- Equality in which null equals null is equality of what the row has and what the value stands
for. -/
theorem eval_eq_ofOrders {denote : (column : String) → Value → α column}
    {like : String → Value → Truth} {row : (column : String) → Option (α column)} {column : String}
    {v : Value} : (Predicate.eq column v).eval (.ofOrders denote like row) = .yes ↔
      row column = denote? denote column v := by
  unfold Predicate.eq denote?
  cases hv : v.isNull with
  | true =>
    show Truth.ofBool (row column).isNone = .yes ↔ _
    rw [Truth.ofBool_eq_yes, Option.isNone_iff_eq_none, if_pos rfl]
  | false =>
    rw [if_neg (by simp), if_neg (by simp), Predicate.eval, View.test]
    cases hrow : row column with
    | none => simp [View.ofOrders, hv, hrow]
    | some x => simp [View.ofOrders, hv, hrow, Comparison.holds, Ordering.isEq_iff_eq_eq]

/-- **Which rows a range of equal keys picks.** Whatever the columns hold, nulls included, a range has
no condition exactly if the key is empty, a tuple is empty or longer than the key, or it is a set
without tuples. Else an equality is true of a row exactly if each leading column of the key has what
its value stands for, and null where that is null; a set if this is so of one of its tuples; and a
pattern if it is so of all values but the last, and the column of that fits it as a pattern. -/
theorem predicate?_selects (denote : (column : String) → Value → α column)
    (like : String → Value → Truth) (row : (column : String) → Option (α column)) (key : Key)
    (range : KeyRange) :
    (range.predicate? key = none ↔ key = [] ∨ range = .isIn [] ∨
      ∃ values ∈ range.tuples, values = [] ∨ key.length < values.length) ∧
    ∀ p, range.predicate? key = some p → ¬range.IsOrdered →
      (p.eval (.ofOrders denote like row) = .yes ↔
        range.Selects (fun column v => row column = denote? denote column v)
          (fun column v => like column v = .yes) key) := by
  constructor
  · constructor
    · intro hnone
      rw [predicate?_eq_none_iff] at hnone
      simp only [not_fits_iff] at hnone
      exact .inr hnone
    · rintro (rfl | hnone)
      · exact predicate?_nil range
      · simpa only [predicate?_eq_none_iff, not_fits_iff] using hnone
  · intro p hp hrange
    rw [eval_iff_selects hrange hp]
    simp only [eval_eq_ofOrders]
    rfl

/-- A set of tuples of two lengths with nulls among their values, and a row with a null in its
key. -/
theorem predicate?_selects_nulls :
    let key : Key := [⟨"region", .ascending⟩, ⟨"id", .descending⟩]
    let range : KeyRange := .isIn [[.integer 4], [.integer 3, .null], [.null, .integer 7]]
    let orders : (column : String) → LinearOrder Int := fun _ => inferInstance
    let denote : String → Value → Int := fun _ v => (v.asInteger?.map Int64.toInt).getD 0
    let row : String → Option Int := fun column => if column = "region" then some 3 else none
    ¬range.IsOrdered ∧ ∃ p, range.predicate? key = some p ∧
      p.eval (@View.ofOrders _ orders denote (fun _ _ => .unknown) row) = .yes := by
  intro key range orders denote row
  obtain ⟨p, hp⟩ : ∃ p, range.predicate? key = some p := ⟨_, rfl⟩
  have hrange : ¬range.IsOrdered := id
  obtain ⟨_, hselects⟩ := @predicate?_selects _ orders denote (fun _ _ => .unknown) row key range
  refine ⟨hrange, p, hp, (hselects p hp hrange).2 ⟨[.integer 3, .null], by simp, fun q hq => ?_⟩⟩
  have hq : q = (⟨"region", .ascending⟩, .integer 3) ∨ q = (⟨"id", .descending⟩, .null) := by
    simpa [key] using hq
  rcases hq with rfl | rfl <;> rfl

end

end KeyedRows.KeyRange
