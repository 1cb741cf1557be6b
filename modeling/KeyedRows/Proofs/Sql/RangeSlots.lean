import KeyedRows.Proofs.KeyOrder
import KeyedRows.Proofs.Sql.Slots

/-!
# The values in the condition of a range

* `KeyRange.compared`, `KeyRange.matched` : the components that the condition of a range compares, and its
  pattern;
* `slots_equalities`, `slots_oneOf`, `slots_pattern` : the slots of the forms that keep them in order;
* `mem_slots_clauses`, `mem_slots_within` : those of the forms that repeat or exchange them;
* `mem_slots_iff` : the slots of the condition of any range;
* `exists_tuple_of_compared`, `exists_like_of_matched` : the tuples that they come from.
-/

namespace KeyedRows

open Sql

namespace KeyRange

/-- The parts of a key with the components that an equality compares; a null is tested for instead. -/
def equated (key : Key) (values : List Value) : List (KeyPart × Value) :=
  (key.zip values).filter fun q => !q.2.isNull

/-- The parts of a key with the components that the condition of a range compares. A pattern is not
compared. -/
def compared (key : Key) : KeyRange → List (KeyPart × Value)
  | eq values => equated key values
  | isIn tuples => tuples.flatMap (equated key)
  | like values => equated key values.dropLast
  | gt values | lt values | ge values | le values => key.zip values
  | between start stop => key.zip start ++ key.zip stop

def matched (key : Key) : KeyRange → List (KeyPart × Value)
  | like values => (key.zip values).getLast?.toList
  | eq _ | gt _ | lt _ | ge _ | le _ | between _ _ | isIn _ => []

def columnSlot (q : KeyPart × Value) : Slot := .column q.1.column q.2

def patternSlot (q : KeyPart × Value) : Slot := .pattern q.1.column q.2

theorem slots_equalities (key : Key) (values : List Value) :
    (Predicate.all (equalities key values)).slots = (equated key values).map columnSlot := by
  rw [Predicate.slots_all, equalities_eq_map, List.flatMap_map, equated]
  induction key.zip values with
  | nil => rfl
  | cons q qs ih =>
    rw [List.flatMap_cons, ih, Predicate.slots_eq, List.filter_cons]
    cases q.2.isNull <;> rfl

/-- The clauses of an ordered range compare every component, some of them more than once. The induction
is on the values: an equality that is carried along has a value that was compared before. -/
theorem mem_slots_clauses {strict last : Comparison} {slot : Slot} :
    ∀ {equal : List Predicate} {key : Key} {values : List Value}, Fits key values →
      (slot ∈ (clauses strict last equal key values).flatMap Predicate.slots ↔
        slot ∈ equal.flatMap Predicate.slots ∨ slot ∈ (key.zip values).map columnSlot)
  | _, _, [], hfit => absurd rfl hfit.1
  | _, [], _ :: _, hfit => absurd hfit.2 (by simp)
  | equal, part :: key, [v], _ => by
    rw [clauses_singleton, List.flatMap_singleton, Predicate.slots_all, List.flatMap_append,
      List.mem_append]
    simp [Predicate.slots, columnSlot]
  | equal, part :: key, v :: w :: values, hfit => by
    have hrest : Fits key (w :: values) := ⟨by simp, Nat.le_of_succ_le_succ hfit.2⟩
    have hequal : ∀ slot ∈ (Predicate.eq part.column v).slots, slot = .column part.column v := by
      rw [Predicate.slots_eq]
      split <;> simp
    rw [clauses_cons_cons, List.flatMap_cons, List.mem_append, mem_slots_clauses hrest,
      Predicate.slots_all, List.flatMap_append, List.flatMap_append, List.mem_append, List.mem_append,
      List.flatMap_singleton, List.flatMap_singleton, List.zip_cons_cons, List.map_cons,
      List.mem_cons, columnSlot, Predicate.slots, List.mem_singleton]
    have := hequal slot
    tauto

theorem mem_slots_lexicographic {key : Key} {values : List Value} (hfit : Fits key values)
    (strict last : Comparison) {slot : Slot} :
    slot ∈ (lexicographic key values strict last).slots ↔ slot ∈ (key.zip values).map columnSlot := by
  rw [lexicographic, Predicate.slots_any, mem_slots_clauses hfit]
  simp

theorem mem_slots_within {key : Key} {start stop : List Value} (hstart : Fits key start)
    (hstop : Fits key stop) {slot : Slot} :
    slot ∈ (within key start stop).slots ↔ slot ∈ (key.zip start ++ key.zip stop).map columnSlot := by
  unfold within
  split
  · split
    · simp [Predicate.slots, columnSlot]
    · simp [Predicate.slots, columnSlot, or_comm]
  · rw [Predicate.slots_all, List.flatMap_cons, List.flatMap_singleton, List.mem_append, atLeast,
      atMost, mem_slots_lexicographic hstart, mem_slots_lexicographic hstop, List.map_append,
      List.mem_append]

theorem slots_oneOf (key : Key) (tuples : List (List Value)) :
    (oneOf key tuples).slots = (tuples.flatMap (equated key)).map columnSlot := by
  unfold oneOf
  split
  · next part key values hvalues =>
    have hsingle := mapM_eq_some.1 hvalues
    clear hvalues
    rw [Predicate.slots]
    induction hsingle with
    | nil => rfl
    | @cons tuple v tuples values hv _ ih =>
      obtain ⟨rfl, hnull⟩ := eq_of_single? hv
      rw [List.map_cons, ih, List.flatMap_cons]
      simp [equated, hnull, columnSlot]
  · rw [Predicate.slots_any, List.flatMap_map, List.map_flatMap]
    exact List.flatMap_congr fun values _ => slots_equalities _ values

theorem slots_pattern : ∀ {key : Key} {values : List Value}, Fits key values →
    (pattern key values).flatMap Predicate.slots =
      (equated key values.dropLast).map columnSlot ++
        (key.zip values).getLast?.toList.map patternSlot
  | _, [], hfit => absurd rfl hfit.1
  | [], _ :: _, hfit => absurd hfit.2 (by simp)
  | part :: key, [v], _ => by
    simp [pattern, equated, Predicate.slots, patternSlot]
  | part :: key, v :: w :: values, hfit => by
    have hrest : Fits key (w :: values) := ⟨by simp, Nat.le_of_succ_le_succ hfit.2⟩
    obtain ⟨next, key, rfl⟩ : ∃ next rest, key = next :: rest :=
      List.exists_cons_of_ne_nil (by rintro rfl; exact absurd hrest.2 (by simp))
    have hcons : pattern (part :: next :: key) (v :: w :: values) =
        .eq part.column v :: pattern (next :: key) (w :: values) := rfl
    rw [hcons, List.flatMap_cons, slots_pattern hrest, Predicate.slots_eq]
    cases hv : v.isNull <;> simp [equated, hv, columnSlot]

/-- The slots of the condition of a range are the components that it compares and its pattern. -/
theorem mem_slots_iff {range : KeyRange} {key : Key} {p : Predicate}
    (h : range.predicate? key = some p) {slot : Slot} : slot ∈ p.slots ↔
      slot ∈ (range.compared key).map columnSlot ++ (range.matched key).map patternSlot := by
  cases range <;> simp only [predicate?, Option.ite_none_right_eq_some, Option.some.injEq] at h <;>
    obtain ⟨hfits, rfl⟩ := h
  case eq => rw [slots_equalities, compared, matched, List.map_nil, List.append_nil]
  case isIn => rw [slots_oneOf, compared, matched, List.map_nil, List.append_nil]
  case like => rw [Predicate.slots_all, slots_pattern hfits, compared, matched]
  case between =>
    rw [mem_slots_within hfits.1 hfits.2, compared, matched, List.map_nil, List.append_nil]
  all_goals
    simp only [atLeast, atMost, compared, matched, List.map_nil, List.append_nil,
      mem_slots_lexicographic hfits]

theorem exists_tuple_of_compared {range : KeyRange} {key : Key} {q : KeyPart × Value}
    (h : q ∈ range.compared key) : ∃ values ∈ range.tuples, q ∈ key.zip values := by
  cases range with
  | eq values => exact ⟨values, by simp [tuples], List.mem_of_mem_filter h⟩
  | gt values | lt values | ge values | le values => exact ⟨values, by simp [tuples], h⟩
  | isIn tuples =>
    obtain ⟨values, hvalues, h⟩ := List.mem_flatMap.1 h
    exact ⟨values, hvalues, List.mem_of_mem_filter h⟩
  | between start stop =>
    rcases List.mem_append.1 h with h | h
    · exact ⟨start, by simp [tuples], h⟩
    · exact ⟨stop, by simp [tuples], h⟩
  | like values =>
    obtain ⟨i, hi⟩ := List.mem_iff_getElem?.1 (List.mem_of_mem_filter h)
    obtain ⟨hpart, hvalue⟩ := List.getElem?_zip_eq_some.1 hi
    rw [List.getElem?_dropLast, Option.ite_none_right_eq_some] at hvalue
    exact ⟨values, by simp [tuples],
      List.mem_iff_getElem?.2 ⟨i, List.getElem?_zip_eq_some.2 ⟨hpart, hvalue.2⟩⟩⟩

theorem exists_like_of_matched {range : KeyRange} {key : Key} {q : KeyPart × Value}
    (h : q ∈ range.matched key) : ∃ values, range = .like values ∧ q ∈ key.zip values := by
  cases range with
  | like values => exact ⟨values, rfl, List.mem_of_getLast? (Option.mem_toList.1 h)⟩
  | _ => cases h

end KeyRange

end KeyedRows
