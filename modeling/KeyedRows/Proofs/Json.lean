import KeyedRows.Proofs.Decimal.Text
import KeyedRows.Proofs.Outcome
import KeyedRows.Value.Json

/-!
# Records, lists and values in documents

* `Json.fields?_object`, `Json.list?_map`, `Json.optional_ofOption` : the parts of a record, the members of
  a list and a part that may be absent come back as they were written;
* `Value.ofJson?_toJson_eq` : a value is read by its kind and its payload;
* `ofJson?_toJson_decimal` : a decimal comes back from its document as it does from its text.
-/

namespace KeyedRows

namespace Json

/-! ## Records and lists -/

theorem field?_of_mem {fields : List (String × Json)} {name : String} {j : Json}
    (hnames : (fields.map Prod.fst).Nodup) (h : (name, j) ∈ fields) :
    field? fields name = some (some j) := by
  have hfilter : fields.filter (fun f => f.1 = name) = [(name, j)] := by
    induction fields with
    | nil => cases h
    | cons f fields ih =>
      rw [List.map_cons, List.nodup_cons] at hnames
      rcases List.mem_cons.1 h with rfl | h
      · have hnone : fields.filter (fun f => f.1 = name) = [] := by
          refine List.filter_eq_nil_iff.2 fun g hg heq => hnames.1 ?_
          rw [decide_eq_true_eq] at heq
          exact List.mem_map.2 ⟨g, hg, heq⟩
        rw [List.filter_cons, if_pos (decide_eq_true rfl), hnone]
      · have hne : f.1 ≠ name := by
          rintro rfl
          exact hnames.1 (List.mem_map.2 ⟨_, h, rfl⟩)
        rw [List.filter_cons_of_neg (by rwa [decide_eq_true_eq]), ih hnames.2 h]
  rw [field?, hfilter]

/-- A record that has all of its fields, and no other, is read as they stand. -/
theorem fields?_object {fields : List (String × Json)} {names : List String}
    (hfields : fields.map Prod.fst = names) (hnames : names.Nodup) :
    fields? names (.object fields) = some (fields.map fun f => some f.2) := by
  subst hfields
  refine mapM_eq_some.2 (List.forall₂_map_left_iff.2 (List.forall₂_map_right_iff.2 ?_))
  exact List.forall₂_same.2 fun f hf => field?_of_mem hnames hf

theorem list?_map {α : Type} {read : Json → Option α} {write : α → Json} {xs : List α}
    (h : ∀ x ∈ xs, read (write x) = some x) : list? read (.array (xs.map write)) = some xs :=
  mapM_eq_some.2 (List.forall₂_map_left_iff.2 (List.forall₂_same.2 h))

/-- An absent part stays absent, and one that is there does if it is not written as null. -/
theorem optional_ofOption {α : Type} {read : Json → Option α} {write : α → Json} {o : Option α}
    (h : ∀ a ∈ o, write a ≠ null ∧ read (write a) = some a) :
    optional read (some (ofOption write o)) = some o := by
  cases o with
  | none => rfl
  | some a =>
    obtain ⟨hnull, hread⟩ := h a rfl
    unfold ofOption optional
    split
    · cases ‹_ = _›
    · next heq => exact absurd (Option.some.inj heq) hnull
    · next heq =>
      rw [← Option.some.inj heq, hread]
      rfl

end Json

/-! ## Values -/

theorem Value.ofJson?_toJson_eq (v : Value) : ofJson? v.toJson = ofParts? v.toParts.1 v.toParts.2 := by
  have hkind (kind : String) (payload : Option Json) :
      ofJson? (.object (("type", .text kind) :: (payload.map fun j => ("value", j)).toList)) =
        ofParts? kind payload := by
    cases payload with
    | none => rfl
    | some j => rfl
  exact hkind v.toParts.1 v.toParts.2

theorem ofJson?_toJson_decimal (d : Decimal) :
    Value.ofJson? (Value.toJson (.decimal d)) = (Decimal.read? (toString d)).map Value.decimal :=
  Value.ofJson?_toJson_eq (.decimal d)

end KeyedRows
