import KeyedRows.Proofs.Session.Alike

/-!
# Refreshed entities

* `Field.Coerces` : the form in which its column gives a field back;
* `coerceFields_cases` : one pass over the fields comes to its end, or to a value that its column does
  not take;
* `refresh_error` : a failed refresh leaves the baseline, that value and all after it as they were, and
  the fields before it coerced;
* `Field.Refreshes`, `fields_refreshed` : a field that a refresh has come to or not;
* `storesAlike_refresh` : storage cannot tell a refreshed entity from the one before;
* `refresh_eq_self_iff` : a refresh changes nothing exactly if every value is its own coercion;
* `refresh_unseen` : a refresh has no effect on any write, and a second one changes nothing.
-/

namespace KeyedRows

/-! ## One pass over the fields -/

/-- The state of a field after its column gave it back; an unset field stays unset. -/
inductive Field.Coerces (type : ColumnType) : Field → Field → Prop where
  | unset : Coerces type .unset .unset
  | set {v w : Value} (h : type.coerce v = .ok w) : Coerces type (.set v) (.set w)

/-- The fields that the columns of some states give back, one after another. -/
abbrev FieldsCoerce (states : List (Column × Field)) (fields : List Field) : Prop :=
  List.Forall₂ (fun p f => p.2.Coerces p.1.type f) states fields

namespace Field

variable {type : ColumnType}

theorem exists_coerces (type : ColumnType) (f : Field) :
    (∃ g, f.Coerces type g) ∨ ∃ v err, f = .set v ∧ type.coerce v = .error err := by
  cases f with
  | unset => exact .inl ⟨_, .unset⟩
  | set v =>
    cases h : type.coerce v with
    | ok w => exact .inl ⟨_, .set h⟩
    | error err => exact .inr ⟨v, err, rfl, h⟩

end Field

namespace Entity

section
variable {c : Column} {columns : List Column} {fields : List Field}

theorem coerceFields_cons {f g : Field} (h : f.Coerces c.type g) :
    coerceFields (c :: columns) (f :: fields) =
      (g :: (coerceFields columns fields).1, (coerceFields columns fields).2) := by
  cases h with
  | unset => rfl
  | set h => rw [coerceFields, h]

theorem coerceFields_stop {v : Value} {err : ValueError} (h : c.type.coerce v = .error err) :
    coerceFields (c :: columns) (.set v :: fields) = (.set v :: fields, .error err) := by
  rw [coerceFields, h]

theorem coerceFields_of_coerces {after : List Field} (h : FieldsCoerce (columns.zip fields) after)
    (hlength : fields.length = columns.length) : coerceFields columns fields = (after, .ok ()) := by
  induction columns generalizing fields after with
  | nil =>
    rw [List.length_eq_zero_iff.1 hlength] at h ⊢
    cases h
    rfl
  | cons c columns ih =>
    obtain ⟨f, fields, rfl⟩ := List.exists_cons_of_length_eq_add_one hlength
    rw [List.zip_cons_cons] at h
    cases h with
    | cons hf h => rw [coerceFields_cons hf, ih h (by simpa using hlength)]

/-- A pass over the fields coerces all of them, or those before a value that its column does not
take. -/
theorem coerceFields_cases (hlength : fields.length = columns.length) :
    (∃ after, FieldsCoerce (columns.zip fields) after ∧
      coerceFields columns fields = (after, .ok ())) ∨
    ∃ i c v err front, (columns.zip fields)[i]? = some (c, .set v) ∧ c.type.coerce v = .error err ∧
      FieldsCoerce ((columns.zip fields).take i) front ∧
      coerceFields columns fields = (front ++ fields.drop i, .error err) := by
  induction columns generalizing fields with
  | nil =>
    rw [List.length_eq_zero_iff.1 hlength]
    exact .inl ⟨[], .nil, rfl⟩
  | cons c columns ih =>
    obtain ⟨f, fields, rfl⟩ := List.exists_cons_of_length_eq_add_one hlength
    rw [List.zip_cons_cons]
    rcases f.exists_coerces c.type with ⟨g, hg⟩ | ⟨v, err, rfl, herr⟩
    · rw [coerceFields_cons hg]
      rcases ih (by simpa using hlength) with ⟨after, h, heq⟩ | ⟨i, d, v, err, front, hi, herr, h, heq⟩
      · exact .inl ⟨_, .cons hg h, by rw [heq]⟩
      · exact .inr ⟨i + 1, d, v, err, g :: front, hi, herr, .cons hg h, by rw [heq]; rfl⟩
    · exact .inr ⟨0, c, v, err, [], rfl, herr, .nil, coerceFields_stop herr⟩

end

/-! ## Refresh -/

variable {e : Entity}

theorem ext_fields {e e' : Entity} (htable : e.table = e'.table) (hfields : e.fields = e'.fields)
    (hbaseline : e.baseline = e'.baseline) : e = e' := by
  cases e
  cases e'
  cases htable
  cases hfields
  cases hbaseline
  rfl

theorem fields_refresh (e : Entity) :
    e.refresh.1.fields = (coerceFields e.table.columns e.fields).1 := rfl

theorem result_refresh (e : Entity) :
    e.refresh.2 = (coerceFields e.table.columns e.fields).2.mapError .value := rfl

theorem refresh_cases (e : Entity) :
    (FieldsCoerce e.states e.refresh.1.fields ∧ e.refresh.2 = .ok ()) ∨
    ∃ i c v err front, e.states[i]? = some (c, .set v) ∧ c.type.coerce v = .error err ∧
      FieldsCoerce (e.states.take i) front ∧ e.refresh.1.fields = front ++ e.fields.drop i ∧
      e.refresh.2 = .error (.value err) := by
  rw [fields_refresh, result_refresh]
  rcases coerceFields_cases e.fields_length with ⟨after, h, heq⟩ | ⟨i, c, v, err, front, hi, herr, h, heq⟩
  · rw [heq]
    exact .inl ⟨h, rfl⟩
  · rw [heq]
    exact .inr ⟨i, c, v, err, front, hi, herr, h, rfl, rfl⟩

/-- **What a failed refresh leaves behind.** The table and the baseline are as they were. The error is
that of one column, whose value it does not take; that field and all after it are as they were, and
the fields before it hold what their columns give back, or are unset as they were. -/
theorem refresh_error {after : Entity} {err : Error} (h : e.refresh = (after, .error err)) :
    after.table = e.table ∧ after.baseline = e.baseline ∧
    ∃ i c v cause front, e.states[i]? = some (c, .set v) ∧ c.type.coerce v = .error cause ∧
      err = .value cause ∧ FieldsCoerce (e.states.take i) front ∧
      after.fields = front ++ e.fields.drop i := by
  have hafter : e.refresh.1 = after := congrArg Prod.fst h
  have herror : e.refresh.2 = .error err := congrArg Prod.snd h
  subst hafter
  refine ⟨rfl, rfl, ?_⟩
  rcases e.refresh_cases with ⟨_, hok⟩ | ⟨i, c, v, cause, front, hi, hcause, hfront, hfields, hresult⟩
  · rw [hok] at herror
    cases herror
  · rw [hresult] at herror
    cases herror
    exact ⟨i, c, v, cause, front, hi, hcause, rfl, hfront, hfields⟩

section

private def stockTable : Table :=
  { name := "stock"
    columns := [⟨"item", .string, none, none⟩, ⟨"count", .integer, none, none⟩,
      ⟨"price", .decimal, none, none⟩, ⟨"since", .date, none, none⟩]
    key := [⟨"item", .ascending⟩] }

private def stock (count price since : Value) : Entity where
  table := stockTable
  fields := [.set (.string "nut"), .set count, .set price, .set since]
  baseline := some [.set (.string "nut"), .set (.integer 1), .set .null, .set .null]
  fields_length := rfl
  baseline_length := by simp [stockTable]

/-- The price is no decimal: the count before it is a number now, the date after it is still text. -/
theorem refresh_error_price :
    let e := stock (.string " 7 ") (.string "dear") (.string "2024-2-29")
    let err : Error := .value (.cannotStore .decimal (.string "dear"))
    ∃ after, e.refresh = (after, .error err) ∧
      (after.table = e.table ∧ after.baseline = e.baseline ∧
        ∃ i c v cause front, e.states[i]? = some (c, .set v) ∧ c.type.coerce v = .error cause ∧
          err = .value cause ∧ FieldsCoerce (e.states.take i) front ∧
          after.fields = front ++ e.fields.drop i) ∧
      after.fields = [.set (.string "nut"), .set (.integer 7), .set (.string "dear"),
        .set (.string "2024-2-29")] := by
  intro e err
  have hrefresh : ∃ after, e.refresh = (after, .error err) ∧
      after.fields = [.set (.string "nut"), .set (.integer 7), .set (.string "dear"),
        .set (.string "2024-2-29")] := ⟨_, rfl, rfl⟩
  obtain ⟨after, h, hfields⟩ := hrefresh
  exact ⟨after, h, refresh_error h, hfields⟩

/-- A refresh that fails has changed a field. -/
theorem refresh_keeps_traces :
    let e := stock (.string "7") (.string "dear") .null
    (∃ err, e.refresh.2 = .error err) ∧ e.field? "count" = some (.set (.string "7")) ∧
      e.refresh.1.field? "count" = some (.set (.integer 7)) ∧ e.refresh.1.fields ≠ e.fields :=
  ⟨⟨_, rfl⟩, rfl, rfl, by decide⟩

end

end Entity

/-! ## Refreshed entities are stored alike -/

/-- A field before and after a refresh that may have come to it or not. -/
def Field.Refreshes (type : ColumnType) (f g : Field) : Prop := g = f ∨ f.Coerces type g

namespace Field

variable {type : ColumnType} {f g : Field}

theorem Coerces.storesAlike (h : f.Coerces type g) : f.StoresAlike type g := by
  cases h with
  | unset => exact .unset
  | set h => exact .set (ColumnType.storesAlike_of_coerce h)

theorem Refreshes.storesAlike (h : f.Refreshes type g) : f.StoresAlike type g := by
  rcases h with rfl | h
  · exact .refl type _
  · exact h.storesAlike

theorem Refreshes.isSet_eq (h : f.Refreshes type g) : g.isSet = f.isSet := by
  rcases h with rfl | ⟨_ | _⟩ <;> rfl

/-- Coercion does not change whether a field differs from another, also from one that its column does
not take: neither the value nor its coercion is such a one. -/
theorem Refreshes.differ_eq (h : f.Refreshes type g) (before : Field) :
    Entity.differ type before g = Entity.differ type before f := by
  rcases h with rfl | h
  · rfl
  cases h with
  | unset => rfl
  | @set v w h =>
    cases before with
    | unset => rfl
    | set b =>
      have hagain := ColumnType.coerce_of_coerce h
      rw [Entity.differ, Entity.differ, h, hagain]
      cases hb : type.coerce b with
      | ok b' => rfl
      | error err =>
        have hv : b ≠ v := by
          rintro rfl
          rw [h] at hb
          cases hb
        have hw : b ≠ w := by
          rintro rfl
          rw [hagain] at hb
          cases hb
        simp [hv, hw]

end Field

namespace Entity

variable {e : Entity}

theorem map_snd_states (e : Entity) : e.states.map Prod.snd = e.fields :=
  List.map_snd_zip (by rw [e.fields_length])

/-- Whether it fails or not, a refresh coerces fields or leaves them. -/
theorem fields_refreshed (e : Entity) :
    List.Forall₂ (fun p f => p.2.Refreshes p.1.type f) e.states e.refresh.1.fields := by
  rcases e.refresh_cases with ⟨h, _⟩ | ⟨i, _, _, _, front, _, _, h, hfields, _⟩
  · exact h.imp fun _ _ => .inr
  · have hrest : List.Forall₂ (fun p f => p.2.Refreshes p.1.type f) (e.states.drop i)
        (e.fields.drop i) := by
      rw [← map_snd_states, ← List.map_drop, List.forall₂_map_right_iff, List.forall₂_same]
      exact fun _ _ => .inl rfl
    rw [hfields, ← List.take_append_drop i e.states]
    exact List.rel_append (h.imp fun _ _ => .inr) hrest

theorem exists_refreshed {i : Nat} {c : Column} {f : Field} (h : e.states[i]? = some (c, f)) :
    ∃ g, e.refresh.1.fields[i]? = some g ∧ f.Refreshes c.type g :=
  exists_getElem?_of_forall₂ e.fields_refreshed h

theorem exists_of_position? {column : String} {i : Nat} (h : e.table.position? column = some i) :
    ∃ c f, e.table.columns[i]? = some c ∧ e.fields[i]? = some f ∧ e.states[i]? = some (c, f) := by
  obtain ⟨hlt, _⟩ := List.findIdx?_eq_some_iff_getElem.1 h
  have hfield : i < e.fields.length := by rwa [e.fields_length]
  have hc := List.getElem?_eq_getElem hlt
  have hf := List.getElem?_eq_getElem hfield
  exact ⟨_, _, hc, hf, List.getElem?_zip_eq_some.2 ⟨hc, hf⟩⟩

theorem isSet_refresh (column : String) : e.refresh.1.isSet column = e.isSet column := by
  rw [isSet, isSet, field?, field?]
  show ((e.table.position? column).bind _).any _ = _
  cases hi : e.table.position? column with
  | none => rfl
  | some i =>
    obtain ⟨c, f, _, hf, hstate⟩ := exists_of_position? hi
    obtain ⟨g, hg, hrefresh⟩ := exists_refreshed hstate
    rw [Option.bind_some, Option.bind_some, hf, hg]
    exact hrefresh.isSet_eq

theorem isChanged_refresh (column : String) : e.refresh.1.isChanged column = e.isChanged column := by
  rw [isChanged, isChanged]
  show (e.table.position? column).any _ = _
  cases hi : e.table.position? column with
  | none => rfl
  | some i =>
    obtain ⟨c, f, hc, hf, hstate⟩ := exists_of_position? hi
    obtain ⟨g, hg, hrefresh⟩ := exists_refreshed hstate
    have hcolumn : e.refresh.1.table.columns[i]? = some c := hc
    have hbaseline : e.refresh.1.baseline = e.baseline := rfl
    simp only [Option.any_some, changed, hc, hf, hcolumn, hg, hbaseline]
    cases e.baseline with
    | none => exact hrefresh.isSet_eq
    | some b =>
      show Option.any _ b[i]? = Option.any _ b[i]?
      cases b[i]? with
      | none => rfl
      | some before => exact hrefresh.differ_eq before

/-- Storage cannot tell a refreshed entity from the one before, even if the refresh has failed. -/
theorem storesAlike_refresh (e : Entity) : e.StoresAlike e.refresh.1 where
  table := rfl
  baseline := rfl
  states := (forall₂_zip_right e.fields_refreshed).imp fun _ _ h => ⟨h.1, h.2.storesAlike⟩
  isChanged column := (isChanged_refresh column).symm

/-- A refresh changes nothing exactly if every value is its own coercion. -/
theorem refresh_eq_self_iff :
    e.refresh = (e, .ok ()) ↔ ∀ c v, (c, .set v) ∈ e.states → c.type.coerce v = .ok v := by
  have hstates : FieldsCoerce e.states e.fields ↔ ∀ p ∈ e.states, p.2.Coerces p.1.type p.2 := by
    rw [← map_snd_states, FieldsCoerce, List.forall₂_map_right_iff, List.forall₂_same]
  constructor
  · intro h c v hmem
    have hself : e.refresh.1 = e := congrArg Prod.fst h
    have hok : e.refresh.2 = .ok () := congrArg Prod.snd h
    rcases e.refresh_cases with ⟨hfields, _⟩ | ⟨_, _, _, _, _, _, _, _, _, herror⟩
    · rw [hself, hstates] at hfields
      cases hfields _ hmem with
      | set hv => exact hv
    · rw [herror] at hok
      cases hok
  · intro h
    have hfields : FieldsCoerce e.states e.fields := hstates.2 <| by
      rintro ⟨c, f⟩ hmem
      cases f with
      | unset => exact .unset
      | set v => exact .set (h c v hmem)
    have hpass := coerceFields_of_coerces hfields e.fields_length
    refine Prod.ext (ext_fields rfl ?_ rfl) ?_
    · rw [fields_refresh, hpass]
    · rw [result_refresh, hpass]
      rfl

theorem refresh_again (h : e.refresh.2 = .ok ()) : e.refresh.1.refresh = (e.refresh.1, .ok ()) := by
  rw [refresh_eq_self_iff]
  rcases e.refresh_cases with ⟨hfields, _⟩ | ⟨_, _, _, _, _, _, _, _, _, herror⟩
  · intro c w hmem
    obtain ⟨⟨_, f⟩, _, rfl, hf⟩ := exists_of_forall₂ (forall₂_zip_right hfields) hmem
    cases hf with
    | set hv => exact ColumnType.coerce_of_coerce hv
  · rw [herror] at h
    cases h

/-- **Storage cannot see a refresh.** Whether it succeeds or fails, the insert, update and delete of
the entity are the same statements as before, or fail with the same errors, and the same columns count
as changed and as set. After a successful refresh a second one changes nothing. -/
theorem refresh_unseen (e : Entity) (hvalid : e.table.validate = .ok ()) :
    (∀ style ctx, e.table.insert style e.refresh.1 ctx = e.table.insert style e ctx ∧
      e.table.update style e.refresh.1 ctx = e.table.update style e ctx ∧
      e.table.delete style e.refresh.1 = e.table.delete style e) ∧
    (∀ column, e.refresh.1.isChanged column = e.isChanged column ∧
      e.refresh.1.isSet column = e.isSet column) ∧
    (e.refresh.2 = .ok () → e.refresh.1.refresh = (e.refresh.1, .ok ())) := by
  have htypes := Table.typesAs_self hvalid
  have halike := e.storesAlike_refresh
  refine ⟨fun style ctx => ⟨?_, ?_, ?_⟩, fun column => ⟨isChanged_refresh column, isSet_refresh column⟩,
    refresh_again⟩
  · exact (Table.insert_congr htypes halike style ctx).symm
  · exact (Table.update_congr htypes halike style ctx).symm
  · exact delete_congr rfl rfl e.table style

/-- A date below year zero can be stored but not loaded, so the refresh stops there, with the count and
the price coerced. The guarded update binds the same cells as before. -/
theorem refresh_unseen_yearBelowZero :
    let e := stock (.string " 7 ") (.string "1.50") (.date ⟨-44, 3, 15, by decide⟩)
    let ctx : Context := ⟨⟨⟨2024, 2, 29, by decide⟩, .midnight⟩, "ann", "till", false, true⟩
    e.table.validate = .ok () ∧ (∃ err, e.refresh.2 = .error err) ∧ e.refresh.1.fields ≠ e.fields ∧
      ∃ s, e.table.update {} e.refresh.1 ctx = .ok (some s) ∧ e.table.update {} e ctx = .ok (some s) ∧
        s.bindings = [.integer 7, .text "1.5", .text "-0044/03/15", .text "nut", .integer 7, .text "1.5",
          .text "-0044/03/15"] := by
  intro e ctx
  have hupdate : ∃ s, e.table.update {} e ctx = .ok (some s) ∧
      s.bindings = [.integer 7, .text "1.5", .text "-0044/03/15", .text "nut", .integer 7, .text "1.5",
        .text "-0044/03/15"] := ⟨_, rfl, rfl⟩
  obtain ⟨s, h, hbindings⟩ := hupdate
  have hvalid : e.table.validate = .ok () := rfl
  have hsame := ((refresh_unseen e hvalid).1 {} ctx).2.1
  exact ⟨hvalid, ⟨_, rfl⟩, by decide, s, hsame.trans h, h, hbindings⟩

end Entity
end KeyedRows
