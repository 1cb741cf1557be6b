import KeyedRows.Proofs.Session.Edits

/-!
# Entities that are stored alike

Storage sees a value only in the form in which its column binds it, and whether it is null.

* `ColumnType.StoresAlike`, `Field.StoresAlike`, `Entity.StoresAlike` : values, fields and entities that
  storage cannot tell apart;
* `ColumnType.storesAlike_of_coerce` : a value and what its column gives back for it are such values;
* `Table.BindsAlike` : assignments of them have the same bindings;
* `Predicate.WritesAlike` : conditions on them are written in the same pieces, alone and in groups;
* `Table.insert_congr`, `update_congr` : entities that are stored alike have the same writes.
-/

namespace KeyedRows

/-! ## Values that are stored alike -/

/-- Storage cannot tell two values of a column apart, and neither or both are null. -/
structure ColumnType.StoresAlike (type : ColumnType) (v w : Value) : Prop where
  store : type.store v = type.store w
  isNull : v.isNull = w.isNull

namespace ColumnType

variable {type : ColumnType} {v w : Value}

theorem StoresAlike.refl (type : ColumnType) (v : Value) : type.StoresAlike v v := ⟨rfl, rfl⟩

theorem storesAlike_of_coerce (h : type.coerce v = .ok w) : type.StoresAlike v w := by
  obtain ⟨cell, hs, hl⟩ := coerce_eq_ok.1 h
  have hw := store?_of_load? hs hl
  refine ⟨?_, ?_⟩
  · rw [store_eq_ok.2 hs, store_eq_ok.2 hw]
  · rw [← isNull_of_store? hs, ← isNull_of_store? hw]

end ColumnType

/-- Two fields of a column are both unset, or set to values that are stored alike. -/
inductive Field.StoresAlike (type : ColumnType) : Field → Field → Prop where
  | unset : StoresAlike type .unset .unset
  | set {v w : Value} (h : type.StoresAlike v w) : StoresAlike type (.set v) (.set w)

theorem Field.StoresAlike.refl (type : ColumnType) (f : Field) : f.StoresAlike type f := by
  cases f with
  | unset => exact .unset
  | set v => exact .set (.refl type v)

/-! ## Bindings -/

namespace Table

variable {t : Table} {c : Column} {v w : Value}

/-- Where the table declares a column of the other, it has the same type. -/
def TypesAs (t other : Table) : Prop :=
  ∀ c ∈ other.columns, ∀ d, t.column? c.id = some d → d.type = c.type

theorem typesAs_self (hvalid : t.validate = .ok ()) : t.TypesAs t := by
  intro c hc d hd
  rw [column?_of_mem hvalid hc] at hd
  cases hd
  rfl

/-- Two assignments to one column are bound alike. -/
structure BindsAlike (t : Table) (p q : Column × Value) : Prop where
  column : p.1 = q.1
  bind : t.bind p.1.id p.2 = t.bind q.1.id q.2
  isNull : p.2.isNull = q.2.isNull

theorem bindsAlike_of_storesAlike (htype : ∀ d, t.column? c.id = some d → d.type = c.type)
    (h : c.type.StoresAlike v w) : t.BindsAlike (c, v) (c, w) := by
  refine ⟨rfl, ?_, h.isNull⟩
  show t.bind c.id v = t.bind c.id w
  cases hc : t.column? c.id with
  | none => simp only [bind, requireColumn, hc, Bind.bind, Except.bind]
  | some d =>
    have hstore : d.type.store v = d.type.store w := by rw [htype d hc, h.store]
    simp only [bind, requireColumn, hc, Bind.bind, Except.bind, hstore]

section
variable {values values' : Assignments} (h : List.Forall₂ t.BindsAlike values values')
include h

theorem bindAll_congr : t.bindAll values = t.bindAll values' :=
  mapM_congr (h.imp fun _ _ hp => hp.bind)

theorem map_fst_congr : values.map Prod.fst = values'.map Prod.fst :=
  map_eq_map_of_forall₂ (h.imp fun _ _ hp => hp.column)

theorem setClause_congr : t.setClause values = t.setClause values' := by
  have hzip : ∀ bindings : List Piece,
      values.zipWith (fun p b => [Piece.name p.1.id, .text " = ", b]) bindings =
        values'.zipWith (fun p b => [Piece.name p.1.id, .text " = ", b]) bindings := fun bindings => by
    have hleft (values : Assignments) :
        values.zipWith (fun p b => [Piece.name p.1.id, .text " = ", b]) bindings =
          (values.map Prod.fst).zipWith (fun c b => [Piece.name c.id, .text " = ", b]) bindings := by
      rw [List.zipWith_map_left]
    rw [hleft, hleft, map_fst_congr h]
  unfold setClause
  rw [bindAll_congr h]
  simp only [hzip]

end
end Table

/-! ## Conditions -/

namespace Predicate

/-- Two conditions that are written in the same pieces, alone and as parts of a group. -/
structure WritesAlike (t : Table) (style : Style) (p q : Predicate) : Prop where
  isCompound : p.isCompound = q.isCompound
  pieces : p.pieces t style = q.pieces t style

variable {t : Table} {style : Style} {parts parts' : List Predicate}

theorem WritesAlike.refl (p : Predicate) : p.WritesAlike t style p := ⟨rfl, rfl⟩

theorem partPieces_congr (h : List.Forall₂ (WritesAlike t style) parts parts') :
    partPieces t style parts = partPieces t style parts' := by
  induction h with
  | nil => rfl
  | @cons p q _ _ hp _ ih =>
    have hgrouped : grouped p = grouped q := by
      funext ps
      rw [grouped, grouped, hp.isCompound]
    rw [partPieces, partPieces, hp.pieces, ih, hgrouped]

/-- Groups whose merged parts are written alike are written alike. -/
theorem writesAlike_merge (j : Junction) (h : List.Forall₂ (WritesAlike t style)
    (parts.flatMap j.parts) (parts'.flatMap j.parts)) :
    (j.merge parts).WritesAlike t style (j.merge parts') := by
  rw [j.merge_eq_wrap, j.merge_eq_wrap]
  generalize parts.flatMap j.parts = flat, parts'.flatMap j.parts = flat' at h ⊢
  unfold Junction.wrap
  cases h with
  | nil => exact .refl _
  | cons hp h =>
    cases h with
    | nil => exact hp
    | cons hq h =>
      have hparts := partPieces_congr (.cons hp (.cons hq h))
      cases j <;> exact ⟨rfl, by rw [Junction.group, pieces, pieces, hparts]⟩

theorem disjuncts_differs_congr {p q : Column × Value} (h : t.BindsAlike p q) :
    List.Forall₂ (WritesAlike t style) (differs p.1 p.2).disjuncts (differs q.1 q.2).disjuncts := by
  have hcompare : (compare p.1.id .ne p.2).WritesAlike t style (compare q.1.id .ne q.2) :=
    ⟨rfl, by rw [pieces, pieces, h.bind, h.column]⟩
  unfold differs
  rw [h.isNull, h.column]
  split
  · exact .cons (.refl _) .nil
  · rw [h.column] at hcompare
    exact .cons (.refl _) (.cons hcompare .nil)

theorem writesAlike_updateCondition (ctx : Context) (keys : List Value) {targets targets' : Assignments}
    (h : List.Forall₂ t.BindsAlike targets targets') :
    (t.updateCondition ctx keys targets).WritesAlike t style (t.updateCondition ctx keys targets') := by
  have hdiffers : (any (targets.map fun p => differs p.1 p.2)).WritesAlike t style
      (any (targets'.map fun p => differs p.1 p.2)) := by
    refine writesAlike_merge .or ?_
    rw [List.flatMap_map, List.flatMap_map]
    exact List.rel_flatMap h fun _ _ hp => disjuncts_differs_congr hp
  -- The guard is no conjunction, so it is a part of its own beside the key.
  have hguards : List.Forall₂ (WritesAlike t style) ((Table.updateGuards ctx targets).flatMap conjuncts)
      ((Table.updateGuards ctx targets').flatMap conjuncts) := by
    unfold Table.updateGuards
    split
    · rw [List.flatMap_singleton, List.flatMap_singleton, (isGuard_any_differs targets).1,
        (isGuard_any_differs targets').1]
      exact .cons hdiffers .nil
    · exact .nil
  refine writesAlike_merge .and ?_
  rw [List.flatMap_cons, List.flatMap_cons]
  exact List.rel_append (List.forall₂_same.2 fun p _ => .refl p) hguards

end Predicate

/-! ## Writes -/

/-- Two entities of one table, with one baseline, whose fields are stored alike and are changed in
the same columns. -/
structure Entity.StoresAlike (e e' : Entity) : Prop where
  table : e.table = e'.table
  baseline : e.baseline = e'.baseline
  states : List.Forall₂ (fun p q => p.1 = q.1 ∧ p.2.StoresAlike p.1.type q.2) e.states e'.states
  isChanged : ∀ column, e.isChanged column = e'.isChanged column

namespace Entity

variable {t : Table} {e e' : Entity}

/-- Assignments that are taken from the states column by column are bound alike. -/
theorem StoresAlike.filterMap_states {g g' : Column × Field → Option (Column × Value)}
    (h : e.StoresAlike e') (hg : ∀ c ∈ e.table.columns, ∀ f f', f.StoresAlike c.type f' →
      Option.Rel t.BindsAlike (g (c, f)) (g' (c, f'))) :
    List.Forall₂ t.BindsAlike (e.states.filterMap g) (e'.states.filterMap g') := by
  have hstates := (List.forall₂_and_left _ _).2 ⟨fun p hp => (List.of_mem_zip hp).1, h.states⟩
  refine List.rel_filterMap ?_ hstates
  rintro ⟨c, f⟩ ⟨_, f'⟩ ⟨hc, rfl, hf⟩
  exact hg c hc f f' hf

theorem option_bindsAlike {c : Column} (htype : ∀ d, t.column? c.id = some d → d.type = c.type)
    {v v' : Option Value} (h : Option.Rel c.type.StoresAlike v v') :
    Option.Rel t.BindsAlike (v.map fun w => (c, w)) (v'.map fun w => (c, w)) := by
  cases h with
  | none => exact .none
  | some h => exact .some (Table.bindsAlike_of_storesAlike htype h)

theorem insertValue?_alike (ctx : Context) (c : Column) {f f' : Field} (h : f.StoresAlike c.type f') :
    Option.Rel c.type.StoresAlike (insertValue? ctx c f) (insertValue? ctx c f') := by
  have hrefl : ∀ v : Option Value, Option.Rel c.type.StoresAlike v v := fun v => by
    cases v with
    | none => exact .none
    | some v => exact .some (.refl c.type v)
  cases h with
  | unset => exact hrefl _
  | set h =>
    unfold insertValue?
    split
    · split
      · exact .some h
      · exact hrefl _
    · exact .some h

section
variable (ht : t.TypesAs e.table) (h : e.StoresAlike e') (ctx : Context)
include ht h

theorem inserts_alike : List.Forall₂ t.BindsAlike (e.inserts ctx) (e'.inserts ctx) :=
  h.filterMap_states fun c hc _ _ hf => option_bindsAlike (ht c hc) (insertValue?_alike ctx c hf)

theorem updates_alike : List.Forall₂ t.BindsAlike (e.updates t ctx) (e'.updates t ctx) := by
  refine h.filterMap_states fun c hc f f' hf => ?_
  have htarget : e.isTarget t ctx c = e'.isTarget t ctx c := by
    rw [isTarget, isTarget, h.isChanged]
  dsimp only
  rw [htarget]
  split
  · cases hf with
    | unset => exact .none
    | set hv => exact .some (Table.bindsAlike_of_storesAlike (ht c hc) hv)
  · exact .none

theorem updateStamps_alike : List.Forall₂ t.BindsAlike (e.updateStamps ctx) (e'.updateStamps ctx) := by
  refine h.filterMap_states fun c hc f f' hf => ?_
  dsimp only
  split
  · next s hs =>
    split
    · refine .some (Table.bindsAlike_of_storesAlike (ht c hc) ?_)
      cases hf with
      | unset => exact .refl _ _
      | set hv =>
        split
        · exact hv
        · exact .refl _ _
    · exact .none
  · exact .none

end
end Entity

namespace Table

variable {t : Table} {e e' : Entity}

theorem checkEntity_congr (h : e.table = e'.table) : t.checkEntity e = t.checkEntity e' := by
  rw [checkEntity, checkEntity, h]

/-- Entities that are stored alike have the same insert, or none for the same reason. -/
theorem insert_congr (ht : t.TypesAs e.table) (h : e.StoresAlike e') (style : Style) (ctx : Context) :
    t.insert style e ctx = t.insert style e' ctx := by
  have hvalues := Entity.inserts_alike ht h ctx
  have hcolumns := map_fst_congr hvalues
  have hids : (e.inserts ctx).map (fun p => p.1.id) = (e'.inserts ctx).map fun p => p.1.id := by
    have hmap := congrArg (List.map Column.id) hcolumns
    rwa [List.map_map, List.map_map] at hmap
  have hempty : (e.inserts ctx).isEmpty = (e'.inserts ctx).isEmpty := by
    rw [← List.isEmpty_map, hcolumns, List.isEmpty_map]
  unfold insert
  simp only [checkEntity_congr h.table, bindAll_congr hvalues, hempty, hids]

theorem update_congr (ht : t.TypesAs e.table) (h : e.StoresAlike e') (style : Style) (ctx : Context) :
    t.update style e ctx = t.update style e' ctx := by
  have htargets := Entity.updates_alike ht h ctx
  have hset := setClause_congr (List.rel_append htargets (Entity.updateStamps_alike ht h ctx))
  have hcondition (keys : List Value) :
      (t.updateCondition ctx keys (e.updates t ctx)).pieces t style =
        (t.updateCondition ctx keys (e'.updates t ctx)).pieces t style :=
    (Predicate.writesAlike_updateCondition ctx keys htargets).pieces
  have hempty : (e.updates t ctx).isEmpty = (e'.updates t ctx).isEmpty := by
    rw [← List.isEmpty_map, map_fst_congr htargets, List.isEmpty_map]
  unfold update
  simp only [checkEntity_congr h.table, Entity.baselineKey_congr h.table h.baseline, hempty, hset,
    hcondition]

end Table

end KeyedRows
