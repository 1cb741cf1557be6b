import KeyedRows.Proofs.KeyOrder
import KeyedRows.Proofs.Written
import KeyedRows.Sql.Query

/-!
# Statements of one shape

* `Value.shape` : what is left of a value when only null counts;
* `Predicate.map`, `KeyRange.map` : other values in the same places;
* `KeyRange.predicate?_map` : the condition of a range commutes with any change of values that keeps
  null apart;
* `Piece.bare` : pieces without what they bind, which have the same text;
* `pieces_eq_of_map_eq` : conditions that differ in their values have the same bare pieces;
* `KeyRange.SameShape`, `Entity.SameShape` : ranges and entities that differ in their values alone;
* `statements_of_sameShape` : their statements differ in their bindings alone.
-/

namespace KeyedRows

open Sql

/-! ## Values -/

namespace Value

/-- Null, or one value that stands for all others. -/
def ofIsNull (null : Bool) : Value := if null then .null else .boolean true

def shape (v : Value) : Value := ofIsNull v.isNull

theorem isNull_shape (v : Value) : v.shape.isNull = v.isNull := by
  unfold shape
  cases v.isNull <;> rfl

theorem map_shape (vs : List Value) : vs.map shape = (vs.map isNull).map ofIsNull := by
  rw [List.map_map]
  rfl

end Value

namespace Predicate

mutual

def map (f : Value → Value) : Predicate → Predicate
  | compare column op v => compare column op (f v)
  | isNull column => isNull column
  | isNotNull column => isNotNull column
  | isIn column values => isIn column (values.map f)
  | between column low high => between column (f low) (f high)
  | like column pattern => like column (f pattern)
  | and parts => and (mapParts f parts)
  | or parts => or (mapParts f parts)

def mapParts (f : Value → Value) : List Predicate → List Predicate
  | [] => []
  | p :: parts => p.map f :: mapParts f parts

end

variable {f g : Value → Value}

theorem mapParts_eq (parts : List Predicate) : mapParts f parts = parts.map (map f) := by
  induction parts with
  | nil => rfl
  | cons p parts ih => rw [mapParts, ih, List.map_cons]

mutual

theorem map_map : ∀ p : Predicate, (p.map f).map g = p.map (g ∘ f)
  | compare _ _ _ | isNull _ | isNotNull _ | between _ _ _ | like _ _ => rfl
  | isIn column values => by rw [map, map, map, List.map_map]
  | and parts => by rw [map, map, map, mapParts_mapParts parts]
  | or parts => by rw [map, map, map, mapParts_mapParts parts]

theorem mapParts_mapParts : ∀ parts : List Predicate,
    mapParts g (mapParts f parts) = mapParts (g ∘ f) parts
  | [] => rfl
  | p :: parts => by rw [mapParts, mapParts, mapParts, map_map p, mapParts_mapParts parts]

end

theorem isCompound_map (p : Predicate) : (p.map f).isCompound = p.isCompound := by
  cases p <;> rfl

theorem parts_map (j : Junction) (p : Predicate) : j.parts (p.map f) = (j.parts p).map (map f) := by
  cases j <;> cases p <;> simp [Junction.parts, map, conjuncts, disjuncts, mapParts_eq]

theorem wrap_map (j : Junction) (ps : List Predicate) : j.wrap (ps.map (map f)) = (j.wrap ps).map f := by
  unfold Junction.wrap
  cases ps with
  | nil => cases j <;> rfl
  | cons p ps =>
    cases ps with
    | nil => rfl
    | cons q ps => cases j <;> simp [Junction.group, map, mapParts_eq]

theorem merge_map (j : Junction) (parts : List Predicate) :
    j.merge (parts.map (map f)) = (j.merge parts).map f := by
  have hflat : (parts.map (map f)).flatMap j.parts = (parts.flatMap j.parts).map (map f) := by
    rw [List.flatMap_map, List.map_flatMap]
    exact List.flatMap_congr fun p _ => parts_map j p
  rw [j.merge_eq_wrap, j.merge_eq_wrap, hflat, wrap_map]

theorem all_map (parts : List Predicate) : all (parts.map (map f)) = (all parts).map f :=
  merge_map .and parts

theorem any_map (parts : List Predicate) : any (parts.map (map f)) = (any parts).map f :=
  merge_map .or parts

theorem eq_map (hf : ∀ v, (f v).isNull = v.isNull) (column : String) (v : Value) :
    eq column (f v) = (eq column v).map f := by
  unfold eq
  rw [hf]
  split <;> rfl

end Predicate

/-! ## Ranges -/

namespace KeyRange

def map (f : Value → Value) : KeyRange → KeyRange
  | eq values => eq (values.map f)
  | gt values => gt (values.map f)
  | lt values => lt (values.map f)
  | ge values => ge (values.map f)
  | le values => le (values.map f)
  | between start stop => between (start.map f) (stop.map f)
  | isIn tuples => isIn (tuples.map (List.map f))
  | like values => like (values.map f)

variable {f : Value → Value}

theorem fits_map {key : Key} {values : List Value} : Fits key (values.map f) ↔ Fits key values := by
  simp [Fits]

section
variable (hf : ∀ v, (f v).isNull = v.isNull)
include hf

theorem equalities_map (key : Key) (values : List Value) :
    equalities key (values.map f) = (equalities key values).map (.map f) := by
  rw [equalities, equalities, List.zipWith_map_right, List.map_zipWith]
  simp only [Predicate.eq_map hf]

theorem clauses_map (strict last : Comparison) : ∀ {equal : List Predicate} {key : Key}
    {values : List Value}, clauses strict last (equal.map (.map f)) key (values.map f) =
      (clauses strict last equal key values).map (.map f)
  | equal, key, [] => by cases key <;> rfl
  | equal, [], v :: values => by cases values <;> rfl
  | equal, part :: key, [v] => by
    rw [List.map_singleton, clauses_singleton, clauses_singleton, List.map_singleton,
      ← Predicate.all_map, List.map_append, List.map_singleton, Predicate.map]
  | equal, part :: key, v :: w :: values => by
    have ih : clauses strict last ((equal ++ [Predicate.eq part.column v]).map (.map f)) key
        ((w :: values).map f) =
        (clauses strict last (equal ++ [.eq part.column v]) key (w :: values)).map (.map f) :=
      clauses_map strict last
    rw [List.map_append, List.map_singleton, ← Predicate.eq_map hf] at ih
    rw [List.map_cons, List.map_cons, clauses_cons_cons, clauses_cons_cons, List.map_cons,
      ← Predicate.all_map, List.map_append, List.map_singleton, Predicate.map, ← ih, List.map_cons]

theorem lexicographic_map (key : Key) (values : List Value) (strict last : Comparison) :
    lexicographic key (values.map f) strict last = (lexicographic key values strict last).map f := by
  have hclauses : clauses strict last ([].map (.map f)) key (values.map f) =
      (clauses strict last [] key values).map (.map f) := clauses_map hf strict last
  rw [List.map_nil] at hclauses
  rw [lexicographic, hclauses, Predicate.any_map, lexicographic]

theorem within_map (key : Key) (start stop : List Value) :
    within key (start.map f) (stop.map f) = (within key start stop).map f := by
  have hbounds : Predicate.all [atLeast key (start.map f), atMost key (stop.map f)] =
      (Predicate.all [atLeast key start, atMost key stop]).map f := by
    rw [atLeast, atMost, lexicographic_map hf, lexicographic_map hf, ← Predicate.all_map]
    rfl
  rcases key with _ | ⟨part, key⟩
  · exact hbounds
  rcases start with _ | ⟨low, _ | ⟨low', start⟩⟩
  · exact hbounds
  · rcases stop with _ | ⟨high, _ | ⟨high', stop⟩⟩
    · exact hbounds
    · obtain ⟨column, direction⟩ := part
      cases direction <;> rfl
    · exact hbounds
  · exact hbounds

theorem single?_map (values : List Value) : single? (values.map f) = (single? values).map f := by
  rcases values with _ | ⟨v, _ | ⟨w, values⟩⟩
  · rfl
  · simp only [List.map_cons, List.map_nil, single?, hf]
    split <;> rfl
  · rfl

theorem oneOf_map (key : Key) (tuples : List (List Value)) :
    oneOf key (tuples.map (List.map f)) = (oneOf key tuples).map f := by
  have hsingles : (tuples.map (List.map f)).mapM single? = (tuples.mapM single?).map (List.map f) := by
    induction tuples with
    | nil => rfl
    | cons values tuples ih =>
      rw [List.map_cons, List.mapM_cons, List.mapM_cons, single?_map hf, ih]
      cases single? values <;> cases tuples.mapM single? <;> rfl
  have hany : Predicate.any ((tuples.map (List.map f)).map fun values => .all (equalities key values)) =
      (Predicate.any (tuples.map fun values => .all (equalities key values))).map f := by
    rw [← Predicate.any_map, List.map_map, List.map_map]
    congr 1
    refine List.map_congr_left fun values _ => ?_
    rw [Function.comp_apply, Function.comp_apply, equalities_map hf, Predicate.all_map]
  unfold oneOf
  rw [hsingles]
  cases key with
  | nil => exact hany
  | cons part key =>
    cases tuples.mapM single? with
    | none => exact hany
    | some values => rfl

theorem pattern_map : ∀ {key : Key} {values : List Value},
    pattern key (values.map f) = (pattern key values).map (.map f)
  | [], values => by simp [pattern]
  | part :: key, [] => rfl
  | part :: key, [v] => rfl
  | part :: key, v :: w :: values => by
    have ih : pattern key ((w :: values).map f) = (pattern key (w :: values)).map (.map f) := pattern_map
    have hcons (v w : Value) (values : List Value) : pattern (part :: key) (v :: w :: values) =
        .eq part.column v :: pattern key (w :: values) := rfl
    rw [hcons, List.map_cons, List.map_cons, hcons, List.map_cons, ← ih, Predicate.eq_map hf,
      List.map_cons]

/-- The condition of a range commutes with a change of values that keeps null apart. -/
theorem predicate?_map (key : Key) (range : KeyRange) :
    (range.map f).predicate? key = (range.predicate? key).map (.map f) := by
  cases range with
  | eq values =>
    rw [map, predicate?, predicate?, Option.map_if, equalities_map hf, Predicate.all_map]
    simp only [fits_map]
  | gt values | lt values =>
    rw [map, predicate?, predicate?, Option.map_if, lexicographic_map hf]
    simp only [fits_map]
  | ge values =>
    rw [map, predicate?, predicate?, Option.map_if, atLeast, lexicographic_map hf, ← atLeast]
    simp only [fits_map]
  | le values =>
    rw [map, predicate?, predicate?, Option.map_if, atMost, lexicographic_map hf, ← atMost]
    simp only [fits_map]
  | between start stop =>
    rw [map, predicate?, predicate?, Option.map_if, within_map hf]
    simp only [fits_map]
  | isIn tuples =>
    rw [map, predicate?, predicate?, Option.map_if, oneOf_map hf]
    simp only [ne_eq, List.map_eq_nil_iff, List.forall_mem_map, fits_map]
  | like values =>
    rw [map, predicate?, predicate?, Option.map_if, pattern_map hf, Predicate.all_map]
    simp only [fits_map]

end
end KeyRange

/-! ## Pieces without bindings -/

namespace Piece

def bare : Piece → Piece
  | binding _ => binding .null
  | piece => piece

@[simp] theorem bare_text (s : String) : (text s).bare = text s := rfl

@[simp] theorem bare_name (s : String) : (name s).bare = name s := rfl

@[simp] theorem bare_binding (c : Cell) : (binding c).bare = binding .null := rfl

theorem render_bare (style : Style) (ps : List Piece) (next : Nat) :
    render style next (ps.map bare) = render style next ps := by
  induction ps generalizing next with
  | nil => rfl
  | cons p ps ih => cases p <;> simp [bare, render, ih]

theorem cells_bare (ps : List Piece) : cells (ps.map bare) = (cells ps).map fun _ => .null := by
  induction ps with
  | nil => rfl
  | cons p ps ih => cases p <;> simp [bare, ih]

theorem intersperse_bare (word : String) (items : List (List Piece)) :
    (items.intersperse [text word]).flatten.map bare =
      ((items.map (List.map bare)).intersperse [text word]).flatten := by
  induction items with
  | nil => rfl
  | cons ps items ih =>
    cases items with
    | nil => simp
    | cons qs items =>
      simp only [List.intersperse_cons_cons, List.flatten_cons, List.map_append, List.map_cons, ih]
      rfl

theorem commaList_bare (items : List (List Piece)) :
    (commaList items).map bare = commaList (items.map (List.map bare)) :=
  intersperse_bare ", " items

theorem names_bare (ids : List String) : (names ids).map bare = names ids := by
  rw [names, commaList_bare, List.map_map]
  rfl

end Piece

/-- The statement with null in place of each binding. -/
def Statement.unbound (s : Statement) : Statement :=
  { s with bindings := s.bindings.map fun _ => .null }

theorem Statement.unbound_ofPieces (style : Style) (kind : StatementKind) (ps : List Piece) :
    (ofPieces style kind ps).unbound = ofPieces style kind (ps.map .bare) := by
  rw [unbound, ofPieces, ofPieces, Piece.render_bare]
  congr 1
  exact (Piece.cells_bare ps).symm

namespace Predicate

def bare (p : Predicate) : Predicate := p.map fun _ => .null

variable {t : Table} {style : Style}

/-- Null has a storage form wherever another value has one. -/
theorem stored?_null {column : String} {v : Value} {cell : Cell} (h : t.stored? column v = some cell) :
    t.stored? column .null = some .null := by
  obtain ⟨c, hc, _⟩ := Option.bind_eq_some_iff.1 h
  rw [Table.stored?, hc, Option.bind_some, ColumnType.store?_null]

theorem mapM_bind_null {column : String} {values : List Value} {cs : List Cell}
    (h : List.Forall₂ (fun v cell => t.stored? column v = some cell) values cs) :
    (values.map fun _ => Value.null).mapM (fun v => t.bind column v) =
      .ok (cs.map fun _ => .binding .null) := by
  rw [mapM_eq_ok, List.forall₂_map_left_iff, List.forall₂_map_right_iff]
  exact h.imp fun v cell hcell => Table.bind_eq_ok.2 ⟨.null, stored?_null hcell, rfl⟩

theorem grouped_bare (p : Predicate) (ps : List Piece) :
    (grouped p ps).map .bare = grouped p.bare (ps.map .bare) := by
  rw [grouped, grouped, bare, isCompound_map]
  split
  · rw [List.map_append, List.map_cons]
    rfl
  · rfl

theorem joined_bare (word none : String) (parts : List (List Piece)) :
    (joined word none parts).map .bare = joined word none (parts.map (List.map .bare)) := by
  rw [joined, joined, List.isEmpty_map]
  split
  · rfl
  · exact Piece.intersperse_bare word parts

theorem partPieces_bare {parts : List Predicate} {pss : List (List Piece)}
    (h : List.Forall₂ (fun p gs => ∃ ps, ∃ _ : p.pieces t style = .ok ps,
      (∃ qs, p.bare.pieces t style = .ok qs ∧ qs.map Piece.bare = ps.map Piece.bare) ∧
        gs = grouped p ps) parts pss) :
    ∃ qss, partPieces t style (mapParts (fun _ => .null) parts) = .ok qss ∧
      qss.map (List.map Piece.bare) = pss.map (List.map Piece.bare) := by
  obtain ⟨qss, hqss, hsame⟩ : ∃ qss, List.Forall₂ (fun p gs => ∃ qs,
      p.bare.pieces t style = .ok qs ∧ gs = grouped p.bare qs) parts qss ∧
      List.Forall₂ (fun gs gs' => gs.map Piece.bare = gs'.map Piece.bare) qss pss := by
    refine exists_middle_of_forall₂ (h.imp fun p gs hp => ?_)
    obtain ⟨ps, _, ⟨qs, hqs, hsame⟩, rfl⟩ := hp
    refine ⟨_, ⟨qs, hqs, rfl⟩, ?_⟩
    rw [grouped_bare, grouped_bare, hsame, bare, bare, map_map]
    rfl
  refine ⟨qss, ?_, ?_⟩
  · rw [mapParts_eq, partPieces_eq_ok, List.forall₂_map_left_iff]
    exact hqss
  · rw [← List.forall₂_eq_eq_eq, List.forall₂_map_left_iff, List.forall₂_map_right_iff]
    exact hsame

/-- A condition that can be written can be written without its values, with the same text. -/
theorem pieces_bare {p : Predicate} {ps : List Piece} (h : p.pieces t style = .ok ps) :
    ∃ qs, p.bare.pieces t style = .ok qs ∧ qs.map Piece.bare = ps.map Piece.bare := by
  induction h using pieces_induction with
  | compare column op v cell _ hcell =>
    exact ⟨_, pieces_compare_eq_ok.2 ⟨.null, stored?_null hcell, rfl⟩, rfl⟩
  | isNull column h => exact ⟨_, h, rfl⟩
  | isNotNull column h => exact ⟨_, h, rfl⟩
  | isIn column values cs _ hcs =>
    rw [bare, map, pieces, mapM_bind_null hcs]
    refine ⟨_, rfl, ?_⟩
    simp only [List.map_append, Piece.commaList_bare, List.map_map, Function.comp_def, List.map_cons,
      List.map_nil, Piece.bare_binding]
  | between column low high a b _ ha hb =>
    rw [bare, map, pieces, Table.bind_eq_ok.2 ⟨.null, stored?_null ha, rfl⟩]
    exact ⟨_, rfl, rfl⟩
  | like column v c _ hc =>
    -- A pattern is bound as text, also null, so the pieces agree only in what is bare.
    rw [bare, map, pieces, Table.requireColumn_eq_ok.2 hc]
    exact ⟨_, rfl, rfl⟩
  | and parts pss _ ih =>
    obtain ⟨qss, hqss, hsame⟩ := partPieces_bare ih
    rw [bare, map, pieces, hqss]
    exact ⟨_, rfl, by rw [joined_bare, joined_bare, hsame]⟩
  | or parts pss _ ih =>
    obtain ⟨qss, hqss, hsame⟩ := partPieces_bare ih
    rw [bare, map, pieces, hqss]
    exact ⟨_, rfl, by rw [joined_bare, joined_bare, hsame]⟩

/-- Conditions of one shape have the same pieces but for what is bound. -/
theorem pieces_eq_of_map_eq {f : Value → Value} {p q : Predicate} {ps qs : List Piece}
    (h : p.map f = q.map f) (hp : p.pieces t style = .ok ps) (hq : q.pieces t style = .ok qs) :
    ps.map Piece.bare = qs.map Piece.bare := by
  have hbare : p.bare = q.bare := by
    have hmap := congrArg bare h
    rwa [bare, bare, map_map, map_map] at hmap
  obtain ⟨ps', hps', hsame⟩ := pieces_bare hp
  obtain ⟨qs', hqs', hsame'⟩ := pieces_bare hq
  rw [hbare, hqs'] at hps'
  cases hps'
  rw [← hsame, hsame']

end Predicate

/-! ## Ranges of one shape -/

namespace KeyRange

/-- The ranges have the same operator and tuples of the same lengths, with null in the same places. -/
structure SameShape (range range' : KeyRange) : Prop where
  name : range.name = range'.name
  nulls : range.tuples.map (List.map Value.isNull) = range'.tuples.map (List.map Value.isNull)

theorem eq_of_name_of_tuples {range range' : KeyRange} (hname : range.name = range'.name)
    (htuples : range.tuples = range'.tuples) : range = range' := by
  cases range <;> cases range' <;> simp_all [name, tuples]

theorem name_map (f : Value → Value) (range : KeyRange) : (range.map f).name = range.name := by
  cases range <;> rfl

theorem tuples_map (f : Value → Value) (range : KeyRange) :
    (range.map f).tuples = range.tuples.map (List.map f) := by
  cases range <;> rfl

theorem SameShape.map_shape {range range' : KeyRange} (h : range.SameShape range') :
    range.map .shape = range'.map .shape := by
  have hshape (tuples : List (List Value)) : tuples.map (List.map Value.shape) =
      (tuples.map (List.map Value.isNull)).map (List.map Value.ofIsNull) := by
    rw [List.map_map]
    exact List.map_congr_left fun values _ => Value.map_shape values
  refine eq_of_name_of_tuples (by rw [name_map, name_map, h.name]) ?_
  rw [tuples_map, tuples_map, hshape, hshape, h.nulls]

/-- Ranges of one shape have conditions of one shape, or none of them has one. -/
theorem SameShape.condition? {range range' : KeyRange} (h : range.SameShape range') (t : Table) :
    (t.condition? (some range) = none ∧ t.condition? (some range') = none) ∨
      ∃ p q, t.condition? (some range) = some (some p) ∧ t.condition? (some range') = some (some q) ∧
        p.map .shape = q.map .shape := by
  have hpredicate : (range.predicate? t.key).map (Predicate.map .shape) =
      (range'.predicate? t.key).map (Predicate.map .shape) := by
    rw [← predicate?_map Value.isNull_shape, ← predicate?_map Value.isNull_shape, h.map_shape]
  rw [Table.condition?, Table.condition?]
  cases hp : range.predicate? t.key with
  | none =>
    rw [hp, Option.map_none, eq_comm, Option.map_eq_none_iff] at hpredicate
    exact .inl ⟨rfl, by rw [hpredicate, Option.map_none]⟩
  | some p =>
    rw [hp, Option.map_some, eq_comm, Option.map_eq_some_iff] at hpredicate
    obtain ⟨q, hq, hsame⟩ := hpredicate
    exact .inr ⟨p, q, rfl, by rw [hq, Option.map_some], hsame.symm⟩

end KeyRange

/-! ## Entities of one shape -/

/-- Whether a field is unset, null or set to a value. -/
def Field.kind (f : Field) : Option Bool := f.assigned?.map Value.isNull

namespace Entity

/-- The entities belong to one table, and their columns agree in whether they are unset, null or set
to a value and in whether they count as changed. -/
structure SameShape (e e' : Entity) : Prop where
  table : e.table = e'.table
  kinds : e.fields.map Field.kind = e'.fields.map Field.kind
  changed : ∀ c ∈ e.table.columns, e.isChanged c.id = e'.isChanged c.id

variable {e e' : Entity} {ctx ctx' : Context}

theorem map_fst_inserts (e : Entity) (ctx : Context) : (e.inserts ctx).map Prod.fst =
    (e.table.columns.zip (e.fields.map Field.kind)).filterMap fun (c, kind) =>
      if kind.isSome || c.isStamp || c.default.isSome then some c else none := by
  rw [inserts, List.map_filterMap, List.zip_map_right, List.filterMap_map, states]
  refine List.filterMap_congr fun p _ => ?_
  obtain ⟨c, f⟩ := p
  have hsome := isSome_insertValue? ctx c f
  have hkind : f.kind.isSome = f.isSet := by cases f <;> rfl
  cases hv : insertValue? ctx c f <;> simp_all

theorem map_fst_updateStamps (e : Entity) (ctx : Context) : (e.updateStamps ctx).map Prod.fst =
    (e.table.columns.zip (e.fields.map Field.kind)).filterMap fun (c, _) =>
      if c.stamp.any Stamp.onUpdate then some c else none := by
  rw [updateStamps, List.map_filterMap, List.zip_map_right, List.filterMap_map, states]
  refine List.filterMap_congr fun p _ => ?_
  obtain ⟨c, f⟩ := p
  cases hs : c.stamp with
  | none => simp [hs]
  | some stamp => by_cases hon : stamp.onUpdate = true <;> simp [hs, hon]

theorem map_shape_updates (e : Entity) (t : Table) (ctx : Context) :
    (e.updates t ctx).map (fun p => (p.1, p.2.shape)) =
      (e.table.columns.zip (e.fields.map Field.kind)).filterMap fun (c, kind) =>
        if e.isTarget t ctx c then kind.map fun null => (c, .ofIsNull null) else none := by
  rw [updates, List.map_filterMap, List.zip_map_right, List.filterMap_map, states]
  refine List.filterMap_congr fun p _ => ?_
  obtain ⟨c, f⟩ := p
  by_cases htarget : e.isTarget t ctx c = true
  · cases hf : f.assigned? <;> simp [htarget, Field.kind, hf, Value.shape]
  · simp [htarget]

namespace SameShape

variable (h : e.SameShape e')
include h

theorem inserts : (e.inserts ctx).map Prod.fst = (e'.inserts ctx').map Prod.fst := by
  rw [map_fst_inserts, map_fst_inserts, h.table, h.kinds]

theorem updateStamps : (e.updateStamps ctx).map Prod.fst = (e'.updateStamps ctx').map Prod.fst := by
  rw [map_fst_updateStamps, map_fst_updateStamps, h.table, h.kinds]

theorem updates (t : Table) (hdiff : ctx.diffOnly = ctx'.diffOnly) :
    (e.updates t ctx).map (fun p => (p.1, p.2.shape)) =
      (e'.updates t ctx').map fun p => (p.1, p.2.shape) := by
  rw [map_shape_updates, map_shape_updates, ← h.table, ← h.kinds]
  refine List.filterMap_congr fun p hp => ?_
  have htarget : e.isTarget t ctx p.1 = e'.isTarget t ctx' p.1 := by
    rw [isTarget, isTarget, h.changed p.1 (List.of_mem_zip hp).1, hdiff]
  dsimp only
  rw [htarget]

theorem baselineKey {keys keys' : List Value} (hkeys : e.baselineKey = .ok keys)
    (hkeys' : e'.baselineKey = .ok keys') : keys.map Value.shape = keys'.map Value.shape := by
  have hlength := (baselineKey_eq_ok hkeys).length_eq
  have hlength' := (baselineKey_eq_ok hkeys').length_eq
  have hnull {e : Entity} {keys : List Value} (hkeys : e.baselineKey = .ok keys) :
      keys.map Value.shape = List.replicate keys.length (.ofIsNull false) :=
    List.eq_replicate_iff.2 ⟨by simp, by
      intro w hw
      obtain ⟨v, hv, rfl⟩ := List.mem_map.1 hw
      rw [Value.shape, not_null_of_baselineKey hkeys v hv]⟩
  rw [hnull hkeys, hnull hkeys', ← hlength, ← hlength', h.table]

end SameShape
end Entity

/-! ## Statements of one shape -/

namespace Table

variable {t : Table} {style : Style}

theorem keyPredicate_map {f : Value → Value} (hf : ∀ v, (f v).isNull = v.isNull) (keys : List Value) :
    t.keyPredicate (keys.map f) = (t.keyPredicate keys).map f := by
  rw [keyPredicate, keyPredicate, ← Predicate.all_map, List.zipWith_map_right, List.map_zipWith]
  simp only [Predicate.eq_map hf]

theorem differs_map {f : Value → Value} (hf : ∀ v, (f v).isNull = v.isNull) (c : Column) (v : Value) :
    differs c (f v) = (differs c v).map f := by
  rw [differs, differs, hf]
  split
  · rfl
  · rw [← Predicate.any_map]
    rfl

theorem updateGuards_map {f : Value → Value} (hf : ∀ v, (f v).isNull = v.isNull) (ctx : Context)
    (targets : Assignments) :
    updateGuards ctx (targets.map fun p => (p.1, f p.2)) =
      (updateGuards ctx targets).map (Predicate.map f) := by
  unfold updateGuards
  split
  · rw [List.map_singleton, ← Predicate.any_map, List.map_map, List.map_map]
    congr 2
    exact List.map_congr_left fun p _ => differs_map hf p.1 p.2
  · rfl

theorem updateCondition_map {f : Value → Value} (hf : ∀ v, (f v).isNull = v.isNull) (ctx : Context)
    (keys : List Value) (targets : Assignments) :
    t.updateCondition ctx (keys.map f) (targets.map fun p => (p.1, f p.2)) =
      (t.updateCondition ctx keys targets).map f := by
  show Predicate.all (t.keyPredicate (keys.map f) :: updateGuards ctx _) =
    (Predicate.all (t.keyPredicate keys :: updateGuards ctx targets)).map f
  rw [← Predicate.all_map, List.map_cons, keyPredicate_map hf, updateGuards_map hf]

theorem insertPieces_bare (cells : List (String × Cell)) :
    (t.insertPieces cells).map Piece.bare =
      t.insertPieces ((cells.map Prod.fst).map fun id => (id, .null)) := by
  have hvalues : (Piece.commaList (cells.map fun p => [.binding p.2])).map Piece.bare =
      Piece.commaList (((cells.map Prod.fst).map fun id => (id, Cell.null)).map fun p =>
        [.binding p.2]) := by
    rw [Piece.commaList_bare, List.map_map, List.map_map, List.map_map]
    rfl
  have hids : ((cells.map Prod.fst).map fun id => (id, Cell.null)).map Prod.fst = cells.map Prod.fst := by
    rw [List.map_map]
    exact List.map_id _
  rw [insertPieces, insertPieces, List.isEmpty_map, List.isEmpty_map, List.map_append]
  split
  · rfl
  · simp only [List.map_append, List.map_cons, List.map_nil, Piece.bare_text, Piece.bare_name,
      Piece.names_bare, hvalues, hids]

theorem setPieces_bare (cells : List (String × Cell)) :
    (Piece.commaList (cells.map fun p => [.name p.1, .text " = ", .binding p.2])).map Piece.bare =
      Piece.commaList ((cells.map Prod.fst).map fun id => [.name id, .text " = ", .binding .null]) := by
  rw [Piece.commaList_bare, List.map_map, List.map_map]
  rfl

theorem whereClause_bare {f : Value → Value} {p q : Predicate} {ps qs : List Piece}
    (h : p.map f = q.map f) (hp : t.whereClause style (some p) = .ok ps)
    (hq : t.whereClause style (some q) = .ok qs) : ps.map Piece.bare = qs.map Piece.bare := by
  obtain ⟨ps, hps, hp⟩ := KeyedRows.bind_eq_ok.1 hp
  obtain ⟨qs, hqs, hq⟩ := KeyedRows.bind_eq_ok.1 hq
  cases hp
  cases hq
  rw [List.map_cons, List.map_cons, Predicate.pieces_eq_of_map_eq h hps hqs]

theorem limitClause_bare {limit limit' : Option Nat} (h : limit.isSome = limit'.isSome) :
    (limitClause limit).map Piece.bare = (limitClause limit').map Piece.bare := by
  cases limit <;> cases limit' <;> first | rfl | cases h

theorem selectWhere_unbound {f : Value → Value} {p q : Predicate} (h : p.map f = q.map f)
    {limit limit' : Option Nat} (hlimit : limit.isSome = limit'.isSome) {reverse : Bool}
    {s s' : Statement} (hs : t.selectWhere style (some p) limit reverse = .ok s)
    (hs' : t.selectWhere style (some q) limit' reverse = .ok s') : s.unbound = s'.unbound := by
  obtain ⟨ps, hps, hs⟩ := KeyedRows.bind_eq_ok.1 hs
  obtain ⟨qs, hqs, hs'⟩ := KeyedRows.bind_eq_ok.1 hs'
  cases hs
  cases hs'
  rw [Statement.unbound_ofPieces, Statement.unbound_ofPieces]
  congr 1
  simp only [List.map_append, List.map_cons, whereClause_bare h hps hqs, limitClause_bare hlimit]

theorem select_unbound {range range' : KeyRange} (h : range.SameShape range')
    {limit limit' : Option Nat} (hlimit : limit.isSome = limit'.isSome) {reverse : Bool}
    {o o' : Option Statement} (ho : t.select style ⟨some range, limit, reverse⟩ = .ok o)
    (ho' : t.select style ⟨some range', limit', reverse⟩ = .ok o') :
    o.map Statement.unbound = o'.map Statement.unbound := by
  rcases h.condition? t with ⟨hnone, hnone'⟩ | ⟨p, q, hp, hq, hsame⟩
  · simp only [select, hnone, hnone', Except.ok.injEq] at ho ho'
    rw [← ho, ← ho']
  · simp only [select, hp, hq] at ho ho'
    obtain ⟨s, hs, rfl⟩ := map_eq_ok.1 ho
    obtain ⟨s', hs', rfl⟩ := map_eq_ok.1 ho'
    rw [Option.map_some, Option.map_some, selectWhere_unbound hsame hlimit hs hs']

theorem count_unbound {range range' : KeyRange} (h : range.SameShape range')
    {o o' : Option Statement} (ho : t.count style (some range) = .ok o)
    (ho' : t.count style (some range') = .ok o') :
    o.map Statement.unbound = o'.map Statement.unbound := by
  rcases h.condition? t with ⟨hnone, hnone'⟩ | ⟨p, q, hp, hq, hsame⟩
  · simp only [count, hnone, hnone', Except.ok.injEq] at ho ho'
    rw [← ho, ← ho']
  · simp only [count, hp, hq] at ho ho'
    obtain ⟨ps, hps, ho⟩ := KeyedRows.bind_eq_ok.1 ho
    obtain ⟨qs, hqs, ho'⟩ := KeyedRows.bind_eq_ok.1 ho'
    cases ho
    cases ho'
    rw [Option.map_some, Option.map_some, Statement.unbound_ofPieces, Statement.unbound_ofPieces,
      List.map_append, List.map_append, whereClause_bare hsame hps hqs]

variable {e e' : Entity} {ctx ctx' : Context}

theorem map_fst_written_eq {values values' : Assignments}
    (h : ∀ p ∈ values, ∃ cell, t.stored? p.1.id p.2 = some cell)
    (h' : ∀ p ∈ values', ∃ cell, t.stored? p.1.id p.2 = some cell)
    (hcolumns : values.map Prod.fst = values'.map Prod.fst) :
    (t.written values).map Prod.fst = (t.written values').map Prod.fst := by
  have hids := congrArg (List.map Column.id) hcolumns
  rw [List.map_map, List.map_map] at hids
  rw [map_fst_written h, map_fst_written h']
  exact hids

theorem insert_unbound (h : e.SameShape e') {s s' : Statement} (hs : t.insert style e ctx = .ok s)
    (hs' : t.insert style e' ctx' = .ok s') : s.unbound = s'.unbound := by
  have hids := map_fst_written_eq (fun p hp => exists_stored?_of_insert hs (c := p.1) (v := p.2) hp)
    (fun p hp => exists_stored?_of_insert hs' (c := p.1) (v := p.2) hp) h.inserts
  rw [insert_eq_ok hs, insert_eq_ok hs', Statement.unbound_ofPieces, Statement.unbound_ofPieces,
    insertPieces_bare, insertPieces_bare, hids]

/-- Updates of entities of one shape, or none of them has something to write. -/
theorem update_unbound (h : e.SameShape e') (hdiff : ctx.diffOnly = ctx'.diffOnly)
    {o o' : Option Statement} (ho : t.update style e ctx = .ok o)
    (ho' : t.update style e' ctx' = .ok o') : o.map Statement.unbound = o'.map Statement.unbound := by
  have hupdates := h.updates t hdiff
  obtain ⟨_, keys, hkeys, hcases⟩ := update_cases ho
  obtain ⟨_, keys', hkeys', hcases'⟩ := update_cases ho'
  have hempty : e.updates t ctx = [] ↔ e'.updates t ctx' = [] := by
    rw [← List.map_eq_nil_iff, hupdates, List.map_eq_nil_iff]
  rcases hcases with ⟨hnil, rfl⟩ | ⟨hne, s, set, rfl, hset, ps, hps, rfl⟩
  · rcases hcases' with ⟨_, rfl⟩ | ⟨hne', _⟩
    · rfl
    · exact absurd (hempty.1 hnil) hne'
  · rcases hcases' with ⟨hnil', _⟩ | ⟨_, s', set', rfl, hset', qs, hqs, rfl⟩
    · exact absurd (hempty.2 hnil') hne
    · have hcolumns : (e.updates t ctx ++ e.updateStamps ctx).map Prod.fst =
          (e'.updates t ctx' ++ e'.updateStamps ctx').map Prod.fst := by
        have htargets := congrArg (List.map Prod.fst) hupdates
        rw [List.map_map, List.map_map] at htargets
        rw [List.map_append, List.map_append, h.updateStamps]
        exact congrArg (· ++ _) htargets
      have hids := map_fst_written_eq
        (fun p hp => exists_stored?_of_setClause hset (c := p.1) (v := p.2) hp)
        (fun p hp => exists_stored?_of_setClause hset' (c := p.1) (v := p.2) hp) hcolumns
      have hcondition : (t.updateCondition ctx keys (e.updates t ctx)).map .shape =
          (t.updateCondition ctx' keys' (e'.updates t ctx')).map .shape := by
        rw [← updateCondition_map Value.isNull_shape, ← updateCondition_map Value.isNull_shape,
          h.baselineKey hkeys hkeys', hupdates, updateCondition, updateCondition, hdiff]
      have hwhere := Predicate.pieces_eq_of_map_eq hcondition hps hqs
      rw [Option.map_some, Option.map_some, Statement.unbound_ofPieces, Statement.unbound_ofPieces,
        setClause_eq_ok hset, setClause_eq_ok hset']
      simp only [List.map_append, List.map_cons, setPieces_bare, hids, hwhere]

theorem delete_unbound (h : e.SameShape e') {s s' : Statement} (hs : t.delete style e = .ok s)
    (hs' : t.delete style e' = .ok s') : s.unbound = s'.unbound := by
  obtain ⟨_, keys, hkeys, ps, hps, rfl⟩ := delete_eq_ok hs
  obtain ⟨_, keys', hkeys', qs, hqs, rfl⟩ := delete_eq_ok hs'
  have hcondition : (t.keyPredicate keys).map .shape = (t.keyPredicate keys').map .shape := by
    rw [← keyPredicate_map Value.isNull_shape, ← keyPredicate_map Value.isNull_shape,
      h.baselineKey hkeys hkeys']
  rw [Statement.unbound_ofPieces, Statement.unbound_ofPieces]
  simp only [List.map_append, List.map_cons, Predicate.pieces_eq_of_map_eq hcondition hps hqs]

/-- **Values never reach the text of a statement.** Two ranges of one operator with tuples of the
same lengths and null in the same places give selects and counts that differ in what they bind alone,
and so do the inserts, updates and deletes of two entities of one table whose columns agree in being
unset, null or set to a value and in whether they count as changed. -/
theorem statements_of_sameShape (t : Table) (style : Style) :
    (∀ range range' limit limit' reverse o o', KeyRange.SameShape range range' →
      Option.isSome limit = Option.isSome limit' →
      t.select style ⟨some range, limit, reverse⟩ = .ok o →
      t.select style ⟨some range', limit', reverse⟩ = .ok o' →
        o.map Statement.unbound = o'.map Statement.unbound) ∧
    (∀ range range' o o', KeyRange.SameShape range range' →
      t.count style (some range) = .ok o → t.count style (some range') = .ok o' →
        o.map Statement.unbound = o'.map Statement.unbound) ∧
    (∀ e e' ctx ctx' s s', Entity.SameShape e e' →
      t.insert style e ctx = .ok s → t.insert style e' ctx' = .ok s' → s.unbound = s'.unbound) ∧
    (∀ e e' ctx ctx' o o', Entity.SameShape e e' → Context.diffOnly ctx = Context.diffOnly ctx' →
      t.update style e ctx = .ok o → t.update style e' ctx' = .ok o' →
        o.map Statement.unbound = o'.map Statement.unbound) ∧
    (∀ e e' s s', Entity.SameShape e e' →
      t.delete style e = .ok s → t.delete style e' = .ok s' → s.unbound = s'.unbound) :=
  ⟨fun _ _ _ _ _ _ _ h hlimit => select_unbound h hlimit, fun _ _ _ _ h => count_unbound h,
    fun _ _ _ _ _ _ h => insert_unbound h, fun _ _ _ _ _ _ h hdiff => update_unbound h hdiff,
    fun _ _ _ _ h => delete_unbound h⟩

section
private def noteTable : Table :=
  { name := "notes", columns := [⟨"id", .integer, none, none⟩, ⟨"body", .string, none, none⟩],
    key := [⟨"id", .ascending⟩, ⟨"body", .descending⟩] }

private def note (id : Int64) (body before : String) : Entity where
  table := noteTable
  fields := [.set (.integer id), .set (.string body)]
  baseline := some [.set (.integer id), .set (.string before)]
  fields_length := rfl
  baseline_length := by simp [noteTable]

/-- Values that look like the text of a statement are bound like any others. -/
theorem statements_of_sameShape_notes :
    let ctx : Context := ⟨⟨⟨2024, 2, 29, by decide⟩, .midnight⟩, "ann", "till", false, true⟩
    let range : KeyRange := .gt [.integer 1, .string "\x27; DROP TABLE notes; --"]
    let range' : KeyRange := .gt [.integer 7, .string "x"]
    let e := note 1 "\" = ? OR 1 = 1" "x"
    let e' := note 2 "a" "b"
    ∃ s s' u u', noteTable.select {} ⟨some range, some 3, false⟩ = .ok (some s) ∧
      noteTable.select {} ⟨some range', some 9, false⟩ = .ok (some s') ∧
      s.unbound = s'.unbound ∧ s.bindings ≠ s'.bindings ∧
      noteTable.update {} e ctx = .ok (some u) ∧ noteTable.update {} e' ctx = .ok (some u') ∧
      u.unbound = u'.unbound ∧ u.bindings ≠ u'.bindings := by
  intro ctx range range' e e'
  obtain ⟨hselect, _, _, hupdate, _⟩ := statements_of_sameShape noteTable {}
  have hrange : range.SameShape range' := ⟨rfl, rfl⟩
  have hentity : e.SameShape e' := ⟨rfl, rfl, by decide⟩
  have hs := hselect range range' (some 3) (some 9) false _ _ hrange rfl rfl rfl
  have hu := hupdate e e' ctx ctx _ _ hentity rfl rfl rfl
  exact ⟨_, _, _, _, rfl, rfl, Option.some.inj hs, by decide, rfl, rfl, Option.some.inj hu, by decide⟩

end
end Table
end KeyedRows
