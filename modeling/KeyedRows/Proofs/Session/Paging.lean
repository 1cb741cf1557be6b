import KeyedRows.Proofs.Sql.Effect
import KeyedRows.Proofs.Sql.Engine

/-!
# Walks from page to page

* `rowCompare_eq_eq`, `rowCompare_sortKey` : equal keys, and the order of a backward walk;
* `Table.HasFullKeys` : key columns without nulls, in canonical form;
* `Table.KeyValues` : a tuple that is stored as the key of a row, as `keyValues_of_ofRow` has it of a
  loaded one;
* `KeyRange.condition?_beyond` : the range beyond such a tuple is true of the rows that come later;
* `Table.ordered` : the rows of a store in the order of a walk, one strictly after the other;
* `Table.filter_ordered` : the rows that come after one of them are those that follow it;
* `Session.Walk`, `Session.Leaves` : pages are selected until one is empty, each from the last
  entity of the one before, and the rows that are left on the way;
* `Session.walk_of_page` : after a page with entities a walk goes on, in one way only;
* `Session.walk_iff` : from any place a walk gives the rows that are left;
* `Session.walk_visits_each` : a walk gives every row once in key order, a backward walk in the
  opposite order.
-/

namespace KeyedRows

open Sql

/-! ## Keys of rows -/

section
variable {k : Collation} {a b : String → Cell}

theorem Direction.apply_eq_eq {d : Direction} {o : Ordering} : d.apply o = .eq ↔ o = .eq := by
  cases d <;> cases o <;> simp [apply]

theorem Direction.apply_reversed (d : Direction) (o : Ordering) :
    d.reversed.apply o = (d.apply o).swap := by
  cases d <;> simp [apply, reversed]

theorem rowCompare_eq_eq : ∀ {key : Key}, rowCompare k key a b = .eq ↔
    ∀ part ∈ key, k.order (some part.column) (a part.column) (b part.column) = .eq
  | [] => by simp [rowCompare]
  | part :: key => by
    rw [rowCompare, Ordering.then_eq_eq, Direction.apply_eq_eq, rowCompare_eq_eq, List.forall_mem_cons]

theorem rowCompare_sortKey (reverse : Bool) : ∀ key : Key, rowCompare k (sortKey reverse key) a b =
    if reverse then (rowCompare k key a b).swap else rowCompare k key a b
  | [] => by cases reverse <;> rfl
  | part :: key => by
    have ih := rowCompare_sortKey reverse key
    unfold sortKey at ih ⊢
    rw [List.map_cons, rowCompare, rowCompare, ih]
    cases reverse with
    | false => rfl
    | true =>
      dsimp only
      rw [if_pos rfl, if_pos rfl, if_pos rfl, Ordering.swap_then, Direction.apply_reversed]

end

namespace Table

/-- The key columns of every row hold cells that are not null and that their types would store
again. -/
def HasFullKeys (t : Table) (store : List Row) : Prop :=
  ∀ row ∈ store, ∀ column ∈ t.keyColumns, (t.cell row column).isNull = false ∧
    ∀ c, t.column? column = some c → c.type.Canonical (t.cell row column)

/-- The values are stored as what a row has in the columns of a key, which is not null. -/
def KeyValues (t : Table) (row : Row) (key : Key) (values : List Value) : Prop :=
  List.Forall₂ (fun part v => t.stored? part.column v = some (t.cell row part.column) ∧
    (t.cell row part.column).isNull = false) key values

variable {t : Table}

theorem HasFullKeys.isNull_eq {store : List Row} (h : t.HasFullKeys store) {row : Row}
    (hrow : row ∈ store) : ∀ part ∈ t.key, (t.cell row part.column).isNull = false :=
  fun _ hpart => (h row hrow _ (List.mem_map_of_mem hpart)).1

theorem KeyValues.of_mem_zip {row : Row} {key : Key} {values : List Value}
    (h : t.KeyValues row key values) {p : KeyPart × Value} (hp : p ∈ key.zip values) :
    t.stored? p.1.column p.2 = some (t.cell row p.1.column) ∧
      (t.cell row p.1.column).isNull = false :=
  (List.forall₂_iff_zip.1 h).2 hp

theorem keyValues_of_ofRow {store : List Row} (hdeclares : t.Declares) (hfull : t.HasFullKeys store)
    {row : Row} (hrow : row ∈ store) {e : Entity} (he : Entity.ofRow t row = .ok e) :
    ∃ values, e.keyValues? = some values ∧ t.KeyValues row t.key values := by
  obtain ⟨rfl, _, _⟩ := Entity.ofRow_eq_ok he
  have hfield : ∀ part ∈ e.table.key, ∃ v, e.field? part.column = some (.set v) ∧
      e.table.stored? part.column v = some (e.table.cell row part.column) := by
    intro part hpart
    have hcolumn : part.column ∈ e.table.keyColumns := List.mem_map_of_mem hpart
    obtain ⟨c, hc⟩ := hdeclares part.column hcolumn
    obtain ⟨v, hf, hload⟩ := Entity.field?_of_ofRow he hc
    obtain ⟨w, hw, hstore⟩ := (hfull row hrow part.column hcolumn).2 c hc
    rw [hload] at hw
    cases hw
    exact ⟨v, hf, by rw [stored?_of_column? hc, hstore]⟩
  refine ⟨e.table.key.map fun part => ((e.field? part.column).bind Field.assigned?).getD .null, ?_, ?_⟩
  · unfold Entity.keyValues?
    rw [mapM_eq_some, keyColumns, List.forall₂_map_left_iff, List.forall₂_map_right_iff,
      List.forall₂_same]
    intro part hpart
    obtain ⟨v, hf, _⟩ := hfield part hpart
    rw [hf]
    rfl
  · unfold KeyValues
    rw [List.forall₂_map_right_iff, List.forall₂_same]
    intro part hpart
    obtain ⟨v, hf, hstored⟩ := hfield part hpart
    rw [hf]
    exact ⟨hstored, hfull.isNull_eq hrow part hpart⟩

end Table

/-! ## The range beyond a key -/

namespace KeyRange

variable {t : Table} {k : Collation} {style : Style} {a b : Row} {key : Key} {values : List Value}

theorem fits_of_keyValues (hkey : key ≠ []) (h : t.KeyValues b key values) : Fits key values := by
  have hlength := List.Forall₂.length_eq h
  refine ⟨?_, by omega⟩
  rintro rfl
  exact hkey (List.length_eq_zero_iff.1 hlength)

/-- The key of one row compares with the values of another as the two rows. -/
theorem keyOrder_of_keyValues (h : t.KeyValues b key values) :
    keyOrder (fun column v => k.order (some column) (t.cell a column) ((t.stored? column v).getD .null))
      key values = rowCompare k key (t.cell a) (t.cell b) := by
  induction h with
  | nil => rfl
  | cons hv _ ih => rw [keyOrder, rowCompare, ih, hv.1, Option.getD_some]

/-- An ordered condition with the values of a row says on which side of it another row lies. -/
theorem truth_lexicographic {strict last : Comparison}
    (hs : ∀ o, strict.holds o = (o.isNe && last.holds o)) (hkey : key ≠ [])
    (h : t.KeyValues b key values) (ha : ∀ part ∈ key, (t.cell a part.column).isNull = false) :
    (lexicographic key values strict last).truth t style k (t.cell a) =
      .ofBool (last.holds (rowCompare k key (t.cell a) (t.cell b))) := by
  have hview : ∀ p ∈ key.zip values, (View.ofCells k t style (t.cell a)).compare p.1.column p.2 =
      some (k.order (some p.1.column) (t.cell a p.1.column) ((t.stored? p.1.column p.2).getD .null)) := by
    intro p hp
    obtain ⟨hstored, hnull⟩ := h.of_mem_zip hp
    have hrow := ha p.1 (List.of_mem_zip hp).1
    show (t.stored? p.1.column p.2).bind _ = _
    rw [hstored, Option.bind_some, Collation.compare?]
    simp only [Operand.value, hrow, hnull, Bool.or_false, Bool.false_eq_true, if_false]
    rfl
  have hnull : ∀ v ∈ values, v.isNull = false := by
    intro v hv
    obtain ⟨part, _, hstored, hcell⟩ := exists_of_forall₂ h hv
    rw [← Table.isNull_of_stored? hstored, hcell]
  rw [Predicate.truth, ← keyOrder_of_keyValues h]
  exact eval_lexicographic hs (fits_of_keyValues hkey h) hview hnull

theorem bindable_lexicographic (strict last : Comparison) (h : t.KeyValues b key values) :
    (lexicographic key values strict last).Bindable t := by
  apply Predicate.bindable_merge .or
  apply clauses_of_parts fun _ => Predicate.bindable_merge .and
  · exact List.forall_mem_nil _
  · intro p hp
    have hbinds : t.Binds p.1.column p.2 := ⟨_, (h.of_mem_zip hp).1⟩
    exact ⟨Predicate.bindable_eq hbinds, fun _ => hbinds⟩

/-- The rows beyond a key, in the direction of a walk. -/
def beyond (reverse : Bool) (values : List Value) : KeyRange := if reverse then lt values else gt values

def past (reverse : Bool) : Comparison := if reverse then .lt else .gt

/-- The range beyond the key of a row has a condition, which can be written and is true of the rows
that come after it in the walk. -/
theorem condition?_beyond (style : Style) (reverse : Bool) (hkey : t.key ≠ [])
    (h : t.KeyValues b t.key values) :
    ∃ p, t.condition? (some (beyond reverse values)) = some (some p) ∧ p.Bindable t ∧
      ∀ a, (∀ part ∈ t.key, (t.cell a part.column).isNull = false) →
        (p.truth t style k (t.cell a) = .yes ↔
          rowCompare k (sortKey reverse t.key) (t.cell b) (t.cell a) = .lt) := by
  have hfits := fits_of_keyValues hkey h
  refine ⟨lexicographic t.key values (past reverse) (past reverse), ?_,
    bindable_lexicographic _ _ h, fun a ha => ?_⟩
  · cases reverse <;> exact congrArg (Option.map some) (if_pos hfits)
  · have hs : ∀ o, (past reverse).holds o = (o.isNe && (past reverse).holds o) := by
      cases reverse <;> decide
    rw [truth_lexicographic hs hkey h ha, Truth.ofBool_eq_yes, rowCompare_sortKey,
      rowCompare_swap k t.key (t.cell a)]
    cases reverse <;> cases rowCompare k t.key (t.cell a) (t.cell b) <;> decide

end KeyRange

/-! ## Rows in the order of a walk -/

namespace Table

variable {t : Table} {k : Collation} {style : Style} {store pre rest : List Row} {b : Row}
  {reverse : Bool}

def Before (t : Table) (k : Collation) (reverse : Bool) (a b : Row) : Prop :=
  rowCompare k (sortKey reverse t.key) (t.cell a) (t.cell b) = .lt

instance : DecidableRel (t.Before k reverse) := fun _ _ => inferInstanceAs (Decidable (_ = _))

theorem Before.asymm {a : Row} (h : t.Before k reverse a b) : ¬t.Before k reverse b a := by
  unfold Before at h ⊢
  rw [rowCompare_swap, h]
  decide

/-- The rows of a store in the order of a walk. -/
def ordered (t : Table) (k : Collation) (reverse : Bool) (store : List Row) : List Row :=
  store.insertionSort (t.NotAfter k reverse)

theorem perm_ordered : (t.ordered k reverse store).Perm store := List.perm_insertionSort _ _

section
variable (hkey : t.hasKey = true) (hfull : t.HasFullKeys store) (hunique : t.UniqueKeys k store)
include hkey hfull hunique

theorem pairwise_ordered (reverse : Bool) : (t.ordered k reverse store).Pairwise (t.Before k reverse) := by
  have hsorted : (t.ordered k reverse store).Pairwise (t.NotAfter k reverse) :=
    List.pairwise_insertionSort _ _
  have hother : (t.ordered k reverse store).Pairwise fun a b => ¬t.SameKey k a b :=
    (perm_ordered.pairwise_iff fun h hsame => h hsame.symm).2 (hunique hkey)
  refine (hsorted.and hother).imp_of_mem fun {a b} ha hb h => ?_
  obtain ⟨hle, hother⟩ := h
  have hne : rowCompare k (sortKey reverse t.key) (t.cell a) (t.cell b) ≠ .eq := by
    intro heq
    have heq : rowCompare k t.key (t.cell a) (t.cell b) = .eq := by
      rw [rowCompare_sortKey] at heq
      cases reverse with
      | false => exact heq
      | true => exact Ordering.swap_eq_eq.1 heq
    apply hother
    intro column hcolumn
    obtain ⟨part, hpart, rfl⟩ := List.mem_map.1 hcolumn
    exact ⟨hfull.isNull_eq (perm_ordered.mem_iff.1 ha) part hpart,
      hfull.isNull_eq (perm_ordered.mem_iff.1 hb) part hpart, rowCompare_eq_eq.1 heq part hpart⟩
  unfold NotAfter at hle
  unfold Before
  cases hcompare : rowCompare k (sortKey reverse t.key) (t.cell a) (t.cell b) with
  | lt => rfl
  | eq => exact absurd hcompare hne
  | gt => rw [hcompare] at hle; cases hle

theorem ordered_backward : t.ordered k true store = (t.ordered k false store).reverse := by
  have hforward := pairwise_ordered hkey hfull hunique false
  have hbackward := pairwise_ordered hkey hfull hunique true
  have hreversed : (t.ordered k false store).reverse.Pairwise (t.Before k true) := by
    rw [List.pairwise_reverse]
    refine hforward.imp fun {a b} h => ?_
    unfold Before at h ⊢
    rw [rowCompare_sortKey] at h ⊢
    exact (rowCompare_swap k t.key _ _).symm.trans h
  refine List.Perm.eq_of_pairwise (fun a b _ _ h h' => absurd h' h.asymm) hbackward hreversed ?_
  exact (perm_ordered.trans perm_ordered.symm).trans (List.reverse_perm _).symm

/-- The rows that come after one of them are those that follow it. -/
theorem filter_ordered (h : t.ordered k reverse store = pre ++ b :: rest) :
    (t.ordered k reverse store).filter (fun a => t.Before k reverse b a) = rest := by
  have hpairwise := pairwise_ordered hkey hfull hunique reverse
  rw [h, List.pairwise_append, List.pairwise_cons] at hpairwise
  obtain ⟨_, ⟨hrest, _⟩, hpre⟩ := hpairwise
  have hnone : pre.filter (fun a => t.Before k reverse b a) = [] := by
    rw [List.filter_eq_nil_iff]
    intro a ha hbefore
    exact (hpre a ha b (by simp)).asymm (by simpa using hbefore)
  have hself : ¬t.Before k reverse b b := fun hbefore => hbefore.asymm hbefore
  have hall : rest.filter (fun a => t.Before k reverse b a) = rest := by
    rw [List.filter_eq_self]
    intro a ha
    simpa using hrest a ha
  rw [h, List.filter_append, hnone, List.filter_cons_of_neg (by simpa using hself), hall, List.nil_append]

end

end Table

/-! ## Walks -/

namespace Session

variable {σ : Type} {x : Storage σ} {u : Session} {t : Table} {k : Collation} {store : List Row}
  {limit : Nat} {reverse : Bool}

def page (limit : Nat) (reverse : Bool) (range : Option KeyRange) : Query :=
  { range := range, limit := some limit, reverse := reverse }

/-- A walk from a range on: pages are selected until one is empty, each next one beyond the key of the
last entity received. What comes of it are the entities of all pages, or the error that ended it. -/
inductive Walk (u : Session) (x : Storage σ) (t : Table) (limit : Nat) (reverse : Bool) :
    Option KeyRange → σ → Except Error (List Entity) → Prop
  | failed {range : Option KeyRange} {state after : σ} {err : Error}
      (h : u.select x t (page limit reverse range) state = (.error err, after)) :
      Walk u x t limit reverse range state (.error err)
  | ended {range : Option KeyRange} {state after : σ}
      (h : u.select x t (page limit reverse range) state = (.ok [], after)) :
      Walk u x t limit reverse range state (.ok [])
  | next {range : Option KeyRange} {state after : σ} {es : List Entity} {last : Entity}
      {values : List Value} {result : Except Error (List Entity)}
      (h : u.select x t (page limit reverse range) state = (.ok es, after))
      (hlast : es.getLast? = some last) (hvalues : last.keyValues? = some values)
      (hrest : Walk u x t limit reverse (some (.beyond reverse values)) after result) :
      Walk u x t limit reverse range state (result.map fun rest => es ++ rest)

section
variable {range : Option KeyRange} {state after : σ} {result : Except Error (List Entity)}

theorem walk_of_error {err : Error}
    (h : u.select x t (page limit reverse range) state = (.error err, after)) :
    Walk u x t limit reverse range state result ↔ result = .error err := by
  constructor
  · intro hwalk
    cases hwalk with
    | failed hselect => rw [h] at hselect; cases hselect; rfl
    | ended hselect => rw [h] at hselect; cases hselect
    | next hselect => rw [h] at hselect; cases hselect
  · rintro rfl
    exact .failed h

theorem walk_of_empty (h : u.select x t (page limit reverse range) state = (.ok [], after)) :
    Walk u x t limit reverse range state result ↔ result = .ok [] := by
  constructor
  · intro hwalk
    cases hwalk with
    | failed hselect => rw [h] at hselect; cases hselect
    | ended hselect => rfl
    | next hselect hlast => rw [h] at hselect; cases hselect; cases hlast
  · rintro rfl
    exact .ended h

theorem walk_of_page {es : List Entity} {last : Entity} {values : List Value}
    (h : u.select x t (page limit reverse range) state = (.ok es, after))
    (hlast : es.getLast? = some last) (hvalues : last.keyValues? = some values) :
    Walk u x t limit reverse range state result ↔
      ∃ rest, Walk u x t limit reverse (some (.beyond reverse values)) after rest ∧
        result = rest.map fun others => es ++ others := by
  constructor
  · intro hwalk
    cases hwalk with
    | failed hselect => rw [h] at hselect; cases hselect
    | ended hselect => rw [h] at hselect; cases hselect; cases hlast
    | next hselect hlast' hvalues' hrest =>
      rw [h] at hselect
      cases hselect
      rw [hlast] at hlast'
      cases hlast'
      rw [hvalues] at hvalues'
      cases hvalues'
      exact ⟨_, hrest, rfl⟩
  · rintro ⟨rest, hrest, rfl⟩
    exact .next h hlast hvalues hrest

end

/-- The rows that are left from a range on. -/
def Leaves (u : Session) (x : Storage σ) (t : Table) (limit : Nat) (reverse : Bool)
    (range : Option KeyRange) (rest : List Row) : Prop :=
  ∀ state, (u.select x t (page limit reverse range) state).1 =
    (rest.take (min limit Table.maxLimit)).mapM (Entity.ofRow t)

section
variable (hx : x.Answers t k u.style store)
include hx

theorem leaves_all : u.Leaves x t limit reverse none (t.ordered k reverse store) := by
  intro state
  obtain ⟨s, hs⟩ : ∃ s, t.select u.style (page limit reverse none) = .ok (some s) := ⟨_, rfl⟩
  rw [select_eq hx hs]
  show ((List.insertionSort _ (store.filter fun _ => true)).take _).mapM _ = _
  rw [List.filter_true]
  rfl

/-- The rows left beyond the last one received are those that follow it. -/
theorem leaves_beyond (hkey : t.hasKey = true) (hfull : t.HasFullKeys store)
    (hunique : t.UniqueKeys k store) {pre rest : List Row} {b : Row}
    (h : t.ordered k reverse store = pre ++ b :: rest) {values : List Value}
    (hvalues : t.KeyValues b t.key values) :
    u.Leaves x t limit reverse (some (.beyond reverse values)) rest := by
  intro state
  have hne : t.key ≠ [] := by simpa [Table.hasKey] using hkey
  obtain ⟨p, hcondition, hbindable, htruth⟩ :=
    KeyRange.condition?_beyond (k := k) u.style reverse hne hvalues
  obtain ⟨s, hs, _⟩ := Table.select_of_bindable (q := page limit reverse (some (.beyond reverse values)))
    hcondition hbindable
  have hpicked : (store.filter fun row => p.truth t u.style k (t.cell row) = .yes) =
      store.filter fun row => t.Before k reverse b row := by
    refine List.filter_congr fun row hrow => ?_
    rw [decide_eq_decide]
    exact htruth row (hfull.isNull_eq hrow)
  have hrest : (store.filter fun row => p.truth t u.style k (t.cell row) = .yes).insertionSort
      (t.NotAfter k reverse) = rest := by
    rw [hpicked, ← filter_insertionSort]
    exact Table.filter_ordered hkey hfull hunique h
  rw [select_eq hx hs, Query.answer, page, hcondition]
  show (List.take _ ((store.filter fun row => p.truth t u.style k (t.cell row) = .yes).insertionSort
    (t.NotAfter k reverse))).mapM _ = _
  rw [hrest]

end

theorem mapM_ofRow_append (rows rows' : List Row) : (rows ++ rows').mapM (Entity.ofRow t) =
    (rows.mapM (Entity.ofRow t)).bind fun es =>
      (rows'.mapM (Entity.ofRow t)).map fun rest => es ++ rest := by
  rw [List.mapM_append]
  rfl

theorem getLast?_of_mapM_ofRow {rows : List Row} {es : List Entity}
    (h : rows.mapM (Entity.ofRow t) = .ok es) (hrows : rows ≠ []) :
    ∃ front b last, rows = front ++ [b] ∧ Entity.ofRow t b = .ok last ∧ es.getLast? = some last := by
  obtain ⟨front, b, rfl⟩ := (List.eq_nil_or_concat' rows).resolve_left hrows
  rw [List.mapM_append] at h
  obtain ⟨es, _, h⟩ := bind_eq_ok.1 h
  obtain ⟨lasts, hlasts, h⟩ := bind_eq_ok.1 h
  rw [List.mapM_cons] at hlasts
  obtain ⟨last, hlast, hlasts⟩ := bind_eq_ok.1 hlasts
  cases hlasts
  cases h
  exact ⟨front, b, last, rfl, hlast, List.getLast?_concat⟩

section
variable (hdeclares : t.Declares) (hkey : t.hasKey = true) (hx : x.Answers t k u.style store)
  (hfull : t.HasFullKeys store) (hunique : t.UniqueKeys k store) (hlimit : 1 ≤ limit)
  {pre rest : List Row} (h : t.ordered k reverse store = pre ++ rest)
include hdeclares hkey hx hfull hunique hlimit h

/-- Where rows are left, the last entity of a page names the place from which the others are left. -/
theorem leaves_next (hrest : rest ≠ []) {es : List Entity}
    (hpage : (rest.take (min limit Table.maxLimit)).mapM (Entity.ofRow t) = .ok es) :
    ∃ last values, es.getLast? = some last ∧ last.keyValues? = some values ∧
      u.Leaves x t limit reverse (some (.beyond reverse values))
        (rest.drop (min limit Table.maxLimit)) := by
  have htake : rest.take (min limit Table.maxLimit) ≠ [] := by
    have hpos : 0 < rest.length := List.length_pos_iff.2 hrest
    rw [← List.length_pos_iff, List.length_take]
    unfold Table.maxLimit
    omega
  obtain ⟨front, b, last, hrows, hlast, hes⟩ := getLast?_of_mapM_ofRow hpage htake
  have hplace : t.ordered k reverse store =
      (pre ++ front) ++ b :: rest.drop (min limit Table.maxLimit) := by
    have hsplit := List.take_append_drop (min limit Table.maxLimit) rest
    calc t.ordered k reverse store
      _ = pre ++ rest := h
      _ = pre ++ (front ++ [b] ++ rest.drop (min limit Table.maxLimit)) := by rw [← hrows, hsplit]
      _ = (pre ++ front) ++ b :: rest.drop (min limit Table.maxLimit) := by
        simp only [List.append_assoc, List.cons_append, List.nil_append]
  have hb : b ∈ store := by
    rw [← Table.perm_ordered.mem_iff, hplace]
    simp
  obtain ⟨values, hvalues, hstored⟩ := Table.keyValues_of_ofRow hdeclares hfull hb hlast
  exact ⟨last, values, hes, hvalues, leaves_beyond hx hkey hfull hunique hplace hstored⟩

/-- **From any place a walk gives the rows that are left.** The induction is on their number: where
rows are left, a page has some of them. -/
theorem walk_iff {range : Option KeyRange} (hleaves : u.Leaves x t limit reverse range rest) (state : σ)
    (result : Except Error (List Entity)) :
    Walk u x t limit reverse range state result ↔ result = rest.mapM (Entity.ofRow t) := by
  generalize hn : rest.length = n
  induction n using Nat.strong_induction_on generalizing pre rest range state result with
  | _ n ih =>
  subst hn
  rcases hpage : u.select x t (page limit reverse range) state with ⟨answer, after⟩
  have hanswer : answer = (rest.take (min limit Table.maxLimit)).mapM (Entity.ofRow t) := by
    rw [← hleaves state, hpage]
  have hsplit := mapM_ofRow_append (t := t) (rest.take (min limit Table.maxLimit))
    (rest.drop (min limit Table.maxLimit))
  rw [List.take_append_drop, ← hanswer] at hsplit
  cases answer with
  | error err =>
    rw [walk_of_error hpage, hsplit]
    rfl
  | ok es =>
    by_cases hrest : rest = []
    · subst hrest
      rw [List.take_nil] at hanswer
      cases hanswer
      exact walk_of_empty hpage
    · obtain ⟨last, values, hlast, hvalues, hnext⟩ :=
        leaves_next hdeclares hkey hx hfull hunique hlimit h hrest hanswer.symm
      have hplace : t.ordered k reverse store =
          (pre ++ rest.take (min limit Table.maxLimit)) ++ rest.drop (min limit Table.maxLimit) := by
        rw [List.append_assoc, List.take_append_drop, h]
      have hshorter : (rest.drop (min limit Table.maxLimit)).length < rest.length := by
        have hpos : 0 < rest.length := List.length_pos_iff.2 hrest
        rw [List.length_drop]
        unfold Table.maxLimit
        omega
      rw [walk_of_page hpage hlast hvalues, hsplit]
      simp only [ih _ hshorter hplace hnext after _ rfl, exists_eq_left]
      rfl

end

/-- **A walk visits every row once.** Rows with keys of their own, none of them null and all of them in
canonical form, are selected in pages of any size but none, each page beyond the key of the last entity
of the one before, until a page is empty. What comes of it are the entities of all rows in key order,
or the error of the first row that does not load; a backward walk has the opposite order. -/
theorem walk_visits_each (hvalid : t.validate = .ok ()) (hkey : t.hasKey = true)
    (hx : x.Answers t k u.style store) (hfull : t.HasFullKeys store) (hunique : t.UniqueKeys k store)
    (hlimit : 1 ≤ limit) :
    ∃ rows : List Row, rows.Perm store ∧
      rows.Pairwise (fun a b => rowCompare k t.key (t.cell a) (t.cell b) = .lt) ∧
      ∀ (state : σ) (result : Except Error (List Entity)),
        (Walk u x t limit false none state result ↔ result = rows.mapM (Entity.ofRow t)) ∧
        (Walk u x t limit true none state result ↔ result = rows.reverse.mapM (Entity.ofRow t)) := by
  have hdeclares := Table.declares_of_validate hvalid
  refine ⟨t.ordered k false store, Table.perm_ordered, ?_, fun state result => ⟨?_, ?_⟩⟩
  · refine (Table.pairwise_ordered hkey hfull hunique false).imp fun {a b} h => ?_
    unfold Table.Before at h
    rwa [rowCompare_sortKey] at h
  · exact walk_iff hdeclares hkey hx hfull hunique hlimit (List.nil_append _).symm (leaves_all hx)
      state result
  · rw [← Table.ordered_backward hkey hfull hunique]
    exact walk_iff hdeclares hkey hx hfull hunique hlimit (List.nil_append _).symm (leaves_all hx)
      state result

/-- Three rows in pages of two, under a key whose second column is descending. -/
theorem walk_visits_each_orders :
    let t : Table := { name := "orders",
                       columns := [⟨"shop", .string, none, none⟩, ⟨"no", .integer, none, none⟩],
                       key := [⟨"shop", .ascending⟩, ⟨"no", .descending⟩] }
    let u : Session := ⟨⟨⟨⟨2024, 2, 29, by decide⟩, .midnight⟩, "ann", "till", false, false⟩, {}⟩
    let store : List Row := [[.text "b", .integer 3], [.text "a", .integer 1], [.text "a", .integer 2]]
    let rows : List Row := [[.text "a", .integer 2], [.text "a", .integer 1], [.text "b", .integer 3]]
    let x := t.engine .plain store
    ∃ es, rows.mapM (Entity.ofRow t) = .ok es ∧ Walk u x t 2 false none () (.ok es) ∧
      Walk u x t 2 true none () (.ok es.reverse) := by
  intro t u store rows x
  have hvalid : t.validate = .ok () := by decide
  have hfull : t.HasFullKeys store := by
    intro row hrow column hcolumn
    simp only [store, List.mem_cons, List.not_mem_nil, or_false] at hrow
    simp only [t, Table.keyColumns, List.map_cons, List.map_nil, List.mem_cons, List.not_mem_nil,
      or_false] at hcolumn
    rcases hrow with rfl | rfl | rfl <;> rcases hcolumn with rfl | rfl <;>
      exact ⟨rfl, fun c hc => by cases hc; exact ⟨_, rfl, rfl⟩⟩
  have hanswers : x.Answers t .plain u.style store :=
    Table.engine_answers rfl hvalid (by decide) .plain (by decide)
  obtain ⟨rows', hperm, hsorted, hwalks⟩ := walk_visits_each hvalid rfl hanswers hfull (by decide)
    (by decide : 1 ≤ 2)
  obtain rfl : rows' = rows := by
    have hrows : rows.Perm store := by decide
    refine (hperm.trans hrows.symm).eq_of_pairwise (fun a b _ _ h h' => ?_) hsorted (by decide)
    rw [rowCompare_swap, h] at h'
    cases h'
  exact ⟨_, rfl, ((hwalks () _).1).2 rfl, ((hwalks () _).2).2 rfl⟩

end Session

end KeyedRows
