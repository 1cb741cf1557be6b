import KeyedRows.Proofs.Batch.Query
import KeyedRows.Proofs.Sql.Engine

/-!
# What a flush answers

* `startsWith` : a loaded row starts with the values of a request;
* `oneAnswer`, `manyAnswer` : the answer to a request of each kind from the rows that fit it;
* `resolve_ones`, `resolve_manies` : the rows of a reply that fit a request are its answer, whatever
  else waits;
* `Table.Stores` : rows that load, with key columns in canonical form;
* `mapM_ofRow_equality` : of the rows of all tuples, those that fit one are the rows of its query;
* `select_equality`, `first_equality` : what the query of a single tuple gives;
* `Ready.flush_eq` : a flush resolves the requests from the rows of all their tuples;
* `flush_transparent` : so a flush answers what a query for each call would.
-/

namespace KeyedRows

open Sql

/-- Every row loads, and its key columns hold what their types would store again. -/
structure Table.Stores (t : Table) (store : List Row) : Prop where
  loads : ∀ row ∈ store, ∃ e, Entity.ofRow t row = .ok e
  canonical : ∀ row ∈ store, ∀ column ∈ t.keyColumns, ∀ c, t.column? column = some c →
    c.type.Canonical (t.cell row column)

theorem Table.Stores.isReal_eq {t : Table} {store : List Row} (h : t.Stores store)
    (hdeclares : t.Declares) {row : Row} (hrow : row ∈ store) :
    ∀ column ∈ t.keyColumns, (t.cell row column).isReal = false := by
  intro column hcolumn
  obtain ⟨c, hc⟩ := hdeclares column hcolumn
  exact (h.canonical row hrow column hcolumn c hc).isReal_eq

namespace Batch

/-! ## Answers from rows -/

/-- The key columns of a loaded row start with some values. -/
def startsWith (t : Table) (key : List Value) (e : Entity) : Bool := key.isPrefixOf (keyOf t e)

/-- The answer for one row: the row, or an entity of nulls. -/
def oneAnswer (t : Table) : Option Entity → Answer Entity
  | some e => ⟨.found, e⟩
  | none => ⟨.missing, .nulls t⟩

/-- The answer is a row that was found, or, where none was, an entity with null in every column. -/
def AnswersOne (t : Table) (found : Option Entity) (a : Answer Entity) : Prop :=
  (∃ e, found = some e ∧ a = ⟨.found, e⟩) ∨
    found = none ∧ a.resolution = .missing ∧ a.value.table = t ∧ ∀ f ∈ a.value.fields, f = .set .null

theorem answersOne_oneAnswer (t : Table) (found : Option Entity) :
    AnswersOne t found (oneAnswer t found) := by
  cases found with
  | some e => exact .inl ⟨e, rfl, rfl⟩
  | none => exact .inr ⟨rfl, rfl, rfl, fun f hf => List.eq_of_mem_replicate hf⟩

theorem AnswersOne.of_some {t : Table} {e : Entity} {a : Answer Entity}
    (h : AnswersOne t (some e) a) : a = ⟨.found, e⟩ := by
  rcases h with ⟨_, ⟨⟩, ha⟩ | ⟨⟨⟩, _⟩
  exact ha

theorem AnswersOne.of_none {t : Table} {a : Answer Entity} (h : AnswersOne t none a) :
    a.resolution = .missing ∧ a.value.fields = List.replicate t.columns.length (.set .null) := by
  rcases h with ⟨_, ⟨⟩, _⟩ | ⟨_, hmissing, rfl, hnull⟩
  exact ⟨hmissing, List.eq_replicate_iff.2 ⟨a.value.fields_length, hnull⟩⟩

def manyAnswer (es : List Entity) : Answer (List Entity) :=
  ⟨if es.isEmpty then .missing else .found, es⟩

section
variable {t : Table} {key : List Value}

theorem foldl_takeOne_found (rows : List Entity) (e : Entity) :
    rows.foldl (fun a e => takeOne (keyOf t e) e key a) ⟨.found, e⟩ = ⟨.found, e⟩ := by
  induction rows with
  | nil => rfl
  | cons row rows ih => rw [List.foldl_cons, takeOne, Answer.isPending, if_neg (by simp), ih]

theorem foldl_takeOne (fresh : Entity) : ∀ rows : List Entity,
    rows.foldl (fun a e => takeOne (keyOf t e) e key a) ⟨.pending, fresh⟩ =
      ((rows.find? (startsWith t key)).map (Answer.mk .found)).getD ⟨.pending, fresh⟩
  | [] => rfl
  | row :: rows => by
    rw [List.foldl_cons, takeOne, List.find?_cons]
    cases hrow : startsWith t key row with
    | true =>
      rw [startsWith] at hrow
      rw [hrow, if_pos (by simp [Answer.isPending]), foldl_takeOne_found]
      rfl
    | false =>
      rw [startsWith] at hrow
      rw [hrow, if_neg (by simp), foldl_takeOne fresh rows]

theorem foldl_takeMany (res : Resolution) (es : List Entity) : ∀ rows : List Entity,
    rows.foldl (fun a e => takeMany (keyOf t e) e key a) ⟨res, es⟩ =
      ⟨if (rows.filter (startsWith t key)).isEmpty then res else .found,
        es ++ rows.filter (startsWith t key)⟩
  | [] => by simp
  | row :: rows => by
    rw [List.foldl_cons, takeMany]
    cases hrow : startsWith t key row with
    | true =>
      rw [List.filter_cons_of_pos hrow]
      rw [startsWith] at hrow
      rw [hrow, if_pos rfl, foldl_takeMany .found (es ++ [row]) rows]
      simp
    | false =>
      rw [List.filter_cons_of_neg (by simp [hrow])]
      rw [startsWith] at hrow
      rw [hrow, if_neg (by simp), foldl_takeMany res es rows]

end

variable {b : Batch}

/-- What no single row changes, handing over all of them does not change either. -/
theorem foldl_deliver_eq {α : Type*} {f : Batch → α} (hf : ∀ b e, f (deliver b e) = f b)
    (rows : List Entity) : f (rows.foldl deliver b) = f b := by
  induction rows generalizing b with
  | nil => rfl
  | cons row rows ih => rw [List.foldl_cons, ih, hf]

theorem table_foldl_deliver (rows : List Entity) : (rows.foldl deliver b).table = b.table :=
  foldl_deliver_eq (fun _ _ => rfl) rows

theorem ones_foldl_deliver (rows : List Entity) :
    (rows.foldl deliver b).ones =
      (rows.map fun e => takeOne (keyOf b.table e) e).foldl (fun d f => d.mapWaiting f) b.ones := by
  induction rows generalizing b with
  | nil => rfl
  | cons row rows ih => rw [List.foldl_cons, ih]; rfl

theorem manies_foldl_deliver (rows : List Entity) :
    (rows.foldl deliver b).manies =
      (rows.map fun e => takeMany (keyOf b.table e) e).foldl (fun d f => d.mapWaiting f) b.manies := by
  induction rows generalizing b with
  | nil => rfl
  | cons row rows ih => rw [List.foldl_cons, ih]; rfl

/-- The last change of an answer for one row. -/
def closeOne (t : Table) (_ : List Value) (a : Answer Entity) : Answer Entity :=
  if a.isPending then ⟨.missing, .nulls t⟩ else a

def closeMany (_ : List Value) (a : Answer (List Entity)) : Answer (List Entity) :=
  if a.isPending then ⟨.missing, a.value⟩ else a

theorem ones_resolve (rows : List Entity) : (b.resolve rows).ones =
    b.ones.settle (rows.map (fun e => takeOne (keyOf b.table e) e) ++ [closeOne b.table]) := by
  rw [Desk.settle, List.foldl_append, ← ones_foldl_deliver, ← table_foldl_deliver rows]
  rfl

theorem manies_resolve (rows : List Entity) : (b.resolve rows).manies =
    b.manies.settle (rows.map (fun e => takeMany (keyOf b.table e) e) ++ [closeMany]) := by
  rw [Desk.settle, List.foldl_append, ← manies_foldl_deliver]
  rfl

/-- The answer to a request for one row: the first row of the reply that fits. -/
theorem resolve_ones (h : b.Ready) {r : Request (List Value)} (hr : r ∈ b.ones.waiting)
    (rows : List Entity) : (b.resolve rows).ones.answers[r.handle]? =
      some (oneAnswer b.table (rows.filter (startsWith b.table r.key)).head?) := by
  rw [ones_resolve, Desk.getElem?_settle h.ones.nodup hr, h.ones.pending r hr, Option.map_some,
    List.foldl_append, List.foldl_map, foldl_takeOne, ← List.head?_filter]
  cases (rows.filter (startsWith b.table r.key)).head? <;> rfl

/-- The answer to a request for many rows: the rows of the reply that fit. -/
theorem resolve_manies (h : b.Ready) {r : Request (List Value)} (hr : r ∈ b.manies.waiting)
    (rows : List Entity) : (b.resolve rows).manies.answers[r.handle]? =
      some (manyAnswer (rows.filter (startsWith b.table r.key))) := by
  rw [manies_resolve, Desk.getElem?_settle h.manies.nodup hr, h.manies.pending r hr,
    Option.map_some, List.foldl_append, List.foldl_map, foldl_takeMany, List.nil_append, manyAnswer]
  cases (rows.filter (startsWith b.table r.key)).isEmpty <;> rfl

/-! ## What a flush leaves -/

section
variable (b : Batch) (rows : List Entity)

theorem table_resolve : (b.resolve rows).table = b.table := table_foldl_deliver rows

theorem style_resolve : (b.resolve rows).style = b.style := by
  show (rows.foldl deliver b).style = b.style
  exact foldl_deliver_eq (fun _ _ => rfl) rows

theorem poisoned_resolve : (b.resolve rows).poisoned = b.poisoned := by
  show (rows.foldl deliver b).poisoned = b.poisoned
  exact foldl_deliver_eq (fun _ _ => rfl) rows

theorem stats_resolve : (b.resolve rows).stats = { b.stats with flushes := b.stats.flushes + 1 } := by
  have hstats : (rows.foldl deliver b).stats = b.stats := foldl_deliver_eq (fun _ _ => rfl) rows
  rw [← hstats]
  rfl

theorem handles_resolve (kind : RequestKind) : (b.resolve rows).handles kind = b.handles kind := by
  unfold handles
  rw [ones_resolve, manies_resolve, Desk.length_answers_settle, Desk.length_answers_settle]

end

theorem Ready.countQuery (h : b.Ready) : b.countQuery.Ready :=
  ⟨h.poisoned, h.ones, h.manies, h.taken⟩

theorem Ready.accurate_ones (h : b.Ready) (hones : b.ones.Accurate (.new b.table))
    (rows : List Entity) : (b.resolve rows).ones.Accurate (.new b.table) := by
  rw [ones_resolve]
  refine hones.settle fun r hr a ha => ?_
  rw [← ones_resolve, resolve_ones h hr, Option.some.injEq] at ha
  rw [← ha]
  cases (rows.filter (startsWith b.table r.key)).head? <;> rfl

theorem Ready.accurate_manies (h : b.Ready) (hmanies : b.manies.Accurate []) (rows : List Entity) :
    (b.resolve rows).manies.Accurate [] := by
  rw [manies_resolve]
  refine hmanies.settle fun r hr a ha => ?_
  rw [← manies_resolve, resolve_manies h hr, Option.some.injEq, manyAnswer] at ha
  rw [← ha]
  cases (rows.filter (startsWith b.table r.key)).isEmpty <;> rfl

/-! ## One tuple and many -/

def equality (t : Table) (tuple : List Value) : Predicate :=
  .all (KeyRange.equalities t.key tuple)

section
variable {t : Table} {k : Collation} {style : Style} {store : List Row}
  (hstores : t.Stores store) (hdeclares : t.Declares) (hexact : k.Exact t.keyColumns)
include hstores hdeclares hexact

theorem truth_equality {tuple key : List Value} (htakes : t.Takes tuple key) {row : Row}
    (hrow : row ∈ store) : (equality t tuple).truth t style k (t.cell row) = .yes ↔
      t.Matches row t.keyColumns tuple :=
  KeyRange.eval_equalities hexact (hstores.isReal_eq hdeclares hrow) htakes.2.bindsAll.1

theorem truth_oneOf {keys : List (List Value)} (htaken : ∀ key ∈ keys, ∃ tuple, t.Takes tuple key)
    {row : Row} (hrow : row ∈ store) :
    (KeyRange.oneOf t.key keys).truth t style k (t.cell row) = .yes ↔
      ∃ key ∈ keys, t.Matches row t.keyColumns key := by
  refine KeyRange.eval_oneOf hexact (hstores.isReal_eq hdeclares hrow) fun key hkey => ?_
  obtain ⟨tuple, htakes⟩ := htaken key hkey
  exact htakes.2.bindsAll.2

omit hdeclares hexact in
/-- A loaded row starts with the key of a tuple exactly if the row matches the tuple. -/
theorem startsWith_iff {tuple key : List Value} (htakes : t.Takes tuple key) {row : Row}
    (hrow : row ∈ store) {e : Entity} (he : Entity.ofRow t row = .ok e) :
    startsWith t key e = true ↔ t.Matches row t.keyColumns tuple :=
  isPrefixOf_map_get? he htakes.2 (hstores.canonical row hrow)

/-- The rows of all tuples that match one of them are the rows of that tuple alone. -/
theorem filter_answer_oneOf {keys : List (List Value)}
    (htaken : ∀ key ∈ keys, ∃ tuple, t.Takes tuple key) {tuple key : List Value} (hkey : key ∈ keys)
    (htakes : t.Takes tuple key) :
    (t.answer k false style store (some (KeyRange.oneOf t.key keys)) none).filter
        (fun row => (equality t tuple).truth t style k (t.cell row) = .yes) =
      t.answer k false style store (some (equality t tuple)) none := by
  refine Table.filter_answer fun row hrow hyes => ?_
  rw [truth_equality hstores hdeclares hexact htakes hrow] at hyes
  rw [truth_oneOf hstores hdeclares hexact htaken hrow]
  exact ⟨key, hkey, (matches_of_coerces htakes.2).2 hyes⟩

theorem mapM_ofRow_equality {keys : List (List Value)}
    (htaken : ∀ key ∈ keys, ∃ tuple, t.Takes tuple key) {tuple key : List Value} (hkey : key ∈ keys)
    (htakes : t.Takes tuple key) {es : List Entity}
    (hes : (t.answer k false style store (some (KeyRange.oneOf t.key keys)) none).mapM
      (Entity.ofRow t) = .ok es) :
    (t.answer k false style store (some (equality t tuple)) none).mapM (Entity.ofRow t) =
      .ok (es.filter (startsWith t key)) := by
  rw [← filter_answer_oneOf hstores hdeclares hexact htaken hkey htakes, mapM_eq_ok]
  have hrows := (List.forall₂_and_left _ _).2 ⟨fun row => Table.mem_answer, mapM_eq_ok.1 hes⟩
  have hsame : ∀ row e, row ∈ store ∧ Entity.ofRow t row = .ok e →
      (decide ((equality t tuple).truth t style k (t.cell row) = .yes) = true ↔
        startsWith t key e = true) := by
    rintro row e ⟨hrow, he⟩
    rw [decide_eq_true_eq, truth_equality hstores hdeclares hexact htakes hrow,
      startsWith_iff hstores htakes hrow he]
  exact (List.rel_filter (fun row e h => hsame row e h) hrows).imp fun _ _ h => h.2

end

/-! ## The query of one tuple -/

section
variable {σ : Type} {x : Storage σ} {u : Session} {t : Table} {k : Collation} {store : List Row}

theorem condition?_eq {tuple : List Value} (hfits : KeyRange.Fits t.key tuple) :
    t.condition? (some (.eq tuple)) = some (some (equality t tuple)) := by
  rw [Table.condition?, KeyRange.predicate?, if_pos hfits]
  rfl

theorem bindable_equality {tuple key : List Value} (htakes : t.Takes tuple key) :
    (equality t tuple).Bindable t :=
  Predicate.bindable_merge .and (KeyRange.bindable_equalities htakes.2.bindsAll.1)

theorem select_equality (hx : x.Answers t k u.style store) {tuple key : List Value}
    (htakes : t.Takes tuple key) (limit : Option Nat) (state : σ) :
    (u.select x t { range := some (.eq tuple), limit := limit } state).1 =
      (t.answer k false u.style store (some (equality t tuple)) limit).mapM (Entity.ofRow t) := by
  have hcondition := condition?_eq htakes.1
  let q : Query := { range := some (.eq tuple), limit := limit }
  obtain ⟨s, hs⟩ : ∃ s, t.select u.style q = .ok (some s) := by
    obtain ⟨s, hs, _⟩ := Table.select_of_bindable (q := q) hcondition (bindable_equality htakes)
    exact ⟨s, hs⟩
  rw [Session.select_eq hx hs, Query.answer, hcondition]

theorem first_equality (hx : x.Answers t k u.style store) {tuple key : List Value}
    (htakes : t.Takes tuple key) {es : List Entity}
    (hes : (t.answer k false u.style store (some (equality t tuple)) none).mapM (Entity.ofRow t) =
      .ok es) (state : σ) : (u.first x t (.eq tuple) state).1 = .ok es.head? := by
  have hone : (u.select x t (.first (.eq tuple)) state).1 = .ok (es.take 1) := by
    rw [Query.first, select_equality hx htakes, Table.answer_one, mapM_eq_ok]
    exact List.forall₂_take 1 (mapM_eq_ok.1 hes)
  have hfirst : (u.first x t (.eq tuple) state).1 =
      ((u.select x t (.first (.eq tuple)) state).1).map List.head? := rfl
  rw [hfirst, hone]
  cases es <;> rfl

end

/-! ## Flushing -/

/-- The answer to a call is what a query for its tuple alone gives, in whatever state storage is. -/
def Answered {σ : Type} (b : Batch) (x : Storage σ) (u : Session) (t : Table) (handle : Nat) :
    Call → Prop
  | .one tuple => ∃ found a, (∀ state, (u.first x t (.eq tuple) state).1 = .ok found) ∧
      b.ones.answers[handle]? = some a ∧ AnswersOne t found a
  | .many tuple => ∃ es, (∀ state, (u.select x t { range := some (.eq tuple) } state).1 = .ok es) ∧
      b.manies.answers[handle]? = some (manyAnswer es)

section
variable {σ : Type} {x : Storage σ} {u : Session} {k : Collation} {store : List Row} {b : Batch}

/-- A flush resolves the waiting requests from the rows of all their tuples. -/
theorem Ready.flush_eq (h : b.Ready) (hpending : b.pending ≠ 0)
    (hx : x.Answers b.table k b.style store) (hstores : b.table.Stores store) (state : σ) :
    ∃ es, (b.table.answer k false b.style store (some (KeyRange.oneOf b.table.key b.tuples)) none).mapM
        (Entity.ofRow b.table) = .ok es ∧
      (b.flush x state).1 = (.ok (), b.countQuery.resolve es) := by
  obtain ⟨es, hes⟩ : ∃ es, (b.table.answer k false b.style store
      (some (KeyRange.oneOf b.table.key b.tuples)) none).mapM (Entity.ofRow b.table) = .ok es :=
    exists_mapM_eq_ok fun row hrow => hstores.loads row (Table.mem_answer hrow)
  refine ⟨es, hes, ?_⟩
  obtain ⟨s, hselect, hwhere⟩ := h.exists_select hpending
  have hrows : (x.rows s state).1 = .ok (b.table.answer k false b.style store
      (some (KeyRange.oneOf b.table.key b.tuples)) none) := by
    show Storage.describe s (x.fetch s state).1 = _
    rw [hx b.query s state hselect, Query.answer, h.condition?_query hpending]
    rfl
  rw [h.flush_of_selectWhere hpending hwhere, received, hrows]
  simp only [Except.bind, hes]

/-- **A flush answers what a query for each call would.** Whatever calls share the flush, each that
was taken gets the rows that a query for its tuple alone gives, in the same order, and a call for one
row gets the first of them. -/
theorem flush_transparent (hvalid : b.table.validate = .ok ()) (hstores : b.table.Stores store)
    (hexact : k.Exact b.table.keyColumns) (hx : x.Answers b.table k u.style store)
    (hstyle : b.style = u.style) (hpoisoned : b.poisoned = false) (hpending : b.pending = 0)
    (calls : List Call) (state : σ) :
    ∃ after, ((b.requestAll calls).2.flush x state).1 = (.ok (), after) ∧
      ∀ call handle, (call, .ok handle) ∈ calls.zip (b.requestAll calls).1 →
        after.Answered x u b.table handle call := by
  obtain ⟨hready, hext, hwaits⟩ := (ready_of_pending hpoisoned hpending).requestAll calls
  generalize (b.requestAll calls).2 = full at hready hext hwaits ⊢
  have hdeclares := Table.declares_of_validate hvalid
  rw [← hext.table] at hdeclares hstores hexact hx ⊢
  have hfull : full.style = u.style := hext.style.trans hstyle
  by_cases hnone : full.pending = 0
  · refine ⟨full, ?_, fun call handle hmem => ?_⟩
    · rw [flush, if_neg (by simp [hready.poisoned]), if_pos hnone]
    · exact absurd hnone (hwaits call handle hmem).pending_ne_zero
  · obtain ⟨es, hes, hflush⟩ := hready.flush_eq hnone (by rwa [hfull]) hstores state
    refine ⟨_, hflush, fun call handle hmem => ?_⟩
    have hcounted : full.countQuery.Ready :=
      ⟨hready.poisoned, hready.ones, hready.manies, hready.taken⟩
    have htaken : ∀ key ∈ full.tuples, ∃ tuple, full.table.Takes tuple key :=
      fun key hkey => hready.taken key (mem_tuples.1 hkey)
    rw [hfull] at hes
    cases call with
    | one tuple =>
      obtain ⟨key, htakes, hr⟩ := hwaits (.one tuple) handle hmem
      have hkey : key ∈ full.tuples :=
        mem_tuples.2 (List.mem_map_of_mem (List.mem_append_left _ hr))
      have hrows := mapM_ofRow_equality hstores hdeclares hexact htaken hkey htakes hes
      exact ⟨_, _, first_equality hx htakes hrows, resolve_ones hcounted hr es,
        answersOne_oneAnswer _ _⟩
    | many tuple =>
      obtain ⟨key, htakes, hr⟩ := hwaits (.many tuple) handle hmem
      have hkey : key ∈ full.tuples :=
        mem_tuples.2 (List.mem_map_of_mem (List.mem_append_right _ hr))
      have hrows := mapM_ofRow_equality hstores hdeclares hexact htaken hkey htakes hes
      refine ⟨es.filter (startsWith full.table key), fun state => ?_,
        resolve_manies hcounted hr es⟩
      rw [select_equality hx htakes, hrows]

/-- Calls of both kinds for one shop, of one and of two values, and a call for a shop that has no order. -/
theorem flush_transparent_orders :
    let t : Table := { name := "orders",
                       columns := [⟨"shop", .string, none, none⟩, ⟨"no", .integer, none, none⟩],
                       key := [⟨"shop", .ascending⟩, ⟨"no", .descending⟩] }
    let u : Session := ⟨⟨⟨⟨2024, 2, 29, by decide⟩, .midnight⟩, "ann", "till", false, false⟩, {}⟩
    let store : List Row := [[.text "a", .integer 1], [.null, .integer 3], [.text "a", .integer 2]]
    let x := t.engine .plain store
    let calls : List Call :=
      [.many [.string "a"], .one [.string "a", .string "2"], .one [.null], .one [.string "b"]]
    t.validate = .ok () ∧ t.Stores store ∧
      ∃ after, (((u.batch t).requestAll calls).2.flush x ()).1 = (.ok (), after) ∧
        after.Answered x u t 0 (.many [.string "a"]) ∧
        after.Answered x u t 0 (.one [.string "a", .string "2"]) ∧
        after.Answered x u t 1 (.one [.null]) ∧
        ∃ a, after.ones.answers[2]? = some a ∧ a.resolution = .missing ∧
          a.value.fields = [.set .null, .set .null] := by
  intro t u store x calls
  have hvalid : t.validate = .ok () := by decide
  have hstores : t.Stores store := by
    refine ⟨fun row hrow => ?_, fun row hrow column hcolumn c hc => ?_⟩
    · simp only [store, List.mem_cons, List.not_mem_nil, or_false] at hrow
      rcases hrow with rfl | rfl | rfl <;> exact ⟨_, rfl⟩
    · simp only [store, List.mem_cons, List.not_mem_nil, or_false] at hrow
      simp only [t, Table.keyColumns, List.map_cons, List.map_nil, List.mem_cons, List.not_mem_nil,
        or_false] at hcolumn
      rcases hrow with rfl | rfl | rfl <;> rcases hcolumn with rfl | rfl <;> cases hc <;>
        exact ⟨_, rfl, rfl⟩
  have hresults : ((u.batch t).requestAll calls).1 = [.ok 0, .ok 0, .ok 1, .ok 2] := by decide
  have hanswers : x.Answers t .plain u.style store :=
    Table.engine_answers rfl hvalid (by decide) .plain (by decide)
  have hempty : (u.batch t).pending = 0 := rfl
  obtain ⟨after, hflush, hanswered⟩ :=
    flush_transparent hvalid hstores (Collation.plain_exact _) hanswers rfl rfl hempty calls ()
  rw [hresults] at hanswered
  have htakes : t.Takes [.string "b"] [.string "b"] := ⟨by decide, .cons rfl rfl (.nil _)⟩
  have hnobody : (t.answer .plain false u.style store (some (equality t [.string "b"])) none).mapM
      (Entity.ofRow t) = .ok [] := by decide
  have hlast : after.Answered x u t 2 (.one [.string "b"]) := hanswered _ _ (by simp [calls])
  obtain ⟨found, a, hfirst, ha, hanswer⟩ := hlast
  obtain rfl : none = found :=
    Except.ok.inj ((first_equality hanswers htakes hnobody ()).symm.trans (hfirst ()))
  exact ⟨hvalid, hstores, after, hflush, hanswered _ _ (by simp [calls]),
    hanswered _ _ (by simp [calls]), hanswered _ _ (by simp [calls]), a, ha, hanswer.of_none⟩

end

end Batch
end KeyedRows
